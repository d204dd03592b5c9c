import EngineeringIntelligence.Framework.Sorted
import EngineeringIntelligence.Framework.Table
import EngineeringIntelligence.Framework.Worklist
import Mathlib.Data.List.Lex
import Mathlib.Data.String.Basic

namespace EngineeringIntelligence.Topology

open EngineeringIntelligence.Framework

/-! The topology store: nodes and their dependencies, and what is read from them. -/

structure TopologyNode where
  nodeId : String
  kind : String
  name : String
  serviceId : Option String
  owner : Option String
  tier : Int
  environment : Option String
  metadata : List (String × String)

structure TopologyEdge where
  sourceId : String
  targetId : String
  relation : String
  deriving DecidableEq, Repr

/-- The two tables of `SqliteTopologyStore`; the key of an edge is the whole edge. -/
structure SqliteTopologyStore where
  nodes : Table TopologyNode.nodeId
  links : Table (id : TopologyEdge → TopologyEdge)

/-- A node of the service graph. -/
structure ServiceNode where
  name : String
  tier : Int
  owner : Option String
  dependencies : List String

structure BlastRadius where
  originIds : List String
  impactedIds : List String
  impactedServices : List String

namespace SqliteTopologyStore

def empty : SqliteTopologyStore := ⟨Table.empty, Table.empty⟩

variable (store : SqliteTopologyStore)

def upsertNode (node : TopologyNode) : SqliteTopologyStore := { store with nodes := store.nodes.put node }

def upsertEdge (edge : TopologyEdge) : SqliteTopologyStore := { store with links := store.links.put edge }

def getNode (nodeId : String) : Option TopologyNode := store.nodes.get nodeId

def edges : List TopologyEdge := store.links.rows

/-- What depends on a node. -/
def dependents (nodeId : String) : List String :=
  (store.edges.filter (·.targetId = nodeId)).map (·.sourceId)

/-- `blast_radius`: edges point from the dependent to what it depends on. -/
def blastRadius (originIds : List String) : BlastRadius :=
  let seen := worklist store.dependents (originIds.length + store.edges.length) originIds originIds
  let services := seen.filterMap fun nodeId => (store.getNode nodeId).bind fun node =>
    node.serviceId.filter (· ≠ "")
  ⟨sortedSet originIds, sortedSet seen, sortedSet services⟩

/-- `to_service_graph`: the nodes in the order they are added. -/
def toServiceGraph : List ServiceNode :=
  let rows := store.nodes.rows.filter (·.kind = "service")
  let serviceIds := rows.map (·.nodeId)
  rows.map fun row =>
    { name := row.name, tier := row.tier, owner := row.owner
      dependencies := sortedSet ((store.edges.filter fun edge => edge.relation = "depends-on" ∧
        edge.sourceId = row.nodeId ∧ edge.targetId ∈ serviceIds).map (·.targetId)) }

theorem getNode_upsertNode (node : TopologyNode) (nodeId : String) :
    (store.upsertNode node).getNode nodeId = if nodeId = node.nodeId then some node else store.getNode nodeId :=
  Table.get_put store.nodes node nodeId

/-- A node is impacted exactly when a chain of dependents leads to it. -/
theorem mem_impactedIds {originIds : List String} {nodeId : String} :
    nodeId ∈ (store.blastRadius originIds).impactedIds ↔
      ∃ origin ∈ originIds, Relation.ReflTransGen (fun a b => b ∈ store.dependents a) origin nodeId := by
  have hnodes : ∀ x, ∀ y ∈ store.dependents x, y ∈ store.edges.map (·.sourceId) := by
    intro x y hy
    obtain ⟨edge, hedge, hsource⟩ := List.mem_map.mp hy
    exact List.mem_map.mpr ⟨edge, (List.mem_filter.mp hedge).1, hsource⟩
  unfold blastRadius
  rw [mem_sortedSet]
  exact mem_worklist hnodes (fun _ => Iff.rfl) (by rw [List.length_map])

end SqliteTopologyStore

/-! ### The service graph -/

/-- The graph is a dictionary: of nodes with one name the last stays. -/
def serviceNamed (graph : List ServiceNode) (name : String) : Option ServiceNode :=
  graph.reverse.find? (·.name = name)

/-- `max_tier`: the smallest tier among services that the graph has, and 3 without any. -/
def maxTier (graph : List ServiceNode) (services : List String) : Int :=
  match services.filterMap fun s => (serviceNamed graph s).map (·.tier) with
  | [] => 3
  | tier :: tiers => tiers.foldl min tier

theorem maxTier_le {graph : List ServiceNode} {services : List String} {service : String} {tier : Int}
    (hservice : service ∈ services) (htier : (serviceNamed graph service).map (·.tier) = some tier) :
    maxTier graph services ≤ tier := by
  have hmem : tier ∈ services.filterMap fun s => (serviceNamed graph s).map (·.tier) :=
    List.mem_filterMap.mpr ⟨service, hservice, htier⟩
  have hfold : ∀ (tiers : List Int) (first : Int), tiers.foldl min first ≤ first ∧
      ∀ t ∈ tiers, tiers.foldl min first ≤ t := by
    intro tiers
    induction tiers with
    | nil => simp
    | cons next rest ih =>
      intro first
      obtain ⟨hfirst, hrest⟩ := ih (min first next)
      rw [List.foldl_cons, List.forall_mem_cons]
      exact ⟨hfirst.trans (min_le_left _ _), hfirst.trans (min_le_right _ _), hrest⟩
  unfold maxTier
  cases htiers : services.filterMap fun s => (serviceNamed graph s).map (·.tier) with
  | nil =>
    rw [htiers] at hmem
    simp at hmem
  | cons first rest =>
    rw [htiers] at hmem
    rcases List.mem_cons.mp hmem with heq | hrest
    · exact heq ▸ (hfold rest first).1
    · exact (hfold rest first).2 tier hrest

theorem foldl_min_mem (tiers : List Int) (first : Int) : tiers.foldl min first ∈ first :: tiers := by
  induction tiers generalizing first with
  | nil => exact List.mem_cons_self
  | cons next rest ih =>
    rw [List.foldl_cons]
    rcases List.mem_cons.mp (ih (min first next)) with h | h
    · rw [h]
      rcases min_choice first next with hmin | hmin <;> simp [hmin]
    · exact List.mem_cons_of_mem first (List.mem_cons_of_mem next h)

/-- Unless no service has one, the tier is that of some service. -/
theorem maxTier_attained (graph : List ServiceNode) (services : List String) :
    maxTier graph services = 3 ∨
      ∃ s ∈ services, (serviceNamed graph s).map (·.tier) = some (maxTier graph services) := by
  unfold maxTier
  cases htiers : services.filterMap fun s => (serviceNamed graph s).map (·.tier) with
  | nil => exact .inl rfl
  | cons first rest =>
    have hmem : rest.foldl min first ∈ services.filterMap fun s => (serviceNamed graph s).map (·.tier) := by
      rw [htiers]
      exact foldl_min_mem rest first
    exact .inr (List.mem_filterMap.mp hmem)

end EngineeringIntelligence.Topology
