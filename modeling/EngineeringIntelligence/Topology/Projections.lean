import EngineeringIntelligence.Framework.Effect
import EngineeringIntelligence.Topology.Store
import Mathlib.Data.Rat.Defs

namespace EngineeringIntelligence.Topology

open EngineeringIntelligence.Framework

/-! What the projections write to a topology store. -/

structure ServiceMetadata where
  service : String
  owner : Option String
  tier : Int
  dependencies : List String

structure ApiDependency where
  consumer : String
  provider : String
  protocol : String
  operation : Option String

structure DataDependency where
  service : String
  resourceId : String
  kind : String
  name : String
  environment : String
  access : String

structure QueueDependency where
  service : String
  queueId : String
  name : String
  environment : String
  role : String

/-- A service level objective: the number, and the text that `str` makes of it. -/
structure SloTarget where
  value : ℚ
  text : String

structure ServiceGovernance where
  serviceId : String
  owner : String
  tier : Int
  sloTarget : Option SloTarget
  repo : Option String
  metadata : List (String × String)

/-- The node of a service that is only mentioned: no owner, and the default tier. -/
def mentioned (serviceId : String) : TopologyNode :=
  { nodeId := serviceId, kind := "service", name := serviceId, serviceId := some serviceId, owner := none, tier := 3
    environment := none, metadata := [] }

/-- `_ensure_service`. -/
def ensureService (store : SqliteTopologyStore) (serviceId : String) : SqliteTopologyStore :=
  if (store.getNode serviceId).isNone then store.upsertNode (mentioned serviceId) else store

def ServiceMetadata.node (item : ServiceMetadata) : TopologyNode :=
  { mentioned item.service with owner := item.owner, tier := item.tier }

/-- A dependency of `project_services`: its node, unless the batch declares it, and the edge. -/
def projectDependency (declared : List String) (service : String) (store : SqliteTopologyStore)
    (dependency : String) : SqliteTopologyStore :=
  (if dependency ∉ declared then store.upsertNode (mentioned dependency) else store).upsertEdge
    ⟨service, dependency, "depends-on"⟩

/-- `project_services`. -/
def projectServices (store : SqliteTopologyStore) (metadata : List ServiceMetadata) : SqliteTopologyStore :=
  let declared := metadata.map (·.service)
  metadata.foldl (fun store item => item.dependencies.foldl (projectDependency declared item.service) store)
    (metadata.foldl (fun store item => store.upsertNode item.node) store)

def ApiDependency.operationNode (dep : ApiDependency) (operation : String) : TopologyNode :=
  { nodeId := "api:" ++ dep.provider ++ ":" ++ operation, kind := "api-operation", name := operation
    serviceId := some dep.provider, owner := none, tier := 3, environment := none
    metadata := [("protocol", dep.protocol)] }

def projectApiDependency (store : SqliteTopologyStore) (dep : ApiDependency) : SqliteTopologyStore :=
  let store := ((ensureService (ensureService store dep.consumer) dep.provider).upsertEdge
    ⟨dep.consumer, dep.provider, "calls-api"⟩)
  match dep.operation.filter (· ≠ "") with
  | none => store
  | some operation =>
    let node := dep.operationNode operation
    ((store.upsertNode node).upsertEdge ⟨dep.consumer, node.nodeId, "calls"⟩).upsertEdge
      ⟨node.nodeId, dep.provider, "belongs-to"⟩

/-- `project_api_dependencies`. -/
def projectApiDependencies (store : SqliteTopologyStore) (dependencies : List ApiDependency) : SqliteTopologyStore :=
  dependencies.foldl projectApiDependency store

def DataDependency.node (dep : DataDependency) : TopologyNode :=
  { nodeId := dep.resourceId, kind := dep.kind, name := dep.name, serviceId := some dep.service, owner := none
    tier := 3, environment := some dep.environment, metadata := [("access", dep.access)] }

def projectDataDependency (store : SqliteTopologyStore) (dep : DataDependency) : SqliteTopologyStore :=
  ((ensureService store dep.service).upsertNode dep.node).upsertEdge ⟨dep.service, dep.resourceId, "uses-data"⟩

/-- `project_data_dependencies`. -/
def projectDataDependencies (store : SqliteTopologyStore) (dependencies : List DataDependency) : SqliteTopologyStore :=
  dependencies.foldl projectDataDependency store

def QueueDependency.node (dep : QueueDependency) : TopologyNode :=
  { nodeId := dep.queueId, kind := "queue", name := dep.name, serviceId := none, owner := none, tier := 3
    environment := some dep.environment, metadata := [] }

/-- One round of `project_queue_dependencies`: the role is checked after the nodes are written. -/
def projectQueueDependency (dep : QueueDependency) (store : SqliteTopologyStore) :
    SqliteTopologyStore × Except String Unit :=
  let store := ensureService store dep.service
  let store := if (store.getNode dep.queueId).isNone then store.upsertNode dep.node else store
  let relation := if dep.role = "producer" then "produces-to" else "consumes-from"
  if dep.role ∉ ["producer", "consumer"] then (store, .error "queue role must be producer or consumer")
  else (store.upsertEdge ⟨dep.service, dep.queueId, relation⟩, .ok ())

/-- `project_queue_dependencies`. -/
def projectQueueDependencies (store : SqliteTopologyStore) (dependencies : List QueueDependency) :
    SqliteTopologyStore × Except String Unit :=
  sweep projectQueueDependency dependencies store

/-- `combined[key] = value` -/
def setEntry (entries : List (String × String)) (key value : String) : List (String × String) :=
  if key ∈ entries.map (·.1) then entries.map fun e => if e.1 = key then (key, value) else e
  else entries ++ [(key, value)]

/-- What `project_service_governance` checks. -/
def ServiceGovernance.problem (g : ServiceGovernance) : Option String :=
  if g.tier < 1 ∨ g.tier > 4 then some "service tier must be 1..4"
  else
    match g.sloTarget with
    | none => none
    | some target => if ¬ (0 < target.value ∧ target.value ≤ 1) then some "SLO target must be in (0, 1]" else none

def ServiceGovernance.node (g : ServiceGovernance) : TopologyNode :=
  let withTarget := g.sloTarget.elim g.metadata fun target => setEntry g.metadata "slo_target" target.text
  let combined := (g.repo.filter (· ≠ "")).elim withTarget (setEntry withTarget "repository")
  { mentioned g.serviceId with owner := some g.owner, tier := g.tier, metadata := combined }

/-- `project_service_governance`. -/
def projectServiceGovernance (store : SqliteTopologyStore) (g : ServiceGovernance) :
    SqliteTopologyStore × Except String Unit :=
  match g.problem with
  | some message => (store, .error message)
  | none => (store.upsertNode g.node, .ok ())

/-- `impacted_owners`: of each impacted node its own owner, and that of its service. -/
def impactedOwners (store : SqliteTopologyStore) (originIds : List String) : List String :=
  sortedSet ((store.blastRadius originIds).impactedIds.flatMap fun nodeId =>
    match store.getNode nodeId with
    | none => []
    | some node =>
      (node.owner.filter (· ≠ "")).toList ++
        (((node.serviceId.filter (· ≠ "")).bind store.getNode).bind fun service =>
          service.owner.filter (· ≠ "")).toList)

/-! ### Calls -/

inductive ProjectionCall where
  | services (metadata : List ServiceMetadata)
  | governance (g : ServiceGovernance)
  | apis (dependencies : List ApiDependency)
  | data (dependencies : List DataDependency)
  | queues (dependencies : List QueueDependency)

def SqliteTopologyStore.step (store : SqliteTopologyStore) (call : ProjectionCall) :
    SqliteTopologyStore × Except String Unit :=
  match call with
  | .services metadata => (projectServices store metadata, .ok ())
  | .governance g => projectServiceGovernance store g
  | .apis dependencies => (projectApiDependencies store dependencies, .ok ())
  | .data dependencies => (projectDataDependencies store dependencies, .ok ())
  | .queues dependencies => projectQueueDependencies store dependencies

/-! ### What becomes of a node -/

/-- The last of some nodes that is written under an id. -/
def lastWrite (nodes : List TopologyNode) (nodeId : String) : Option TopologyNode :=
  (nodes.filter (·.nodeId = nodeId)).getLast?

theorem lastWrite_append (first second : List TopologyNode) (nodeId : String) :
    lastWrite (first ++ second) nodeId = (lastWrite second nodeId).or (lastWrite first nodeId) := by
  unfold lastWrite
  rw [List.filter_append, List.getLast?_append]

theorem lastWrite_mem {nodes : List TopologyNode} {nodeId : String} {node : TopologyNode}
    (h : lastWrite nodes nodeId = some node) : node ∈ nodes ∧ node.nodeId = nodeId := by
  have hmem := List.mem_of_getLast? h
  rw [List.mem_filter] at hmem
  exact ⟨hmem.1, by simpa using hmem.2⟩

theorem lastWrite_eq_none_iff {nodes : List TopologyNode} {nodeId : String} :
    lastWrite nodes nodeId = none ↔ ∀ node ∈ nodes, node.nodeId ≠ nodeId := by
  unfold lastWrite
  rw [List.getLast?_eq_none_iff, List.filter_eq_nil_iff]
  simp

/-- The nodes are written over whatever was there, and every other node that was there stays. -/
def Writes (store store' : SqliteTopologyStore) (nodes : List TopologyNode) : Prop :=
  ∀ nodeId node, (lastWrite nodes nodeId).or (store.getNode nodeId) = some node → store'.getNode nodeId = some node

theorem Writes.refl (store : SqliteTopologyStore) : Writes store store [] := fun _ _ h => h

theorem Writes.trans {store middle store' : SqliteTopologyStore} {first second : List TopologyNode}
    (hfirst : Writes store middle first) (hsecond : Writes middle store' second) :
    Writes store store' (first ++ second) := by
  intro nodeId node h
  rw [lastWrite_append] at h
  apply hsecond
  cases hlast : lastWrite second nodeId with
  | some written =>
    rw [hlast] at h
    exact h
  | none =>
    rw [hlast] at h
    exact hfirst nodeId node h

theorem writes_upsertNode (store : SqliteTopologyStore) (node : TopologyNode) :
    Writes store (store.upsertNode node) [node] := by
  intro nodeId written h
  rw [SqliteTopologyStore.getNode_upsertNode]
  by_cases hid : node.nodeId = nodeId
  · rw [if_pos hid.symm]
    simpa [lastWrite, hid] using h
  · rw [if_neg (Ne.symm hid)]
    simpa [lastWrite, hid] using h

theorem writes_upsertEdge (store : SqliteTopologyStore) (edge : TopologyEdge) :
    Writes store (store.upsertEdge edge) [] := fun _ _ h => h

theorem writes_ensureService (store : SqliteTopologyStore) (serviceId : String) :
    Writes store (ensureService store serviceId) [] := by
  intro nodeId node h
  have hheld : store.getNode nodeId = some node := h
  unfold ensureService
  cases hnode : store.getNode serviceId with
  | some _ => exact hheld
  | none =>
    have hid : nodeId ≠ (mentioned serviceId).nodeId := by
      intro heq
      rw [heq, show (mentioned serviceId).nodeId = serviceId from rfl, hnode] at hheld
      cases hheld
    rw [Option.isNone_none, if_pos rfl, SqliteTopologyStore.getNode_upsertNode, if_neg hid]
    exact hheld

theorem writes_foldl {δ : Type} {f : SqliteTopologyStore → δ → SqliteTopologyStore} {nodes : δ → List TopologyNode}
    (hstep : ∀ store d, Writes store (f store d) (nodes d)) (ds : List δ) (store : SqliteTopologyStore) :
    Writes store (ds.foldl f store) (ds.flatMap nodes) := by
  induction ds generalizing store with
  | nil => exact Writes.refl store
  | cons d ds ih => exact (hstep store d).trans (ih (f store d))

/-- The nodes that a call declares. -/
def ProjectionCall.declarations : ProjectionCall → List TopologyNode
  | .services metadata => metadata.map (·.node)
  | .governance g => if g.problem = none then [g.node] else []
  | _ => []

/-- The nodes that a call writes over whatever is there, without declaring a service. -/
def ProjectionCall.mentions : ProjectionCall → List TopologyNode
  | .services metadata => metadata.flatMap fun item => item.dependencies.flatMap fun dependency =>
    if dependency ∉ metadata.map (·.service) then [mentioned dependency] else []
  | .apis dependencies => dependencies.flatMap fun dep =>
    ((dep.operation.filter (· ≠ "")).map dep.operationNode).toList
  | .data dependencies => dependencies.map (·.node)
  | _ => []

theorem writes_projectDependency (declared : List String) (service : String) (store : SqliteTopologyStore)
    (dependency : String) : Writes store (projectDependency declared service store dependency)
      (if dependency ∉ declared then [mentioned dependency] else []) := by
  unfold projectDependency
  by_cases h : dependency ∉ declared
  · rw [if_pos h, if_pos h]
    exact (writes_upsertNode store _).trans (writes_upsertEdge _ _)
  · rw [if_neg h, if_neg h]
    exact writes_upsertEdge store _

theorem writes_projectServices (store : SqliteTopologyStore) (metadata : List ServiceMetadata) :
    Writes store (projectServices store metadata)
      ((ProjectionCall.services metadata).declarations ++ (ProjectionCall.services metadata).mentions) := by
  have hdeclare := writes_foldl (fun store (item : ServiceMetadata) => writes_upsertNode store item.node)
    metadata store
  rw [← List.map_eq_flatMap] at hdeclare
  refine hdeclare.trans ?_
  refine writes_foldl (fun store (item : ServiceMetadata) => ?_) metadata _
  exact writes_foldl (writes_projectDependency (metadata.map (·.service)) item.service) item.dependencies store

theorem writes_projectApiDependency (store : SqliteTopologyStore) (dep : ApiDependency) :
    Writes store (projectApiDependency store dep)
      ((dep.operation.filter (· ≠ "")).map dep.operationNode).toList := by
  have hensured : Writes store ((ensureService (ensureService store dep.consumer) dep.provider).upsertEdge
      ⟨dep.consumer, dep.provider, "calls-api"⟩) [] :=
    ((writes_ensureService store dep.consumer).trans (writes_ensureService _ dep.provider)).trans
      (writes_upsertEdge _ _)
  unfold projectApiDependency
  cases dep.operation.filter (· ≠ "") with
  | none => exact hensured
  | some operation =>
    have hnode := writes_upsertNode ((ensureService (ensureService store dep.consumer) dep.provider).upsertEdge
      ⟨dep.consumer, dep.provider, "calls-api"⟩) (dep.operationNode operation)
    exact ((hensured.trans hnode).trans (writes_upsertEdge _ _)).trans (writes_upsertEdge _ _)

theorem writes_projectDataDependency (store : SqliteTopologyStore) (dep : DataDependency) :
    Writes store (projectDataDependency store dep) [dep.node] :=
  ((writes_ensureService store dep.service).trans (writes_upsertNode _ dep.node)).trans (writes_upsertEdge _ _)

theorem writes_projectQueueDependency (store : SqliteTopologyStore) (dep : QueueDependency) :
    Writes store (projectQueueDependency dep store).1 [] := by
  have hensured := writes_ensureService store dep.service
  have hqueue : Writes (ensureService store dep.service)
      (if ((ensureService store dep.service).getNode dep.queueId).isNone then
        (ensureService store dep.service).upsertNode dep.node else ensureService store dep.service) [] := by
    intro nodeId node h
    have hheld : (ensureService store dep.service).getNode nodeId = some node := h
    cases hnode : (ensureService store dep.service).getNode dep.queueId with
    | some _ => exact hheld
    | none =>
      have hid : nodeId ≠ dep.node.nodeId := by
        intro heq
        rw [heq, show dep.node.nodeId = dep.queueId from rfl, hnode] at hheld
        cases hheld
      rw [Option.isNone_none, if_pos rfl, SqliteTopologyStore.getNode_upsertNode, if_neg hid]
      exact hheld
  unfold projectQueueDependency
  simp only
  by_cases hrole : dep.role ∉ ["producer", "consumer"]
  · rw [if_pos hrole]
    exact hensured.trans hqueue
  · rw [if_neg hrole]
    exact (hensured.trans hqueue).trans (writes_upsertEdge _ _)

theorem writes_projectQueueDependencies (store : SqliteTopologyStore) (dependencies : List QueueDependency) :
    Writes store (projectQueueDependencies store dependencies).1 [] := by
  unfold projectQueueDependencies
  induction dependencies generalizing store with
  | nil => exact Writes.refl store
  | cons dep rest ih =>
    have hfirst := writes_projectQueueDependency store dep
    unfold sweep andThen
    rcases hdep : projectQueueDependency dep store with ⟨middle, _ | _⟩
    · rw [hdep] at hfirst
      exact hfirst
    · rw [hdep] at hfirst
      exact hfirst.trans (ih middle)

/-- What a call writes over: its declarations, and then its mentions. -/
theorem writes_step (store : SqliteTopologyStore) (call : ProjectionCall) :
    Writes store (store.step call).1 (call.declarations ++ call.mentions) := by
  cases call with
  | services metadata => exact writes_projectServices store metadata
  | governance g =>
    unfold SqliteTopologyStore.step projectServiceGovernance ProjectionCall.declarations
    cases hproblem : g.problem with
    | none =>
      simp only [hproblem, if_true]
      exact writes_upsertNode store g.node
    | some message =>
      simp only [hproblem]
      exact Writes.refl store
  | apis dependencies => exact writes_foldl writes_projectApiDependency dependencies store
  | data dependencies =>
    have hdata := writes_foldl writes_projectDataDependency dependencies store
    rw [← List.map_eq_flatMap] at hdata
    exact hdata
  | queues dependencies => exact writes_projectQueueDependencies store dependencies

/-! ### What holds of every node -/

/-- Every node of the store meets `Q`. -/
def Every (Q : TopologyNode → Prop) (store : SqliteTopologyStore) : Prop :=
  ∀ nodeId node, store.getNode nodeId = some node → Q node

section

variable {Q : TopologyNode → Prop}

theorem every_upsertNode {store : SqliteTopologyStore} {node : TopologyNode} (h : Every Q store) (hnode : Q node) :
    Every Q (store.upsertNode node) := by
  intro nodeId held hheld
  rw [SqliteTopologyStore.getNode_upsertNode] at hheld
  split_ifs at hheld
  · rw [← Option.some.inj hheld]
    exact hnode
  · exact h nodeId held hheld

theorem every_upsertEdge {store : SqliteTopologyStore} {edge : TopologyEdge} (h : Every Q store) :
    Every Q (store.upsertEdge edge) := h

theorem every_ensureService {store : SqliteTopologyStore} (hmentioned : ∀ id, Q (mentioned id)) (h : Every Q store)
    (serviceId : String) : Every Q (ensureService store serviceId) := by
  unfold ensureService
  split_ifs
  · exact every_upsertNode h (hmentioned serviceId)
  · exact h

theorem every_foldl {δ : Type} {f : SqliteTopologyStore → δ → SqliteTopologyStore} {ds : List δ}
    (hstep : ∀ store, ∀ d ∈ ds, Every Q store → Every Q (f store d)) {store : SqliteTopologyStore}
    (h : Every Q store) : Every Q (ds.foldl f store) := by
  induction ds generalizing store with
  | nil => exact h
  | cons d ds ih =>
    obtain ⟨hd, hds⟩ := forall_and.mp fun store => List.forall_mem_cons.mp (hstep store)
    exact ih hds (hd store h)

/-- What holds of every node, of the nodes that a call writes over, and of services and queues that are only
mentioned holds of every node after the call. -/
theorem every_step {store : SqliteTopologyStore} {call : ProjectionCall} (h : Every Q store)
    (hmentioned : ∀ id, Q (mentioned id)) (hqueue : ∀ dep : QueueDependency, Q dep.node)
    (hwritten : ∀ node ∈ call.declarations ++ call.mentions, Q node) : Every Q (store.step call).1 := by
  cases call with
  | services metadata =>
    refine every_foldl (fun store item _ hstore => every_foldl (fun store dependency _ hstore => ?_) hstore)
      (every_foldl (fun store item hitem hstore => every_upsertNode hstore ?_) h)
    · unfold projectDependency
      by_cases hother : dependency ∉ metadata.map (·.service)
      · rw [if_pos hother]
        exact every_upsertNode hstore (hmentioned dependency)
      · rw [if_neg hother]
        exact hstore
    · exact hwritten item.node (List.mem_append_left _ (List.mem_map_of_mem hitem))
  | governance g =>
    unfold SqliteTopologyStore.step projectServiceGovernance
    cases hproblem : g.problem with
    | some message => simpa [hproblem] using h
    | none =>
      simp only [hproblem]
      refine every_upsertNode h (hwritten g.node ?_)
      simp [ProjectionCall.declarations, hproblem]
  | apis dependencies =>
    refine every_foldl (fun store dep hdep hstore => ?_) h
    have hensured : Every Q ((ensureService (ensureService store dep.consumer) dep.provider).upsertEdge
        ⟨dep.consumer, dep.provider, "calls-api"⟩) :=
      every_ensureService hmentioned (every_ensureService hmentioned hstore _) _
    unfold projectApiDependency
    cases hoperation : dep.operation.filter (· ≠ "") with
    | none => exact hensured
    | some operation =>
      refine every_upsertEdge (every_upsertEdge (every_upsertNode hensured (hwritten _ ?_)))
      refine List.mem_append_right _ (List.mem_flatMap.mpr ⟨dep, hdep, ?_⟩)
      simp only [hoperation, Option.map_some, Option.toList_some, List.mem_singleton]
  | data dependencies =>
    refine every_foldl (fun store dep hdep hstore => ?_) h
    exact every_upsertEdge (every_upsertNode (every_ensureService hmentioned hstore _)
      (hwritten dep.node (List.mem_append_right _ (List.mem_map_of_mem hdep))))
  | queues dependencies =>
    change Every Q (sweep projectQueueDependency dependencies store).1
    induction dependencies generalizing store with
    | nil => exact h
    | cons dep rest ih =>
      have hfirst : Every Q (projectQueueDependency dep store).1 := by
        have hensured := every_ensureService hmentioned h dep.service
        have hnodes : Every Q (if ((ensureService store dep.service).getNode dep.queueId).isNone then
            (ensureService store dep.service).upsertNode dep.node else ensureService store dep.service) := by
          split_ifs
          · exact every_upsertNode hensured (hqueue dep)
          · exact hensured
        unfold projectQueueDependency
        simp only
        by_cases hrole : dep.role ∉ ["producer", "consumer"]
        · rw [if_pos hrole]
          exact hnodes
        · rw [if_neg hrole]
          exact hnodes
      unfold sweep andThen
      rcases hdep : projectQueueDependency dep store with ⟨middle, _ | _⟩
      · rw [hdep] at hfirst
        exact hfirst
      · rw [hdep] at hfirst
        exact ih hfirst (by simp [ProjectionCall.declarations, ProjectionCall.mentions])

end

end EngineeringIntelligence.Topology
