import EngineeringIntelligence.Intelligence.Graph
import EngineeringIntelligence.Intelligence.Manifests

namespace EngineeringIntelligence.Intelligence

open EngineeringIntelligence.Framework EngineeringIntelligence.Topology

/-! The service graph of a checkout. -/

def serviceNode (item : ServiceMetadata) : ServiceNode :=
  { name := item.service, tier := item.tier, owner := item.owner, dependencies := item.dependencies }

/-- `sorted(all_dependencies - declared)`. -/
def undeclared (metadata : List ServiceMetadata) : List String :=
  sortedSet ((metadata.flatMap (·.dependencies)).filter (· ∉ metadata.map (·.service)))

/-- A dependency that no manifest declares. -/
def dependencyNode (dep : String) : ServiceNode := { name := dep, tier := 3, owner := none, dependencies := [] }

/-- `build_graph`. -/
def buildGraph (metadata : List ServiceMetadata) : ServiceGraph :=
  metadata.foldl (fun graph item => graph.add (serviceNode item))
    ((undeclared metadata).foldl (fun graph dep => graph.add (dependencyNode dep)) ServiceGraph.empty)

/-- A path that the file system lists, with its text where this can be read. -/
structure CheckoutPath where
  parts : List String
  isFile : Bool
  text : Option String

namespace CheckoutPath
variable (path : CheckoutPath)

/-- `suffix`: from the last dot of the name on, unless that is its first or last character. -/
def suffix : String :=
  let name := (path.parts.getLast?.getD "").toList
  let ending := (name.reverse.takeWhile (· ≠ '.')).reverse
  if ending ≠ [] ∧ ending.length + 1 < name.length then String.ofList ('.' :: ending) else ""

def asPosix : String :=
  match path.parts with
  | "/" :: parts => "/" ++ "/".intercalate parts
  | parts => "/".intercalate parts

/-- A file that the graph is built from. -/
def isManifest : Bool :=
  path.isFile && [".yaml", ".yml"].contains (lower path.suffix) &&
    !path.parts.any ([".git", ".venv", "node_modules"].contains ·)

def metadata : Option ServiceMetadata :=
  if !path.isManifest then none else path.text.bind fun content => metadataFromManifest path.asPosix content

end CheckoutPath

/-- `build_service_graph_from_checkout`, for what `rglob` lists. -/
def buildServiceGraphFromCheckout (paths : List CheckoutPath) : ServiceGraph :=
  buildGraph (paths.filterMap (·.metadata))

/-- Equal dictionaries of nodes. -/
def ServiceGraph.Same (graph graph' : ServiceGraph) : Prop := ∀ name, graph.nodes.get name = graph'.nodes.get name

/-- The graph has what every manifest says of its service. -/
structure Kept (metadata : List ServiceMetadata) (graph : ServiceGraph) : Prop where
  dependencies : ∀ item ∈ metadata, ∀ dep ∈ item.dependencies, graph.DependsOn item.service dep
  owner : ∀ item ∈ metadata, ∀ owner, item.owner = some owner →
    (graph.nodes.get item.service).bind (·.owner) = some owner
  tier : ∀ item ∈ metadata, (graph.nodes.get item.service).map (·.tier) = some item.tier

/-- The manifests of one service say the same. -/
def Agree (metadata : List ServiceMetadata) : Prop :=
  ∀ a ∈ metadata, ∀ b ∈ metadata, a.service = b.service → a = b

theorem nodes_foldl_add {α : Type} (node : α → ServiceNode) (items : List α) (graph : ServiceGraph) :
    (items.foldl (fun graph item => graph.add (node item)) graph).nodes =
      (items.map node).foldl Table.put graph.nodes := by
  induction items generalizing graph with
  | nil => rfl
  | cons item items ih => rw [List.foldl_cons, ih, List.map_cons, List.foldl_cons, ServiceGraph.add]

/-- The nodes of the dependencies that no manifest declares. -/
def dependencyNodes (metadata : List ServiceMetadata) : Table ServiceNode.name :=
  ((undeclared metadata).map dependencyNode).foldl Table.put Table.empty

theorem nodes_buildGraph (metadata : List ServiceMetadata) :
    (buildGraph metadata).nodes = (metadata.map serviceNode).foldl Table.put (dependencyNodes metadata) := by
  rw [buildGraph, nodes_foldl_add, nodes_foldl_add, ServiceGraph.empty, dependencyNodes]

/-- The last manifest of a service is the one that counts. -/
theorem get_buildGraph_last (metadata : List ServiceMetadata) (item : ServiceMetadata) :
    (buildGraph (metadata ++ [item])).nodes.get item.service = some (serviceNode item) := by
  rw [nodes_buildGraph, List.map_append, List.foldl_append]
  exact Table.get_put_self _ (serviceNode item)

theorem dependencyNodes_perm {order metadata : List ServiceMetadata} (h : order.Perm metadata) :
    dependencyNodes order = dependencyNodes metadata := by
  have hundeclared : undeclared order = undeclared metadata := by
    refine sortedSet_congr fun dep => ?_
    simp only [List.mem_filter, List.mem_flatMap, List.mem_map, h.mem_iff]
  rw [dependencyNodes, hundeclared, dependencyNodes]

theorem get_buildGraph_of_notMem {metadata : List ServiceMetadata} {name : String}
    (h : name ∉ metadata.map (·.service)) :
    (buildGraph metadata).nodes.get name = (dependencyNodes metadata).get name := by
  rw [nodes_buildGraph]
  refine Table.get_puts_of_notMem ?_
  rw [List.map_map]
  exact h

theorem get_puts_of_agree {ρ κ : Type} [DecidableEq κ] {key : ρ → κ} {t : Table key} {xs : List ρ} {r : ρ}
    (hr : r ∈ xs) (h : ∀ x ∈ xs, key x = key r → x = r) : (xs.foldl Table.put t).get (key r) = some r := by
  induction xs generalizing t with
  | nil => cases hr
  | cons x xs ih =>
    rw [List.foldl_cons]
    by_cases hmem : r ∈ xs
    · exact ih hmem fun y hy => h y (List.mem_cons_of_mem _ hy)
    · obtain rfl := (List.mem_cons.mp hr).resolve_right hmem
      rw [Table.get_puts_of_notMem, Table.get_put_self]
      intro hkey
      obtain ⟨y, hy, hsame⟩ := List.mem_map.mp hkey
      exact hmem (h y (List.mem_cons_of_mem _ hy) hsame ▸ hy)

theorem get_buildGraph_of_agree {metadata : List ServiceMetadata} (h : Agree metadata) {item : ServiceMetadata}
    (hitem : item ∈ metadata) : (buildGraph metadata).nodes.get item.service = some (serviceNode item) := by
  rw [nodes_buildGraph]
  refine get_puts_of_agree (List.mem_map_of_mem hitem) fun node hnode hname => ?_
  obtain ⟨other, hother, rfl⟩ := List.mem_map.mp hnode
  rw [h other hother item hitem hname]

theorem same_of_agree {order metadata : List ServiceMetadata} (h : Agree metadata) (hperm : order.Perm metadata) :
    (buildGraph order).Same (buildGraph metadata) := by
  have horder : Agree order := fun a ha b hb => h a (hperm.mem_iff.mp ha) b (hperm.mem_iff.mp hb)
  intro name
  by_cases hname : name ∈ metadata.map (·.service)
  · obtain ⟨item, hitem, rfl⟩ := List.mem_map.mp hname
    rw [get_buildGraph_of_agree h hitem, get_buildGraph_of_agree horder (hperm.mem_iff.mpr hitem)]
  · have hother : name ∉ order.map (·.service) := fun hmem => hname ((hperm.map _).mem_iff.mp hmem)
    rw [get_buildGraph_of_notMem hname, get_buildGraph_of_notMem hother, dependencyNodes_perm hperm]

theorem kept_of_agree {metadata : List ServiceMetadata} (h : Agree metadata) :
    Kept metadata (buildGraph metadata) where
  dependencies item hitem dep hdep :=
    ⟨serviceNode item, Table.mem_of_get (get_buildGraph_of_agree h hitem), rfl, hdep⟩
  owner item hitem owner howner := by
    rw [get_buildGraph_of_agree h hitem]
    exact howner
  tier item hitem := by
    rw [get_buildGraph_of_agree h hitem]
    rfl

theorem eq_of_serviceNode {a b : ServiceMetadata} (h : serviceNode a = serviceNode b) : a = b := by
  cases a
  cases b
  cases h
  rfl

theorem agree_of_get {metadata : List ServiceMetadata}
    (h : ∀ item ∈ metadata, (buildGraph metadata).nodes.get item.service = some (serviceNode item)) :
    Agree metadata := by
  intro a ha b hb hservice
  have hnode := (h a ha).symm.trans (hservice ▸ h b hb)
  exact eq_of_serviceNode (Option.some.inj hnode)

theorem perm_move_last {α : Type} (s t : List α) (a : α) : (s ++ t ++ [a]).Perm (s ++ a :: t) := by
  rw [List.append_assoc]
  exact (List.perm_append_singleton a t).append_left s

/-- The order of the manifests does not count, and the graph keeps what each of them says, if and only if
the manifests of one service say the same. -/
theorem manifests_kept_iff (metadata : List ServiceMetadata) (paths : List CheckoutPath) :
    ((∀ order : List ServiceMetadata, order.Perm metadata → (buildGraph order).Same (buildGraph metadata)) ∧
        Kept metadata (buildGraph metadata) ↔ Agree metadata) ∧
      ((∀ order : List CheckoutPath, order.Perm paths →
          (buildServiceGraphFromCheckout order).Same (buildServiceGraphFromCheckout paths)) ∧
        Kept (paths.filterMap (·.metadata)) (buildServiceGraphFromCheckout paths) ↔
          Agree (paths.filterMap (·.metadata))) := by
  constructor
  · constructor
    · rintro ⟨hsame, -⟩
      refine agree_of_get fun item hitem => ?_
      obtain ⟨s, t, rfl⟩ := List.append_of_mem hitem
      rw [← hsame _ (perm_move_last s t item) item.service, get_buildGraph_last]
    · intro h
      exact ⟨fun _ => same_of_agree h, kept_of_agree h⟩
  · constructor
    · rintro ⟨hsame, -⟩
      refine agree_of_get fun item hitem => ?_
      obtain ⟨path, hpath, hmetadata⟩ := List.mem_filterMap.mp hitem
      obtain ⟨s, t, rfl⟩ := List.append_of_mem hpath
      have hlast := hsame _ (perm_move_last s t path) item.service
      rw [buildServiceGraphFromCheckout, List.filterMap_append, List.filterMap_cons_some hmetadata,
        List.filterMap_nil, get_buildGraph_last] at hlast
      exact hlast.symm
    · intro h
      exact ⟨fun _ hperm => same_of_agree h (hperm.filterMap _), kept_of_agree h⟩

def webDeployment : ServiceMetadata := { service := "web", owner := some "shop", tier := 1, dependencies := ["db"] }

def webIngress : ServiceMetadata := { service := "web", owner := none, tier := 3, dependencies := [] }

/-- A second manifest of a service takes the tier, the owner and the dependencies of the first away. -/
theorem second_manifest_wins :
    ¬((∀ order : List ServiceMetadata, order.Perm [webDeployment, webIngress] →
          (buildGraph order).Same (buildGraph [webDeployment, webIngress])) ∧
        Kept [webDeployment, webIngress] (buildGraph [webDeployment, webIngress])) := by
  rintro ⟨-, hkept⟩
  have hlast : (buildGraph [webDeployment, webIngress]).nodes.get webDeployment.service =
      some (serviceNode webIngress) :=
    get_buildGraph_last [webDeployment] webIngress
  have htier := hkept.tier webDeployment (List.mem_cons_self ..)
  rw [hlast] at htier
  cases htier

end EngineeringIntelligence.Intelligence
