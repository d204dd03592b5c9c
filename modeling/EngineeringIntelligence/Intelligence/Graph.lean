import EngineeringIntelligence.Framework.PopSearch
import EngineeringIntelligence.Topology.Store

namespace EngineeringIntelligence.Intelligence

open EngineeringIntelligence.Framework EngineeringIntelligence.Topology

/-! The service graph that a change is assessed on. -/

/-- A dictionary of service nodes under their names. -/
structure ServiceGraph where
  nodes : Table ServiceNode.name

namespace ServiceGraph

def empty : ServiceGraph := ⟨Table.empty⟩

def add (graph : ServiceGraph) (node : ServiceNode) : ServiceGraph := ⟨graph.nodes.put node⟩

variable (graph : ServiceGraph)

/-- `reverse.get(service, set())`: the nodes that list the service among their dependencies. -/
def reverse (service : String) : List String :=
  (graph.nodes.rows.filter fun node => service ∈ node.dependencies).map (·.name)

/-- `dependents_of`; a round for every node that may be stacked. -/
def dependentsOf (l : Listing String) (service : String) : List String :=
  popSearch graph.reverse l (graph.nodes.rows.length + graph.nodes.rows.length * graph.nodes.rows.length) []
    (l.list (graph.reverse service))

/-- `blast_radius`, in order. -/
def blastRadius (l : Listing String) (changedServices : List String) : List String :=
  sortedSet (changedServices ++ changedServices.flatMap (graph.dependentsOf l))

/-- `max_tier`: the smallest tier, which is the most critical. -/
def maxTier (services : List String) : Int := Topology.maxTier graph.nodes.rows services

/-- One service lists another among its dependencies. -/
def DependsOn (x y : String) : Prop := ∃ node ∈ graph.nodes.rows, node.name = x ∧ y ∈ node.dependencies

/-- The changed services and what depends on them, directly or not. -/
def Impacted (changedServices : List String) (x : String) : Prop :=
  ∃ c ∈ changedServices, Relation.ReflTransGen graph.DependsOn x c

variable {graph} {l : Listing String}

theorem mem_reverse {x y : String} : x ∈ graph.reverse y ↔ graph.DependsOn x y := by
  simp only [reverse, List.mem_map, List.mem_filter, decide_eq_true_eq, DependsOn]
  constructor
  · rintro ⟨node, ⟨hnode, hdep⟩, rfl⟩
    exact ⟨node, hnode, rfl, hdep⟩
  · rintro ⟨node, hnode, rfl, hdep⟩
    exact ⟨node, ⟨hnode, hdep⟩, rfl⟩

theorem length_reverse_le (service : String) : (graph.reverse service).length ≤ graph.nodes.rows.length := by
  rw [reverse, List.length_map]
  exact List.length_filter_le _ _

theorem name_of_mem_reverse {service x : String} (h : x ∈ graph.reverse service) :
    x ∈ graph.nodes.rows.map (·.name) := by
  obtain ⟨node, hnode, rfl⟩ := List.mem_map.mp h
  exact List.mem_map_of_mem (List.mem_filter.mp hnode).1

/-- The worklist finds the transitive dependents, in whatever order sets are listed. -/
theorem mem_dependentsOf {service x : String} :
    x ∈ graph.dependentsOf l service ↔ Relation.TransGen graph.DependsOn x service := by
  have hnodes : ∀ y, ∀ z ∈ graph.reverse y, z ∈ graph.nodes.rows.map (·.name) := fun _ _ => name_of_mem_reverse
  have hstart : ∀ y ∈ l.list (graph.reverse service), y ∈ graph.nodes.rows.map (·.name) := fun y hy =>
    name_of_mem_reverse (l.mem_list.mp hy)
  have hfuel : (l.list (graph.reverse service)).length +
      (graph.nodes.rows.map (·.name)).length * graph.nodes.rows.length ≤
        graph.nodes.rows.length + graph.nodes.rows.length * graph.nodes.rows.length := by
    have hlength : (graph.reverse service).length ≤ graph.nodes.rows.length := length_reverse_le service
    rw [(l.perm _).length_eq, List.length_map]
    omega
  have hswap : (fun a b => b ∈ graph.reverse a) = Function.swap graph.DependsOn := by
    funext a b
    exact propext mem_reverse
  rw [dependentsOf, mem_popSearch hnodes length_reverse_le hstart hfuel, hswap, Relation.TransGen.tail'_iff]
  simp only [l.mem_list, mem_reverse, Relation.reflTransGen_swap, and_comm]

theorem mem_blastRadius {changedServices : List String} {x : String} :
    x ∈ graph.blastRadius l changedServices ↔ graph.Impacted changedServices x := by
  simp only [blastRadius, mem_sortedSet, List.mem_append, List.mem_flatMap, mem_dependentsOf, Impacted,
    Relation.reflTransGen_iff_eq_or_transGen]
  constructor
  · rintro (hx | ⟨c, hc, hpath⟩)
    · exact ⟨x, hx, .inl rfl⟩
    · exact ⟨c, hc, .inr hpath⟩
  · rintro ⟨c, hc, rfl | hpath⟩
    · exact .inl hc
    · exact .inr ⟨c, hc, hpath⟩

theorem serviceNamed_eq (name : String) : serviceNamed graph.nodes.rows name = graph.nodes.get name := by
  cases hfound : serviceNamed graph.nodes.rows name with
  | none =>
    symm
    rw [Table.get_eq_none_iff]
    intro hmem
    obtain ⟨node, hnode, hname⟩ := List.mem_map.mp hmem
    rw [serviceNamed, List.find?_eq_none] at hfound
    exact hfound node (List.mem_reverse.mpr hnode) (by simpa using hname)
  | some node =>
    have hname : node.name = name := by simpa using List.find?_some hfound
    rw [← hname]
    exact (Table.get_of_mem (List.mem_reverse.mp (List.mem_of_find?_eq_some hfound))).symm

theorem maxTier_le {services : List String} {node : ServiceNode} (hservice : node.name ∈ services)
    (hnode : graph.nodes.get node.name = some node) : graph.maxTier services ≤ node.tier := by
  refine Topology.maxTier_le hservice ?_
  rw [serviceNamed_eq, hnode]
  rfl

theorem node_of_maxTier {services : List String} (h : graph.maxTier services ≠ 3) :
    ∃ node, node.name ∈ services ∧ graph.nodes.get node.name = some node ∧ node.tier = graph.maxTier services := by
  obtain ⟨name, hname, htier⟩ := (maxTier_attained graph.nodes.rows services).resolve_left h
  rw [serviceNamed_eq] at htier
  obtain ⟨node, hnode, hleast⟩ := Option.map_eq_some_iff.mp htier
  obtain rfl : node.name = name := Table.key_of_get hnode
  exact ⟨node, hname, hnode, hleast⟩

/-! ### Graphs with more in them -/

/-- What the second graph has more is dependencies, and services. -/
def Extends (graph graph' : ServiceGraph) : Prop :=
  ∀ name node, graph.nodes.get name = some node →
    ∃ node', graph'.nodes.get name = some node' ∧ node'.tier = node.tier ∧ node.dependencies ⊆ node'.dependencies

/-- Tiers count from 1, as the extractors give them. -/
def TiersFromOne (graph : ServiceGraph) : Prop := ∀ node ∈ graph.nodes.rows, 1 ≤ node.tier

/-- Adding dependencies to a node that is there. -/
theorem extends_add {node : ServiceNode} (h : graph.nodes.get node.name = some node) (dependencies : List String) :
    graph.Extends (graph.add { node with dependencies := node.dependencies ++ dependencies }) := by
  intro name old hold
  rw [add, Table.get_put]
  by_cases hname : name = node.name
  · subst hname
    obtain rfl := Option.some.inj (h.symm.trans hold)
    exact ⟨_, if_pos rfl, rfl, fun x hx => List.mem_append_left _ hx⟩
  · exact ⟨old, (if_neg hname).trans hold, rfl, fun x hx => hx⟩

theorem Extends.dependsOn {graph' : ServiceGraph} (h : graph.Extends graph') {x y : String}
    (hxy : graph.DependsOn x y) : graph'.DependsOn x y := by
  obtain ⟨node, hnode, rfl, hdep⟩ := hxy
  obtain ⟨node', hnode', -, hdeps⟩ := h node.name node (Table.get_of_mem hnode)
  exact ⟨node', Table.mem_of_get hnode', Table.key_of_get hnode', hdeps hdep⟩

theorem Extends.impacted {graph' : ServiceGraph} (h : graph.Extends graph') {changed changed' : List String}
    (hchanged : changed ⊆ changed') {x : String} (hx : graph.Impacted changed x) : graph'.Impacted changed' x := by
  obtain ⟨c, hc, hpath⟩ := hx
  exact ⟨c, hchanged hc, Relation.ReflTransGen.mono (fun _ _ hab => h.dependsOn hab) x c hpath⟩

theorem Extends.blastRadius_subset {graph' : ServiceGraph} (h : graph.Extends graph') {l' : Listing String}
    {changed changed' : List String} (hchanged : changed ⊆ changed') :
    graph.blastRadius l changed ⊆ graph'.blastRadius l' changed' := fun _ hx =>
  mem_blastRadius.mpr (h.impacted hchanged (mem_blastRadius.mp hx))

/-- A critical service stays one, and stays impacted. -/
theorem Extends.maxTier_eq_one {graph' : ServiceGraph} (h : graph.Extends graph') (htiers : graph'.TiersFromOne)
    {services services' : List String} (hsub : services ⊆ services') (hone : graph.maxTier services = 1) :
    graph'.maxTier services' = 1 := by
  have hsome : graph.maxTier services ≠ 3 := by omega
  obtain ⟨node, hservice, hnode, htier⟩ := node_of_maxTier hsome
  obtain ⟨node', hnode', htier', -⟩ := h node.name node hnode
  have hname : node'.name = node.name := Table.key_of_get hnode'
  have hle : graph'.maxTier services' ≤ node'.tier :=
    maxTier_le (hname ▸ hsub hservice) (hname ▸ hnode')
  by_cases hthree : graph'.maxTier services' = 3
  · omega
  · obtain ⟨least, -, hleast, htierLeast⟩ := node_of_maxTier hthree
    have hpositive := htiers least (Table.mem_of_get hleast)
    omega

end ServiceGraph

end EngineeringIntelligence.Intelligence
