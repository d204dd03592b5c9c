import EngineeringIntelligence.Framework.Run
import EngineeringIntelligence.Topology.Projections

namespace EngineeringIntelligence.Topology

open EngineeringIntelligence.Framework

/-! The owner and the tier that a service was declared with, through runs of projections. -/

structure Declaration where
  owner : Option String
  tier : Int
  deriving DecidableEq, Repr

def TopologyNode.declaration (node : TopologyNode) : Declaration := ⟨node.owner, node.tier⟩

/-- What a service has that nobody declares. -/
def undeclared : Declaration := ⟨none, 3⟩

/-- The last declaration of each service. -/
abbrev Declared := String → Option Declaration

def noteCall (declared : Declared) (call : ProjectionCall) : Declared × Unit :=
  (fun service => ((lastWrite call.declarations service).map (·.declaration)).or (declared service), ())

/-- A store and the declarations so far. -/
def ownershipStep : SqliteTopologyStore × Declared → ProjectionCall →
    (SqliteTopologyStore × Declared) × (Except String Unit × Unit) :=
  lockstep SqliteTopologyStore.step noteCall

/-- The store has the owner and the tier of every last declaration. -/
def Stored (s : SqliteTopologyStore × Declared) : Prop :=
  ∀ service d, s.2 service = some d → ∃ node, s.1.getNode service = some node ∧ node.declaration = d

/-- The call writes no mention over a declared service, unless it was declared without owner and with the
default tier. -/
def Undisturbed (s : SqliteTopologyStore × Declared) (call : ProjectionCall) : Prop :=
  ∀ node ∈ call.mentions, ∀ d, s.2 node.nodeId = some d → d = undeclared

/-! ### One call -/

theorem declaration_of_mention {call : ProjectionCall} {node : TopologyNode} (h : node ∈ call.mentions) :
    node.declaration = undeclared := by
  cases call with
  | services metadata =>
    obtain ⟨item, -, hitem⟩ := List.mem_flatMap.mp h
    obtain ⟨dependency, -, hnode⟩ := List.mem_flatMap.mp hitem
    split at hnode
    · rw [List.mem_singleton.mp hnode]
      rfl
    · simp at hnode
  | governance g => simp [ProjectionCall.mentions] at h
  | apis dependencies =>
    obtain ⟨dep, -, hnode⟩ := List.mem_flatMap.mp h
    rw [Option.mem_toList, Option.map_eq_some_iff] at hnode
    obtain ⟨operation, -, hnode⟩ := hnode
    rw [← hnode]
    rfl
  | data dependencies =>
    obtain ⟨dep, -, hnode⟩ := List.mem_map.mp h
    rw [← hnode]
    rfl
  | queues dependencies => simp [ProjectionCall.mentions] at h

/-- No call mentions what it declares. -/
theorem not_declared_of_mention {call : ProjectionCall} {node : TopologyNode} (h : node ∈ call.mentions) :
    lastWrite call.declarations node.nodeId = none := by
  rw [lastWrite_eq_none_iff]
  intro declaredNode hdeclared heq
  cases call with
  | services metadata =>
    obtain ⟨item, -, hitem⟩ := List.mem_flatMap.mp h
    obtain ⟨dependency, -, hnode⟩ := List.mem_flatMap.mp hitem
    obtain ⟨declaredItem, hmem, hdeclaredNode⟩ := List.mem_map.mp hdeclared
    split at hnode
    · next hother =>
      apply hother
      rw [List.mem_singleton.mp hnode, ← hdeclaredNode] at heq
      exact List.mem_map.mpr ⟨declaredItem, hmem, heq⟩
    · simp at hnode
  | governance g => simp [ProjectionCall.mentions] at h
  | apis dependencies => simp [ProjectionCall.declarations] at hdeclared
  | data dependencies => simp [ProjectionCall.declarations] at hdeclared
  | queues dependencies => simp [ProjectionCall.mentions] at h

theorem getNode_step_of_mention {store : SqliteTopologyStore} {call : ProjectionCall} {service : String}
    {node : TopologyNode} (h : lastWrite call.mentions service = some node) :
    (store.step call).1.getNode service = some node := by
  apply writes_step store call service node
  rw [lastWrite_append, h]
  rfl

theorem getNode_step {store : SqliteTopologyStore} {call : ProjectionCall} {service : String} {node : TopologyNode}
    (hmentions : lastWrite call.mentions service = none)
    (h : (lastWrite call.declarations service).or (store.getNode service) = some node) :
    (store.step call).1.getNode service = some node := by
  apply writes_step store call service node
  rw [lastWrite_append, hmentions]
  exact h

/-- A declaration after a calm call: a plain one that a mention may have been written over, one that the call
makes, or one from before whose node stays. -/
theorem declared_cases {s : SqliteTopologyStore × Declared} {call : ProjectionCall} (hcalm : Undisturbed s call)
    {service : String} {d : Declaration} (hd : (noteCall s.2 call).1 service = some d) :
    (d = undeclared ∧ ∃ node, (s.1.step call).1.getNode service = some node ∧ node.declaration = d) ∨
      (∃ node ∈ call.declarations, (s.1.step call).1.getNode service = some node ∧ node.declaration = d) ∨
        (s.2 service = some d ∧ ∀ node, s.1.getNode service = some node →
          (s.1.step call).1.getNode service = some node) := by
  change ((lastWrite call.declarations service).map (·.declaration)).or (s.2 service) = some d at hd
  cases hlast : lastWrite call.mentions service with
  | some last =>
    obtain ⟨hmention, hid⟩ := lastWrite_mem hlast
    have hnone := not_declared_of_mention hmention
    rw [hid] at hnone
    rw [hnone] at hd
    have hplain := hcalm last hmention d (hid ▸ hd)
    exact .inl ⟨hplain, last, getNode_step_of_mention hlast, (declaration_of_mention hmention).trans hplain.symm⟩
  | none =>
    cases hdeclared : lastWrite call.declarations service with
    | some node =>
      rw [hdeclared] at hd
      have hnode : (s.1.step call).1.getNode service = some node := getNode_step hlast (by rw [hdeclared]; rfl)
      exact .inr (.inl ⟨node, (lastWrite_mem hdeclared).1, hnode, Option.some.inj hd⟩)
    | none =>
      rw [hdeclared] at hd
      exact .inr (.inr ⟨hd, fun node hnode => getNode_step hlast (by rw [hdeclared]; exact hnode)⟩)

/-- A call keeps the declarations exactly when it disturbs none of them. -/
theorem stored_step (s : SqliteTopologyStore × Declared) (call : ProjectionCall) (h : Stored s) :
    Stored (ownershipStep s call).1 ↔ Undisturbed s call := by
  constructor
  · intro hafter mention hmention d hd
    have hnote : (noteCall s.2 call).1 mention.nodeId = some d := by
      simp only [noteCall, not_declared_of_mention hmention]
      exact hd
    obtain ⟨node, hnode, hdeclaration⟩ := hafter mention.nodeId d hnote
    cases hlast : lastWrite call.mentions mention.nodeId with
    | none => exact absurd rfl (lastWrite_eq_none_iff.mp hlast mention hmention)
    | some last =>
      have hsame : some last = some node := (getNode_step_of_mention hlast).symm.trans hnode
      rw [← hdeclaration, ← Option.some.inj hsame]
      exact declaration_of_mention (lastWrite_mem hlast).1
  · intro hcalm service d hd
    rcases declared_cases hcalm hd with hplain | hnew | hold
    · exact hplain.2
    · obtain ⟨node, -, hnode, hdeclaration⟩ := hnew
      exact ⟨node, hnode, hdeclaration⟩
    · obtain ⟨node, hnode, hdeclaration⟩ := h service d hold.1
      exact ⟨node, hold.2 node hnode, hdeclaration⟩

/-! ### Owners -/

/-- The owner of an impacted service is found. -/
theorem mem_impactedOwners {store : SqliteTopologyStore} {originIds : List String} {service owner : String}
    {node : TopologyNode} (himpacted : service ∈ (store.blastRadius originIds).impactedIds)
    (hnode : store.getNode service = some node) (howner : node.owner = some owner) (hnonempty : owner ≠ "") :
    owner ∈ impactedOwners store originIds := by
  unfold impactedOwners
  rw [mem_sortedSet, List.mem_flatMap]
  refine ⟨service, himpacted, ?_⟩
  rw [hnode]
  apply List.mem_append_left
  rw [howner, Option.filter_some]
  simp [hnonempty]

/-! ### Tiers -/

/-- A node that counts as a service has its own id for a name. -/
def OwnName (node : TopologyNode) : Prop := node.kind = "service" → node.name = node.nodeId

/-- Services are named by their ids, and what is declared with an owner or a tier of its own is a service. -/
structure Charted (s : SqliteTopologyStore × Declared) : Prop where
  names : Every OwnName s.1
  services : ∀ service d, s.2 service = some d → d ≠ undeclared →
    ∃ node, s.1.getNode service = some node ∧ node.declaration = d ∧ node.kind = "service"

theorem declarations_are_services {call : ProjectionCall} {node : TopologyNode} (h : node ∈ call.declarations) :
    node.kind = "service" ∧ node.name = node.nodeId := by
  cases call with
  | services metadata =>
    obtain ⟨item, -, hnode⟩ := List.mem_map.mp h
    rw [← hnode]
    exact ⟨rfl, rfl⟩
  | governance g =>
    simp only [ProjectionCall.declarations] at h
    split_ifs at h
    · rw [List.mem_singleton.mp h]
      exact ⟨rfl, rfl⟩
    · simp at h
  | apis dependencies => simp [ProjectionCall.declarations] at h
  | data dependencies => simp [ProjectionCall.declarations] at h
  | queues dependencies => simp [ProjectionCall.declarations] at h

theorem charted_step (s : SqliteTopologyStore × Declared) (call : ProjectionCall) (h : Charted s)
    (hcalm : Undisturbed s call) (hnames : ∀ node ∈ call.mentions, OwnName node) :
    Charted (ownershipStep s call).1 where
  names := by
    refine every_step h.names (fun id _ => rfl) (fun dep hkind => ?_) fun node hnode => ?_
    · exact absurd hkind (by simp [QueueDependency.node])
    · rcases List.mem_append.mp hnode with hdeclared | hmention
      · exact fun _ => (declarations_are_services hdeclared).2
      · exact hnames node hmention
  services := by
    intro service d hd hown
    rcases declared_cases hcalm hd with hplain | hnew | hold
    · exact absurd hplain.1 hown
    · obtain ⟨node, hdeclared, hnode, hdeclaration⟩ := hnew
      exact ⟨node, hnode, hdeclaration, (declarations_are_services hdeclared).1⟩
    · obtain ⟨node, hnode, hrest⟩ := h.services service d hold.1 hown
      exact ⟨node, hold.2 node hnode, hrest⟩

/-- The service graph has a service under its own name, with its tier. -/
theorem serviceNamed_of_node {store : SqliteTopologyStore} (hnames : Every OwnName store) {service : String}
    {node : TopologyNode} (hnode : store.getNode service = some node) (hkind : node.kind = "service") :
    (serviceNamed store.toServiceGraph service).map (·.tier) = some node.tier := by
  have hrow : node ∈ store.nodes.rows.filter (·.kind = "service") :=
    List.mem_filter.mpr ⟨Table.mem_of_get hnode, by simpa using hkind⟩
  have hid : node.nodeId = service := Table.key_of_get hnode
  have hname : node.name = service := (hnames service node hnode hkind).trans hid
  cases hfound : serviceNamed store.toServiceGraph service with
  | none =>
    unfold serviceNamed SqliteTopologyStore.toServiceGraph at hfound
    rw [List.find?_eq_none] at hfound
    have hmem := hfound _ (List.mem_reverse.mpr (List.mem_map_of_mem hrow))
    simp [hname] at hmem
  | some found =>
    unfold serviceNamed SqliteTopologyStore.toServiceGraph at hfound
    have hmem := List.mem_reverse.mp (List.mem_of_find?_eq_some hfound)
    have hfoundName := List.find?_some hfound
    obtain ⟨row, hrow', heq⟩ := List.mem_map.mp hmem
    obtain ⟨hrow', hrowKind⟩ := List.mem_filter.mp hrow'
    have hget : store.getNode row.nodeId = some row := Table.get_of_mem hrow'
    have hrowName : row.name = row.nodeId := hnames _ row hget (by simpa using hrowKind)
    have hrowId : row.nodeId = service := by
      rw [← hrowName]
      rw [← heq] at hfoundName
      simpa using hfoundName
    rw [hrowId, hnode] at hget
    rw [← heq, Option.map_some, Option.some.inj hget]

/-! ### Runs -/

/-- Nothing is projected, and nothing declared. -/
def fresh : SqliteTopologyStore × Declared := (SqliteTopologyStore.empty, fun _ => none)

theorem stored_fresh : Stored fresh := by
  intro service d hd
  cases hd

theorem charted_fresh : Charted fresh where
  names := by
    intro nodeId node hnode
    cases hnode
  services := by
    intro service d hd
    cases hd

/-- The runs in which no declared owner or tier is lost are those that disturb no declaration. In them the owner
of each impacted service is found, and a service of tier 1 counts as one. -/
theorem ownership_kept (calls : List ProjectionCall) :
    (Admissible ownershipStep Undisturbed fresh calls ↔
      ∀ pre, pre <+: calls → Stored (runState ownershipStep fresh pre)) ∧
    (Admissible ownershipStep Undisturbed fresh calls →
      let s := runState ownershipStep fresh calls
      (∀ service d owner originIds, s.2 service = some d → d.owner = some owner → owner ≠ "" →
        service ∈ (s.1.blastRadius originIds).impactedIds → owner ∈ impactedOwners s.1 originIds) ∧
      ((∀ call ∈ calls, ∀ node ∈ call.mentions, OwnName node) →
        ∀ service d services, s.2 service = some d → d.tier = 1 → service ∈ services →
          maxTier s.1.toServiceGraph services ≤ 1)) := by
  have hruns := admissible_iff_prefixes ownershipStep stored_step stored_fresh calls
  refine ⟨hruns, fun hcalm => ⟨?_, ?_⟩⟩
  · intro service d owner originIds hd howner hnonempty himpacted
    obtain ⟨node, hnode, hdeclaration⟩ := hruns.mp hcalm calls List.prefix_rfl service d hd
    refine mem_impactedOwners himpacted hnode ?_ hnonempty
    rw [← howner, ← hdeclaration]
    rfl
  · intro hnames service d services hd htier hservice
    have hnamed : Admissible ownershipStep (fun _ call => ∀ node ∈ call.mentions, OwnName node) fresh calls :=
      admissible_of_forall ownershipStep (fun call hcall _ => hnames call hcall) fresh
    have hcharted : Charted (runState ownershipStep fresh calls) :=
      run_guarded ownershipStep (fun s call h hok => charted_step s call h hok.1 hok.2) charted_fresh
        (admissible_and ownershipStep hcalm hnamed)
    have hown : d ≠ undeclared := by
      intro heq
      rw [heq] at htier
      exact absurd htier (by decide)
    obtain ⟨node, hnode, hdeclaration, hkind⟩ := hcharted.services service d hd hown
    have hfound := serviceNamed_of_node hcharted.names hnode hkind
    rw [show node.tier = d.tier by rw [← hdeclaration]; rfl, htier] at hfound
    exact maxTier_le hservice hfound

namespace Payments

/-- The payments team's own batch. -/
def declared : ProjectionCall := .services [⟨"payments", some "payments-team", 1, []⟩]

/-- Checkout calls an operation of payments. -/
def called : ProjectionCall := .apis [⟨"checkout", "payments", "http", some "POST /charge"⟩]

/-- Checkout's batch, of another repository, names payments as a dependency. -/
def depended : ProjectionCall := .services [⟨"checkout", some "commerce", 2, ["payments"]⟩]

def charge : TopologyNode :=
  ApiDependency.operationNode ⟨"checkout", "payments", "http", some "POST /charge"⟩ "POST /charge"

theorem called_mentions : called.mentions = [charge] := rfl

end Payments

open Payments in
/-- A call of its API leaves payments its owner and its tier. -/
theorem called_payments_kept :
    impactedOwners (runState ownershipStep fresh [declared, called]).1 ["payments"] = ["payments-team"] ∧
      maxTier (runState ownershipStep fresh [declared, called]).1.toServiceGraph ["payments"] ≤ 1 := by
  have hcalm : Admissible ownershipStep Undisturbed fresh [declared, called] := by
    refine ⟨fun node hnode => by simp [declared, ProjectionCall.mentions] at hnode, ?_, trivial⟩
    intro node hnode d hd
    rw [called_mentions] at hnode
    rw [List.mem_singleton.mp hnode] at hd
    cases hd
  have hnames : ∀ call ∈ [declared, called], ∀ node ∈ call.mentions, OwnName node := by
    intro call hcall node hnode hkind
    simp only [List.mem_cons, List.not_mem_nil, or_false] at hcall
    rcases hcall with h | h
    · simp [h, declared, ProjectionCall.mentions] at hnode
    · rw [h, called_mentions] at hnode
      rw [List.mem_singleton.mp hnode] at hkind
      exact absurd hkind (by decide)
  have hkept := ((ownership_kept [declared, called]).2 hcalm).2 hnames "payments" ⟨some "payments-team", 1⟩ ["payments"]
    rfl rfl (by simp)
  exact ⟨by decide, hkept⟩

open Payments in
/-- Named as a dependency in a batch that does not declare it, payments has no owner and tier 3. -/
theorem depended_payments_lost :
    let s := runState ownershipStep fresh [declared, depended]
    s.2 "payments" = some ⟨some "payments-team", 1⟩ ∧
      (s.1.getNode "payments").map (·.declaration) = some ⟨none, 3⟩ ∧
        impactedOwners s.1 ["payments"] = ["commerce"] ∧ maxTier s.1.toServiceGraph ["payments"] = 3 ∧ ¬ Stored s := by
  have hlast : (runState ownershipStep fresh [declared, depended]).2 "payments" = some ⟨some "payments-team", 1⟩ := rfl
  have hnode : ((runState ownershipStep fresh [declared, depended]).1.getNode "payments").map (·.declaration) =
      some ⟨none, 3⟩ := rfl
  refine ⟨hlast, hnode, by decide, by decide, fun h => ?_⟩
  obtain ⟨node, hget, hdeclaration⟩ := h "payments" _ hlast
  rw [hget, Option.map_some, hdeclaration] at hnode
  exact absurd hnode (by decide)

end EngineeringIntelligence.Topology
