import EngineeringIntelligence.CompanyBrain.PacketSelection
import EngineeringIntelligence.CompanyBrain.Presentation

namespace EngineeringIntelligence.CompanyBrain

open EngineeringIntelligence.Framework

/-! Whether what a packet includes and what it says it leaves out come to what the context holds. -/

/-- Of how many items of a section it is said that they are left out. -/
def omitted (omissions : List ContextPacketOmission) (packetSection : ContextPacketSection) : Nat :=
  (omissions.map fun o => if o.packetSection = packetSection then o.count else 0).sum

def ContextPacket.included (p : ContextPacket) : ContextPacketSection → Nat
  | .relationships => p.relationships.length
  | .evidence => p.evidence.length
  | .limitations => p.limitations.length
  | .conflicts => p.conflictIds.length

def DecisionContext.items (context : DecisionContext) : ContextPacketSection → Nat
  | .relationships => context.relationships.length
  | .evidence => context.evidence.references.length
  | .limitations => context.limitations.length
  | .conflicts => context.conflictIds.length

def ContextPacketBudget.maximum (budget : ContextPacketBudget) : ContextPacketSection → Nat
  | .relationships => budget.maximumRelationships
  | .evidence => budget.maximumEvidence
  | .limitations => budget.maximumLimitations
  | .conflicts => budget.maximumConflicts

/-- The packet keeps to the budget and to the evidence of what it includes, and accounts for every item of
the context. -/
structure Accounted (floatRepr : ℚ → String) (context : DecisionContext) (budget : ContextPacketBudget)
    (p : ContextPacket) : Prop where
  bytes : p.renderedBytes floatRepr ≤ budget.maximumRenderedBytes
  within : ∀ part, p.included part ≤ budget.maximum part
  retained : ∀ r ∈ p.relationships, ∀ e ∈ r.evidence, e ∈ p.evidence
  counted : ∀ part, p.included part + omitted p.omissions part = context.items part
  whole : p.complete = true → p.relationships = context.relationships ∧
    p.evidence = context.evidence.references ∧ p.limitations = context.limitations ∧
    p.conflictIds = context.conflictIds

/-! ### Counts -/

namespace OmissionCounts

def counted (counts : OmissionCounts) (part : ContextPacketSection) : Nat :=
  (counts.rows.map fun row => if row.1.1 = part then (row.2 : Nat) else 0).sum

theorem omitted_omissions (counts : OmissionCounts) (part : ContextPacketSection) :
    omitted counts.omissions part = counts.counted part := by
  rw [omitted, omissions, List.map_map, counted]
  exact ((perm_sortedBy _ counts.rows).map _).sum_eq

/-- A sum over the rows, once a row is put in place of the one with its key. -/
theorem sum_put {ρ κ : Type} [DecidableEq κ] {key : ρ → κ} (t : Table key) (r : ρ) (f : ρ → Nat) :
    ((t.put r).rows.map f).sum + (t.get (key r)).elim 0 f = (t.rows.map f).sum + f r := by
  have hnodup : ∀ t : Table key, t.rows.Nodup := fun t => t.unique.of_map
  have hput : (t.put r).rows.Perm (r :: t.rows.filter fun x => key x ≠ key r) := by
    refine (List.perm_ext_iff_of_nodup (hnodup _) ?_).mpr fun x => ?_
    · exact List.nodup_cons.mpr ⟨by simp, (hnodup t).filter _⟩
    · rw [Table.mem_put, List.mem_cons, List.mem_filter, decide_eq_true_iff]
  cases hget : t.get (key r) with
  | none =>
    have hfilter : (t.rows.filter fun x => key x ≠ key r) = t.rows := by
      refine List.filter_eq_self.mpr fun x hx => decide_eq_true fun hk => ?_
      exact Table.get_eq_none_iff.mp hget (hk ▸ List.mem_map_of_mem hx)
    rw [(hput.map f).sum_eq, hfilter, List.map_cons, List.sum_cons, Option.elim_none]
    omega
  | some prior =>
    obtain ⟨hmem, hkey⟩ := Table.get_eq_some_iff.mp hget
    have hrows : t.rows.Perm (prior :: t.rows.filter fun x => key x ≠ key r) := by
      refine (List.perm_ext_iff_of_nodup (hnodup _) ?_).mpr fun x => ?_
      · exact List.nodup_cons.mpr ⟨by simp [hkey], (hnodup t).filter _⟩
      · rw [List.mem_cons, List.mem_filter, decide_eq_true_iff]
        constructor
        · intro hx
          by_cases hk : key x = key r
          · exact .inl (List.inj_on_of_nodup_map t.unique hx hmem (hk.trans hkey.symm))
          · exact .inr ⟨hx, hk⟩
        · rintro (rfl | ⟨hx, -⟩)
          · exact hmem
          · exact hx
    rw [(hput.map f).sum_eq, (hrows.map f).sum_eq, List.map_cons, List.sum_cons, List.map_cons, List.sum_cons,
      Option.elim_some]
    omega

theorem counted_record (counts : OmissionCounts) (part : ContextPacketSection)
    (reason : ContextPacketOmissionReason) (count : ℕ+) (part' : ContextPacketSection) :
    (counts.record part reason count).counted part' =
      counts.counted part' + if part' = part then (count : Nat) else 0 := by
  cases hget : counts.get (part, reason) with
  | none =>
    have hrecord : counts.record part reason count = counts.put ((part, reason), count) := by rw [record, hget]
    have hsum := sum_put counts ((part, reason), count) fun row => if row.1.1 = part' then (row.2 : Nat) else 0
    rw [hget, Option.elim_none, Nat.add_zero, ← hrecord] at hsum
    simpa only [counted, eq_comm] using hsum
  | some row =>
    have hrecord : counts.record part reason count = counts.put ((part, reason), row.2 + count) := by
      rw [record, hget]
    have hsum := sum_put counts ((part, reason), row.2 + count)
      fun row => if row.1.1 = part' then (row.2 : Nat) else 0
    obtain ⟨-, hkey⟩ := Table.get_eq_some_iff.mp hget
    rw [hget, Option.elim_some, ← hrecord, hkey] at hsum
    change counted _ _ + _ = counted _ _ + _ at hsum
    by_cases hpart : part' = part
    · subst hpart
      simp only [if_true, PNat.add_coe] at hsum ⊢
      omega
    · simp only [if_neg hpart, if_neg (Ne.symm hpart)] at hsum ⊢
      omega

theorem counted_empty (part : ContextPacketSection) : counted Table.empty part = 0 := rfl

end OmissionCounts

/-! ### The two passes -/

/-- The ids of the evidence that relationships cite. -/
def citedIds (relationships : List DecisionContextRelationship) : Finset String :=
  ((relationships.flatMap (·.evidence)).map (·.evidenceId)).toFinset

theorem citedIds_append (rs : List DecisionContextRelationship) (r : DecisionContextRelationship) :
    citedIds (rs ++ [r]) = citedIds rs ∪ r.evidenceIds := by
  simp [citedIds, DecisionContextRelationship.evidenceIds, List.toFinset_append]

theorem mem_citedIds {rs : List DecisionContextRelationship} {id : String} :
    id ∈ citedIds rs ↔ ∃ r ∈ rs, ∃ e ∈ r.evidence, e.evidenceId = id := by
  simp only [citedIds, List.mem_toFinset, List.mem_map, List.mem_flatMap]
  constructor
  · rintro ⟨e, ⟨r, hr, he⟩, rfl⟩
    exact ⟨r, hr, e, he, rfl⟩
  · rintro ⟨r, hr, e, he, rfl⟩
    exact ⟨e, ⟨r, hr, he⟩, rfl⟩

theorem citedIds_subset {rs rs' : List DecisionContextRelationship} (h : rs ⊆ rs') :
    citedIds rs ⊆ citedIds rs' := by
  intro id hid
  obtain ⟨r, hr, hrest⟩ := mem_citedIds.mp hid
  exact mem_citedIds.mpr ⟨r, h hr, hrest⟩

/-- What holds after the first pass has gone over some of the relationships. -/
structure Admitted (budget : ContextPacketBudget) (seen : List DecisionContextRelationship) (a : Admission) :
    Prop where
  kept : a.relationships.Sublist seen
  ids : a.evidenceIds = citedIds a.relationships
  counted : ∀ part, a.omissions.counted part +
    (if part = .relationships then a.relationships.length else 0) = if part = .relationships then seen.length else 0
  limit : a.relationships.length ≤ budget.maximumRelationships
  room : a.evidenceIds.card ≤ budget.maximumEvidence

theorem Admitted.take {budget : ContextPacketBudget} {seen : List DecisionContextRelationship} {a : Admission}
    (h : Admitted budget seen a) (r : DecisionContextRelationship) :
    Admitted budget (seen ++ [r]) (a.take budget r) := by
  unfold Admission.take
  split_ifs with hfull hroom
  · refine ⟨h.kept.trans (List.sublist_append_left seen [r]), h.ids, fun part => ?_, h.limit, h.room⟩
    have hpart := h.counted part
    dsimp only
    rw [OmissionCounts.counted_record, PNat.one_coe, List.length_append, List.length_singleton]
    split_ifs at hpart ⊢ <;> omega
  · refine ⟨h.kept.trans (List.sublist_append_left seen [r]), h.ids, fun part => ?_, h.limit, h.room⟩
    have hpart := h.counted part
    dsimp only
    rw [OmissionCounts.counted_record, PNat.one_coe, List.length_append, List.length_singleton]
    split_ifs at hpart ⊢ <;> omega
  · refine ⟨h.kept.append (List.Sublist.refl [r]), ?_, fun part => ?_, ?_, ?_⟩
    · dsimp only
      rw [citedIds_append, h.ids]
    · have hpart := h.counted part
      dsimp only
      rw [List.length_append, List.length_append, List.length_singleton]
      split_ifs at hpart ⊢ <;> omega
    · dsimp only
      rw [List.length_append, List.length_singleton]
      omega
    · exact Nat.le_of_not_lt hroom

theorem admission_admitted (budget : ContextPacketBudget) (relationships : List DecisionContextRelationship) :
    Admitted budget relationships (admission budget relationships) := by
  induction relationships using List.reverseRecOn with
  | nil =>
    refine ⟨List.Sublist.refl [], rfl, fun part => ?_, Nat.zero_le _, by simp [admission]⟩
    rw [admission, List.foldl_nil, OmissionCounts.counted_empty, List.length_nil]
    simp
  | append_singleton seen r ih =>
    rw [admission, List.foldl_append]
    exact ih.take r

/-- What holds after the second pass has gone over some of the references. -/
structure Extended (budget : ContextPacketBudget) (ids : Finset String) (counts : OmissionCounts)
    (seen : List EvidenceReference) (s : List EvidenceReference × OmissionCounts) : Prop where
  kept : s.1.Sublist (seen.filter (·.evidenceId ∉ ids))
  counted : ∀ part, s.2.counted part + (if part = .evidence then s.1.length else 0) =
    counts.counted part + if part = .evidence then (seen.filter (·.evidenceId ∉ ids)).length else 0
  room : ids.card + s.1.length ≤ budget.maximumEvidence

theorem Extended.addExtra {budget : ContextPacketBudget} {ids : Finset String} {counts : OmissionCounts}
    {seen : List EvidenceReference} {s : List EvidenceReference × OmissionCounts}
    (h : Extended budget ids counts seen s) (e : EvidenceReference) :
    Extended budget ids counts (seen ++ [e]) (addExtra budget ids s e) := by
  unfold CompanyBrain.addExtra
  split_ifs with hcited hroom
  · have hfilter : (seen ++ [e]).filter (·.evidenceId ∉ ids) = seen.filter (·.evidenceId ∉ ids) := by
      simp [List.filter_append, hcited]
    exact ⟨hfilter ▸ h.kept, hfilter ▸ h.counted, h.room⟩
  all_goals
    have hfilter : (seen ++ [e]).filter (·.evidenceId ∉ ids) = seen.filter (·.evidenceId ∉ ids) ++ [e] := by
      simp [List.filter_append, hcited]
  · refine ⟨hfilter ▸ h.kept.trans (List.sublist_append_left _ _), fun part => ?_, h.room⟩
    have hpart := h.counted part
    dsimp only
    rw [OmissionCounts.counted_record, PNat.one_coe, hfilter, List.length_append, List.length_singleton]
    split_ifs at hpart ⊢ <;> omega
  · refine ⟨hfilter ▸ h.kept.append (List.Sublist.refl [e]), fun part => ?_, ?_⟩
    · have hpart := h.counted part
      dsimp only
      rw [hfilter, List.length_append, List.length_append, List.length_singleton]
      split_ifs at hpart ⊢ <;> omega
    · dsimp only
      rw [List.length_append, List.length_singleton]
      omega

theorem extras_extended {budget : ContextPacketBudget} {ids : Finset String} (counts : OmissionCounts)
    (hroom : ids.card ≤ budget.maximumEvidence) (references : List EvidenceReference) :
    Extended budget ids counts references (references.foldl (addExtra budget ids) ([], counts)) := by
  induction references using List.reverseRecOn with
  | nil => exact ⟨List.Sublist.refl [], fun part => by simp, by simpa using hroom⟩
  | append_singleton seen e ih =>
    rw [List.foldl_append]
    exact ih.addExtra e

theorem takeTexts_fst (part : ContextPacketSection) (maximum : Nat) (texts : List String)
    (counts : OmissionCounts) : (takeTexts part maximum texts counts).1 = texts.take maximum := by
  unfold takeTexts
  dsimp only
  split <;> rfl

theorem counted_takeTexts (part : ContextPacketSection) (maximum : Nat) (texts : List String)
    (counts : OmissionCounts) (part' : ContextPacketSection) :
    (takeTexts part maximum texts counts).2.counted part' =
      counts.counted part' + if part' = part then texts.length - (texts.take maximum).length else 0 := by
  unfold takeTexts
  dsimp only
  split
  · exact OmissionCounts.counted_record counts part .itemLimit _ part'
  · next h => rw [Nat.sub_eq_zero_of_le (Nat.le_of_not_lt h), ite_self, Nat.add_zero]

/-! ### The loop -/

section
variable (context : DecisionContext) (budget : ContextPacketBudget)

/-- The relationships that the item limits admit. -/
def admittedRelationships : List DecisionContextRelationship :=
  (admission budget context.relationships).relationships

/-- What the inventory has of the references that admitted relationships cite, and of the others. -/
def inventoried : List EvidenceReference :=
  context.evidence.references.filter (·.evidenceId ∈ citedIds (admittedRelationships context budget))

def uncited : List EvidenceReference :=
  context.evidence.references.filter (·.evidenceId ∉ citedIds (admittedRelationships context budget))

/-- What a selection draws on for a section. -/
def DecisionContext.supply : ContextPacketSection → Nat
  | .evidence => (uncited context budget).length
  | part => context.items part

def Selection.count (s : Selection) : ContextPacketSection → Nat
  | .relationships => s.relationships.length
  | .evidence => s.extras.length
  | .limitations => s.limitations.length
  | .conflicts => s.conflicts.length

/-- What holds of the selection at each round of the loop. -/
structure Balanced (s : Selection) : Prop where
  relationships : s.relationships.IsPrefix (admittedRelationships context budget)
  extras : s.extras.Sublist (uncited context budget)
  limitations : s.limitations.IsPrefix context.limitations
  conflicts : s.conflicts.IsPrefix context.conflictIds
  room : (citedIds (admittedRelationships context budget)).card + s.extras.length ≤ budget.maximumEvidence
  limits : s.limitations.length ≤ budget.maximumLimitations ∧ s.conflicts.length ≤ budget.maximumConflicts
  counted : ∀ part, s.count part + s.omissions.counted part = context.supply budget part

theorem selection_balanced : Balanced context budget (selection context budget) := by
  have ha := admission_admitted budget context.relationships
  have he := extras_extended (admission budget context.relationships).omissions ha.room context.evidence.references
  have hids : (admission budget context.relationships).evidenceIds =
      citedIds (admittedRelationships context budget) := ha.ids
  have huncited : uncited context budget = context.evidence.references.filter
      (·.evidenceId ∉ (admission budget context.relationships).evidenceIds) := by rw [hids, uncited]
  refine ⟨List.prefix_rfl, ?_, ?_, ?_, ?_, ⟨?_, ?_⟩, fun part => ?_⟩
  · rw [huncited]
    exact he.kept
  · change (takeTexts _ _ _ _).1.IsPrefix _
    rw [takeTexts_fst]
    exact List.take_prefix _ _
  · change (takeTexts _ _ _ _).1.IsPrefix _
    rw [takeTexts_fst]
    exact List.take_prefix _ _
  · have hroom := he.room
    rw [← hids]
    exact hroom
  · change (takeTexts _ _ _ _).1.length ≤ _
    rw [takeTexts_fst]
    exact List.length_take_le _ _
  · change (takeTexts _ _ _ _).1.length ≤ _
    rw [takeTexts_fst]
    exact List.length_take_le _ _
  · have hadmitted := ha.counted part
    have hextended := he.counted part
    rw [← huncited] at hextended
    change Selection.count _ part + (takeTexts _ _ _ (takeTexts _ _ _ _).2).2.counted part = _
    rw [counted_takeTexts, counted_takeTexts]
    have hlimitations := List.length_take_le' budget.maximumLimitations context.limitations
    have hconflicts := List.length_take_le' budget.maximumConflicts context.conflictIds
    cases part with
    | relationships =>
      simp only [if_true, reduceCtorEq, if_false, Nat.add_zero] at hadmitted hextended ⊢
      change (admission budget context.relationships).relationships.length + _ = context.relationships.length
      omega
    | evidence =>
      simp only [if_true, reduceCtorEq, if_false, Nat.add_zero] at hadmitted hextended ⊢
      change (selection context budget).extras.length + _ = (uncited context budget).length
      change _ + (selection context budget).extras.length = _ at hextended
      omega
    | limitations =>
      simp only [if_true, reduceCtorEq, if_false, Nat.add_zero] at hadmitted hextended ⊢
      change (takeTexts _ _ _ _).1.length + _ = context.limitations.length
      rw [takeTexts_fst]
      omega
    | conflicts =>
      simp only [if_true, reduceCtorEq, if_false, Nat.add_zero] at hadmitted hextended ⊢
      change (takeTexts _ _ _ _).1.length + _ = context.conflictIds.length
      rw [takeTexts_fst]
      omega

variable {context budget}

/-- What is given up is counted. -/
theorem Selection.counted_pop {s s' : Selection} (hpop : s.pop = some s') (part : ContextPacketSection) :
    s'.count part + s'.omissions.counted part = s.count part + s.omissions.counted part := by
  unfold Selection.pop at hpop
  split_ifs at hpop with hitems hitems hitems hitems
  all_goals
    obtain rfl := Option.some.inj hpop
    have hlength := List.length_pos_iff.mpr hitems
    dsimp only
    rw [OmissionCounts.counted_record, PNat.one_coe]
    cases part <;> simp only [Selection.count, List.length_dropLast, if_true, reduceCtorEq, if_false] <;> omega

theorem Balanced.pop {s s' : Selection} (h : Balanced context budget s) (hpop : s.pop = some s') :
    Balanced context budget s' := by
  have hcounted : ∀ part, s'.count part + s'.omissions.counted part = context.supply budget part := fun part =>
    (Selection.counted_pop hpop part).trans (h.counted part)
  unfold Selection.pop at hpop
  split_ifs at hpop
  all_goals obtain rfl := Option.some.inj hpop
  · refine ⟨h.relationships, (List.dropLast_sublist _).trans h.extras, h.limitations, h.conflicts, ?_, h.limits,
      hcounted⟩
    have hroom := h.room
    simp only [List.length_dropLast]
    omega
  · refine ⟨h.relationships, h.extras, (List.dropLast_prefix _).trans h.limitations, h.conflicts, h.room,
      ⟨?_, h.limits.2⟩, hcounted⟩
    have hlimit := h.limits.1
    simp only [List.length_dropLast]
    omega
  · refine ⟨h.relationships, h.extras, h.limitations, (List.dropLast_prefix _).trans h.conflicts, h.room,
      ⟨h.limits.1, ?_⟩, hcounted⟩
    have hlimit := h.limits.2
    simp only [List.length_dropLast]
    omega
  · exact ⟨(List.dropLast_prefix _).trans h.relationships, h.extras, h.limitations, h.conflicts, h.room, h.limits,
      hcounted⟩

end

/-! ### The evidence of a packet -/

/-- No id has two representations. -/
def Unambiguous (references : List EvidenceReference) : Prop :=
  ∀ a ∈ references, ∀ b ∈ references, a.evidenceId = b.evidenceId → a = b

theorem unambiguous_congr {es es' : List EvidenceReference} (h : ∀ e, e ∈ es ↔ e ∈ es') :
    Unambiguous es ↔ Unambiguous es' := by
  unfold Unambiguous
  simp only [h]

/-- References that agree are all added, and others are refused. -/
theorem addReferences (references : List EvidenceReference) (t : Table EvidenceReference.evidenceId) :
    (Unambiguous (t.rows ++ references) ∧ ∃ t', references.foldlM addEvidenceReference t = .ok t' ∧
      ∀ e, e ∈ t'.rows ↔ e ∈ t.rows ++ references) ∨
    (¬Unambiguous (t.rows ++ references) ∧ ∃ x, references.foldlM addEvidenceReference t = .error x) := by
  induction references generalizing t with
  | nil =>
    rw [List.append_nil]
    exact .inl ⟨fun a ha b hb hid => List.inj_on_of_nodup_map t.unique ha hb hid, t, rfl, fun _ => Iff.rfl⟩
  | cons e references ih =>
    rw [List.foldlM_cons]
    cases hget : t.get e.evidenceId with
    | none =>
      have hadd : addEvidenceReference t e = .ok (t.put e) := by rw [addEvidenceReference, hget]
      have hmem : ∀ x, x ∈ (t.put e).rows ++ references ↔ x ∈ t.rows ++ e :: references := by
        intro x
        have hother : x ∈ t.rows → x.evidenceId ≠ e.evidenceId := fun hx hid =>
          Table.get_eq_none_iff.mp hget (hid ▸ List.mem_map_of_mem hx)
        rw [List.mem_append, List.mem_append, List.mem_cons, Table.mem_put]
        tauto
      rw [hadd, ok_bind, ← unambiguous_congr hmem]
      simp only [← hmem]
      exact ih (t.put e)
    | some prior =>
      obtain ⟨hprior, hid⟩ := Table.get_eq_some_iff.mp hget
      by_cases hsame : prior = e
      · subst hsame
        have hadd : addEvidenceReference t prior = .ok t := by simp [addEvidenceReference, hget]
        have hmem : ∀ x, x ∈ t.rows ++ references ↔ x ∈ t.rows ++ prior :: references := by
          intro x
          rw [List.mem_append, List.mem_append, List.mem_cons]
          constructor
          · tauto
          · rintro (hx | rfl | hx)
            · exact .inl hx
            · exact .inl hprior
            · exact .inr hx
        rw [hadd, ok_bind, ← unambiguous_congr hmem]
        simp only [← hmem]
        exact ih t
      · have hadd : addEvidenceReference t e =
            .error ⟨"context packet has conflicting representations of one evidence reference"⟩ := by
          simp [addEvidenceReference, hget, hsame]
        refine .inr ⟨fun hunambiguous => hsame ?_, _, by rw [hadd]; rfl⟩
        exact hunambiguous prior (List.mem_append_left _ hprior) e (by simp) hid

section
variable {relationships : List DecisionContextRelationship} {extras : List EvidenceReference}

theorem packetEvidence_isOk : (∃ evidence, packetEvidence relationships extras = .ok evidence) ↔
    Unambiguous (relationships.flatMap (·.evidence) ++ extras) := by
  rcases addReferences (relationships.flatMap (·.evidence) ++ extras) Table.empty with
    ⟨hunambiguous, t, ht, -⟩ | ⟨hambiguous, x, hx⟩
  · exact iff_of_true ⟨_, by rw [packetEvidence, ht, ok_bind]; rfl⟩ hunambiguous
  · refine iff_of_false ?_ hambiguous
    rintro ⟨evidence, h⟩
    rw [packetEvidence, hx] at h
    cases h

/-- What the evidence of a packet is: each reference once, in the order of the ids. -/
theorem packetEvidence_eq_ok {evidence : List EvidenceReference}
    (h : packetEvidence relationships extras = .ok evidence) :
    (∀ e, e ∈ evidence ↔ e ∈ relationships.flatMap (·.evidence) ++ extras) ∧
      evidence = sortedBy (·.evidenceId) evidence ∧ (evidence.map (·.evidenceId)).Nodup := by
  obtain ⟨t, ht, h⟩ := bind_eq_ok_iff.mp h
  obtain rfl := Except.ok.inj h
  rcases addReferences (relationships.flatMap (·.evidence) ++ extras) Table.empty with
    ⟨-, t', ht', hmem⟩ | ⟨-, x, hx⟩
  · obtain rfl := Except.ok.inj (ht.symm.trans ht')
    refine ⟨fun e => ?_, (sortedBy_sortedBy _ _).symm, ?_⟩
    · rw [mem_sortedBy]
      exact hmem e
    · exact ((perm_sortedBy _ t.rows).map _).nodup_iff.mpr t.unique
  · rw [hx] at ht
    cases ht

end

section
variable {context : DecisionContext} {budget : ContextPacketBudget} {s : Selection}

theorem references_unique (context : DecisionContext) :
    context.evidence.references = sortedBy (·.evidenceId) context.evidence.references ∧
      (context.evidence.references.map (·.evidenceId)).Nodup := by
  have hvalid := bundleProblem_eq_none.mp context.evidence.valid
  exact ⟨hvalid.1, hvalid.2.1⟩

theorem Balanced.citedIds_subset (h : Balanced context budget s) :
    citedIds s.relationships ⊆ citedIds (admittedRelationships context budget) :=
  CompanyBrain.citedIds_subset h.relationships.subset

theorem Balanced.extra (h : Balanced context budget s) {e : EvidenceReference} (he : e ∈ s.extras) :
    e ∈ context.evidence.references ∧ e.evidenceId ∉ citedIds (admittedRelationships context budget) := by
  have hmem := h.extras.subset he
  rw [uncited, List.mem_filter, decide_eq_true_iff] at hmem
  exact hmem

/-- Extras have ids of their own, so that it is for the relationships to agree. -/
theorem Balanced.unambiguous_iff (h : Balanced context budget s) :
    Unambiguous (s.relationships.flatMap (·.evidence) ++ s.extras) ↔
      Unambiguous (s.relationships.flatMap (·.evidence)) := by
  have hother : ∀ a ∈ s.relationships.flatMap (·.evidence), ∀ b ∈ s.extras, a.evidenceId ≠ b.evidenceId := by
    intro a ha b hb hid
    obtain ⟨r, hr, har⟩ := List.mem_flatMap.mp ha
    exact (h.extra hb).2 (h.citedIds_subset (mem_citedIds.mpr ⟨r, hr, a, har, hid⟩))
  constructor
  · intro hunambiguous a ha b hb
    exact hunambiguous a (List.mem_append_left _ ha) b (List.mem_append_left _ hb)
  · intro hunambiguous a ha b hb hid
    rcases List.mem_append.mp ha with ha | ha <;> rcases List.mem_append.mp hb with hb | hb
    · exact hunambiguous a ha b hb hid
    · exact absurd hid (hother a ha b hb)
    · exact absurd hid.symm (hother b hb a ha)
    · exact List.inj_on_of_nodup_map (references_unique context).2 (h.extra ha).1 (h.extra hb).1 hid

/-- How much evidence a packet has: what its relationships cite, and the extras. -/
theorem Balanced.evidence_length (h : Balanced context budget s) {evidence : List EvidenceReference}
    (hevidence : packetEvidence s.relationships s.extras = .ok evidence) :
    evidence.length = (citedIds s.relationships).card + s.extras.length := by
  obtain ⟨hmem, -, hnodup⟩ := packetEvidence_eq_ok hevidence
  have hextras : (s.extras.map (·.evidenceId)).Nodup :=
    (references_unique context).2.sublist ((h.extras.trans List.filter_sublist).map _)
  have hids : (evidence.map (·.evidenceId)).toFinset =
      citedIds s.relationships ∪ (s.extras.map (·.evidenceId)).toFinset := by
    ext id
    simp only [citedIds, List.mem_toFinset, Finset.mem_union, List.mem_map, hmem, List.mem_append, or_and_right,
      exists_or]
  have hdisjoint : Disjoint (citedIds s.relationships) (s.extras.map (·.evidenceId)).toFinset := by
    rw [Finset.disjoint_left]
    intro id hid hextra
    obtain ⟨e, he, rfl⟩ := List.mem_map.mp (List.mem_toFinset.mp hextra)
    exact (h.extra he).2 (h.citedIds_subset hid)
  rw [← List.length_map (·.evidenceId), ← List.toFinset_card_of_nodup hnodup, hids,
    Finset.card_union_of_disjoint hdisjoint, List.toFinset_card_of_nodup hextras, List.length_map]

end

/-! ### The packet of a selection -/

section
variable {floatRepr : ℚ → String} {sha256 : String → String}

theorem ContextPacket.problem_eq_none {p : ContextPacket} : p.problem floatRepr = none ↔
    required 240 p.contextVersion = true ∧ (0 ≤ p.confidence ∧ p.confidence ≤ 1) ∧
      p.relationships.length ≤ p.budget.maximumRelationships ∧ p.evidence.length ≤ p.budget.maximumEvidence ∧
      p.limitations.length ≤ p.budget.maximumLimitations ∧ p.conflictIds.length ≤ p.budget.maximumConflicts ∧
      p.relationships = sortedBy (·.key.order) p.relationships ∧ (p.relationships.map (·.key)).Nodup ∧
      p.evidence = sortedBy (·.evidenceId) p.evidence ∧ (p.evidence.map (·.evidenceId)).Nodup ∧
      (p.limitations = sortedSet p.limitations ∧ ∀ text ∈ p.limitations, required 500 text = true) ∧
      (p.conflictIds = sortedSet p.conflictIds ∧ ∀ text ∈ p.conflictIds, required 240 text = true) ∧
      p.omissions = sortedBy (fun o => omissionOrder o.key) p.omissions ∧ (p.omissions.map (·.key)).Nodup ∧
      (∀ r ∈ p.relationships, ∀ e ∈ r.evidence, e.evidenceId ∈ p.evidence.map (·.evidenceId)) ∧
      p.renderedBytes floatRepr ≤ p.budget.maximumRenderedBytes := by
  unfold ContextPacket.problem
  simp only [Option.or_eq_none_iff, invalid_eq_none, ite_some_eq_none_iff, ne_eq, not_not, Nat.not_lt,
    sortedUniqueTexts_eq_none, and_true]

section
variable (context : DecisionContext) (budget : ContextPacketBudget)

/-- The packet of a selection with its evidence, but for the digest. -/
def Selection.draft (s : Selection) (evidence : List EvidenceReference) : ContextPacket :=
  ⟨context.contextVersion, context.qualified, context.confidence, s.relationships, evidence, s.limitations,
    s.conflicts, s.omissions.omissions, budget, ""⟩

variable {context budget} {s : Selection}

theorem Selection.packet_eq_ok {p : ContextPacket} :
    s.packet floatRepr sha256 context budget = .ok p ↔ ∃ evidence,
      packetEvidence s.relationships s.extras = .ok evidence ∧
      (s.draft context budget evidence).problem floatRepr = none ∧
      p = { s.draft context budget evidence with
        digest := "sha256:" ++ sha256 ((s.draft context budget evidence).canonicalJson floatRepr) } := by
  rw [Selection.packet, bind_eq_ok_iff]
  refine exists_congr fun evidence => and_congr_right fun _ => ?_
  unfold ContextPacket.make
  dsimp only
  split
  · next message hproblem =>
    have hdraft : (s.draft context budget evidence).problem floatRepr = some message := hproblem
    simp [hdraft]
  · next hproblem =>
    have hdraft : (s.draft context budget evidence).problem floatRepr = none := hproblem
    simp only [hdraft, Except.ok.injEq, true_and]
    exact eq_comm

theorem Selection.fits_eq_ok {b : Bool} : s.fits floatRepr context budget = .ok b ↔ ∃ evidence,
    packetEvidence s.relationships s.extras = .ok evidence ∧
      decide ((s.draft context budget evidence).renderedBytes floatRepr ≤ budget.maximumRenderedBytes) = b := by
  rw [Selection.fits, Selection.renderedBytes, bind_eq_ok_iff]
  constructor
  · rintro ⟨bytes, hbytes, hb⟩
    obtain ⟨evidence, hevidence, hbytes⟩ := bind_eq_ok_iff.mp hbytes
    obtain rfl := Except.ok.inj hbytes
    exact ⟨evidence, hevidence, Except.ok.inj hb⟩
  · rintro ⟨evidence, hevidence, rfl⟩
    exact ⟨_, bind_eq_ok_iff.mpr ⟨evidence, hevidence, rfl⟩, rfl⟩

theorem OmissionCounts.omissions_sorted (counts : OmissionCounts) :
    counts.omissions = sortedBy (fun o => omissionOrder o.key) counts.omissions := by
  refine (sortedBy_of_pairwise ?_).symm
  rw [OmissionCounts.omissions, List.pairwise_map]
  exact pairwise_sortedBy (fun row : CountedOmission => omissionOrder row.1) counts.rows

theorem OmissionCounts.omissions_unique (counts : OmissionCounts) : (counts.omissions.map (·.key)).Nodup := by
  rw [OmissionCounts.omissions, List.map_map]
  exact ((perm_sortedBy _ counts.rows).map Prod.fst).nodup_iff.mpr counts.unique

theorem sublist_increasing {xs ys : List String} (h : xs.Sublist ys) (hys : ys = sortedSet ys) :
    xs = sortedSet xs := by
  have hincreasing := pairwise_sortedSet ys
  rw [← hys] at hincreasing
  exact (sortedSet_of_increasing (hincreasing.sublist h)).symm

/-- All checks of a packet pass but the one for its size. -/
theorem Balanced.problem_eq_none (h : Balanced context budget s) {evidence : List EvidenceReference}
    (hevidence : packetEvidence s.relationships s.extras = .ok evidence) :
    (s.draft context budget evidence).problem floatRepr = none ↔
      (s.draft context budget evidence).renderedBytes floatRepr ≤ budget.maximumRenderedBytes := by
  obtain ⟨hversion, hconfidence, hsorted, hunique, ⟨hlimitations, htexts⟩, hconflicts, hids⟩ :=
    decisionProblem_eq_none.mp context.valid
  have ha := admission_admitted budget context.relationships
  have hkept : s.relationships.Sublist context.relationships := h.relationships.sublist.trans ha.kept
  obtain ⟨hmem, hevidenceSorted, hevidenceUnique⟩ := packetEvidence_eq_ok hevidence
  rw [ContextPacket.problem_eq_none]
  constructor
  · rintro ⟨-, -, -, -, -, -, -, -, -, -, -, -, -, -, -, hbytes⟩
    exact hbytes
  · intro hbytes
    refine ⟨hversion, hconfidence, h.relationships.length_le.trans ha.limit, ?_, h.limits.1, h.limits.2, ?_,
      hunique.sublist (hkept.map _), hevidenceSorted, hevidenceUnique,
      ⟨sublist_increasing h.limitations.sublist hlimitations, fun text ht => htexts text (h.limitations.subset ht)⟩,
      ⟨sublist_increasing h.conflicts.sublist hconflicts, fun text ht => hids text (h.conflicts.subset ht)⟩,
      s.omissions.omissions_sorted, s.omissions.omissions_unique, ?_, hbytes⟩
    · have hcard := Finset.card_le_card h.citedIds_subset
      have hroom := h.room
      change evidence.length ≤ _
      rw [h.evidence_length hevidence]
      exact (Nat.add_le_add_right hcard _).trans hroom
    · have hpairwise := pairwise_sortedBy (fun r : DecisionContextRelationship => r.key.order) context.relationships
      rw [← hsorted] at hpairwise
      exact (sortedBy_of_pairwise (hpairwise.sublist hkept)).symm
    · intro r hr e he
      exact List.mem_map_of_mem ((hmem e).mpr (List.mem_append_left _ (List.mem_flatMap.mpr ⟨r, hr, he⟩)))

theorem inventory_length (context : DecisionContext) (budget : ContextPacketBudget) :
    (inventoried context budget).length + (uncited context budget).length = context.evidence.references.length := by
  have hsplit := context.evidence.references.length_eq_length_filter_add
    fun e => decide (e.evidenceId ∈ citedIds (admittedRelationships context budget))
  rw [inventoried, uncited, hsplit]
  simp only [decide_not]

/-- With the evidence of the inventory alone, a selection that leaves nothing out has all of it. -/
theorem Balanced.whole_evidence (h : Balanced context budget s) {evidence : List EvidenceReference}
    (hevidence : packetEvidence s.relationships s.extras = .ok evidence)
    (hcited : ∀ r ∈ s.relationships, ∀ e ∈ r.evidence, e ∈ context.evidence.references)
    (hlength : evidence.length = context.evidence.references.length) :
    evidence = context.evidence.references := by
  obtain ⟨hmem, hsorted, hunique⟩ := packetEvidence_eq_ok hevidence
  obtain ⟨hrefsSorted, hrefsUnique⟩ := references_unique context
  have hsubset : evidence ⊆ context.evidence.references := by
    intro e he
    rcases List.mem_append.mp ((hmem e).mp he) with hflat | hextra
    · obtain ⟨r, hr, her⟩ := List.mem_flatMap.mp hflat
      exact hcited r hr e her
    · exact (h.extra hextra).1
  have hperm : evidence.Perm context.evidence.references :=
    (List.subperm_of_subset hunique.of_map hsubset).perm_of_length_le hlength.ge
  rw [hsorted, hrefsSorted]
  refine sortedBy_perm hperm fun a ha b hb hid => ?_
  exact List.inj_on_of_nodup_map hrefsUnique (hsubset ha) hb hid

/-- What holds of the packet of any selection: the limits, the evidence of what is included, and the counts but
for the evidence. -/
theorem Balanced.bounded (h : Balanced context budget s) {evidence : List EvidenceReference}
    (hevidence : packetEvidence s.relationships s.extras = .ok evidence)
    (hproblem : (s.draft context budget evidence).problem floatRepr = none) :
    (s.draft context budget evidence).renderedBytes floatRepr ≤ budget.maximumRenderedBytes ∧
      (∀ part, (s.draft context budget evidence).included part ≤ budget.maximum part) ∧
      (∀ r ∈ s.relationships, ∀ e ∈ r.evidence, e ∈ evidence) ∧
      ∀ part, part ≠ .evidence → (s.draft context budget evidence).included part +
        omitted s.omissions.omissions part = context.items part := by
  obtain ⟨-, -, hrelationships, hroom, hlimitations, hconflicts, -, -, -, -, -, -, -, -, -, hbytes⟩ :=
    ContextPacket.problem_eq_none.mp hproblem
  obtain ⟨hmem, -, -⟩ := packetEvidence_eq_ok hevidence
  refine ⟨hbytes, fun part => ?_, fun r hr e he => ?_, fun part hpart => ?_⟩
  · cases part with
    | relationships => exact hrelationships
    | evidence => exact hroom
    | limitations => exact hlimitations
    | conflicts => exact hconflicts
  · exact (hmem e).mpr (List.mem_append_left _ (List.mem_flatMap.mpr ⟨r, hr, he⟩))
  · rw [OmissionCounts.omitted_omissions]
    cases part with
    | relationships => exact h.counted .relationships
    | evidence => exact absurd rfl hpart
    | limitations => exact h.counted .limitations
    | conflicts => exact h.counted .conflicts

/-- A selection that leaves nothing out has all relationships, limitations and conflicts. -/
theorem Balanced.kept_all (h : Balanced context budget s) (hnone : s.omissions.omissions = []) :
    s.relationships = context.relationships ∧ s.limitations = context.limitations ∧
      s.conflicts = context.conflictIds := by
  have hcount : ∀ part, s.count part = context.supply budget part := fun part => by
    have hpart := h.counted part
    rw [← OmissionCounts.omitted_omissions, hnone] at hpart
    exact hpart
  have hadmitted := (admission_admitted budget context.relationships).kept
  exact ⟨(h.relationships.sublist.trans hadmitted).eq_of_length (hcount .relationships),
    h.limitations.sublist.eq_of_length (hcount .limitations),
    h.conflicts.sublist.eq_of_length (hcount .conflicts)⟩

/-- What is to be seen of a selection for its packet to be accounted for. -/
theorem Balanced.accounted_iff (h : Balanced context budget s) {p : ContextPacket}
    (hp : s.packet floatRepr sha256 context budget = .ok p) : Accounted floatRepr context budget p ↔
      (citedIds s.relationships).card = (inventoried context budget).length ∧
        (s.omissions.omissions = [] →
          ∀ r ∈ context.relationships, ∀ e ∈ r.evidence, e ∈ context.evidence.references) := by
  obtain ⟨evidence, hevidence, hproblem, rfl⟩ := Selection.packet_eq_ok.mp hp
  obtain ⟨hbytes, hwithin, hretained, hcounted⟩ := h.bounded hevidence hproblem
  have hlength := h.evidence_length hevidence
  have hinventory := inventory_length context budget
  have hextras : s.extras.length + omitted s.omissions.omissions .evidence = (uncited context budget).length := by
    rw [OmissionCounts.omitted_omissions]
    exact h.counted .evidence
  constructor
  · intro haccounted
    refine ⟨?_, fun hnone r hr e he => ?_⟩
    · have hevery : evidence.length + omitted s.omissions.omissions .evidence =
          context.evidence.references.length := haccounted.counted .evidence
      omega
    · obtain ⟨hwhole, hreferences, -⟩ : s.relationships = context.relationships ∧
          evidence = context.evidence.references ∧ _ := haccounted.whole (List.isEmpty_iff.mpr hnone)
      rw [← hreferences]
      exact hretained r (hwhole ▸ hr) e he
  · rintro ⟨hcard, hcited⟩
    refine ⟨hbytes, hwithin, hretained, fun part => ?_, fun hcomplete => ?_⟩
    · by_cases hpart : part = .evidence
      · subst hpart
        change evidence.length + omitted s.omissions.omissions .evidence = context.evidence.references.length
        omega
      · exact hcounted part hpart
    · have hnone : s.omissions.omissions = [] := List.isEmpty_iff.mp hcomplete
      obtain ⟨hsame, hlimitations, hconflicts⟩ := h.kept_all hnone
      have hall : ∀ r ∈ s.relationships, ∀ e ∈ r.evidence, e ∈ context.evidence.references :=
        hsame ▸ hcited hnone
      have hnothing : omitted s.omissions.omissions .evidence = 0 := by
        rw [hnone]
        rfl
      have hevery : evidence.length = context.evidence.references.length := by omega
      exact ⟨hsame, h.whole_evidence hevidence hall hevery, hlimitations, hconflicts⟩

end

/-! ### The whole function -/

variable (floatRepr sha256) (context : DecisionContext) (budget : ContextPacketBudget)

/-- The selection at which the loop stops: it fits, and those that it comes from do not. -/
def Settled (s : Selection) : Prop :=
  FirstPassing (Selection.fits floatRepr context budget) Selection.popper (selection context budget) s

/-- The admitted relationships do not cite one id in two forms. -/
def Citable : Prop := Unambiguous ((admittedRelationships context budget).flatMap (·.evidence))

/-- Where a selection is settled, its relationships cite as many references as the inventory has of those that
the admitted ones cite; and where nothing is left out, all that is cited is in the inventory. -/
def KeepsInventory : Prop := ∀ s, Settled floatRepr context budget s →
  (citedIds s.relationships).card = (inventoried context budget).length ∧
    (s.omissions.omissions = [] →
      ∀ r ∈ context.relationships, ∀ e ∈ r.evidence, e ∈ context.evidence.references)

variable {floatRepr sha256 context budget}

theorem Citable.fits (hcitable : Citable context budget) {s : Selection} (h : Balanced context budget s) :
    ∃ b, s.fits floatRepr context budget = .ok b := by
  have hunambiguous : Unambiguous (s.relationships.flatMap (·.evidence)) := by
    have hsubset : s.relationships.flatMap (·.evidence) ⊆
        (admittedRelationships context budget).flatMap (·.evidence) := by
      intro e he
      obtain ⟨r, hr, her⟩ := List.mem_flatMap.mp he
      exact List.mem_flatMap.mpr ⟨r, h.relationships.subset hr, her⟩
    exact fun a ha b hb => hcitable a (hsubset ha) b (hsubset hb)
  obtain ⟨evidence, hevidence⟩ := packetEvidence_isOk.mpr (h.unambiguous_iff.mpr hunambiguous)
  exact ⟨_, Selection.fits_eq_ok.mpr ⟨evidence, hevidence, rfl⟩⟩

theorem Settled.balanced {s : Selection} (h : Settled floatRepr context budget s) : Balanced context budget s := by
  obtain ⟨n, hn, -, -⟩ := h
  exact dropped_keeps (fun _ _ hbalanced hpop => hbalanced.pop hpop) (selection_balanced context budget) hn

theorem contextPacket_eq_ok_iff {p : ContextPacket} :
    contextPacketFromDecisionContext floatRepr sha256 context budget = .ok p ↔
      Citable context budget ∧ ∃ s, Settled floatRepr context budget s ∧
        s.packet floatRepr sha256 context budget = .ok p := by
  have hstart := selection_balanced context budget
  rw [contextPacketFromDecisionContext, bind_eq_ok_iff]
  by_cases hcitable : Citable context budget
  · have hloop : ∀ s, dropUntil (Selection.fits floatRepr context budget) Selection.popper
        (selection context budget) = .ok (some s) ↔ Settled floatRepr context budget s := fun s =>
      dropUntil_eq_some_iff (P := Balanced context budget) (fun _ _ hbalanced hpop => hbalanced.pop hpop)
        (fun _ hbalanced => hcitable.fits hbalanced) hstart
    rw [and_iff_right hcitable]
    constructor
    · rintro ⟨settled, hsettled, hp⟩
      cases settled with
      | none => cases hp
      | some s => exact ⟨s, (hloop s).mp hsettled, hp⟩
    · rintro ⟨s, hsettled, hp⟩
      exact ⟨some s, (hloop s).mpr hsettled, hp⟩
  · refine iff_of_false ?_ fun h => hcitable h.1
    rintro ⟨settled, hsettled, -⟩
    have herror : ∃ x, (selection context budget).fits floatRepr context budget = .error x := by
      cases hfits : (selection context budget).fits floatRepr context budget with
      | error x => exact ⟨x, rfl⟩
      | ok b =>
        obtain ⟨evidence, hevidence, -⟩ := Selection.fits_eq_ok.mp hfits
        exact absurd (hstart.unambiguous_iff.mp (packetEvidence_isOk.mp ⟨evidence, hevidence⟩)) hcitable
    obtain ⟨x, hx⟩ := herror
    rw [dropUntil_of_error hx] at hsettled
    cases hsettled

/-- A settled selection has a packet. -/
theorem Settled.packet {s : Selection} (h : Settled floatRepr context budget s) :
    ∃ p, s.packet floatRepr sha256 context budget = .ok p := by
  obtain ⟨n, hn, hfits, hbefore⟩ := h
  obtain ⟨evidence, hevidence, hbytes⟩ := Selection.fits_eq_ok.mp hfits
  have hbalanced := Settled.balanced ⟨n, hn, hfits, hbefore⟩
  exact ⟨_, Selection.packet_eq_ok.mpr
    ⟨evidence, hevidence, (hbalanced.problem_eq_none hevidence).mpr (of_decide_eq_true hbytes), rfl⟩⟩

end

/-! ### A packet that loses a reference -/

namespace CheckoutDependencies

def payments : EvidenceReference :=
  ⟨"catalog:payments", "service_catalog", "https://catalog.example.com/services/payments", "2024-03-01", true,
    by decide +kernel⟩

def stock : EvidenceReference :=
  ⟨"catalog:stock", "service_catalog", "https://catalog.example.com/services/stock", "2024-03-01", true,
    by decide +kernel⟩

def onPayments : DecisionContextRelationship :=
  ⟨"service:checkout", "Checkout service", .dependsOn, "service:payments", "Payments service", 1, .fresh, [payments],
    by decide +kernel⟩

def onStock : DecisionContextRelationship :=
  ⟨"service:checkout", "Checkout service", .dependsOn, "service:stock", "Stock service", 1, .fresh, [stock],
    by decide +kernel⟩

def context : DecisionContext :=
  ⟨"world:7", true, 1, [onPayments, onStock], ⟨.measured, [payments, stock], [], by decide +kernel⟩, [], [],
    by decide +kernel⟩

/-- The default limits, with the least number of bytes. -/
def budget : ContextPacketBudget :=
  ⟨20, 40, 12, 12, 1024, default_relationships, default_evidence, default_rows, default_rows, by decide⟩

/-- The `repr` of the one confidence. -/
def floatRepr (_ : ℚ) : String := "1.0"

/-- SHA-256 on the one text that is hashed. -/
def sha256 (_ : String) : String := "ffda15359cbc9944bcc7a9f41ce9fb8d1a520d38c5ab9cecbf18c5186fb1083c"

/-- One relationship is given up. -/
def settled : Selection := (selection context budget).pop.getD (selection context budget)

theorem settled_settled : Settled floatRepr context budget settled := by
  have hsome : (selection context budget).pop.isSome = true := by decide
  obtain ⟨hlarge, hfits⟩ : (selection context budget).fits floatRepr context budget = .ok false ∧
      settled.fits floatRepr context budget = .ok true := by decide +kernel
  refine ⟨1, ?_, hfits, fun m hm u hu => ?_⟩
  · obtain ⟨s, hs⟩ := Option.isSome_iff_exists.mp hsome
    change (selection context budget).pop.bind some = some settled
    rw [settled, hs]
    rfl
  · obtain rfl := Nat.lt_one_iff.mp hm
    rw [← Option.some.inj hu]
    exact hlarge

end CheckoutDependencies

end EngineeringIntelligence.CompanyBrain
