import EngineeringIntelligence.Framework.Effect
import Mathlib.Tactic.Tauto

namespace EngineeringIntelligence.Framework

/-! Plans: sweeps whose items are told in advance which of them have something to do and which
would be refused, because no item disturbs what another one looks at. -/

section
variable {σ ε ι : Type}

/-- The items of a plan: one with nothing to do does nothing, one that is refused changes
nothing, and one that goes through is done with and leaves the verdict on the others alone. -/
structure PlanLaw (call : ι → σ → σ × Except ε Unit) (pending refused : ι → σ → Prop) (P : σ → Prop)
    (items : List ι) : Prop where
  idle : ∀ i ∈ items, ∀ s, P s → ¬ pending i s → call i s = (s, .ok ())
  refuses : ∀ done i rest, items = done ++ i :: rest → ∀ s, P s → (∀ j ∈ done, ¬ pending j s) →
    pending i s → refused i s → ∃ x, call i s = (s, .error x)
  writes : ∀ done i rest, items = done ++ i :: rest → ∀ s, P s → (∀ j ∈ done, ¬ pending j s) →
    pending i s → ¬ refused i s → ∃ s', call i s = (s', .ok ()) ∧ P s' ∧ ¬ pending i s' ∧
      (∀ j ∈ done, ¬ pending j s') ∧
      ∀ j ∈ rest, (pending j s' ↔ pending j s) ∧ (refused j s' ↔ refused j s)

/-- No item that has something to do would be refused. -/
def Permitted (pending refused : ι → σ → Prop) (items : List ι) (s : σ) : Prop :=
  ∀ i ∈ items, pending i s → ¬ refused i s

/-- The first item that has something to do would be refused. -/
def RefusedFirst (pending refused : ι → σ → Prop) (items : List ι) (s : σ) : Prop :=
  ∃ done i rest, items = done ++ i :: rest ∧ (∀ j ∈ done, ¬ pending j s) ∧ pending i s ∧ refused i s

variable {call : ι → σ → σ × Except ε Unit} {pending refused : ι → σ → Prop} {P : σ → Prop}
  {items : List ι}

/-- What the items still to come make of a state in which the earlier ones have nothing to do. -/
theorem PlanLaw.sweep_rest (h : PlanLaw call pending refused P items) {done rest : List ι}
    (hitems : items = done ++ rest) {s : σ} (hs : P s) (hdone : ∀ j ∈ done, ¬ pending j s) :
    (Permitted pending refused rest s ∧ ∃ s', sweep call rest s = (s', .ok ()) ∧ P s' ∧
      ∀ i ∈ items, ¬ pending i s') ∨
    (¬ Permitted pending refused rest s ∧ ∃ s' x, sweep call rest s = (s', .error x) ∧ P s' ∧
      (RefusedFirst pending refused rest s ∧ s' = s ∨
        ¬ RefusedFirst pending refused rest s ∧ ∃ i ∈ rest, pending i s ∧ ¬ pending i s')) := by
  -- on the items still to come; each call either changes nothing or settles its item
  induction rest generalizing done s with
  | nil =>
    rw [List.append_nil] at hitems
    exact .inl ⟨by simp [Permitted], s, rfl, hs, hitems ▸ hdone⟩
  | cons i rest ih =>
    have hi : i ∈ items := by simp [hitems]
    have hnext : items = (done ++ [i]) ++ rest := by simp [hitems]
    by_cases hp : pending i s
    · by_cases hr : refused i s
      · obtain ⟨x, hcall⟩ := h.refuses done i rest hitems s hs hdone hp hr
        have hfirst : RefusedFirst pending refused (i :: rest) s :=
          ⟨[], i, rest, rfl, by simp, hp, hr⟩
        refine .inr ⟨fun hall => hall i List.mem_cons_self hp hr, s, x, ?_, hs, .inl ⟨hfirst, rfl⟩⟩
        rw [sweep, andThen_of_error hcall]
      · obtain ⟨mid, hcall, hmid, hpi, hpdone, hrest⟩ := h.writes done i rest hitems s hs hdone hp hr
        have hdone' : ∀ j ∈ done ++ [i], ¬ pending j mid := by
          simpa [or_imp, forall_and] using ⟨hpdone, hpi⟩
        have hsweep : sweep call (i :: rest) s = sweep call rest mid := by
          rw [sweep, andThen_of_ok hcall]
        have hpermitted : Permitted pending refused (i :: rest) s ↔
            Permitted pending refused rest mid := by
          simp only [Permitted, List.forall_mem_cons]
          rw [and_iff_right (fun _ => hr)]
          refine forall₂_congr fun j hj => ?_
          rw [(hrest j hj).1, (hrest j hj).2]
        have hnot : ¬ RefusedFirst pending refused (i :: rest) s := by
          rintro ⟨before, j, after, heq, hbefore, hpj, hrj⟩
          cases before with
          | nil => cases heq; exact hr hrj
          | cons b before => cases heq; exact hbefore i List.mem_cons_self hp
        rw [hsweep, hpermitted]
        obtain ⟨hall, s', hok, hend⟩ | ⟨hall, s', x, herror, hend, hcases⟩ := ih hnext hmid hdone'
        · exact .inl ⟨hall, s', hok, hend⟩
        · refine .inr ⟨hall, s', x, herror, hend, .inr ⟨hnot, ?_⟩⟩
          cases hcases with
          | inl hfirst => exact ⟨i, List.mem_cons_self, hp, hfirst.2 ▸ hpi⟩
          | inr hsome =>
            obtain ⟨-, j, hj, hpj, hpj'⟩ := hsome
            exact ⟨j, List.mem_cons_of_mem i hj, ((hrest j hj).1).mp hpj, hpj'⟩
    · have hcall := h.idle i hi s hs hp
      have hdone' : ∀ j ∈ done ++ [i], ¬ pending j s := by
        simpa [or_imp, forall_and] using ⟨hdone, hp⟩
      have hsweep : sweep call (i :: rest) s = sweep call rest s := by
        rw [sweep, andThen_of_ok hcall]
      have hpermitted : Permitted pending refused (i :: rest) s ↔ Permitted pending refused rest s := by
        simp only [Permitted, List.forall_mem_cons]
        exact and_iff_right fun hpi => absurd hpi hp
      have hfirst : RefusedFirst pending refused (i :: rest) s ↔ RefusedFirst pending refused rest s := by
        constructor
        · rintro ⟨before, j, after, heq, hbefore, hpj, hrj⟩
          cases before with
          | nil => cases heq; exact absurd hpj hp
          | cons b before =>
            cases heq
            exact ⟨before, j, after, rfl, fun k hk => hbefore k (List.mem_cons_of_mem _ hk), hpj, hrj⟩
        · rintro ⟨before, j, after, rfl, hbefore, hpj, hrj⟩
          exact ⟨i :: before, j, after, rfl, List.forall_mem_cons.mpr ⟨hp, hbefore⟩, hpj, hrj⟩
      rw [hsweep, hpermitted, hfirst]
      obtain hok | ⟨hall, s', x, herror, hend, hcases⟩ := ih hnext hs hdone'
      · exact .inl hok
      · refine .inr ⟨hall, s', x, herror, hend, hcases.imp_right fun hsome => ?_⟩
        obtain ⟨hnot, j, hj, hpj⟩ := hsome
        exact ⟨hnot, j, List.mem_cons_of_mem i hj, hpj⟩

/-- A plan goes through exactly when nothing it has to do would be refused, and then nothing
is left to do. -/
theorem PlanLaw.ok_iff (h : PlanLaw call pending refused P items) {s : σ} (hs : P s) :
    (∃ s', sweep call items s = (s', .ok ())) ↔ Permitted pending refused items s := by
  obtain ⟨hall, s', hok, -⟩ | ⟨hall, s', x, herror, -⟩ :=
    h.sweep_rest (List.nil_append items).symm hs (by simp)
  · exact iff_of_true ⟨s', hok⟩ hall
  · refine iff_of_false ?_ hall
    rintro ⟨t, ht⟩
    rw [herror] at ht
    cases ht

theorem PlanLaw.of_ok (h : PlanLaw call pending refused P items) {s s' : σ} (hs : P s)
    (hok : sweep call items s = (s', .ok ())) : P s' ∧ ∀ i ∈ items, ¬ pending i s' := by
  obtain ⟨-, t, ht, hend⟩ | ⟨-, t, x, ht, -⟩ := h.sweep_rest (List.nil_append items).symm hs (by simp)
  · rw [hok] at ht
    cases ht
    exact hend
  · rw [hok] at ht
    cases ht

/-- A plan with nothing to do changes nothing. -/
theorem PlanLaw.sweep_idle (h : PlanLaw call pending refused P items) {s : σ} (hs : P s)
    (hnone : ∀ i ∈ items, ¬ pending i s) : sweep call items s = (s, .ok ()) := by
  have hrest : ∀ rest ⊆ items, sweep call rest s = (s, .ok ()) := by
    intro rest
    induction rest with
    | nil => exact fun _ => rfl
    | cons i rest ih =>
      intro hsub
      have hi : i ∈ items := hsub List.mem_cons_self
      rw [sweep, andThen_of_ok (h.idle i hi s hs (hnone i hi))]
      exact ih fun j hj => hsub (List.mem_cons_of_mem i hj)
  exact hrest items (List.Subset.refl _)

/-- A plan that raises has changed nothing exactly when the first item with something to do is
the one refused; otherwise something it had to do has been done. -/
theorem PlanLaw.of_error (h : PlanLaw call pending refused P items) {s s' : σ} {x : ε} (hs : P s)
    (herror : sweep call items s = (s', .error x)) :
    P s' ∧ (RefusedFirst pending refused items s ∧ s' = s ∨
      ¬ RefusedFirst pending refused items s ∧ ∃ i ∈ items, pending i s ∧ ¬ pending i s') := by
  obtain ⟨-, t, ht, -⟩ | ⟨-, t, y, ht, hend, hcases⟩ := h.sweep_rest (List.nil_append items).symm hs (by simp)
  · rw [herror] at ht
    cases ht
  · rw [herror] at ht
    cases ht
    exact ⟨hend, hcases⟩

/-- A plan leaves the state as it was, whether it goes through or raises, exactly when it has nothing to do or is
refused at the first thing it has to do. -/
theorem PlanLaw.unchanged_iff (h : PlanLaw call pending refused P items) {s : σ} (hs : P s) :
    P (sweep call items s).1 ∧ ((sweep call items s).1 = s ↔
      RefusedFirst pending refused items s ∨ ∀ i ∈ items, ¬ pending i s) := by
  generalize hout : sweep call items s = out
  obtain ⟨s', ⟨x⟩ | ⟨⟨⟩⟩⟩ := out
  · obtain ⟨hend, hcases⟩ := h.of_error hs hout
    refine ⟨hend, ?_⟩
    obtain ⟨hfirst, rfl⟩ | ⟨hnot, i, hi, hp, hp'⟩ := hcases
    · exact iff_of_true rfl (.inl hfirst)
    · refine iff_of_false ?_ (not_or.mpr ⟨hnot, fun hnone => hnone i hi hp⟩)
      rintro rfl
      exact hp' hp
  · obtain ⟨hend, hdone⟩ := h.of_ok hs hout
    refine ⟨hend, ?_⟩
    constructor
    · rintro rfl
      exact .inr hdone
    · rintro (⟨done, i, rest, rfl, -, hp, hr⟩ | hnone)
      · exact absurd hr ((h.ok_iff hs).mp ⟨s', hout⟩ i (by simp) hp)
      · exact congrArg Prod.fst (hout.symm.trans (h.sweep_idle hs hnone))

end

end EngineeringIntelligence.Framework
