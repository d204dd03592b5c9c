import Mathlib.Data.List.Basic

namespace EngineeringIntelligence.Framework

/-! Runs of a machine whose nondeterminism sits in its operations: `step s a`
is the state after operation `a` and what the caller of `a` is told. -/

section
variable {σ α β : Type*} (step : σ → α → σ × β)

/-- The state after a sequence of operations. -/
def runState (s : σ) : List α → σ
  | [] => s
  | a :: as => runState (step s a).1 as

/-- Every operation of a run with the answer it got. -/
def history (s : σ) : List α → List (α × β)
  | [] => []
  | a :: as => (a, (step s a).2) :: history (step s a).1 as

/-- Every operation of the run meets `ok` in the state it is applied to. -/
def Admissible (ok : σ → α → Prop) (s : σ) : List α → Prop
  | [] => True
  | a :: as => ok s a ∧ Admissible ok (step s a).1 as

instance instDecidableAdmissible (ok : σ → α → Prop) [∀ s a, Decidable (ok s a)] :
    (s : σ) → (as : List α) → Decidable (Admissible step ok s as)
  | _, [] => isTrue trivial
  | s, a :: as =>
    have := instDecidableAdmissible ok (step s a).1 as
    inferInstanceAs (Decidable (_ ∧ _))

@[simp] theorem runState_nil (s : σ) : runState step s [] = s := rfl

@[simp] theorem runState_cons (s : σ) (a : α) (as : List α) :
    runState step s (a :: as) = runState step (step s a).1 as := rfl

@[simp] theorem history_nil (s : σ) : history step s [] = [] := rfl

@[simp] theorem history_cons (s : σ) (a : α) (as : List α) :
    history step s (a :: as) = (a, (step s a).2) :: history step (step s a).1 as := rfl

theorem history_map_fst (s : σ) (as : List α) : (history step s as).map Prod.fst = as := by
  induction as generalizing s with
  | nil => rfl
  | cons a as ih => simp [ih (step s a).1]

theorem runState_append (s : σ) (as bs : List α) :
    runState step s (as ++ bs) = runState step (runState step s as) bs := by
  induction as generalizing s with
  | nil => rfl
  | cons a as ih => exact ih (step s a).1

theorem history_append (s : σ) (as bs : List α) :
    history step s (as ++ bs) = history step s as ++ history step (runState step s as) bs := by
  induction as generalizing s with
  | nil => rfl
  | cons a as ih => simp [ih (step s a).1]

theorem admissible_append (ok : σ → α → Prop) (s : σ) (as bs : List α) :
    Admissible step ok s (as ++ bs) ↔
      Admissible step ok s as ∧ Admissible step ok (runState step s as) bs := by
  induction as generalizing s with
  | nil => simp [Admissible]
  | cons a as ih => simp [Admissible, ih (step s a).1, and_assoc]

theorem admissible_of_forall {ok : σ → α → Prop} {as : List α} (h : ∀ a ∈ as, ∀ s, ok s a) (s : σ) :
    Admissible step ok s as := by
  induction as generalizing s with
  | nil => trivial
  | cons a as ih =>
    exact ⟨h a List.mem_cons_self s, ih (fun b hb => h b (List.mem_cons_of_mem a hb)) _⟩

theorem admissible_and {ok ok' : σ → α → Prop} {s : σ} {as : List α} (h : Admissible step ok s as)
    (h' : Admissible step ok' s as) : Admissible step (fun s a => ok s a ∧ ok' s a) s as := by
  induction as generalizing s with
  | nil => trivial
  | cons a as ih => exact ⟨⟨h.1, h'.1⟩, ih h.2 h'.2⟩

/-- The invariant rule for runs whose every operation meets a side condition. -/
theorem run_guarded {P : σ → Prop} {ok : σ → α → Prop}
    (hstep : ∀ s a, P s → ok s a → P (step s a).1) {s : σ} (hs : P s) {as : List α}
    (hok : Admissible step ok s as) : P (runState step s as) := by
  induction as generalizing s with
  | nil => exact hs
  | cons a as ih => exact ih (hstep s a hs hok.1) hok.2

/-- Where the invariant gives the property, and from a state of the invariant only steps that meet the condition
lead to the property, the runs that meet it throughout are those that never leave the property. -/
theorem admissible_iff_reached {I P : σ → Prop} {ok : σ → α → Prop}
    (hstep : ∀ s a, I s → ok s a → I (step s a).1) (hgood : ∀ s, I s → P s)
    (hbad : ∀ s a, I s → P (step s a).1 → ok s a) {s : σ} (hs : I s) (as : List α) :
    Admissible step ok s as ↔ ∀ pre, pre <+: as → P (runState step s pre) := by
  induction as generalizing s with
  | nil =>
    refine iff_of_true trivial fun pre hpre => ?_
    rw [List.prefix_nil.mp hpre]
    exact hgood s hs
  | cons a as ih =>
    constructor
    · rintro ⟨hok, hrest⟩ pre hpre
      cases pre with
      | nil => exact hgood s hs
      | cons b pre =>
        obtain ⟨rfl, htail⟩ := List.cons_prefix_cons.mp hpre
        exact (ih (hstep s b hs hok)).mp hrest pre htail
    · intro h
      have hnext : P (step s a).1 := h [a] (List.cons_prefix_cons.mpr ⟨rfl, List.nil_prefix⟩)
      have hok : ok s a := hbad s a hs hnext
      refine ⟨hok, (ih (hstep s a hs hok)).mpr fun pre hpre => ?_⟩
      exact h (a :: pre) (List.cons_prefix_cons.mpr ⟨rfl, hpre⟩)

/-- Where the condition says of each step whether it keeps the invariant, the runs that meet it
throughout are those that never leave the invariant. -/
theorem admissible_iff_prefixes {P : σ → Prop} {ok : σ → α → Prop}
    (hstep : ∀ s a, P s → (P (step s a).1 ↔ ok s a)) {s : σ} (hs : P s) (as : List α) :
    Admissible step ok s as ↔ ∀ pre, pre <+: as → P (runState step s pre) := by
  apply admissible_iff_reached step (fun s a hs hok => (hstep s a hs).mpr hok) (fun s hs => hs)
    (fun s a hs hnext => (hstep s a hs).mp hnext) hs

/-- The rule for what is answered in such runs. -/
theorem history_guarded {P : σ → Prop} {ok : σ → α → Prop} {Q : β → Prop}
    (hstep : ∀ s a, P s → ok s a → P (step s a).1 ∧ Q (step s a).2) {s : σ} (hs : P s) {as : List α}
    (hok : Admissible step ok s as) : ∀ x ∈ history step s as, Q x.2 := by
  induction as generalizing s with
  | nil => simp
  | cons a as ih =>
    obtain ⟨hnext, hanswer⟩ := hstep s a hs hok.1
    exact List.forall_mem_cons.mpr ⟨hanswer, ih hnext hok.2⟩

/-- The invariant rule for unrestricted runs. -/
theorem run_invariant {P : σ → Prop} (hstep : ∀ s a, P s → P (step s a).1) {s : σ} (hs : P s)
    (as : List α) : P (runState step s as) := by
  induction as generalizing s with
  | nil => exact hs
  | cons a as ih => exact ih (hstep s a hs)

/-- The invariant rule for facts that tie the state to what has been answered so far. -/
theorem run_history_invariant {P : List (α × β) → σ → Prop}
    (hstep : ∀ h s a, P h s → P (h ++ [(a, (step s a).2)]) (step s a).1)
    {h : List (α × β)} {s : σ} (hs : P h s) (as : List α) :
    P (h ++ history step s as) (runState step s as) := by
  induction as generalizing h s with
  | nil => simpa using hs
  | cons a as ih => simpa using ih (hstep h s a hs)

end

section
variable {σ τ α β : Type*} {step : σ → α → σ × β} {spec : τ → α → τ × β} {R : σ → τ → Prop}

/-- Forward simulation: a machine whose steps follow a specification step by step gives
the same answers in every run and stays related to it. -/
theorem run_simulation (hstep : ∀ s t a, R s t →
      R (step s a).1 (spec t a).1 ∧ (step s a).2 = (spec t a).2)
    {s : σ} {t : τ} (h : R s t) (as : List α) :
    R (runState step s as) (runState spec t as) ∧ history step s as = history spec t as := by
  induction as generalizing s t with
  | nil => exact ⟨h, rfl⟩
  | cons a as ih =>
    obtain ⟨hrel, hans⟩ := hstep s t a h
    obtain ⟨hrun, hhist⟩ := ih hrel
    exact ⟨hrun, by rw [history_cons, history_cons, hans, hhist]⟩

end

section
variable {σ α β γ ν : Type*} {step : σ → α → σ × β} (concerns : α → Bool) {view : σ → ν} (seen : β → γ)

/-- What the operations that concern an observer are answered in a run. -/
def observed (step : σ → α → σ × β) (s : σ) (as : List α) : List γ :=
  ((history step s as).filter fun x => concerns x.1).map fun x => seen x.2

/-- The unwinding rule: when the operations that do not concern an observer leave its view and
the others depend on nothing but the view, a run looks like the run of the others alone. -/
theorem observed_unwinding (hother : ∀ s a, concerns a = false → view (step s a).1 = view s)
    (hown : ∀ s t a, concerns a = true → view s = view t →
      view (step s a).1 = view (step t a).1 ∧ seen (step s a).2 = seen (step t a).2)
    {s t : σ} (h : view s = view t) (as : List α) :
    view (runState step s as) = view (runState step t (as.filter concerns)) ∧
      observed concerns seen step s as = (history step t (as.filter concerns)).map fun x => seen x.2 := by
  induction as generalizing s t with
  | nil => exact ⟨h, rfl⟩
  | cons a as ih =>
    cases ha : concerns a with
    | false =>
      have hnext : view (step s a).1 = view t := (hother s a ha).trans h
      obtain ⟨hview, hseen⟩ := ih hnext
      rw [List.filter_cons_of_neg (by simp [ha])]
      refine ⟨hview, ?_⟩
      rw [← hseen]
      simp [observed, ha]
    | true =>
      obtain ⟨hnext, hanswer⟩ := hown s t a ha h
      obtain ⟨hview, hseen⟩ := ih hnext
      rw [List.filter_cons_of_pos ha]
      refine ⟨hview, ?_⟩
      rw [history_cons, List.map_cons, ← hseen, ← hanswer]
      simp [observed, ha]

/-- Noninterference: two runs with the same operations of the observer look the same to it. -/
theorem observed_eq (hother : ∀ s a, concerns a = false → view (step s a).1 = view s)
    (hown : ∀ s t a, concerns a = true → view s = view t →
      view (step s a).1 = view (step t a).1 ∧ seen (step s a).2 = seen (step t a).2)
    (s : σ) {as bs : List α} (h : as.filter concerns = bs.filter concerns) :
    view (runState step s as) = view (runState step s bs) ∧
      observed concerns seen step s as = observed concerns seen step s bs := by
  obtain ⟨hview, hseen⟩ := observed_unwinding concerns seen hother hown (rfl : view s = view s) as
  obtain ⟨hview', hseen'⟩ := observed_unwinding concerns seen hother hown (rfl : view s = view s) bs
  rw [h] at hview hseen
  exact ⟨hview.trans hview'.symm, hseen.trans hseen'.symm⟩

end

/-- Two machines fed the same operations. -/
def lockstep {σ τ α β γ : Type*} (step₁ : σ → α → σ × β) (step₂ : τ → α → τ × γ) (s : σ × τ)
    (a : α) : (σ × τ) × (β × γ) :=
  (((step₁ s.1 a).1, (step₂ s.2 a).1), ((step₁ s.1 a).2, (step₂ s.2 a).2))

end EngineeringIntelligence.Framework
