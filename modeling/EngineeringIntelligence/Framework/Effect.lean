import Mathlib.Data.List.Basic

namespace EngineeringIntelligence.Framework

/-! Procedures that change a state as they go and may raise: what was done before stays done. -/

section
variable {σ ε α β ι : Type}

/-- Go on from what `first` leaves, unless it raised. -/
def andThen (first : σ → σ × Except ε α) (next : α → σ → σ × Except ε β) (s : σ) :
    σ × Except ε β :=
  match first s with
  | (s', .error x) => (s', .error x)
  | (s', .ok a) => next a s'

/-- One call per item, in order, up to the first that raises. -/
def sweep (call : ι → σ → σ × Except ε Unit) : List ι → σ → σ × Except ε Unit
  | [], s => (s, .ok ())
  | i :: items, s => andThen (call i) (fun _ => sweep call items) s

/-- A transaction: what the body wrote before it raised is rolled back. -/
def transaction (body : σ → σ × Except ε α) (s : σ) : σ × Except ε α :=
  match body s with
  | (_, .error x) => (s, .error x)
  | (s', .ok a) => (s', .ok a)

/-- Forget what a procedure returned. -/
def void (out : σ × Except ε α) : σ × Except ε Unit := (out.1, out.2.map fun _ => ())

theorem void_ok_iff {out : σ × Except ε α} {s : σ} :
    void out = (s, .ok ()) ↔ ∃ a, out = (s, .ok a) := by
  obtain ⟨t, r⟩ := out
  cases r with
  | error x => simp [void, Except.map]
  | ok a => simp [void, Except.map]

theorem andThen_ok_iff {first : σ → σ × Except ε α} {next : α → σ → σ × Except ε β} {s s' : σ}
    {b : β} : andThen first next s = (s', .ok b) ↔
      ∃ mid a, first s = (mid, .ok a) ∧ next a mid = (s', .ok b) := by
  unfold andThen
  split
  · next h => simp [h]
  · next h => simp [h]

theorem andThen_of_ok {first : σ → σ × Except ε α} {next : α → σ → σ × Except ε β} {s s' : σ}
    {a : α} (h : first s = (s', .ok a)) : andThen first next s = next a s' := by
  simp [andThen, h]

theorem andThen_of_error {first : σ → σ × Except ε α} {next : α → σ → σ × Except ε β} {s s' : σ}
    {x : ε} (h : first s = (s', .error x)) : andThen first next s = (s', .error x) := by
  simp [andThen, h]

theorem transaction_ok_iff {body : σ → σ × Except ε α} {s s' : σ} {a : α} :
    transaction body s = (s', .ok a) ↔ body s = (s', .ok a) := by
  unfold transaction
  split
  · next h => simp [h]
  · next h => simp [h]

theorem transaction_error {body : σ → σ × Except ε α} {s s' : σ} {x : ε}
    (h : transaction body s = (s', .error x)) : s' = s := by
  unfold transaction at h
  split at h
  · exact (Prod.mk.inj h).1.symm
  · exact nomatch (Prod.mk.inj h).2

theorem andThen_assoc {γ : Type} (f : σ → σ × Except ε α) (g : α → σ → σ × Except ε β)
    (h : β → σ → σ × Except ε γ) :
    andThen (andThen f g) h = andThen f fun a => andThen (g a) h := by
  funext s
  generalize hf : f s = out
  obtain ⟨s', answer⟩ := out
  cases answer with
  | error x =>
    have hfirst : andThen f g s = (s', .error x) := andThen_of_error hf
    rw [andThen_of_error hf, andThen_of_error hfirst]
  | ok a => simp only [andThen, hf]

theorem sweep_singleton (call : ι → σ → σ × Except ε Unit) (i : ι) : sweep call [i] = call i := by
  funext s
  generalize hcall : call i s = out
  obtain ⟨s', answer⟩ := out
  cases answer with
  | error x => rw [sweep, andThen_of_error hcall]
  | ok a =>
    rw [sweep, andThen_of_ok hcall]
    rfl

theorem sweep_append (call : ι → σ → σ × Except ε Unit) (xs ys : List ι) :
    sweep call (xs ++ ys) = andThen (sweep call xs) fun _ => sweep call ys := by
  funext s
  induction xs generalizing s with
  | nil => rfl
  | cons x xs ih =>
    rw [List.cons_append, sweep]
    generalize hcall : call x s = out
    obtain ⟨s', answer⟩ := out
    cases answer with
    | error y =>
      have hfirst : sweep call (x :: xs) s = (s', .error y) := by rw [sweep, andThen_of_error hcall]
      rw [andThen_of_error hcall, andThen_of_error hfirst]
    | ok a =>
      have hfirst : sweep call (x :: xs) s = sweep call xs s' := by rw [sweep, andThen_of_ok hcall]
      rw [andThen_of_ok hcall, ih s', andThen, andThen, hfirst]

theorem sweep_map {κ : Type} (call : ι → σ → σ × Except ε Unit) (f : κ → ι) (xs : List κ) :
    sweep call (xs.map f) = sweep (fun x => call (f x)) xs := by
  funext s
  induction xs generalizing s with
  | nil => rfl
  | cons x xs ih =>
    rw [List.map_cons, sweep, sweep]
    exact congrArg (fun next => andThen (call (f x)) next s) (funext fun _ => funext ih)

/-- Items whose call does nothing can be left out. -/
theorem sweep_filter {call : ι → σ → σ × Except ε Unit} {keep : ι → Bool}
    (hidle : ∀ i s, keep i = false → call i s = (s, .ok ())) (xs : List ι) :
    sweep call (xs.filter keep) = sweep call xs := by
  funext s
  induction xs generalizing s with
  | nil => rfl
  | cons x xs ih =>
    cases hkeep : keep x with
    | true =>
      rw [List.filter_cons_of_pos hkeep, sweep, sweep]
      exact congrArg (fun next => andThen (call x) next s) (funext fun _ => funext ih)
    | false =>
      rw [List.filter_cons_of_neg (by simp [hkeep]), sweep, andThen_of_ok (hidle x s hkeep)]
      exact ih s

/-- What every call keeps, whether it raises or not, a sweep keeps. -/
theorem sweep_invariant {call : ι → σ → σ × Except ε Unit} {P : σ → Prop} {items : List ι}
    (hcall : ∀ i ∈ items, ∀ s, P s → P (call i s).1) {s : σ} (hs : P s) :
    P (sweep call items s).1 := by
  induction items generalizing s with
  | nil => exact hs
  | cons i items ih =>
    have hfirst := hcall i List.mem_cons_self s hs
    rw [sweep, andThen]
    split
    · next h => rwa [h] at hfirst
    · next h =>
      rw [h] at hfirst
      exact ih (fun j hj => hcall j (List.mem_cons_of_mem i hj)) hfirst

end

end EngineeringIntelligence.Framework
