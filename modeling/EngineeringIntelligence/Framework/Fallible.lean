import Mathlib.Data.List.Basic

namespace EngineeringIntelligence.Framework

/-! Peeling a fallible computation apart: from its result, what each of its steps gave. -/

section
universe u v

variable {ε : Type u} {α β : Type v}

theorem isOk_iff {x : Except ε α} : x.isOk = true ↔ ∃ a, x = .ok a := by
  cases x with
  | error e => simp [Except.isOk, Except.toBool]
  | ok a => simp [Except.isOk, Except.toBool]

theorem toOption_eq_some {x : Except ε α} {a : α} : x.toOption = some a ↔ x = .ok a := by
  cases x with
  | error e => simp [Except.toOption]
  | ok b => simp [Except.toOption]

theorem bind_eq_ok_iff {x : Except ε α} {f : α → Except ε β} {r : β} :
    (x >>= f) = .ok r ↔ ∃ a, x = .ok a ∧ f a = .ok r := by
  cases x with
  | error e => exact ⟨nofun, nofun⟩
  | ok a => exact ⟨fun h => ⟨a, rfl, h⟩, fun ⟨_, ha, h⟩ => by cases ha; exact h⟩

@[simp] theorem ok_bind (a : α) (f : α → Except ε β) : (Except.ok a >>= f) = f a := rfl

theorem mapM_eq_ok {f : α → Except ε β} {xs : List α} {ys : List β} :
    xs.mapM f = .ok ys ↔ List.Forall₂ (fun x y => f x = .ok y) xs ys := by
  induction xs generalizing ys with
  | nil =>
    constructor
    · intro h
      cases h
      exact .nil
    · intro h
      cases h
      rfl
  | cons x xs ih =>
    rw [List.mapM_cons, bind_eq_ok_iff]
    constructor
    · rintro ⟨y, hy, hrest⟩
      obtain ⟨zs, hzs, hcons⟩ := bind_eq_ok_iff.mp hrest
      cases hcons
      exact .cons hy (ih.mp hzs)
    · intro h
      cases h with
      | cons hy hrest =>
        refine ⟨_, hy, ?_⟩
        rw [ih.mpr hrest]
        rfl

theorem mapM_ok_mem {f : α → Except ε β} {xs : List α} {ys : List β}
    (h : xs.mapM f = .ok ys) (y : β) : y ∈ ys ↔ ∃ x ∈ xs, f x = .ok y := by
  induction xs generalizing ys with
  | nil =>
    simp only [List.mapM_nil, pure, Except.pure, Except.ok.injEq] at h
    simp [← h]
  | cons x xs ih =>
    rw [List.mapM_cons] at h
    obtain ⟨z, hz, hrest⟩ := bind_eq_ok_iff.mp h
    obtain ⟨zs, hzs, hcons⟩ := bind_eq_ok_iff.mp hrest
    simp only [pure, Except.pure, Except.ok.injEq] at hcons
    subst hcons
    rw [List.mem_cons, ih hzs, List.exists_mem_cons_iff, hz, Except.ok.injEq, eq_comm]

theorem mapM_isOk_iff {f : α → Except ε β} {xs : List α} :
    (xs.mapM f).isOk = true ↔ ∀ x ∈ xs, (f x).isOk = true := by
  induction xs with
  | nil => exact iff_of_true rfl (by simp)
  | cons x xs ih =>
    rw [List.mapM_cons, List.forall_mem_cons, ← ih]
    cases f x with
    | error e => simp [bind, Except.bind, Except.isOk, Except.toBool]
    | ok y =>
      cases xs.mapM f with
      | error e => simp [bind, Except.bind, Except.isOk, Except.toBool]
      | ok ys => simp [bind, Except.bind, pure, Except.pure, Except.isOk, Except.toBool]

theorem mapError_eq_ok {ε' : Type*} {f : ε → ε'} {x : Except ε α} {a : α}
    (h : x.mapError f = .ok a) : x = .ok a := by
  cases x with
  | error e => cases h
  | ok b =>
    cases h
    rfl

theorem map_eq_ok {x : Except ε α} {f : α → β} {r : β} (h : x.map f = .ok r) : ∃ a, x = .ok a ∧ f a = r := by
  cases x with
  | error e => cases h
  | ok a => exact ⟨a, rfl, Except.ok.inj h⟩

theorem ite_error_eq_ok_iff {c : Prop} [Decidable c] {e : ε} {x : Except ε α} {r : α} :
    (if c then .error e else x) = .ok r ↔ ¬ c ∧ x = .ok r := by
  split <;> simp [*]

theorem ite_some_eq_none_iff {γ : Type*} {c : Prop} [Decidable c] {m : γ} {x : Option γ} :
    (if c then some m else x) = none ↔ ¬ c ∧ x = none := by
  split <;> simp [*]

theorem ite_else_error_eq_ok_iff {c : Prop} [Decidable c] {e : ε} {x : Except ε α} {r : α} :
    (if c then x else .error e) = .ok r ↔ c ∧ x = .ok r := by
  split <;> simp [*]

end

end EngineeringIntelligence.Framework
