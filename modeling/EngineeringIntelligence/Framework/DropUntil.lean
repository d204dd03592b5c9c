import EngineeringIntelligence.Framework.Fallible

namespace EngineeringIntelligence.Framework

/-! A loop that drops something from a state until the state passes a test. -/

/-- What a drop leaves is smaller. -/
structure Dropper (σ : Type) where
  drop : σ → Option σ
  size : σ → Nat
  smaller : ∀ s s', drop s = some s' → size s' < size s

section
variable {σ ε : Type} (test : σ → Except ε Bool) (d : Dropper σ)

/-- The first state that passes, or nothing where nothing is left to drop. -/
def dropUntil (s : σ) : Except ε (Option σ) :=
  match test s with
  | .error x => .error x
  | .ok true => .ok (some s)
  | .ok false =>
    match _h : d.drop s with
    | none => .ok none
    | some s' => dropUntil s'
termination_by d.size s
decreasing_by exact d.smaller s s' _h

/-- The state after so many drops. -/
def dropped : Nat → σ → Option σ
  | 0, s => some s
  | n + 1, s => (d.drop s).bind (dropped n)

/-- The state passes, and the states it comes from do not. -/
def FirstPassing (s t : σ) : Prop :=
  ∃ n, dropped d n s = some t ∧ test t = .ok true ∧
    ∀ m < n, ∀ u, dropped d m s = some u → test u = .ok false

variable {test d}

/-- What every drop keeps holds of whatever is left. -/
theorem dropped_keeps {P : σ → Prop} (hkeep : ∀ s s', P s → d.drop s = some s' → P s') {n : Nat} {s t : σ}
    (hs : P s) (h : dropped d n s = some t) : P t := by
  induction n generalizing s with
  | zero =>
    obtain rfl := Option.some.inj h
    exact hs
  | succ n ih =>
    obtain ⟨s', hs', h⟩ := Option.bind_eq_some_iff.mp h
    exact ih (hkeep s s' hs hs') h

theorem dropUntil_of_error {s : σ} {x : ε} (h : test s = .error x) : dropUntil test d s = .error x := by
  rw [dropUntil]
  simp only [h]

theorem dropUntil_of_pass {s : σ} (h : test s = .ok true) : dropUntil test d s = .ok (some s) := by
  rw [dropUntil]
  simp only [h]

theorem dropUntil_of_drop {s s' : σ} (h : test s = .ok false) (hs' : d.drop s = some s') :
    dropUntil test d s = dropUntil test d s' := by
  rw [dropUntil]
  simp only [h]
  split
  · next hnone => rw [hs'] at hnone; cases hnone
  · next t ht => rw [Option.some.inj (hs'.symm.trans ht)]

theorem dropUntil_of_stuck {s : σ} (h : test s = .ok false) (hs : d.drop s = none) :
    dropUntil test d s = .ok none := by
  rw [dropUntil]
  simp only [h]
  split
  · rfl
  · next t ht => rw [hs] at ht; cases ht

theorem firstPassing_of_pass {s t : σ} (h : test s = .ok true) : FirstPassing test d s t ↔ t = s := by
  constructor
  · rintro ⟨n, hn, -, hbefore⟩
    cases n with
    | zero => exact (Option.some.inj hn).symm
    | succ n =>
      have hfalse := hbefore 0 (Nat.succ_pos n) s rfl
      rw [h] at hfalse
      cases hfalse
  · rintro rfl
    exact ⟨0, rfl, h, fun m hm => absurd hm (Nat.not_lt_zero m)⟩

theorem firstPassing_of_drop {s s' t : σ} (h : test s = .ok false) (hs' : d.drop s = some s') :
    FirstPassing test d s t ↔ FirstPassing test d s' t := by
  have hsucc : ∀ n, dropped d (n + 1) s = dropped d n s' := fun n => by rw [dropped, hs', Option.bind_some]
  constructor
  · rintro ⟨n, hn, hpass, hbefore⟩
    cases n with
    | zero =>
      rw [← Option.some.inj hn, h] at hpass
      cases hpass
    | succ n =>
      refine ⟨n, hsucc n ▸ hn, hpass, fun m hm u hu => ?_⟩
      exact hbefore (m + 1) (Nat.succ_lt_succ hm) u ((hsucc m).trans hu)
  · rintro ⟨n, hn, hpass, hbefore⟩
    refine ⟨n + 1, (hsucc n).trans hn, hpass, fun m hm u hu => ?_⟩
    cases m with
    | zero => rwa [← Option.some.inj hu]
    | succ m => exact hbefore m (Nat.lt_of_succ_lt_succ hm) u (hsucc m ▸ hu)

theorem firstPassing_of_stuck {s t : σ} (h : test s = .ok false) (hs : d.drop s = none) :
    ¬FirstPassing test d s t := by
  rintro ⟨n, hn, hpass, -⟩
  cases n with
  | zero =>
    rw [← Option.some.inj hn, h] at hpass
    cases hpass
  | succ n =>
    rw [dropped, hs] at hn
    cases hn

/-- A test that never raises, of any state that is left: the loop comes to the first that passes. -/
theorem dropUntil_eq_some_iff {P : σ → Prop} (hkeep : ∀ s s', P s → d.drop s = some s' → P s')
    (htest : ∀ s, P s → ∃ b, test s = .ok b) {s t : σ} (hs : P s) :
    dropUntil test d s = .ok (some t) ↔ FirstPassing test d s t := by
  obtain ⟨b, hb⟩ := htest s hs
  cases b with
  | true =>
    rw [dropUntil_of_pass hb, firstPassing_of_pass hb, Except.ok.injEq, Option.some.injEq]
    exact eq_comm
  | false =>
    cases hs' : d.drop s with
    | none =>
      rw [dropUntil_of_stuck hb hs']
      exact iff_of_false (by simp) (firstPassing_of_stuck hb hs')
    | some s' =>
      rw [dropUntil_of_drop hb hs', firstPassing_of_drop hb hs']
      exact dropUntil_eq_some_iff hkeep htest (hkeep s s' hs hs')
termination_by d.size s
decreasing_by exact d.smaller s s' hs'

end

end EngineeringIntelligence.Framework
