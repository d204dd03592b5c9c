import Mathlib.Algebra.Order.Field.Power
import Mathlib.Data.Rat.Floor
import Mathlib.Tactic.Linarith
import Mathlib.Tactic.NormNum
import Mathlib.Tactic.Positivity

namespace EngineeringIntelligence.Framework.Binary64

/-! The binary64 numbers below overflow, as the rationals they stand for: an operation is the
exact one rounded to the nearest such number, ties to even. -/

/-- The place of the leading digit of a positive rational. -/
def exponent (q : ℚ) : ℤ :=
  let k : ℤ := (Nat.log2 q.num.natAbs : ℤ) - Nat.log2 q.den
  if (2 : ℚ) ^ k ≤ q then k else k - 1

/-- The place of the last digit that is kept: 53 digits, or down to the smallest subnormal. -/
def place (q : ℚ) : ℤ := max (exponent q - 52) (-1074)

/-- The nearest integer, the even one of two. -/
def nearest (q : ℚ) : ℤ :=
  if q - ⌊q⌋ < 1 / 2 then ⌊q⌋
  else if 1 / 2 < q - ⌊q⌋ then ⌊q⌋ + 1
  else if ⌊q⌋ % 2 = 0 then ⌊q⌋ else ⌊q⌋ + 1

def roundPositive (q : ℚ) : ℚ := nearest (q / 2 ^ place q) * 2 ^ place q

def round (q : ℚ) : ℚ :=
  if q = 0 then 0 else if q < 0 then -roundPositive (-q) else roundPositive q

def sub (a b : ℚ) : ℚ := round (a - b)

def mul (a b : ℚ) : ℚ := round (a * b)

example : round (1 / 10) = 3602879701896397 / 2 ^ 55 := by decide +kernel

/-! ### Rounding keeps the order -/

theorem nearest_intCast (n : ℤ) : nearest n = n := by
  have hfloor : ⌊(n : ℚ)⌋ = n := Int.floor_intCast n
  unfold nearest
  rw [hfloor, sub_self]
  exact if_pos (by norm_num)

theorem floor_le_nearest (q : ℚ) : ⌊q⌋ ≤ nearest q := by
  unfold nearest
  split
  · exact le_refl _
  · split
    · omega
    · split <;> omega

theorem nearest_le_floor (q : ℚ) : nearest q ≤ ⌊q⌋ + 1 := by
  unfold nearest
  split
  · omega
  · split
    · exact le_refl _
    · split <;> omega

theorem nearest_mono {q q' : ℚ} (h : q ≤ q') : nearest q ≤ nearest q' := by
  have hfloor : ⌊q⌋ ≤ ⌊q'⌋ := Int.floor_le_floor h
  by_cases heq : ⌊q⌋ = ⌊q'⌋
  · unfold nearest
    rw [heq]
    have hfraction : q - ⌊q'⌋ ≤ q' - ⌊q'⌋ := by linarith
    by_cases hlow : q' - ⌊q'⌋ < 1 / 2
    · rw [if_pos hlow, if_pos (lt_of_le_of_lt hfraction hlow)]
    · rw [if_neg hlow]
      by_cases hhigh : 1 / 2 < q' - ⌊q'⌋
      · rw [if_pos hhigh]
        have hle := nearest_le_floor q
        unfold nearest at hle
        rwa [heq] at hle
      · rw [if_neg hhigh]
        by_cases hbelow : q - ⌊q'⌋ < 1 / 2
        · rw [if_pos hbelow]
          split <;> omega
        · have hnot : ¬ 1 / 2 < q - ⌊q'⌋ := fun hlt => hhigh (lt_of_lt_of_le hlt hfraction)
          rw [if_neg hbelow, if_neg hnot]
  · calc nearest q ≤ ⌊q⌋ + 1 := nearest_le_floor q
      _ ≤ ⌊q'⌋ := by omega
      _ ≤ nearest q' := floor_le_nearest q'

theorem two_zpow_pos (k : ℤ) : (0 : ℚ) < 2 ^ k := zpow_pos (by norm_num) k

theorem natCast_log2 {n : ℕ} (h : n ≠ 0) :
    (2 : ℚ) ^ (Nat.log2 n : ℤ) ≤ n ∧ (n : ℚ) < 2 ^ ((Nat.log2 n : ℤ) + 1) := by
  have hlow : 2 ^ Nat.log2 n ≤ n := Nat.log2_self_le h
  have hhigh : n < 2 ^ (Nat.log2 n + 1) := Nat.lt_log2_self
  constructor
  · rw [zpow_natCast]
    exact_mod_cast hlow
  · have hcast : ((Nat.log2 n : ℤ) + 1) = ((Nat.log2 n + 1 : ℕ) : ℤ) := by push_cast; rfl
    rw [hcast, zpow_natCast]
    exact_mod_cast hhigh

theorem exponent_spec {q : ℚ} (h : 0 < q) : (2 : ℚ) ^ exponent q ≤ q ∧ q < 2 ^ (exponent q + 1) := by
  have hnum : q.num.natAbs ≠ 0 := by
    have := Rat.num_pos.mpr h
    omega
  obtain ⟨hnumLow, hnumHigh⟩ := natCast_log2 hnum
  obtain ⟨hdenLow, hdenHigh⟩ := natCast_log2 q.den_nz
  have hden : (0 : ℚ) < q.den := by exact_mod_cast q.den_pos
  have hvalue : q = (q.num.natAbs : ℚ) / q.den := by
    have habs : ((q.num.natAbs : ℤ) : ℚ) = q.num := by
      rw [Int.natAbs_of_nonneg (Rat.num_nonneg.mpr h.le)]
    rw [← Int.cast_natCast (R := ℚ), habs]
    exact (Rat.num_div_den q).symm
  generalize hk : (Nat.log2 q.num.natAbs : ℤ) - Nat.log2 q.den = k
  have hupper : q < 2 ^ (k + 1) := by
    rw [hvalue, div_lt_iff₀ hden]
    calc (q.num.natAbs : ℚ) < 2 ^ ((Nat.log2 q.num.natAbs : ℤ) + 1) := hnumHigh
      _ = 2 ^ (k + 1) * 2 ^ (Nat.log2 q.den : ℤ) := by
        rw [← zpow_add₀ (by norm_num)]
        congr 1
        omega
      _ ≤ 2 ^ (k + 1) * q.den := mul_le_mul_of_nonneg_left hdenLow (two_zpow_pos _).le
  have hlower : (2 : ℚ) ^ (k - 1) ≤ q := by
    rw [hvalue, le_div_iff₀ hden]
    calc (2 : ℚ) ^ (k - 1) * q.den ≤ 2 ^ (k - 1) * 2 ^ ((Nat.log2 q.den : ℤ) + 1) :=
          mul_le_mul_of_nonneg_left hdenHigh.le (two_zpow_pos _).le
      _ = 2 ^ (Nat.log2 q.num.natAbs : ℤ) := by
        rw [← zpow_add₀ (by norm_num)]
        congr 1
        omega
      _ ≤ q.num.natAbs := hnumLow
  unfold exponent
  rw [hk]
  dsimp only
  split
  · next hle => exact ⟨hle, hupper⟩
  · next hlt =>
    refine ⟨hlower, ?_⟩
    rw [sub_add_cancel]
    exact not_le.mp hlt

theorem exponent_mono {q q' : ℚ} (h : 0 < q) (hle : q ≤ q') : exponent q ≤ exponent q' := by
  have hlt : (2 : ℚ) ^ exponent q < 2 ^ (exponent q' + 1) :=
    calc (2 : ℚ) ^ exponent q ≤ q := (exponent_spec h).1
      _ ≤ q' := hle
      _ < 2 ^ (exponent q' + 1) := (exponent_spec (lt_of_lt_of_le h hle)).2
  have := (zpow_lt_zpow_iff_right₀ (by norm_num : (1 : ℚ) < 2)).mp hlt
  omega

/-- A power of two that has its place among the kept digits bounds the rounded number. -/
theorem roundPositive_le {q : ℚ} {e : ℤ} (hle : q ≤ 2 ^ e) (hplace : place q ≤ e) :
    roundPositive q ≤ 2 ^ e := by
  have hdiv : (2 : ℚ) ^ e / 2 ^ place q = ((2 ^ (e - place q).toNat : ℤ) : ℚ) := by
    rw [← zpow_sub₀ (by norm_num)]
    push_cast
    rw [← zpow_natCast]
    congr 1
    omega
  have hnearest : (nearest (q / 2 ^ place q) : ℚ) ≤ 2 ^ e / 2 ^ place q := by
    rw [hdiv]
    have := nearest_mono (div_le_div_of_nonneg_right hle (two_zpow_pos (place q)).le)
    rw [hdiv, nearest_intCast] at this
    exact_mod_cast this
  exact (le_div_iff₀ (two_zpow_pos _)).mp hnearest

theorem le_roundPositive {q : ℚ} {e : ℤ} (hle : 2 ^ e ≤ q) (hplace : place q ≤ e) :
    2 ^ e ≤ roundPositive q := by
  have hdiv : (2 : ℚ) ^ e / 2 ^ place q = ((2 ^ (e - place q).toNat : ℤ) : ℚ) := by
    rw [← zpow_sub₀ (by norm_num)]
    push_cast
    rw [← zpow_natCast]
    congr 1
    omega
  have hnearest : (2 : ℚ) ^ e / 2 ^ place q ≤ (nearest (q / 2 ^ place q) : ℚ) := by
    rw [hdiv]
    have := nearest_mono (div_le_div_of_nonneg_right hle (two_zpow_pos (place q)).le)
    rw [hdiv, nearest_intCast] at this
    exact_mod_cast this
  exact (div_le_iff₀ (two_zpow_pos _)).mp hnearest

theorem roundPositive_mono {q q' : ℚ} (h : 0 < q) (hle : q ≤ q') : roundPositive q ≤ roundPositive q' := by
  have hexponent := exponent_mono h hle
  by_cases hplace : place q = place q'
  · unfold roundPositive
    rw [hplace]
    have hnearest := nearest_mono (div_le_div_of_nonneg_right hle (two_zpow_pos (place q')).le)
    exact mul_le_mul_of_nonneg_right (by exact_mod_cast hnearest) (two_zpow_pos _).le
  · -- the two lie on either side of a power of two
    unfold place at hplace
    have hpower : q ≤ 2 ^ exponent q' := by
      refine (exponent_spec h).2.le.trans (zpow_le_zpow_right₀ (by norm_num) ?_)
      omega
    calc roundPositive q ≤ 2 ^ exponent q' := roundPositive_le hpower (by unfold place; omega)
      _ ≤ roundPositive q' :=
        le_roundPositive (exponent_spec (lt_of_lt_of_le h hle)).1 (by unfold place; omega)

theorem roundPositive_nonneg {q : ℚ} (h : 0 < q) : 0 ≤ roundPositive q := by
  have hnearest := nearest_mono (div_nonneg h.le (two_zpow_pos (place q)).le)
  have hzero : nearest 0 = 0 := nearest_intCast 0
  rw [hzero] at hnearest
  exact mul_nonneg (by exact_mod_cast hnearest) (two_zpow_pos _).le

@[simp] theorem round_zero : round 0 = 0 := rfl

theorem round_one : round 1 = 1 := by decide +kernel

theorem round_nonneg {q : ℚ} (h : 0 ≤ q) : 0 ≤ round q := by
  unfold round
  split
  · exact le_refl _
  · next hne =>
    rw [if_neg h.not_gt]
    exact roundPositive_nonneg (lt_of_le_of_ne h (Ne.symm hne))

theorem round_mono {q q' : ℚ} (h : 0 ≤ q) (hle : q ≤ q') : round q ≤ round q' := by
  by_cases hzero : q = 0
  · rw [hzero, round_zero]
    exact round_nonneg (h.trans hle)
  · have hpositive : 0 < q := lt_of_le_of_ne h (Ne.symm hzero)
    have hpositive' : 0 < q' := lt_of_lt_of_le hpositive hle
    unfold round
    rw [if_neg hzero, if_neg h.not_gt, if_neg hpositive'.ne', if_neg hpositive'.le.not_gt]
    exact roundPositive_mono hpositive hle

theorem zero_le_sub {a b : ℚ} (h : b ≤ a) : 0 ≤ sub a b := round_nonneg (by linarith)

theorem zero_le_mul {a b : ℚ} (ha : 0 ≤ a) (hb : 0 ≤ b) : 0 ≤ mul a b := round_nonneg (mul_nonneg ha hb)

theorem mul_le_one {a b : ℚ} (ha : 0 ≤ a) (hb : 0 ≤ b) (hle : a * b ≤ 1) : mul a b ≤ 1 := by
  calc mul a b ≤ round 1 := round_mono (mul_nonneg ha hb) hle
    _ = 1 := round_one

/-- What is taken from one leaves at most one. -/
theorem one_sub_le {b : ℚ} (hb : 0 ≤ b) (hle : b ≤ 1) : sub 1 b ≤ 1 := by
  calc sub 1 b ≤ round 1 := round_mono (by linarith) (by linarith)
    _ = 1 := round_one

end EngineeringIntelligence.Framework.Binary64
