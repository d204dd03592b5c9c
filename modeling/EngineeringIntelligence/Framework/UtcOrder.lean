import EngineeringIntelligence.Framework.UtcTime
import Mathlib.Data.Nat.Digits.Defs
import Mathlib.Data.String.Basic

namespace EngineeringIntelligence.Framework

/-! Times in UTC are ordered as their texts are, so that a store which compares the texts compares
the times. -/

/-! ### Digits -/

theorem digit_lt : ∀ a b : Fin 10, a < b → digit a < digit b := by decide

theorem length_paddedDigits (width n : Nat) : (paddedDigits width n).length = width := by
  induction width generalizing n with
  | zero => rfl
  | succ width ih => simp [paddedDigits, ih]

/-- Lists of one length are compared before what follows them. -/
theorem append_lt_append {x y a b : List Char} (hlength : x.length = y.length) (h : x < y) :
    x ++ a < y ++ b := by
  induction x generalizing y with
  | nil =>
    obtain rfl : y = [] := List.eq_nil_of_length_eq_zero hlength.symm
    exact absurd h (lt_irrefl _)
  | cons c x ih =>
    cases y with
    | nil => cases hlength
    | cons d y =>
      rw [List.cons_append, List.cons_append, List.cons_lt_cons_iff]
      rcases List.cons_lt_cons_iff.mp h with hlt | ⟨heq, hlt⟩
      · exact .inl hlt
      · exact .inr ⟨heq, ih (by simpa using hlength) hlt⟩

theorem paddedDigits_lt {width n m : Nat} (hlt : n < m) (hm : m < 10 ^ width) :
    paddedDigits width n < paddedDigits width m := by
  induction width generalizing n m with
  | zero => omega
  | succ width ih =>
    have hlength : (paddedDigits width (n / 10)).length = (paddedDigits width (m / 10)).length := by
      rw [length_paddedDigits, length_paddedDigits]
    have hm' : m / 10 < 10 ^ width := by
      rw [Nat.pow_succ] at hm
      omega
    rw [paddedDigits, paddedDigits]
    by_cases hten : n / 10 < m / 10
    · exact append_lt_append hlength (ih hten hm')
    · have heq : n / 10 = m / 10 := by omega
      have hlast : lastDigit n < lastDigit m := by
        show n % 10 < m % 10
        omega
      rw [heq]
      apply List.append_left_lt
      exact List.cons_lt_cons_iff.mpr (.inl (digit_lt _ _ hlast))

/-- Two numbers of one width, each with what follows it. -/
theorem padded_append_lt {width n m : Nat} {a b : List Char} (hm : m < 10 ^ width)
    (h : n < m ∨ n = m ∧ a < b) : paddedDigits width n ++ a < paddedDigits width m ++ b := by
  rcases h with hlt | ⟨rfl, hlt⟩
  · refine append_lt_append ?_ (paddedDigits_lt hlt hm)
    rw [length_paddedDigits, length_paddedDigits]
  · exact List.append_left_lt hlt

/-! ### The calendar -/

/-- Days of a year before its month `m`. -/
def daysBeforeMonth (y m : Nat) : Nat := ((List.range (m - 1)).map fun i => daysInMonth y (i + 1)).sum

theorem ordinal_eq (y m d : Nat) : ordinal y m d = daysBeforeYear y + daysBeforeMonth y m + d := rfl

theorem daysBeforeMonth_succ (y : Nat) {m : Nat} (hm : 1 ≤ m) :
    daysBeforeMonth y (m + 1) = daysBeforeMonth y m + daysInMonth y m := by
  obtain ⟨k, rfl⟩ : ∃ k, m = k + 1 := ⟨m - 1, by omega⟩
  simp [daysBeforeMonth, List.range_succ]

theorem daysBeforeMonth_mono (y : Nat) {m n : Nat} (hm : 1 ≤ m) (h : m ≤ n) :
    daysBeforeMonth y m ≤ daysBeforeMonth y n := by
  induction n, h using Nat.le_induction with
  | base => exact le_rfl
  | succ n hn ih =>
    rw [daysBeforeMonth_succ y (hm.trans hn)]
    omega

theorem daysBeforeYear_succ {y : Nat} (hy : 1 ≤ y) :
    daysBeforeYear (y + 1) = daysBeforeYear y + daysBeforeMonth y 13 := by
  have hyear : daysBeforeMonth y 13 = if isLeap y then 366 else 365 := by
    cases hleap : isLeap y <;> simp [daysBeforeMonth, daysInMonth, hleap, List.range, List.range.loop]
  have hdiv : ∀ k, 0 < k → y / k = (y - 1) / k + if y % k = 0 then 1 else 0 := by
    intro k hk
    obtain ⟨n, rfl⟩ : ∃ n, y = n + 1 := ⟨y - 1, by omega⟩
    rw [Nat.succ_div, Nat.add_sub_cancel]
    simp only [Nat.dvd_iff_mod_eq_zero]
  have h4 := hdiv 4 (by decide)
  have h100 := hdiv 100 (by decide)
  have h400 := hdiv 400 (by decide)
  have hleap : isLeap y = true ↔ y % 4 = 0 ∧ (y % 100 ≠ 0 ∨ y % 400 = 0) := by
    simp [isLeap]
  have hhundred : y % 100 = 0 → y % 4 = 0 := by omega
  have hfour : y % 400 = 0 → y % 100 = 0 := by omega
  have hless : (y - 1) / 100 ≤ (y - 1) / 4 := Nat.div_le_div_left (by decide) (by decide)
  rw [hyear, daysBeforeYear, daysBeforeYear, Nat.add_sub_cancel, h4, h100, h400]
  generalize (y - 1) / 4 = fours, (y - 1) / 100 = hundreds, (y - 1) / 400 = fourHundreds at hless ⊢
  clear h4 h100 h400 hdiv hyear
  by_cases hq4 : y % 4 = 0 <;> by_cases hq100 : y % 100 = 0 <;> by_cases hq400 : y % 400 = 0 <;>
    simp only [hleap, hq4, hq100, hq400, if_true, if_false, ne_eq, not_true_eq_false, not_false_eq_true,
      or_true, or_false, and_true, and_false, and_self] <;>
    omega

theorem daysBeforeYear_mono : Monotone daysBeforeYear := by
  refine monotone_nat_of_le_succ fun y => ?_
  rcases Nat.eq_zero_or_pos y with rfl | hy
  · exact le_rfl
  · rw [daysBeforeYear_succ hy]
    exact Nat.le_add_right _ _

theorem validDate_iff {y m d : Nat} : validDate y m d = true ↔
    (1 ≤ y ∧ y ≤ 9999) ∧ (1 ≤ m ∧ m ≤ 12) ∧ 1 ≤ d ∧ d ≤ daysInMonth y m := by
  simp only [validDate, Bool.and_eq_true, decide_eq_true_eq]
  tauto

theorem daysInMonth_bounds (y : Nat) {m : Nat} (hm : 1 ≤ m ∧ m ≤ 12) :
    1 ≤ daysInMonth y m ∧ daysInMonth y m ≤ 31 := by
  unfold daysInMonth
  split
  · omega
  · have hindex : m - 1 < 12 := by omega
    generalize m - 1 = i at hindex
    interval_cases i <;> decide

theorem ordinal_lt_of_month {y m m' d d' : Nat} (hm : 1 ≤ m) (h : m < m') (hd : d ≤ daysInMonth y m)
    (hd' : 1 ≤ d') : ordinal y m d < ordinal y m' d' := by
  have hnext := daysBeforeMonth_succ y hm
  have hle := daysBeforeMonth_mono y (by omega : 1 ≤ m + 1) h
  rw [ordinal_eq, ordinal_eq]
  omega

theorem ordinal_lt_of_year {y y' m m' d d' : Nat} (hy : 1 ≤ y) (h : y < y') (hm : 1 ≤ m ∧ m ≤ 12)
    (hd : d ≤ daysInMonth y m) (hd' : 1 ≤ d') : ordinal y m d < ordinal y' m' d' := by
  have hmonth := daysBeforeMonth_succ y hm.1
  have hyear := daysBeforeMonth_mono y (by omega : 1 ≤ m + 1) (by omega : m + 1 ≤ 13)
  have hnext := daysBeforeYear_succ hy
  have hle := daysBeforeYear_mono (show y + 1 ≤ y' from h)
  rw [ordinal_eq, ordinal_eq]
  omega

namespace UtcTime

/-! ### The order of times -/

/-- The time of day in microseconds. -/
def clockMicros (t : UtcTime) : Nat :=
  ((t.hour * 60 + t.minute) * 60 + t.second) * 1000000 + t.microsecond

theorem instant_eq_day (t : UtcTime) :
    t.instant = (ordinal t.year t.month t.day : Int) * 86400000000 + t.clockMicros := rfl

theorem clockMicros_lt (t : UtcTime) : t.clockMicros < 86400000000 := by
  have hclock := t.clock
  unfold clockMicros
  omega

/-- One date is before another. -/
def DateBefore (a b : UtcTime) : Prop :=
  a.year < b.year ∨ a.year = b.year ∧ (a.month < b.month ∨ a.month = b.month ∧ a.day < b.day)

/-- One time of day is before another. -/
def ClockBefore (a b : UtcTime) : Prop :=
  a.hour < b.hour ∨ a.hour = b.hour ∧ (a.minute < b.minute ∨ a.minute = b.minute ∧
    (a.second < b.second ∨ a.second = b.second ∧ a.microsecond < b.microsecond))

def SameDate (a b : UtcTime) : Prop := a.year = b.year ∧ a.month = b.month ∧ a.day = b.day

/-- One time is before another, field by field. -/
def Before (a b : UtcTime) : Prop := DateBefore a b ∨ SameDate a b ∧ ClockBefore a b

theorem before_trichotomy (a b : UtcTime) : Before a b ∨ a = b ∨ Before b a := by
  by_cases hsame : a.year = b.year ∧ a.month = b.month ∧ a.day = b.day ∧ a.hour = b.hour ∧
      a.minute = b.minute ∧ a.second = b.second ∧ a.microsecond = b.microsecond
  · obtain ⟨h1, h2, h3, h4, h5, h6, h7⟩ := hsame
    refine .inr (.inl ?_)
    cases a
    cases b
    simp only at h1 h2 h3 h4 h5 h6 h7
    subst h1 h2 h3 h4 h5 h6 h7
    rfl
  · unfold Before DateBefore SameDate ClockBefore
    omega

theorem ordinal_lt_of_before {a b : UtcTime} (h : DateBefore a b) :
    ordinal a.year a.month a.day < ordinal b.year b.month b.day := by
  obtain ⟨⟨hy, -⟩, hm, -, hd⟩ := validDate_iff.mp a.date
  obtain ⟨-, -, hd', -⟩ := validDate_iff.mp b.date
  rcases h with hyear | ⟨hyear, hmonth | ⟨hmonth, hday⟩⟩
  · exact ordinal_lt_of_year hy hyear hm hd hd'
  · rw [← hyear]
    exact ordinal_lt_of_month hm.1 hmonth hd hd'
  · rw [ordinal_eq, ordinal_eq, ← hyear, ← hmonth]
    omega

theorem instant_lt_of_before {a b : UtcTime} (h : Before a b) : a.instant < b.instant := by
  have ha := a.clockMicros_lt
  have hb := b.clockMicros_lt
  rw [instant_eq_day, instant_eq_day]
  rcases h with hdate | ⟨⟨hyear, hmonth, hday⟩, hclock⟩
  · have hordinal := ordinal_lt_of_before hdate
    omega
  · have hmicros : a.clockMicros < b.clockMicros := by
      have haclock := a.clock
      have hbclock := b.clock
      unfold ClockBefore at hclock
      unfold clockMicros
      omega
    rw [hyear, hmonth, hday]
    omega

/-! ### The order of their texts -/

/-- What `isoformat` prints for the microsecond, and the zone. -/
def fractionChars (us : Nat) : List Char := (if us = 0 then [] else '.' :: paddedDigits 6 us) ++ zoneChars

theorem toList_isoformat (t : UtcTime) : t.isoformat.toList =
    paddedDigits 4 t.year ++ '-' :: (paddedDigits 2 t.month ++ '-' :: (paddedDigits 2 t.day ++ 'T' ::
      (paddedDigits 2 t.hour ++ ':' :: (paddedDigits 2 t.minute ++ ':' :: (paddedDigits 2 t.second ++
        fractionChars t.microsecond))))) := by
  unfold isoformat
  simp [fractionChars, zoneChars]

/-- A second without a fraction comes first: `+` is before `.`. -/
theorem fractionChars_lt {m n : Nat} (h : m < n) (hn : n ≤ 999999) : fractionChars m < fractionChars n := by
  have hn0 : n ≠ 0 := by omega
  unfold fractionChars
  rw [if_neg hn0]
  by_cases hm0 : m = 0
  · rw [if_pos hm0]
    exact List.Lex.rel (by decide : '+' < '.')
  · rw [if_neg hm0, List.cons_append, List.cons_append]
    exact List.Lex.cons (padded_append_lt (by omega) (.inl h))

theorem clock_text_lt {a b : UtcTime} (h : ClockBefore a b) :
    paddedDigits 2 a.hour ++ ':' :: (paddedDigits 2 a.minute ++ ':' :: (paddedDigits 2 a.second ++
        fractionChars a.microsecond)) <
      paddedDigits 2 b.hour ++ ':' :: (paddedDigits 2 b.minute ++ ':' :: (paddedDigits 2 b.second ++
        fractionChars b.microsecond)) := by
  obtain ⟨hhour, hminute, hsecond, hus⟩ := b.clock
  refine padded_append_lt (by omega) (h.imp_right fun h => ⟨h.1, List.Lex.cons ?_⟩)
  refine padded_append_lt (by omega) (h.2.imp_right fun h => ⟨h.1, List.Lex.cons ?_⟩)
  exact padded_append_lt (by omega) (h.2.imp_right fun h => ⟨h.1, fractionChars_lt h.2 hus⟩)

theorem isoformat_lt_of_before {a b : UtcTime} (h : Before a b) : a.isoformat < b.isoformat := by
  obtain ⟨⟨-, hyear⟩, ⟨-, hmonth⟩, hday⟩ := validDate_iff.mp b.date
  have hlong := daysInMonth_bounds b.year (validDate_iff.mp b.date).2.1
  rw [String.lt_iff_toList_lt, toList_isoformat, toList_isoformat]
  rcases h with hdate | ⟨⟨hsameYear, hsameMonth, hsameDay⟩, hclock⟩
  · refine padded_append_lt (by omega) (hdate.imp_right fun h => ⟨h.1, List.Lex.cons ?_⟩)
    refine padded_append_lt (by omega) (h.2.imp_right fun h => ⟨h.1, List.Lex.cons ?_⟩)
    exact padded_append_lt (by omega) (.inl h.2)
  · rw [hsameYear, hsameMonth, hsameDay]
    apply List.append_left_lt
    refine List.Lex.cons (List.append_left_lt (List.Lex.cons (List.append_left_lt (List.Lex.cons ?_))))
    exact clock_text_lt hclock

/-- The texts of two times compare as the times do. -/
theorem isoformat_le_iff {a b : UtcTime} : a.isoformat ≤ b.isoformat ↔ a.instant ≤ b.instant := by
  rcases before_trichotomy a b with h | rfl | h
  · exact iff_of_true (isoformat_lt_of_before h).le (instant_lt_of_before h).le
  · exact iff_of_true le_rfl le_rfl
  · exact iff_of_false (isoformat_lt_of_before h).not_ge (instant_lt_of_before h).not_ge

/-! ### A while later -/

/-- The same time of the next day; nothing after the last day of the calendar. -/
def tomorrow (t : UtcTime) : Option UtcTime :=
  if h : validDate t.year t.month (t.day + 1) = true then
    some { t with day := t.day + 1, date := h }
  else if h : validDate t.year (t.month + 1) 1 = true then
    some { t with month := t.month + 1, day := 1, date := h }
  else if h : validDate (t.year + 1) 1 1 = true then
    some { t with year := t.year + 1, month := 1, day := 1, date := h }
  else none

def laterDay : Nat → UtcTime → Option UtcTime
  | 0, t => some t
  | n + 1, t => t.tomorrow.bind (laterDay n)

/-- A time of the same day, by the microseconds since its start. -/
def atMicros (t : UtcTime) (micros : Nat) : UtcTime :=
  { t with
    hour := micros / 3600000000 % 24
    minute := micros / 60000000 % 60
    second := micros / 1000000 % 60
    microsecond := micros % 1000000
    clock := by omega }

@[simp] theorem atMicros_year (t : UtcTime) (micros : Nat) : (t.atMicros micros).year = t.year := rfl

@[simp] theorem atMicros_month (t : UtcTime) (micros : Nat) : (t.atMicros micros).month = t.month := rfl

@[simp] theorem atMicros_day (t : UtcTime) (micros : Nat) : (t.atMicros micros).day = t.day := rfl

/-- `t + timedelta(microseconds=micros)`; nothing where it raises `OverflowError`. -/
def add (t : UtcTime) (micros : Nat) : Option UtcTime :=
  (laterDay ((t.clockMicros + micros) / 86400000000) t).map
    (atMicros · ((t.clockMicros + micros) % 86400000000))

theorem clockMicros_atMicros (t : UtcTime) {micros : Nat} (h : micros < 86400000000) :
    (t.atMicros micros).clockMicros = micros := by
  simp only [atMicros, clockMicros]
  omega

end UtcTime

end EngineeringIntelligence.Framework
