import EngineeringIntelligence.Framework.Text
import EngineeringIntelligence.Framework.Timestamp
import Mathlib.Tactic.IntervalCases

namespace EngineeringIntelligence.Framework

/-! A `datetime` in UTC, and the text `isoformat` prints it as. -/

structure UtcTime where
  year : Nat
  month : Nat
  day : Nat
  hour : Nat
  minute : Nat
  second : Nat
  microsecond : Nat
  date : validDate year month day = true
  clock : hour ≤ 23 ∧ minute ≤ 59 ∧ second ≤ 59 ∧ microsecond ≤ 999999
  deriving DecidableEq

theorem midnight_clock : 0 ≤ 23 ∧ 0 ≤ 59 ∧ 0 ≤ 59 ∧ 0 ≤ 999999 := by decide

/-- A number with leading zeros, `width` digits long. -/
def paddedDigits : Nat → Nat → List Char
  | 0, _ => []
  | width + 1, n => paddedDigits width (n / 10) ++ [Nat.digitChar (n % 10)]

namespace UtcTime

/-- The point in time in microseconds, counted as `PyDateTime.instant` does. -/
def instant (t : UtcTime) : Int :=
  (ordinal t.year t.month t.day : Int) * 86400000000 +
    (((t.hour * 60 + t.minute) * 60 + t.second) * 1000000 + t.microsecond : Nat)

/-- The last point in time a `datetime` can hold. -/
def maxInstant : Int := (maxOrdinal : Int) * 86400000000 + 86399999999

/-- `isoformat`. -/
def isoformat (t : UtcTime) : String :=
  String.ofList (paddedDigits 4 t.year ++ ['-'] ++ paddedDigits 2 t.month ++ ['-'] ++
    paddedDigits 2 t.day ++ ['T'] ++ paddedDigits 2 t.hour ++ [':'] ++ paddedDigits 2 t.minute ++
    [':'] ++ paddedDigits 2 t.second ++
    (if t.microsecond = 0 then [] else '.' :: paddedDigits 6 t.microsecond) ++
    ['+', '0', '0', ':', '0', '0'])

end UtcTime

/-! ### Reading it back -/

/-- A decimal digit as a character. -/
def digit (d : Fin 10) : Char := Nat.digitChar d

theorem digit_isDigit : ∀ d : Fin 10, (digit d).isDigit = true := by decide

theorem digit_toNat : ∀ d : Fin 10, (digit d).toNat - 48 = d := by decide

theorem digit_utf8Size : ∀ d : Fin 10, (digit d).utf8Size = 1 := by decide

theorem digit_not_space : ∀ d : Fin 10, isPythonSpace (digit d) = false := by decide

theorem digit_ne : ∀ d : Fin 10, digit d ≠ 'W' ∧ digit d ≠ '+' ∧ digit d ≠ '-' ∧ digit d ≠ 'Z' := by
  decide

/-- The last digit of a number. -/
def lastDigit (n : Nat) : Fin 10 := ⟨n % 10, Nat.mod_lt _ (by decide)⟩

theorem paddedDigits_two (n : Nat) :
    paddedDigits 2 n = [digit (lastDigit (n / 10)), digit (lastDigit n)] := rfl

theorem paddedDigits_four (n : Nat) :
    paddedDigits 4 n = [digit (lastDigit (n / 10 / 10 / 10)), digit (lastDigit (n / 10 / 10)),
      digit (lastDigit (n / 10)), digit (lastDigit n)] := rfl

theorem paddedDigits_six (n : Nat) :
    paddedDigits 6 n = [digit (lastDigit (n / 10 / 10 / 10 / 10 / 10)),
      digit (lastDigit (n / 10 / 10 / 10 / 10)), digit (lastDigit (n / 10 / 10 / 10)),
      digit (lastDigit (n / 10 / 10)), digit (lastDigit (n / 10)), digit (lastDigit n)] := rfl

section
open FromIsoFormat
variable (y m d hour minute second us : Nat)

/-- The characters of the date, and of the time without a fraction and with one. -/
def dateChars : List Char :=
  paddedDigits 4 y ++ ['-'] ++ paddedDigits 2 m ++ ['-'] ++ paddedDigits 2 d ++ ['T']

def secondsChars : List Char :=
  paddedDigits 2 hour ++ [':'] ++ paddedDigits 2 minute ++ [':'] ++ paddedDigits 2 second

def zoneChars : List Char := ['+', '0', '0', ':', '0', '0']

variable {y m d hour minute second us}

theorem parseDate_chars (hdate : validDate y m d = true) (rest : List Char) :
    parseDate (dateChars y m d ++ rest) 10 = some (ordinal y m d) := by
  have hbounds := hdate
  simp only [validDate, Bool.and_eq_true, decide_eq_true_eq] at hbounds
  obtain ⟨⟨⟨⟨⟨-, hyear⟩, -⟩, hmonth⟩, -⟩, hday⟩ := hbounds
  have hday' : d ≤ 31 := by
    refine hday.trans ?_
    unfold daysInMonth
    split
    · omega
    · have hindex : m - 1 < 12 := by omega
      generalize m - 1 = i at hindex
      interval_cases i <;> decide
  have hy : 10 * (10 * (10 * (y / 10 / 10 / 10 % 10) + y / 10 / 10 % 10) + y / 10 % 10) + y % 10 = y := by
    omega
  have hm : 10 * (m / 10 % 10) + m % 10 = m := by omega
  have hd : 10 * (d / 10 % 10) + d % 10 = d := by omega
  simp [parseDate, dateChars, paddedDigits_two, paddedDigits_four, charAt, digit_ne, parseDigits,
    digit_isDigit, digit_toNat, lastDigit, hy, hm, hd, hdate]

theorem parseTime_seconds (hhour : hour ≤ 23) (hminute : minute ≤ 59) (hsecond : second ≤ 59) :
    parseTime (secondsChars hour minute second ++ zoneChars) =
      some (((hour * 60 + minute) * 60 + second) * 1000000, some 0) := by
  have hh : 10 * (hour / 10 % 10) + hour % 10 = hour := by omega
  have hm : 10 * (minute / 10 % 10) + minute % 10 = minute := by omega
  have hs : 10 * (second / 10 % 10) + second % 10 = second := by omega
  simp [parseTime, secondsChars, zoneChars, paddedDigits_two, charAt, digit_ne, parseDigits,
    digit_isDigit, digit_toNat, lastDigit, parseClock, parseOffset, clockSeconds, List.takeWhile, hh,
    hm, hs, hhour, hminute, hsecond]

theorem parseTime_micros (hhour : hour ≤ 23) (hminute : minute ≤ 59) (hsecond : second ≤ 59)
    (hus : us ≤ 999999) :
    parseTime (secondsChars hour minute second ++ ('.' :: paddedDigits 6 us) ++ zoneChars) =
      some (((hour * 60 + minute) * 60 + second) * 1000000 + us, some 0) := by
  have hh : 10 * (hour / 10 % 10) + hour % 10 = hour := by omega
  have hm : 10 * (minute / 10 % 10) + minute % 10 = minute := by omega
  have hs : 10 * (second / 10 % 10) + second % 10 = second := by omega
  have hu : 10 * (10 * (10 * (10 * (10 * (us / 10 / 10 / 10 / 10 / 10 % 10) +
      us / 10 / 10 / 10 / 10 % 10) + us / 10 / 10 / 10 % 10) + us / 10 / 10 % 10) + us / 10 % 10) +
        us % 10 = us := by
    omega
  simp [parseTime, secondsChars, zoneChars, paddedDigits_two, paddedDigits_six, charAt, digit_ne,
    parseDigits, digit_isDigit, digit_toNat, lastDigit, parseClock, parseOffset, parseFraction,
    clockSeconds, List.takeWhile, hh, hm, hs, hu, hhour, hminute, hsecond]

theorem bytes_of_ascii {cs : List Char} (h : ∀ c ∈ cs, c.utf8Size = 1) :
    bytes (String.ofList cs) = cs := by
  unfold bytes
  rw [String.toList_ofList]
  induction cs with
  | nil => rfl
  | cons c cs ih =>
    rw [List.flatMap_cons, h c (by simp), ih fun d hd => h d (List.mem_cons_of_mem _ hd)]
    rfl

theorem mem_paddedDigits {width n : Nat} {c : Char} (h : c ∈ paddedDigits width n) : ∃ d, c = digit d := by
  induction width generalizing n with
  | zero => cases h
  | succ width ih =>
    obtain hfront | hlast := List.mem_append.mp h
    · exact ih hfront
    · exact ⟨lastDigit n, List.mem_singleton.mp hlast⟩

theorem utf8Size_padded (width n : Nat) : ∀ c ∈ paddedDigits width n, c.utf8Size = 1 := by
  induction width generalizing n with
  | zero => simp [paddedDigits]
  | succ width ih =>
    intro c hc
    rcases List.mem_append.mp hc with hc | hc
    · exact ih (n / 10) c hc
    · rw [List.mem_singleton.mp hc]
      exact digit_utf8Size (lastDigit n)

end

namespace UtcTime

/-- The part of the text after the date. -/
def clockChars (t : UtcTime) : List Char :=
  secondsChars t.hour t.minute t.second ++
    (if t.microsecond = 0 then [] else '.' :: paddedDigits 6 t.microsecond) ++ zoneChars

theorem isoformat_eq (t : UtcTime) :
    t.isoformat = String.ofList (dateChars t.year t.month t.day ++ t.clockChars) := by
  unfold isoformat
  simp [dateChars, clockChars, secondsChars, zoneChars]

theorem utf8Size_clockChars (t : UtcTime) : ∀ c ∈ t.clockChars, c.utf8Size = 1 := by
  have hzone : ∀ c ∈ zoneChars, c.utf8Size = 1 := by simp [zoneChars]; decide
  have hcolon : ∀ c ∈ [':'], c.utf8Size = 1 := List.forall_mem_singleton.mpr rfl
  have hfraction : ∀ c ∈ (if t.microsecond = 0 then [] else '.' :: paddedDigits 6 t.microsecond),
      c.utf8Size = 1 := by
    split
    · simp
    · exact List.forall_mem_cons.mpr ⟨by decide, utf8Size_padded 6 _⟩
  unfold clockChars secondsChars
  simp only [List.forall_mem_append]
  exact ⟨⟨⟨⟨⟨⟨utf8Size_padded 2 _, hcolon⟩, utf8Size_padded 2 _⟩, hcolon⟩, utf8Size_padded 2 _⟩,
    hfraction⟩, hzone⟩

theorem utf8Size_dateChars (y m d : Nat) : ∀ c ∈ dateChars y m d, c.utf8Size = 1 := by
  have hdash : ∀ c ∈ ['-'], c.utf8Size = 1 := List.forall_mem_singleton.mpr rfl
  have ht : ∀ c ∈ ['T'], c.utf8Size = 1 := List.forall_mem_singleton.mpr rfl
  unfold dateChars
  simp only [List.forall_mem_append]
  exact ⟨⟨⟨⟨⟨utf8Size_padded 4 _, hdash⟩, utf8Size_padded 2 _⟩, hdash⟩, utf8Size_padded 2 _⟩, ht⟩

theorem bytes_isoformat (t : UtcTime) :
    FromIsoFormat.bytes t.isoformat = dateChars t.year t.month t.day ++ t.clockChars := by
  rw [isoformat_eq]
  exact bytes_of_ascii
    (List.forall_mem_append.mpr ⟨utf8Size_dateChars _ _ _, utf8Size_clockChars t⟩)

/-- `fromisoformat` reads a printed time back. -/
theorem fromisoformat_isoformat (t : UtcTime) :
    fromisoformat t.isoformat = some ⟨ordinal t.year t.month t.day,
      ((t.hour * 60 + t.minute) * 60 + t.second) * 1000000 + t.microsecond, some 0⟩ := by
  obtain ⟨hhour, hminute, hsecond, hus⟩ := t.clock
  have htime : FromIsoFormat.parseTime t.clockChars =
      some (((t.hour * 60 + t.minute) * 60 + t.second) * 1000000 + t.microsecond, some 0) := by
    unfold clockChars
    split
    · next hzero =>
      rw [List.append_nil, parseTime_seconds hhour hminute hsecond, hzero, Nat.add_zero]
    · exact parseTime_micros hhour hminute hsecond hus
  have hdate := parseDate_chars t.date t.clockChars
  have hten : FromIsoFormat.separatorLocation (dateChars t.year t.month t.day ++ t.clockChars) =
      some 10 := by
    simp [FromIsoFormat.separatorLocation, dateChars, paddedDigits_two, paddedDigits_four, charAt,
      digit_ne]
  have hdrop : (dateChars t.year t.month t.day ++ t.clockChars).drop 11 = t.clockChars := rfl
  have hsep : (charAt (dateChars t.year t.month t.day ++ t.clockChars) 10).utf8Size = 1 := rfl
  have hlength : (dateChars t.year t.month t.day ++ t.clockChars).length = t.clockChars.length + 11 := by
    rw [List.length_append]
    exact Nat.add_comm _ _
  unfold fromisoformat
  simp only [bytes_isoformat, hten, hdate, hlength, hsep, hdrop, htime, Option.bind_eq_bind,
    Option.bind_some]
  rw [if_neg (by omega), if_neg (by omega)]

theorem instant_eq (t : UtcTime) :
    (PyDateTime.mk (ordinal t.year t.month t.day)
      (((t.hour * 60 + t.minute) * 60 + t.second) * 1000000 + t.microsecond) (some 0)).instant =
      t.instant := by
  simp [PyDateTime.instant, instant]

/-- A printed time starts and ends with a digit, so stripping leaves it. -/
theorem strip_isoformat (t : UtcTime) : strip t.isoformat = t.isoformat := by
  have hfirst : ∃ d rest, t.isoformat.toList = digit d :: rest := by
    rw [isoformat_eq, String.toList_ofList]
    exact ⟨lastDigit (t.year / 10 / 10 / 10), _, rfl⟩
  have hlast : ∃ rest, t.isoformat.toList = rest ++ ['0'] := by
    rw [isoformat_eq, String.toList_ofList]
    refine ⟨dateChars t.year t.month t.day ++ (secondsChars t.hour t.minute t.second ++
      (if t.microsecond = 0 then [] else '.' :: paddedDigits 6 t.microsecond) ++
      ['+', '0', '0', ':', '0']), ?_⟩
    simp [clockChars, zoneChars]
  have hzero : isPythonSpace '0' = false := by decide
  unfold strip trimBy
  obtain ⟨d, rest, hd⟩ := hfirst
  have hkept : t.isoformat.toList.dropWhile isPythonSpace = t.isoformat.toList := by
    rw [hd, List.dropWhile_cons_of_neg]
    simp [digit_not_space]
  obtain ⟨front, hfront⟩ := hlast
  rw [hkept, hfront, List.reverse_append, List.reverse_singleton, List.singleton_append,
    List.dropWhile_cons_of_neg (by simp [hzero]), ← List.singleton_append, ← List.reverse_singleton,
    ← List.reverse_append, List.reverse_reverse, ← hfront, String.ofList_toList]

theorem isoformat_ne_empty (t : UtcTime) : t.isoformat ≠ "" := by
  intro hempty
  have hlength := congrArg String.toList hempty
  rw [isoformat_eq, String.toList_ofList] at hlength
  cases hlength

end UtcTime

end EngineeringIntelligence.Framework
