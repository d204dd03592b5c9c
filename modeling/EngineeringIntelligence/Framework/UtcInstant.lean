import EngineeringIntelligence.Framework.UtcOrder

namespace EngineeringIntelligence.Framework

/-! The UTC time at a point in time, as `astimezone` finds it. -/

/-- The estimate by mean year length is the year of a day number, or one off. -/
theorem yearOfOrdinal_eq {y n : Nat} (hy : 1 ≤ y) (hfirst : daysBeforeYear y < n)
    (hlast : n ≤ daysBeforeYear (y + 1)) : yearOfOrdinal n = y := by
  obtain ⟨k, rfl⟩ : ∃ k, y = k + 1 := ⟨y - 1, by omega⟩
  have hestimate : (n - 1) * 400 / 146097 = k ∨ (n - 1) * 400 / 146097 = k + 1 ∨
      (n - 1) * 400 / 146097 + 1 = k := by
    simp only [daysBeforeYear, Nat.add_sub_cancel] at hfirst hlast
    omega
  rw [yearOfOrdinal]
  rcases hestimate with h | h | h
  · have hsame : (n - 1) * 400 / 146097 + 1 = k + 1 := by omega
    simp only [hsame]
    rw [if_neg (by omega), if_neg (by omega)]
  · have hnext : (n - 1) * 400 / 146097 + 1 = k + 1 + 1 := by omega
    simp only [hnext]
    rw [if_pos hlast, Nat.add_sub_cancel]
  · have hprevious : (n - 1) * 400 / 146097 + 1 = k := by omega
    have hmono : daysBeforeYear k ≤ daysBeforeYear (k + 1) := daysBeforeYear_mono (Nat.le_succ k)
    simp only [hprevious]
    rw [if_neg (by omega), if_pos hfirst]

theorem monthAndDay_eq (y : Nat) {fuel first m d : Nat} (hfirst : 1 ≤ first) (hm : first ≤ m)
    (hfuel : m ≤ first + fuel) (hd : 1 ≤ d ∧ d ≤ daysInMonth y m) {n : Nat}
    (hn : daysBeforeMonth y first + n + 1 = daysBeforeMonth y m + d) :
    monthAndDay y fuel first n = (m, d) := by
  induction fuel generalizing first n with
  | zero =>
    obtain rfl : first = m := by omega
    have hday : n + 1 = d := by omega
    rw [monthAndDay, hday]
  | succ fuel ih =>
    have hnext := daysBeforeMonth_succ y hfirst
    rw [monthAndDay]
    rcases Nat.eq_or_lt_of_le hm with rfl | hlt
    · have hday : n + 1 = d := by omega
      rw [if_pos (by omega), hday]
    · have hle : daysBeforeMonth y (first + 1) ≤ daysBeforeMonth y m :=
        daysBeforeMonth_mono y (by omega) hlt
      rw [if_neg (by omega)]
      have hstart : 1 ≤ first + 1 := by omega
      have hend : first + 1 ≤ m := hlt
      exact ih hstart hend (by omega) (by omega)

theorem dateOfOrdinal_eq {y m d : Nat} (hy : 1 ≤ y) (hm : 1 ≤ m ∧ m ≤ 12)
    (hd : 1 ≤ d ∧ d ≤ daysInMonth y m) : yearOfOrdinal (ordinal y m d) = y ∧
      monthAndDay y 11 1 (ordinal y m d - daysBeforeYear y - 1) = (m, d) := by
  have hmonth := daysBeforeMonth_succ y hm.1
  have hle := daysBeforeMonth_mono y (by omega : 1 ≤ m + 1) (by omega : m + 1 ≤ 13)
  have hyear := daysBeforeYear_succ hy
  have hjanuary : daysBeforeMonth y 1 = 0 := rfl
  have hordinal := ordinal_eq y m d
  exact ⟨yearOfOrdinal_eq hy (by omega) (by omega),
    monthAndDay_eq y le_rfl hm.1 (by omega) hd (by omega)⟩

/-- Every day number is the number of a day, in the calendar or after it. -/
theorem exists_ordinal_eq {n : Nat} (h : 1 ≤ n) :
    ∃ y m d, 1 ≤ y ∧ (1 ≤ m ∧ m ≤ 12) ∧ (1 ≤ d ∧ d ≤ daysInMonth y m) ∧ ordinal y m d = n := by
  induction n, h using Nat.le_induction with
  | base => exact ⟨1, 1, 1, le_rfl, by decide, by decide, by decide⟩
  | succ n hn ih =>
    obtain ⟨y, m, d, hy, hm, hd, rfl⟩ := ih
    rcases Nat.lt_or_ge d (daysInMonth y m) with hday | hday
    · exact ⟨y, m, d + 1, hy, hm, by omega, rfl⟩
    have hend : d = daysInMonth y m := by omega
    have hnext := daysBeforeMonth_succ y hm.1
    rcases Nat.lt_or_ge m 12 with hmonth | hmonth
    · have hlong := (daysInMonth_bounds y (by omega : 1 ≤ m + 1 ∧ m + 1 ≤ 12)).1
      refine ⟨y, m + 1, 1, hy, by omega, ⟨le_rfl, hlong⟩, ?_⟩
      rw [ordinal_eq, ordinal_eq]
      omega
    · obtain rfl : m = 12 := by omega
      have hyear : daysBeforeMonth y 13 = daysBeforeMonth y 12 + daysInMonth y 12 := hnext
      have hlong := (daysInMonth_bounds (y + 1) (by omega : 1 ≤ 1 ∧ 1 ≤ 12)).1
      have hyears := daysBeforeYear_succ hy
      have hjanuary : daysBeforeMonth (y + 1) 1 = 0 := rfl
      refine ⟨y + 1, 1, 1, by omega, by decide, ⟨le_rfl, hlong⟩, ?_⟩
      rw [ordinal_eq, ordinal_eq]
      omega

namespace UtcTime

/-- The time of a day number and the microseconds since the day began; nothing outside of the
calendar. -/
def ofDay (day micros : Nat) : Option UtcTime :=
  let year := yearOfOrdinal day
  let date := monthAndDay year 11 1 (day - daysBeforeYear year - 1)
  if h : validDate year date.1 date.2 = true then
    some (atMicros ⟨year, date.1, date.2, 0, 0, 0, 0, h, by decide⟩ micros)
  else none

/-- The time at a point in time. -/
def ofInstant (n : Int) : Option UtcTime :=
  ofDay (n / 86400000000).toNat (n % 86400000000).toNat

theorem atMicros_clockMicros {t u : UtcTime} (hyear : u.year = t.year) (hmonth : u.month = t.month)
    (hday : u.day = t.day) : u.atMicros t.clockMicros = t := by
  obtain ⟨hhour, hminute, hsecond, hus⟩ := t.clock
  have hh : t.clockMicros / 3600000000 % 24 = t.hour := by
    unfold clockMicros
    omega
  have hm : t.clockMicros / 60000000 % 60 = t.minute := by
    unfold clockMicros
    omega
  have hs : t.clockMicros / 1000000 % 60 = t.second := by
    unfold clockMicros
    omega
  have hmicro : t.clockMicros % 1000000 = t.microsecond := by
    unfold clockMicros
    omega
  cases t
  cases u
  simp only at hyear hmonth hday hh hm hs hmicro
  simp only [atMicros, hyear, hmonth, hday, hh, hm, hs, hmicro]

theorem day_of_instant (t : UtcTime) :
    (t.instant / 86400000000).toNat = ordinal t.year t.month t.day ∧
      (t.instant % 86400000000).toNat = t.clockMicros := by
  have hlt := t.clockMicros_lt
  have hday := t.instant_eq_day
  generalize t.clockMicros = micros at hlt hday ⊢
  generalize ordinal t.year t.month t.day = day at hday ⊢
  omega

theorem ofDay_ordinal (t : UtcTime) : ofDay (ordinal t.year t.month t.day) t.clockMicros = some t := by
  obtain ⟨hyears, hmonths, hdays⟩ := validDate_iff.mp t.date
  obtain ⟨hyear, hdate⟩ := dateOfOrdinal_eq hyears.1 hmonths hdays
  unfold ofDay
  simp only [hyear, hdate]
  rw [dif_pos t.date]
  exact congrArg some (atMicros_clockMicros rfl rfl rfl)

theorem ofInstant_instant (t : UtcTime) : ofInstant t.instant = some t := by
  obtain ⟨hquotient, hremainder⟩ := t.day_of_instant
  rw [ofInstant, hquotient, hremainder, ofDay_ordinal]

theorem ordinal_of_ofDay {day micros : Nat} {t : UtcTime} (h : ofDay day micros = some t) :
    ordinal t.year t.month t.day = day ∧ t = t.atMicros micros := by
  unfold ofDay at h
  simp only at h
  split at h
  · next hdate =>
    cases h
    refine ⟨?_, rfl⟩
    simp only [atMicros_year, atMicros_month, atMicros_day]
    rcases Nat.eq_zero_or_pos day with rfl | hday
    · exact absurd (validDate_iff.mp hdate).1.1 (by decide)
    · obtain ⟨y, m, d, hy, hm, hd, rfl⟩ := exists_ordinal_eq hday
      obtain ⟨hyear, hmonth⟩ := dateOfOrdinal_eq hy hm hd
      rw [hyear, hmonth]
  · cases h

theorem instant_of_ofInstant {n : Int} {t : UtcTime} (h : ofInstant n = some t) : t.instant = n := by
  obtain ⟨hday, hmicros⟩ := ordinal_of_ofDay h
  have hpositive := (validDate_iff.mp t.date).2.2.1
  have hone : 1 ≤ ordinal t.year t.month t.day := by
    rw [ordinal_eq]
    omega
  rw [instant_eq_day, hday, hmicros, clockMicros_atMicros t (by omega)]
  omega

/-- A day number is in the calendar from the first to the last. -/
theorem ofDay_isSome_iff {day micros : Nat} : (ofDay day micros).isSome = true ↔ 1 ≤ day ∧ day ≤ maxOrdinal := by
  rcases Nat.eq_zero_or_pos day with rfl | hday
  · have hnone : ofDay 0 micros = none := rfl
    rw [hnone]
    exact iff_of_false (by decide) (by omega)
  obtain ⟨y, m, d, hy, hm, hd, rfl⟩ := exists_ordinal_eq hday
  obtain ⟨hyear, hdate⟩ := dateOfOrdinal_eq hy hm hd
  have hvalid : (ofDay (ordinal y m d) micros).isSome = validDate y m d := by
    unfold ofDay
    simp only [hyear, hdate]
    split
    · next h => exact h.symm
    · next h => exact (Bool.eq_false_iff.mpr h).symm
  have hlast : daysBeforeYear 10000 = maxOrdinal := by decide
  have hmonth := daysBeforeMonth_succ y hm.1
  have hle := daysBeforeMonth_mono y (by omega : 1 ≤ m + 1) (by omega : m + 1 ≤ 13)
  have hnext := daysBeforeYear_succ hy
  have hordinal := ordinal_eq y m d
  rw [hvalid, validDate_iff, ← hlast]
  constructor
  · rintro ⟨⟨-, hle9999⟩, -, -⟩
    have hyears := daysBeforeYear_mono (by omega : y + 1 ≤ 10000)
    omega
  · rintro ⟨-, hordinalle⟩
    refine ⟨⟨hy, ?_⟩, hm, hd⟩
    by_contra hlate
    have hyears := daysBeforeYear_mono (by omega : 10000 ≤ y)
    omega

/-- The points in time that have a time in UTC. -/
theorem ofInstant_isSome_iff {n : Int} :
    (ofInstant n).isSome = true ↔ 86400000000 ≤ n ∧ n ≤ maxInstant := by
  rw [ofInstant, ofDay_isSome_iff, maxInstant, maxOrdinal]
  omega

theorem instant_injective {a b : UtcTime} (h : a.instant = b.instant) : a = b := by
  have ha := ofInstant_instant a
  rw [h, ofInstant_instant] at ha
  exact (Option.some.inj ha).symm

theorem isoformat_injective {a b : UtcTime} (h : a.isoformat = b.isoformat) : a = b := by
  have hle := isoformat_le_iff.mp h.le
  have hge := isoformat_le_iff.mp h.ge
  exact instant_injective (le_antisymm hle hge)

end UtcTime

/-- `_utc` of a `datetime` that was read: nothing for a naive one. -/
def PyDateTime.inUtc (t : PyDateTime) : Option UtcTime :=
  if t.utcoffset.isSome then UtcTime.ofInstant t.instant else none

/-- What `astimezone` gives is the same point in time. -/
theorem PyDateTime.instant_of_inUtc {t : PyDateTime} {u : UtcTime} (h : t.inUtc = some u) :
    t.utcoffset.isSome = true ∧ u.instant = t.instant := by
  unfold PyDateTime.inUtc at h
  split at h
  · next haware => exact ⟨haware, UtcTime.instant_of_ofInstant h⟩
  · cases h

/-- A time that was printed is read back. -/
theorem inUtc_isoformat (t : UtcTime) :
    ∃ parsed, fromisoformat t.isoformat = some parsed ∧ parsed.inUtc = some t := by
  refine ⟨_, t.fromisoformat_isoformat, ?_⟩
  have haware : (some (0 : Int)).isSome = true := rfl
  rw [PyDateTime.inUtc, if_pos haware, UtcTime.instant_eq, UtcTime.ofInstant_instant]

/-- `text.replace("Z", "+00:00")`. -/
def spelledZone (text : String) : String :=
  String.ofList (text.toList.flatMap fun c => if c = 'Z' then ['+', '0', '0', ':', '0', '0'] else [c])

/-- A printed time has its zone spelled out. -/
theorem spelledZone_isoformat (t : UtcTime) : spelledZone t.isoformat = t.isoformat := by
  have hdigits (width n : Nat) : 'Z' ∉ paddedDigits width n := by
    intro hmem
    obtain ⟨d, hd⟩ := mem_paddedDigits hmem
    exact (digit_ne d).2.2.2 hd.symm
  have hzone : 'Z' ∉ t.isoformat.toList := by
    rw [UtcTime.isoformat, String.toList_ofList]
    split <;> simp [hdigits]
  have hsame : (t.isoformat.toList.flatMap fun c =>
      if c = 'Z' then ['+', '0', '0', ':', '0', '0'] else [c]) = t.isoformat.toList := by
    refine Eq.trans (List.flatMap_congr (g := fun c => [c]) fun c hc => ?_) (List.flatMap_singleton' _)
    rw [if_neg]
    rintro rfl
    exact hzone hc
  rw [spelledZone, hsame, String.ofList_toList]

end EngineeringIntelligence.Framework
