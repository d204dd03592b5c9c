import Mathlib.Algebra.Group.Int.Defs
import Mathlib.Algebra.GroupWithZero.Nat
import Mathlib.Data.List.Basic

namespace EngineeringIntelligence.Framework

/-! The proleptic Gregorian calendar and the two timestamp readers a text may
meet: Python's `datetime.fromisoformat` and RFC 3339. -/

def isLeap (y : Nat) : Bool := y % 4 == 0 && (y % 100 != 0 || y % 400 == 0)

def daysInMonth (y m : Nat) : Nat :=
  if m = 2 && isLeap y then 29 else [31, 28, 31, 30, 31, 30, 31, 31, 30, 31, 30, 31].getD (m - 1) 0

/-- Days before January 1st of a year, counted from January 1st of year 1. -/
def daysBeforeYear (y : Nat) : Nat :=
  (y - 1) * 365 + (y - 1) / 4 - (y - 1) / 100 + (y - 1) / 400

/-- Day number of a date; January 1st of year 1 is day 1. -/
def ordinal (y m d : Nat) : Nat :=
  daysBeforeYear y + ((List.range (m - 1)).map (fun i => daysInMonth y (i + 1))).sum + d

def maxOrdinal : Nat := 3652059

/-- A calendar date a `datetime` can hold. -/
def validDate (y m d : Nat) : Bool :=
  1 ≤ y && y ≤ 9999 && 1 ≤ m && m ≤ 12 && 1 ≤ d && d ≤ daysInMonth y m

def charAt (b : List Char) (i : Nat) : Char := b.getD i '\x00'

/-- Exactly `n` decimal digits from position `p` on. -/
def parseDigits (b : List Char) (p : Nat) : Nat → Nat → Option Nat
  | 0, v => some v
  | n + 1, v =>
    if (charAt b p).isDigit then parseDigits b (p + 1) n (10 * v + ((charAt b p).toNat - 48))
    else none

/-- A `datetime`: its day, the microsecond of that day and, when it is aware,
its offset from UTC in microseconds. -/
structure PyDateTime where
  day : Nat
  micros : Nat
  utcoffset : Option Int
  deriving DecidableEq, Repr

namespace FromIsoFormat

/-- UTF-8 length is what the reader counts in; only ASCII bytes are ever looked at. -/
def bytes (s : String) : List Char := s.toList.flatMap (fun c => List.replicate c.utf8Size c)

/-- Where the date ends. Week dates make the separator ambiguous. -/
def separatorLocation (b : List Char) : Option Nat :=
  if b.length = 7 then some 7
  else if charAt b 4 = '-' then
    if charAt b 5 = 'W' then
      if b.length < 8 then none
      else if 8 < b.length && charAt b 8 = '-' then
        if b.length = 9 then none
        else if 10 < b.length && (charAt b 10).isDigit then some 8
        else some 10
      else some 8
    else some 10
  else if charAt b 4 = 'W' then
    let pos := 7 + ((b.drop 7).takeWhile Char.isDigit).length
    if pos < 9 then some pos else if pos % 2 = 0 then some 7 else some 8
  else some 8

/-- Day number of an ISO week date. -/
def weekOrdinal (y w d : Nat) : Option Nat :=
  let first := ordinal y 1 1
  let weekday := (first + 6) % 7
  let monday := if 3 < weekday then first + 7 - weekday else first - weekday
  let long := w = 53 && (first % 7 = 4 || (first % 7 = 3 && isLeap y))
  let day := monday + (w - 1) * 7 + (d - 1)
  if 1 ≤ y && y ≤ 9999 && 0 < w && (w < 53 || long) && 0 < d && d < 8 && 1 ≤ day &&
    day ≤ maxOrdinal then some day else none

/-- The date part, `stop` characters long. -/
def parseDate (b : List Char) (stop : Nat) : Option Nat := do
  let y ← parseDigits b 0 4 0
  let sep := charAt b 4 = '-'
  let p := if sep then 5 else 4
  if charAt b p = 'W' then
    let w ← parseDigits b (p + 1) 2 0
    if p + 3 < stop then
      if sep && charAt b (p + 3) ≠ '-' then none
      else
        let d ← parseDigits b (if sep then p + 4 else p + 3) 1 0
        weekOrdinal y w d
    else weekOrdinal y w 1
  else
    let m ← parseDigits b p 2 0
    if sep && charAt b (p + 2) ≠ '-' then none
    else
      let q := if sep then p + 3 else p + 2
      let d ← parseDigits b q 2 0
      if q + 2 = stop && validDate y m d then some (ordinal y m d) else none

/-- Hours, minutes, seconds and microseconds, and whether text was left over. -/
abbrev Clock := List Nat × Nat × Bool

/-- Up to six digits of a fraction count; further ones are skipped. -/
def parseFraction (b : List Char) (p stop : Nat) (fields : List Nat) : Option Clock := do
  let len := min 6 (stop - p)
  let v ← parseDigits b p len 0
  let rest := (b.drop (p + len)).dropWhile Char.isDigit
  some (fields, v * 10 ^ (6 - len), rest.headD '\x00' ≠ '\x00')

/-- `HH[:?MM[:?SS]]` and a fraction; whether colons are used shows after the hours. -/
def parseClock (b : List Char) (stop : Nat) : Nat → Nat → Option Bool → List Nat → Option Clock
  | 0, p, _, fields => parseFraction b p stop fields
  | n + 1, p, sep, fields => do
    let v ← parseDigits b p 2 0
    let c := charAt b (p + 2)
    let colons := sep.getD (c = ':')
    if stop ≤ p + 3 then some (fields ++ [v], 0, c ≠ '\x00')
    else if colons && c = ':' then parseClock b stop n (p + 3) (some colons) (fields ++ [v])
    else if c = '.' || c = ',' then parseFraction b (p + 3) stop (fields ++ [v])
    else if !colons then parseClock b stop n (p + 2) (some colons) (fields ++ [v])
    else none

def clockSeconds (fields : List Nat) : Nat :=
  (fields.getD 0 0 * 60 + fields.getD 1 0) * 60 + fields.getD 2 0

/-- An offset must stay below a day; one of no whole second is UTC. -/
def parseOffset (b : List Char) (p : Nat) (negative : Bool) : Option Int := do
  let (fields, us, more) ← parseClock b b.length 3 p none []
  if more then none
  else
    let total := clockSeconds fields * 1000000 + us
    if clockSeconds fields = 0 then some 0
    else if total < 86400000000 then some (if negative then -total else total)
    else none

/-- The time part: microsecond of the day and UTC offset. -/
def parseTime (b : List Char) : Option (Nat × Option Int) := do
  let z := max (if b.isEmpty then 1 else 0)
    (b.takeWhile (fun c => !(c = '+' || c = '-' || c = 'Z'))).length
  let (fields, us, more) ← parseClock b z 3 0 none []
  let zone ←
    if b.length ≤ z then (if more then none else some none)
    else if charAt b z = 'Z' then (if charAt b (z + 1) = '\x00' then some (some 0) else none)
    else (parseOffset b (z + 1) (charAt b z = '-')).map some
  if fields.getD 0 0 ≤ 23 && fields.getD 1 0 ≤ 59 && fields.getD 2 0 ≤ 59 then
    some (clockSeconds fields * 1000000 + us, zone)
  else none

end FromIsoFormat

open FromIsoFormat in
/-- `datetime.fromisoformat`, position by position as CPython 3.12 reads the
text; `none` is its `ValueError`. -/
def fromisoformat (s : String) : Option PyDateTime := do
  let b := bytes s
  if b.length < 7 then none
  else
    let stop ← separatorLocation b
    let day ← parseDate b stop
    if b.length ≤ stop then some ⟨day, 0, none⟩
    else
      -- any one character separates date and time
      let (micros, zone) ← parseTime (b.drop (stop + (charAt b stop).utf8Size))
      some ⟨day, micros, zone⟩

open FromIsoFormat in
/-- `date.fromisoformat`: the day number. -/
def dateFromisoformat (s : String) : Option Nat :=
  let b := bytes s
  if b.length = 7 || b.length = 8 || b.length = 10 then parseDate b b.length else none

/-- A date written `YYYY-MM-DD`, and in no other form `date.fromisoformat` reads. -/
def isoDay (s : String) : Option Nat := do
  let b := s.toList
  let y ← parseDigits b 0 4 0
  let m ← parseDigits b 5 2 0
  let d ← parseDigits b 8 2 0
  if b.length = 10 && charAt b 4 = '-' && charAt b 7 = '-' && validDate y m d then
    some (ordinal y m d)
  else none

/-- Month and day of the `n`-th day of a year, counted from 0, from month `m` on. -/
def monthAndDay (y : Nat) : Nat → Nat → Nat → Nat × Nat
  | 0, m, n => (m, n + 1)
  | fuel + 1, m, n =>
    if n < daysInMonth y m then (m, n + 1) else monthAndDay y fuel (m + 1) (n - daysInMonth y m)

/-- The year of a day number: the estimate by mean year length is at most one too high. -/
def yearOfOrdinal (n : Nat) : Nat :=
  let estimate := (n - 1) * 400 / 146097 + 1
  if n ≤ daysBeforeYear estimate then estimate - 1
  else if daysBeforeYear (estimate + 1) < n then estimate + 1
  else estimate

def zeroPad (width : Nat) (n : Nat) : String :=
  let digits := toString n
  String.ofList (List.replicate (width - digits.length) '0') ++ digits

/-- `date.isoformat` of a day number. -/
def dateIsoformat (n : Nat) : String :=
  let y := yearOfOrdinal n
  let (m, d) := monthAndDay y 11 1 (n - daysBeforeYear y - 1)
  zeroPad 4 y ++ "-" ++ zeroPad 2 m ++ "-" ++ zeroPad 2 d

/-- The point in time of a `datetime`, in microseconds; a naive one is read as UTC. -/
def PyDateTime.instant (t : PyDateTime) : Int :=
  (t.day : Int) * 86400000000 + t.micros - t.utcoffset.getD 0

namespace Rfc3339

/-- `Z` or `±HH:MM` to the end of the text, in seconds. -/
def parseZone (b : List Char) (p : Nat) : Option Int := do
  if charAt b p = 'Z' then (if b.length = p + 1 then some 0 else none)
  else if charAt b p = '+' || charAt b p = '-' then
    let h ← parseDigits b (p + 1) 2 0
    let m ← parseDigits b (p + 4) 2 0
    let seconds : Int := (h * 60 + m) * 60
    if charAt b (p + 3) = ':' && b.length = p + 6 && h ≤ 23 && m ≤ 59 then
      some (if charAt b p = '-' then -seconds else seconds)
    else none
  else none

/-- Nanoseconds of a fraction `.d…d` at `p` and where the zone starts. -/
def parseFraction (b : List Char) (p : Nat) : Option (Nat × Nat) := do
  if charAt b p = '.' then
    let digits := (b.drop (p + 1)).takeWhile Char.isDigit
    let len := min 9 digits.length
    if digits.isEmpty then none
    else
      let v ← parseDigits b (p + 1) len 0
      some (v * 10 ^ (9 - len), p + 1 + digits.length)
  else some (0, p)

end Rfc3339

open Rfc3339 in
/-- An RFC 3339 `date-time` in nanoseconds since the Unix epoch; `none` when the
text is in another format or the instant does not fit 64 signed bits. -/
def parseRfc3339Nanos (s : String) : Option Int := do
  let b := s.toList
  let y ← parseDigits b 0 4 0
  let m ← parseDigits b 5 2 0
  let d ← parseDigits b 8 2 0
  let hour ← parseDigits b 11 2 0
  let minute ← parseDigits b 14 2 0
  let second ← parseDigits b 17 2 0
  let (nanos, p) ← parseFraction b 19
  let zone ← parseZone b p
  if charAt b 4 = '-' && charAt b 7 = '-' && charAt b 10 = 'T' && charAt b 13 = ':' &&
      charAt b 16 = ':' && validDate y m d && hour ≤ 23 && minute ≤ 59 && second ≤ 59 then
    let seconds : Int := ((ordinal y m d : Int) - ordinal 1970 1 1) * 86400 +
      ((hour * 60 + minute) * 60 + second : Nat) - zone
    let total := seconds * 1000000000 + nanos
    if -(2 ^ 63) ≤ total && total < 2 ^ 63 then some total else none
  else none

end EngineeringIntelligence.Framework
