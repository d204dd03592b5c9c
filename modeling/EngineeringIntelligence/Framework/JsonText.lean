import EngineeringIntelligence.Framework.Joined
import EngineeringIntelligence.Framework.Json

namespace EngineeringIntelligence.Framework

namespace Json

/-! The canonical text of JSON data names the data: `dumps` is injective up to the order of
the keys. A text is read from the left, so each lemma carries what follows the value. -/

/-! ### Strings -/

def hexValue (c : Char) : Nat := if c.toNat ≤ 57 then c.toNat - 48 else c.toNat - 87

theorem hexValue_hexDigit {n : Nat} (h : n < 16) : hexValue (hexDigit n) = n := by
  revert n
  decide

/-- The 16-bit unit of four hexadecimal digits. -/
def unitOf (a b c d : Char) : Nat :=
  4096 * hexValue a + 256 * hexValue b + 16 * hexValue c + hexValue d

theorem unitOf_hexDigits {n : Nat} (h : n < 0x10000) :
    unitOf (hexDigit (n / 4096 % 16)) (hexDigit (n / 256 % 16)) (hexDigit (n / 16 % 16))
      (hexDigit (n % 16)) = n := by
  unfold unitOf
  rw [hexValue_hexDigit (by omega), hexValue_hexDigit (by omega), hexValue_hexDigit (by omega),
    hexValue_hexDigit (by omega)]
  omega

/-- The first character of a string's escaped text, and the text after it. -/
def unescape : List Char → Option (Char × List Char)
  | [] => none
  | c :: rest =>
    if c ≠ '\\' then some (c, rest)
    else match rest with
      | '"' :: rest => some ('"', rest)
      | '\\' :: rest => some ('\\', rest)
      | 'n' :: rest => some ('\n', rest)
      | 'r' :: rest => some ('\r', rest)
      | 't' :: rest => some ('\t', rest)
      | 'f' :: rest => some ('\x0c', rest)
      | 'b' :: rest => some ('\x08', rest)
      | 'u' :: a :: b :: c :: d :: rest =>
        let unit := unitOf a b c d
        if unit < 0xd800 ∨ 0xdc00 ≤ unit then some (Char.ofNat unit, rest)
        else match rest with
          | _ :: _ :: a :: b :: c :: d :: rest =>
            some (Char.ofNat (0x10000 + 0x400 * (unit - 0xd800) + (unitOf a b c d - 0xdc00)), rest)
          | _ => none
      | _ => none

/-- The characters with an escape of their own, the printable ones, and those written by their units. -/
theorem escapeChar_cases (c : Char) :
    c ∈ ['"', '\\', '\n', '\r', '\t', '\x0c', '\x08'] ∨
    (c ≠ '"' ∧ c ≠ '\\' ∧ 0x20 ≤ c.toNat ∧ escapeChar c = [c]) ∨
    (¬ (0x20 ≤ c.toNat ∧ c.toNat ≤ 0x7e) ∧ c.toNat < 0x10000 ∧ escapeChar c = unicodeEscape c.toNat) ∨
    (0x10000 ≤ c.toNat ∧ escapeChar c = unicodeEscape (0xd800 + (c.toNat - 0x10000) / 0x400) ++
      unicodeEscape (0xdc00 + (c.toNat - 0x10000) % 0x400)) := by
  by_cases hown : c ∈ ['"', '\\', '\n', '\r', '\t', '\x0c', '\x08']
  · exact .inl hown
  simp only [List.mem_cons, List.not_mem_nil, or_false, not_or] at hown
  obtain ⟨h1, h2, h3, h4, h5, h6, h7⟩ := hown
  have hrest : escapeChar c = if 0x20 ≤ c.toNat && c.toNat ≤ 0x7e then [c]
      else if c.toNat < 0x10000 then unicodeEscape c.toNat
      else unicodeEscape (0xd800 + (c.toNat - 0x10000) / 0x400) ++
        unicodeEscape (0xdc00 + (c.toNat - 0x10000) % 0x400) := by
    rw [escapeChar, if_neg h1, if_neg h2, if_neg h3, if_neg h4, if_neg h5, if_neg h6, if_neg h7]
  rw [hrest]
  by_cases h8 : 0x20 ≤ c.toNat ∧ c.toNat ≤ 0x7e
  · exact .inr (.inl ⟨h1, h2, h8.1, if_pos (by simpa using h8)⟩)
  rw [if_neg (by simpa using h8)]
  by_cases h9 : c.toNat < 0x10000
  · exact .inr (.inr (.inl ⟨h8, h9, if_pos h9⟩))
  · exact .inr (.inr (.inr ⟨Nat.not_lt.mp h9, if_neg h9⟩))

theorem unescape_escapeChar (c : Char) (rest : List Char) :
    unescape (escapeChar c ++ rest) = some (c, rest) := by
  have hvalid : c.toNat < 0xd800 ∨ 0xdfff < c.toNat ∧ c.toNat < 0x110000 := c.valid
  obtain hown | ⟨-, h2, -, hesc⟩ | ⟨-, h9, hesc⟩ | ⟨h9, hesc⟩ := escapeChar_cases c
  · simp only [List.mem_cons, List.not_mem_nil, or_false] at hown
    obtain rfl | rfl | rfl | rfl | rfl | rfl | rfl := hown <;> rfl
  · rw [hesc]
    simp [unescape, h2]
  · have hunit := unitOf_hexDigits h9
    simp only [hesc, unicodeEscape, List.cons_append, List.nil_append, unescape]
    rw [if_neg (by decide), hunit, if_pos (by omega), Char.ofNat_toNat]
  · have hhigh := unitOf_hexDigits (n := 0xd800 + (c.toNat - 0x10000) / 0x400) (by omega)
    have hlow := unitOf_hexDigits (n := 0xdc00 + (c.toNat - 0x10000) % 0x400) (by omega)
    simp only [hesc, unicodeEscape, List.cons_append, List.nil_append, unescape]
    rw [if_neg (by decide), hhigh, if_neg (by omega), hlow]
    have hsum : 0x10000 + 0x400 * (0xd800 + (c.toNat - 0x10000) / 0x400 - 0xd800) +
        (0xdc00 + (c.toNat - 0x10000) % 0x400 - 0xdc00) = c.toNat := by omega
    rw [hsum, Char.ofNat_toNat]

/-- No escape begins with the closing quote. -/
theorem escapeChar_ne_quote (c : Char) (rest rest' : List Char) :
    '"' :: rest ≠ escapeChar c ++ rest' := by
  intro h
  have hread := unescape_escapeChar c rest'
  rw [← h] at hread
  have hc : c = '"' := by
    simp [unescape] at hread
    exact hread.1.symm
  rw [hc] at h
  simp [escapeChar] at h

theorem quoted_inj {s t rest rest' : List Char}
    (h : s.flatMap escapeChar ++ '"' :: rest = t.flatMap escapeChar ++ '"' :: rest') :
    s = t ∧ rest = rest' := by
  induction s generalizing t with
  | nil =>
    cases t with
    | nil => exact ⟨rfl, (List.cons.inj h).2⟩
    | cons d t =>
      rw [List.flatMap_cons, List.append_assoc] at h
      exact absurd h (escapeChar_ne_quote d _ _)
  | cons c s ih =>
    cases t with
    | nil =>
      rw [List.flatMap_cons, List.append_assoc] at h
      exact absurd h.symm (escapeChar_ne_quote c _ _)
    | cons d t =>
      rw [List.flatMap_cons, List.flatMap_cons, List.append_assoc, List.append_assoc] at h
      have hread := congrArg unescape h
      rw [unescape_escapeChar, unescape_escapeChar] at hread
      simp only [Option.some.injEq, Prod.mk.injEq] at hread
      obtain ⟨rfl, hrest⟩ := hread
      obtain ⟨rfl, rfl⟩ := ih hrest
      exact ⟨rfl, rfl⟩

/-! ### Values, with the keys of every object in the order they are written -/

mutual

def write : Json → List Char
  | null => ['n', 'u', 'l', 'l']
  | bool true => ['t', 'r', 'u', 'e']
  | bool false => ['f', 'a', 'l', 's', 'e']
  | int n => (toString n).toList
  | float r => r.toList
  | str s => '"' :: (s.toList.flatMap escapeChar ++ ['"'])
  | arr [] => ['[', ']']
  | arr (j :: js) => '[' :: (write j ++ writeMore js)
  | obj [] => ['\x7b', '\x7d']
  | obj ((k, j) :: fs) =>
    '\x7b' :: '"' :: (k.toList.flatMap escapeChar ++ '"' :: ':' :: (write j ++ writeMoreFields fs))

def writeMore : List Json → List Char
  | [] => [']']
  | j :: js => ',' :: (write j ++ writeMore js)

def writeMoreFields : List (String × Json) → List Char
  | [] => ['\x7d']
  | (k, j) :: fs =>
    ',' :: '"' :: (k.toList.flatMap escapeChar ++ '"' :: ':' :: (write j ++ writeMoreFields fs))

end

/-- The characters a float is printed with. -/
def isFloatChar (c : Char) : Bool := c.isDigit || "-+.eNaInfity".toList.contains c

/-- A text that `float.__repr__`, or the encoder for the three special values, can print: a
number that no integer is printed as. -/
def FloatText (r : String) : Prop :=
  (∀ c ∈ r.toList.head?, c.isDigit = true ∨ c = '-' ∨ c = 'N' ∨ c = 'I') ∧
    (∀ c ∈ r.toList, isFloatChar c = true) ∧ ∃ c ∈ r.toList, c.isDigit = false ∧ c ≠ '-'

mutual

/-- Data whose floats are ones that Python prints. -/
def Printed : Json → Prop
  | float r => FloatText r
  | arr js => PrintedItems js
  | obj fs => PrintedFields fs
  | _ => True

def PrintedItems : List Json → Prop
  | [] => True
  | j :: js => Printed j ∧ PrintedItems js

def PrintedFields : List (String × Json) → Prop
  | [] => True
  | (_, j) :: fs => Printed j ∧ PrintedFields fs

end

/-- What may stand after a value. -/
def isDelimiter (c : Char) : Bool := c = ',' || c = ']' || c = '\x7d'

def Closed (rest : List Char) : Prop := ∀ c ∈ rest.head?, isDelimiter c = true

/-- A token without delimiters ends where the next delimiter stands. -/
theorem token_inj {x y rest rest' : List Char} (hx : ∀ c ∈ x, isDelimiter c = false)
    (hy : ∀ c ∈ y, isDelimiter c = false) (hr : Closed rest) (hr' : Closed rest')
    (h : x ++ rest = y ++ rest') : x = y ∧ rest = rest' := by
  induction x generalizing y with
  | nil =>
    cases y with
    | nil => exact ⟨rfl, h⟩
    | cons d y =>
      have hd := hr d (by rw [show rest = d :: (y ++ rest') from h]; rfl)
      rw [hy d List.mem_cons_self] at hd
      cases hd
  | cons c x ih =>
    cases y with
    | nil =>
      have hc := hr' c (by rw [show rest' = c :: (x ++ rest) from h.symm]; rfl)
      rw [hx c List.mem_cons_self] at hc
      cases hc
    | cons d y =>
      obtain ⟨rfl, hrest⟩ := List.cons.inj h
      obtain ⟨rfl, rfl⟩ := ih (fun e he => hx e (List.mem_cons_of_mem _ he))
        (fun e he => hy e (List.mem_cons_of_mem _ he)) hrest
      exact ⟨rfl, rfl⟩

/-- The kinds of value that the first character tells apart. -/
def kind : Json → Nat
  | null => 1
  | bool true => 2
  | bool false => 3
  | int _ => 4
  | float _ => 4
  | str _ => 5
  | arr _ => 6
  | obj _ => 7

def kindOf (c : Char) : Nat :=
  if c = 'n' then 1 else if c = 't' then 2 else if c = 'f' then 3
  else if c.isDigit || c = '-' || c = 'N' || c = 'I' then 4
  else if c = '"' then 5 else if c = '[' then 6 else if c = '\x7b' then 7 else 0

theorem kindOf_number {c : Char} (h : c.isDigit = true ∨ c = '-' ∨ c = 'N' ∨ c = 'I') :
    kindOf c = 4 := by
  have hn : c ≠ 'n' := by
    intro hc
    subst hc
    revert h
    decide
  have ht : c ≠ 't' := by
    intro hc
    subst hc
    revert h
    decide
  have hf : c ≠ 'f' := by
    intro hc
    subst hc
    revert h
    decide
  unfold kindOf
  rw [if_neg hn, if_neg ht, if_neg hf, if_pos]
  rcases h with h | h | h | h <;> simp [h]

theorem write_lead {j : Json} (hj : Printed j) : ∃ c cs, write j = c :: cs ∧ kindOf c = kind j := by
  cases j with
  | null => exact ⟨_, _, rfl, rfl⟩
  | bool b => cases b <;> exact ⟨_, _, rfl, rfl⟩
  | int n =>
    cases hn : (toString n).toList with
    | nil =>
      rw [toList_toString_int] at hn
      split at hn
      · exact absurd hn Nat.toDigits_ne_nil
      · cases hn
    | cons c cs =>
      refine ⟨c, cs, hn, kindOf_number ?_⟩
      rcases numeral_chars (n := n) (c := c) (by rw [hn]; exact List.mem_cons_self) with h | h
      · exact Or.inl h
      · exact Or.inr (Or.inl h)
  | float r =>
    obtain ⟨hhead, -, c, hc, -⟩ := hj
    cases hr : r.toList with
    | nil => rw [hr] at hc; cases hc
    | cons d ds => exact ⟨d, ds, hr, kindOf_number (hhead d (by rw [hr]; rfl))⟩
  | str s => exact ⟨_, _, rfl, rfl⟩
  | arr js => cases js <;> exact ⟨_, _, rfl, rfl⟩
  | obj fs => cases fs <;> exact ⟨_, _, rfl, rfl⟩

theorem kind_of_write {a b : Json} {rest rest' : List Char} (ha : Printed a) (hb : Printed b)
    (h : write a ++ rest = write b ++ rest') : kind a = kind b := by
  obtain ⟨c, cs, hc, hka⟩ := write_lead ha
  obtain ⟨d, ds, hd, hkb⟩ := write_lead hb
  rw [hc, hd] at h
  have hsame : c = d := (List.cons.inj h).1
  rw [← hka, ← hkb, hsame]

/-- No value begins with a closing bracket. -/
theorem write_ne_bracket {j : Json} (hj : Printed j) (rest rest' : List Char) :
    ']' :: rest ≠ write j ++ rest' := by
  intro h
  obtain ⟨c, cs, hc, hk⟩ := write_lead hj
  rw [hc] at h
  rw [← (List.cons.inj h).1] at hk
  cases j with
  | bool b => cases b <;> cases hk
  | null | int _ | float _ | str _ | arr _ | obj _ => cases hk

theorem floatChar_not_delimiter {c : Char} (h : isFloatChar c = true) : isDelimiter c = false := by
  cases hd : isDelimiter c with
  | false => rfl
  | true =>
    simp only [isDelimiter, Bool.or_eq_true, decide_eq_true_eq] at hd
    rcases hd with (rfl | rfl) | rfl <;> revert h <;> decide

theorem numeral_token (n : Int) : ∀ c ∈ (toString n).toList, isDelimiter c = false := by
  intro c hc
  apply floatChar_not_delimiter
  rcases numeral_chars hc with h | h
  · simp [isFloatChar, h]
  · rw [h]
    decide

theorem float_token {r : String} (h : FloatText r) : ∀ c ∈ r.toList, isDelimiter c = false :=
  fun c hc => floatChar_not_delimiter (h.2.1 c hc)

/-- No integer is printed as a float. -/
theorem numeral_ne_float {n : Int} {r : String} (h : FloatText r) : (toString n).toList ≠ r.toList := by
  intro he
  obtain ⟨c, hc, hdigit, hdash⟩ := h.2.2
  rw [← he] at hc
  rcases numeral_chars hc with h | h
  · rw [hdigit] at h
    cases h
  · exact hdash h

theorem closed_more (js : List Json) (rest : List Char) : Closed (writeMore js ++ rest) := by
  intro c hc
  cases js <;> (simp [writeMore] at hc; subst hc; decide)

theorem closed_moreFields (fs : List (String × Json)) (rest : List Char) :
    Closed (writeMoreFields fs ++ rest) := by
  intro c hc
  cases fs <;> (simp [writeMoreFields] at hc; subst hc; decide)

mutual

/-- Reading a value off the front of a text gives one value and one rest. -/
theorem write_inj : ∀ (a b : Json) (rest rest' : List Char), Printed a → Printed b →
    Closed rest → Closed rest' → write a ++ rest = write b ++ rest' → a = b ∧ rest = rest' := by
  intro a b rest rest' ha hb hr hr' h
  have hkind := kind_of_write ha hb h
  cases a with
  | null =>
    cases b with
    | null => exact ⟨rfl, List.append_cancel_left h⟩
    | bool b => cases b <;> cases hkind
    | int _ | float _ | str _ | arr _ | obj _ => cases hkind
  | bool x =>
    cases b with
    | bool y =>
      cases x <;> cases y
      all_goals first
        | exact ⟨rfl, List.append_cancel_left h⟩
        | cases hkind
    | null | int _ | float _ | str _ | arr _ | obj _ => cases x <;> cases hkind
  | int m =>
    cases b with
    | int n =>
      obtain ⟨hnum, hrest⟩ := token_inj (numeral_token m) (numeral_token n) hr hr' h
      exact ⟨congrArg int (numeral_injective (String.toList_inj.mp hnum)), hrest⟩
    | float r =>
      obtain ⟨hnum, -⟩ := token_inj (numeral_token m) (float_token hb) hr hr' h
      exact absurd hnum (numeral_ne_float hb)
    | bool b => cases b <;> cases hkind
    | null | str _ | arr _ | obj _ => cases hkind
  | float r =>
    cases b with
    | int n =>
      obtain ⟨hnum, -⟩ := token_inj (float_token ha) (numeral_token n) hr hr' h
      exact absurd hnum.symm (numeral_ne_float ha)
    | float t =>
      obtain ⟨hnum, hrest⟩ := token_inj (float_token ha) (float_token hb) hr hr' h
      exact ⟨congrArg float (String.toList_inj.mp hnum), hrest⟩
    | bool b => cases b <;> cases hkind
    | null | str _ | arr _ | obj _ => cases hkind
  | str s =>
    cases b with
    | str t =>
      simp only [write, List.cons_append, List.append_assoc, List.nil_append, List.cons.injEq,
        true_and] at h
      obtain ⟨hs, hrest⟩ := quoted_inj h
      exact ⟨congrArg str (String.toList_inj.mp hs), hrest⟩
    | bool b => cases b <;> cases hkind
    | null | int _ | float _ | arr _ | obj _ => cases hkind
  | arr js =>
    cases b with
    | arr ks =>
      cases js with
      | nil =>
        cases ks with
        | nil => exact ⟨rfl, List.append_cancel_left h⟩
        | cons k ks =>
          simp only [write, List.cons_append, List.append_assoc, List.cons.injEq, true_and] at h
          exact absurd h (write_ne_bracket hb.1 _ _)
      | cons j js =>
        cases ks with
        | nil =>
          simp only [write, List.cons_append, List.append_assoc, List.cons.injEq, true_and] at h
          exact absurd h.symm (write_ne_bracket ha.1 _ _)
        | cons k ks =>
          simp only [write, List.cons_append, List.append_assoc, List.cons.injEq, true_and] at h
          obtain ⟨rfl, hmore⟩ := write_inj j k _ _ ha.1 hb.1 (closed_more js _) (closed_more ks _) h
          obtain ⟨rfl, hrest⟩ := writeMore_inj js ks _ _ ha.2 hb.2 hmore
          exact ⟨rfl, hrest⟩
    | bool b => cases b <;> cases hkind
    | null | int _ | float _ | str _ | obj _ => cases hkind
  | obj fs =>
    cases b with
    | obj gs =>
      cases fs with
      | nil =>
        cases gs with
        | nil => exact ⟨rfl, List.append_cancel_left h⟩
        | cons g gs => simp [write] at h
      | cons f fs =>
        cases gs with
        | nil => simp [write] at h
        | cons g gs =>
          obtain ⟨k, j⟩ := f
          obtain ⟨k', j'⟩ := g
          simp only [write, List.cons_append, List.append_assoc, List.cons.injEq, true_and] at h
          obtain ⟨hkey, hvalue⟩ := quoted_inj h
          obtain ⟨rfl, hmore⟩ := write_inj j j' _ _ ha.1 hb.1 (closed_moreFields fs _)
            (closed_moreFields gs _) (List.cons.inj hvalue).2
          obtain ⟨rfl, hrest⟩ := writeMoreFields_inj fs gs _ _ ha.2 hb.2 hmore
          exact ⟨by rw [String.toList_inj.mp hkey], hrest⟩
    | bool b => cases b <;> cases hkind
    | null | int _ | float _ | str _ | arr _ => cases hkind

theorem writeMore_inj : ∀ (as bs : List Json) (rest rest' : List Char), PrintedItems as →
    PrintedItems bs → writeMore as ++ rest = writeMore bs ++ rest' → as = bs ∧ rest = rest' := by
  intro as bs rest rest' ha hb h
  cases as with
  | nil =>
    cases bs with
    | nil => exact ⟨rfl, List.append_cancel_left h⟩
    | cons b bs => simp [writeMore] at h
  | cons a as =>
    cases bs with
    | nil => simp [writeMore] at h
    | cons b bs =>
      simp only [writeMore, List.cons_append, List.append_assoc, List.cons.injEq, true_and] at h
      obtain ⟨rfl, hmore⟩ := write_inj a b _ _ ha.1 hb.1 (closed_more as _) (closed_more bs _) h
      obtain ⟨rfl, hrest⟩ := writeMore_inj as bs _ _ ha.2 hb.2 hmore
      exact ⟨rfl, hrest⟩

theorem writeMoreFields_inj : ∀ (as bs : List (String × Json)) (rest rest' : List Char),
    PrintedFields as → PrintedFields bs →
    writeMoreFields as ++ rest = writeMoreFields bs ++ rest' → as = bs ∧ rest = rest' := by
  intro as bs rest rest' ha hb h
  cases as with
  | nil =>
    cases bs with
    | nil => exact ⟨rfl, List.append_cancel_left h⟩
    | cons b bs => simp [writeMoreFields] at h
  | cons a as =>
    cases bs with
    | nil => simp [writeMoreFields] at h
    | cons b bs =>
      obtain ⟨k, j⟩ := a
      obtain ⟨k', j'⟩ := b
      simp only [writeMoreFields, List.cons_append, List.append_assoc, List.cons.injEq,
        true_and] at h
      obtain ⟨hkey, hvalue⟩ := quoted_inj h
      obtain ⟨rfl, hmore⟩ := write_inj j j' _ _ ha.1 hb.1 (closed_moreFields as _)
        (closed_moreFields bs _) (List.cons.inj hvalue).2
      obtain ⟨rfl, hrest⟩ := writeMoreFields_inj as bs _ _ ha.2 hb.2 hmore
      exact ⟨by rw [String.toList_inj.mp hkey], hrest⟩

end

/-! ### Canonical texts -/

mutual

/-- The same data with the keys of every object sorted. -/
def sortKeys : Json → Json
  | arr js => arr (sortKeysItems js)
  | obj fs => obj ((sortKeysFields fs).insertionSort (fun a b => a.1 ≤ b.1))
  | j => j

def sortKeysItems : List Json → List Json
  | [] => []
  | j :: js => sortKeys j :: sortKeysItems js

def sortKeysFields : List (String × Json) → List (String × Json)
  | [] => []
  | (k, j) :: fs => (k, sortKeys j) :: sortKeysFields fs

end

theorem printedFields_iff {fs : List (String × Json)} :
    PrintedFields fs ↔ ∀ f ∈ fs, Printed f.2 := by
  induction fs with
  | nil => simp [PrintedFields]
  | cons f fs ih => simp [PrintedFields, ih]

mutual

theorem printed_sortKeys : ∀ j : Json, Printed j → Printed (sortKeys j)
  | null, _ | bool _, _ | int _, _ | str _, _ => trivial
  | float _, h => h
  | arr js, h => printed_sortKeysItems js h
  | obj fs, h => by
    apply printedFields_iff.mpr
    intro f hf
    rw [List.mem_insertionSort] at hf
    exact printedFields_iff.mp (printed_sortKeysFields fs h) f hf

theorem printed_sortKeysItems : ∀ js : List Json, PrintedItems js → PrintedItems (sortKeysItems js)
  | [], _ => trivial
  | j :: js, h => ⟨printed_sortKeys j h.1, printed_sortKeysItems js h.2⟩

theorem printed_sortKeysFields : ∀ fs : List (String × Json), PrintedFields fs →
    PrintedFields (sortKeysFields fs)
  | [], _ => trivial
  | (_, j) :: fs, h => ⟨printed_sortKeys j h.1, printed_sortKeysFields fs h.2⟩

end

/-- Items between an opening and a closing character. -/
def between (opening closing : Char) : List (List Char) → List Char
  | [] => [opening, closing]
  | t :: ts => opening :: (t ++ ts.flatMap (fun u => ',' :: u) ++ [closing])

theorem intercalate_comma (t : String) (ts : List String) :
    (",".intercalate (t :: ts)).toList = t.toList ++ ts.flatMap (fun u => ',' :: u.toList) := by
  induction ts generalizing t with
  | nil => simp
  | cons u ts ih =>
    rw [String.intercalate_cons_cons, String.toList_append, ih]
    simp

theorem enclosed (opening closing : Char) (ts : List String) :
    (String.ofList [opening] ++ ",".intercalate ts ++ String.ofList [closing]).toList =
      between opening closing (ts.map String.toList) := by
  cases ts with
  | nil => simp [between]
  | cons t ts =>
    rw [String.toList_append, String.toList_append, intercalate_comma]
    simp [between, List.flatMap_map]

/-- A key with the text of its value. -/
def entry (k : String) (value : List Char) : List Char :=
  '"' :: (k.toList.flatMap escapeChar ++ '"' :: ':' :: value)

theorem writeMore_eq (js : List Json) :
    writeMore js = (js.map write).flatMap (fun u => ',' :: u) ++ [']'] := by
  induction js with
  | nil => rfl
  | cons j js ih => simp [writeMore, ih]

theorem writeMoreFields_eq (fs : List (String × Json)) :
    writeMoreFields fs =
      (fs.map (fun f => entry f.1 (write f.2))).flatMap (fun u => ',' :: u) ++ ['\x7d'] := by
  induction fs with
  | nil => rfl
  | cons f fs ih => simp [writeMoreFields, ih, entry]

theorem write_arr (js : List Json) : write (arr js) = between '[' ']' (js.map write) := by
  cases js with
  | nil => rfl
  | cons j js => simp [write, writeMore_eq, between]

theorem write_obj (fs : List (String × Json)) :
    write (obj fs) = between '\x7b' '\x7d' (fs.map (fun f => entry f.1 (write f.2))) := by
  cases fs with
  | nil => rfl
  | cons f fs => simp [write, writeMoreFields_eq, between, entry]

theorem map_sortByKey {β γ : Type} (g : β → γ) (l : List (String × β)) :
    (l.insertionSort (fun a b => a.1 ≤ b.1)).map (fun p => (p.1, g p.2)) =
      (l.map (fun p => (p.1, g p.2))).insertionSort (fun a b => a.1 ≤ b.1) :=
  List.map_insertionSort _ _ _ _ fun _ _ _ _ => Iff.rfl

mutual

/-- The canonical text is what is written once the keys are sorted. -/
theorem dumps_eq_write : ∀ j : Json, (dumps j).toList = write (sortKeys j)
  | null => by decide
  | bool b => by cases b <;> decide
  | int n => rfl
  | float r => rfl
  | str s => by simp [dumps, sortKeys, write, quote]
  | arr js => by
    have hitems := dumpsItems_eq_write js
    rw [sortKeys, write_arr, ← hitems]
    exact enclosed '[' ']' (dumpsItems js)
  | obj fs => by
    have hsorted : ((dumpsFields fs).insertionSort (fun a b => a.1 ≤ b.1)).map
        (fun p => (p.1, p.2.toList)) =
          ((sortKeysFields fs).insertionSort (fun a b => a.1 ≤ b.1)).map
            (fun f => (f.1, write f.2)) := by
      rw [map_sortByKey String.toList, map_sortByKey write, dumpsFields_eq_write fs]
    have hentries : (((dumpsFields fs).insertionSort (fun a b => a.1 ≤ b.1)).map
        (fun p => quote p.1 ++ ":" ++ p.2)).map String.toList =
          ((sortKeysFields fs).insertionSort (fun a b => a.1 ≤ b.1)).map
            (fun f => entry f.1 (write f.2)) := by
      have hmapped := congrArg (List.map fun p : String × List Char => entry p.1 p.2) hsorted
      simpa [List.map_map, Function.comp_def, entry, quote] using hmapped
    rw [sortKeys, write_obj, ← hentries]
    exact enclosed '\x7b' '\x7d' _

theorem dumpsItems_eq_write : ∀ js : List Json,
    (dumpsItems js).map String.toList = (sortKeysItems js).map write
  | [] => rfl
  | j :: js => by
    rw [dumpsItems, sortKeysItems, List.map_cons, List.map_cons, dumps_eq_write j,
      dumpsItems_eq_write js]

theorem dumpsFields_eq_write : ∀ fs : List (String × Json),
    (dumpsFields fs).map (fun p => (p.1, p.2.toList)) =
      (sortKeysFields fs).map (fun f => (f.1, write f.2))
  | [] => rfl
  | (k, j) :: fs => by
    rw [dumpsFields, sortKeysFields, List.map_cons, List.map_cons, dumps_eq_write j,
      dumpsFields_eq_write fs]

end

/-- Data with the same canonical text is the same data, up to the order of the keys. -/
theorem dumps_injective {a b : Json} (ha : Printed a) (hb : Printed b) (h : dumps a = dumps b) :
    sortKeys a = sortKeys b := by
  have htext := congrArg String.toList h
  rw [dumps_eq_write, dumps_eq_write] at htext
  exact (write_inj _ _ [] [] (printed_sortKeys a ha) (printed_sortKeys b hb) (by simp [Closed])
    (by simp [Closed]) (by rw [htext])).1

theorem dumps_eq_of_sortKeys {a b : Json} (h : sortKeys a = sortKeys b) : dumps a = dumps b := by
  apply String.toList_inj.mp
  rw [dumps_eq_write, dumps_eq_write, h]

theorem sortKeysFields_eq_map (fs : List (String × Json)) :
    sortKeysFields fs = fs.map (fun f => (f.1, sortKeys f.2)) := by
  induction fs with
  | nil => rfl
  | cons f fs ih => rw [sortKeysFields, ih, List.map_cons]

/-- Objects that agree once sorted hold the same entries. -/
theorem mem_of_sortKeys_obj {fs gs : List (String × Json)} (h : sortKeys (obj fs) = sortKeys (obj gs))
    {f : String × Json} (hf : f ∈ fs) : ∃ g ∈ gs, g.1 = f.1 ∧ sortKeys g.2 = sortKeys f.2 := by
  simp only [sortKeys, obj.injEq] at h
  have hmem : (f.1, sortKeys f.2) ∈ sortKeysFields gs := by
    rw [← List.mem_insertionSort (fun a b : String × Json => a.1 ≤ b.1), ← h,
      List.mem_insertionSort, sortKeysFields_eq_map]
    exact List.mem_map_of_mem hf
  rw [sortKeysFields_eq_map] at hmem
  obtain ⟨g, hg, hgf⟩ := List.mem_map.mp hmem
  simp only [Prod.mk.injEq] at hgf
  exact ⟨g, hg, hgf.1, hgf.2⟩

end Json

end EngineeringIntelligence.Framework
