import EngineeringIntelligence.Framework.JsonText

namespace EngineeringIntelligence.Framework

namespace Json

/-! `json.loads`, and that it reads back what `dumps` writes. The reader is the recursive descent of
the standard decoder, with fuel for its depth; a text never uses up the fuel its length gives. -/

/-- What the reader raises. `decode` is `JSONDecodeError` and `digits` the `ValueError` of an integer
with too many digits; a `String` has no place for a lone surrogate. -/
inductive LoadsError where
  | decode | digits | surrogate | fuel
  deriving DecidableEq, Repr

/-- A value read off the front of a text, and the text after it. -/
abbrev Reading (α : Type) := Except LoadsError (α × List Char)

def isBlank (c : Char) : Bool := c = ' ' || c = '\t' || c = '\n' || c = '\r'

def skipBlanks (cs : List Char) : List Char := cs.dropWhile isBlank

/-! ### Strings -/

def isHexDigit (c : Char) : Bool :=
  c.isDigit || (decide ('a' ≤ c) && decide (c ≤ 'f')) || (decide ('A' ≤ c) && decide (c ≤ 'F'))

/-- The four hexadecimal digits of `\uXXXX`. -/
def readUnit : List Char → Reading Nat
  | a :: b :: c :: d :: rest =>
    if isHexDigit a && isHexDigit b && isHexDigit c && isHexDigit d then
      .ok (unitOf a.toLower b.toLower c.toLower d.toLower, rest)
    else .error .decode
  | _ => .error .decode

/-- The second half of a surrogate pair. -/
def readLow (high : Nat) : List Char → Reading Char
  | '\\' :: 'u' :: rest =>
    match readUnit rest with
    | .error x => .error x
    | .ok (low, rest) =>
      if 0xdc00 ≤ low ∧ low ≤ 0xdfff then
        .ok (Char.ofNat (0x10000 + 0x400 * (high - 0xd800) + (low - 0xdc00)), rest)
      else .error .surrogate
  | _ => .error .surrogate

/-- What may stand after a backslash, apart from `u`. -/
def escapes : List (Char × Char) :=
  [('"', '"'), ('\\', '\\'), ('/', '/'), ('b', '\x08'), ('f', '\x0c'), ('n', '\n'), ('r', '\r'), ('t', '\t')]

def readEscape : List Char → Reading Char
  | [] => .error .decode
  | e :: rest =>
    if e = 'u' then
      match readUnit rest with
      | .error x => .error x
      | .ok (unit, rest) =>
        if unit < 0xd800 ∨ 0xdfff < unit then .ok (Char.ofNat unit, rest)
        else if unit < 0xdc00 then readLow unit rest
        else .error .surrogate
    else
      match escapes.lookup e with
      | some c => .ok (c, rest)
      | none => .error .decode

/-- One character of a string; a control character has to be escaped. -/
def readChar : List Char → Reading Char
  | [] => .error .decode
  | c :: rest =>
    if c = '\\' then readEscape rest
    else if c.toNat < 0x20 then .error .decode
    else .ok (c, rest)

/-- A string, from after its opening quote. -/
def readString : Nat → List Char → Reading (List Char)
  | 0, _ => .error .fuel
  | n + 1, cs =>
    if cs.head? = some '"' then .ok ([], cs.tail)
    else
      match readChar cs with
      | .error x => .error x
      | .ok (c, rest) =>
        match readString n rest with
        | .error x => .error x
        | .ok (s, rest) => .ok (c :: s, rest)

/-! ### Numbers and names -/

/-- `0|[1-9]\d*`. -/
def readInteger (cs : List Char) : List Char × List Char :=
  if cs.head? = some '0' then (['0'], cs.tail) else (cs.takeWhile Char.isDigit, cs.dropWhile Char.isDigit)

/-- `(\.\d+)?`. -/
def readFraction (cs : List Char) : List Char × List Char :=
  match cs with
  | '.' :: rest =>
    if rest.takeWhile Char.isDigit = [] then ([], cs)
    else ('.' :: rest.takeWhile Char.isDigit, rest.dropWhile Char.isDigit)
  | _ => ([], cs)

/-- `([eE][-+]?\d+)?`. -/
def readExponent (cs : List Char) : List Char × List Char :=
  match cs with
  | [] => ([], [])
  | e :: rest =>
    let sign := rest.takeWhile (fun c => c = '+' || c = '-')
    let digits := (rest.drop sign.length).takeWhile Char.isDigit
    if (e = 'e' ∨ e = 'E') ∧ sign.length ≤ 1 ∧ digits ≠ [] then
      (e :: (sign ++ digits), rest.drop (sign.length + digits.length))
    else ([], cs)

/-- The most digits `int` converts. -/
def maxIntDigits : Nat := 4300

variable (floatRepr : String → String)

/-- A number, where `floatRepr` gives the `repr` of the float a numeral denotes. -/
def readNumber (cs : List Char) : Reading Json :=
  let (sign, unsigned) := if cs.head? = some '-' then (['-'], cs.tail) else ([], cs)
  let (integer, rest) := readInteger unsigned
  let (fraction, rest) := readFraction rest
  let (exponent, rest) := readExponent rest
  if integer = [] then .error .decode
  else if fraction = [] ∧ exponent = [] then
    if maxIntDigits < integer.length then .error .digits
    else
      let value : Int := Nat.ofDigitChars 10 integer 0
      .ok (int (if sign = [] then value else -value), rest)
  else .ok (float (floatRepr (String.ofList (sign ++ integer ++ fraction ++ exponent))), rest)

/-- The values that are written as a name. -/
def names : List (List Char × Json) :=
  [(['n', 'u', 'l', 'l'], null), (['t', 'r', 'u', 'e'], bool true), (['f', 'a', 'l', 's', 'e'], bool false),
    (['N', 'a', 'N'], float "NaN"), (['I', 'n', 'f', 'i', 'n', 'i', 't', 'y'], float "Infinity"),
    (['-', 'I', 'n', 'f', 'i', 'n', 'i', 't', 'y'], float "-Infinity")]

/-- A value that is no string, array or object. -/
def readAtom (cs : List Char) : Reading Json :=
  match names.find? (fun name => name.1.isPrefixOf cs) with
  | some (name, j) => .ok (j, cs.drop name.length)
  | none => readNumber floatRepr cs

/-! ### Values -/

/-- `dict[key] = value`: a key keeps its place when it comes again. -/
def setKey : List (String × Json) → String → Json → List (String × Json)
  | [], key, value => [(key, value)]
  | (k, j) :: fs, key, value => if k = key then (k, value) :: fs else (k, j) :: setKey fs key value

/-- `dict(pairs)`. -/
def ofPairs (pairs : List (String × Json)) : List (String × Json) :=
  pairs.foldl (fun fields pair => setKey fields pair.1 pair.2) []

mutual

def readValue : Nat → List Char → Reading Json
  | 0, _ => .error .fuel
  | n + 1, cs =>
    if cs.head? = some '"' then
      match readString n cs.tail with
      | .error x => .error x
      | .ok (s, rest) => .ok (str (String.ofList s), rest)
    else if cs.head? = some '[' then
      if (skipBlanks cs.tail).head? = some ']' then .ok (arr [], (skipBlanks cs.tail).tail)
      else
        match readItems n (skipBlanks cs.tail) with
        | .error x => .error x
        | .ok (items, rest) => .ok (arr items, rest)
    else if cs.head? = some '\x7b' then
      if (skipBlanks cs.tail).head? = some '\x7d' then .ok (obj [], (skipBlanks cs.tail).tail)
      else
        match readFields n (skipBlanks cs.tail) with
        | .error x => .error x
        | .ok (pairs, rest) => .ok (obj (ofPairs pairs), rest)
    else readAtom floatRepr cs

/-- The items of an array and its closing bracket. -/
def readItems : Nat → List Char → Reading (List Json)
  | 0, _ => .error .fuel
  | n + 1, cs =>
    match readValue n cs with
    | .error x => .error x
    | .ok (j, rest) =>
      if (skipBlanks rest).head? = some ']' then .ok ([j], (skipBlanks rest).tail)
      else if (skipBlanks rest).head? = some ',' then
        match readItems n (skipBlanks (skipBlanks rest).tail) with
        | .error x => .error x
        | .ok (js, rest) => .ok (j :: js, rest)
      else .error .decode

/-- The entries of an object and its closing brace. -/
def readFields : Nat → List Char → Reading (List (String × Json))
  | 0, _ => .error .fuel
  | n + 1, cs =>
    if cs.head? = some '"' then
      match readString n cs.tail with
      | .error x => .error x
      | .ok (key, rest) =>
        if (skipBlanks rest).head? = some ':' then
          match readValue n (skipBlanks (skipBlanks rest).tail) with
          | .error x => .error x
          | .ok (j, rest) =>
            if (skipBlanks rest).head? = some '\x7d' then
              .ok ([(String.ofList key, j)], (skipBlanks rest).tail)
            else if (skipBlanks rest).head? = some ',' then
              match readFields n (skipBlanks (skipBlanks rest).tail) with
              | .error x => .error x
              | .ok (pairs, rest) => .ok ((String.ofList key, j) :: pairs, rest)
            else .error .decode
        else .error .decode
    else .error .decode

end

/-- `json.loads`. -/
def loads (text : String) : Except LoadsError Json :=
  match readValue floatRepr (2 * text.toList.length + 1) (skipBlanks text.toList) with
  | .error x => .error x
  | .ok (j, rest) => if skipBlanks rest = [] then .ok j else .error .decode

/-! ### Reading back a string -/

/-- An escaping of characters that the reader undoes. -/
structure Escaping (esc : Char → List Char) : Prop where
  read : ∀ c rest, readChar (esc c ++ rest) = .ok (c, rest)
  unquoted : ∀ c rest, (esc c ++ rest).head? ≠ some '"'

theorem hexDigit_isHexDigit : ∀ n < 16, isHexDigit (hexDigit n) = true := by decide

theorem toLower_hexDigit : ∀ n < 16, (hexDigit n).toLower = hexDigit n := by decide

theorem readUnit_hexDigits {n : Nat} (h : n < 0x10000) (rest : List Char) :
    readUnit (hexDigit (n / 4096 % 16) :: hexDigit (n / 256 % 16) :: hexDigit (n / 16 % 16) ::
      hexDigit (n % 16) :: rest) = .ok (n, rest) := by
  have ha : n / 4096 % 16 < 16 := by omega
  have hb : n / 256 % 16 < 16 := by omega
  have hc : n / 16 % 16 < 16 := by omega
  have hd : n % 16 < 16 := by omega
  have hunit := unitOf_hexDigits h
  simp only [readUnit, hexDigit_isHexDigit _ ha, hexDigit_isHexDigit _ hb, hexDigit_isHexDigit _ hc,
    hexDigit_isHexDigit _ hd, Bool.and_self, if_true, toLower_hexDigit _ ha, toLower_hexDigit _ hb,
    toLower_hexDigit _ hc, toLower_hexDigit _ hd, hunit]

theorem readChar_unicodeEscape {n : Nat} (h : n < 0x10000) (hplain : n < 0xd800 ∨ 0xdfff < n)
    (rest : List Char) : readChar (unicodeEscape n ++ rest) = .ok (Char.ofNat n, rest) := by
  have hunit := readUnit_hexDigits h rest
  simp only [unicodeEscape, List.cons_append, List.nil_append, readChar, readEscape, if_true]
  rw [hunit]
  simp [hplain]

theorem readChar_pair {high low : Nat} (hhigh : 0xd800 ≤ high ∧ high < 0xdc00)
    (hlow : 0xdc00 ≤ low ∧ low ≤ 0xdfff) (rest : List Char) :
    readChar (unicodeEscape high ++ (unicodeEscape low ++ rest)) =
      .ok (Char.ofNat (0x10000 + 0x400 * (high - 0xd800) + (low - 0xdc00)), rest) := by
  have hfirst := readUnit_hexDigits (n := high) (by omega) (unicodeEscape low ++ rest)
  have hsecond := readUnit_hexDigits (n := low) (by omega) rest
  have hread : readLow high (unicodeEscape low ++ rest) =
      .ok (Char.ofNat (0x10000 + 0x400 * (high - 0xd800) + (low - 0xdc00)), rest) := by
    simp only [unicodeEscape, List.cons_append, List.nil_append, readLow]
    rw [hsecond]
    simp [hlow]
  rw [unicodeEscape]
  simp only [List.cons_append, List.nil_append, readChar, readEscape, if_true]
  rw [hfirst]
  simp only
  rw [if_neg (by omega), if_pos hhigh.2, hread]

theorem readChar_escapeChar (c : Char) (rest : List Char) : readChar (escapeChar c ++ rest) = .ok (c, rest) := by
  have hvalid : c.toNat < 0xd800 ∨ 0xdfff < c.toNat ∧ c.toNat < 0x110000 := c.valid
  obtain hown | ⟨h1, h2, h8, hesc⟩ | ⟨-, h9, hesc⟩ | ⟨h9, hesc⟩ := escapeChar_cases c
  · simp only [List.mem_cons, List.not_mem_nil, or_false] at hown
    obtain rfl | rfl | rfl | rfl | rfl | rfl | rfl := hown <;> rfl
  · have hcontrol : ¬ c.toNat < 0x20 := by omega
    rw [hesc]
    simp [readChar, h2, hcontrol]
  · rw [hesc, readChar_unicodeEscape h9 (by omega), Char.ofNat_toNat]
  · have hsum : 0x10000 + 0x400 * (0xd800 + (c.toNat - 0x10000) / 0x400 - 0xd800) +
        (0xdc00 + (c.toNat - 0x10000) % 0x400 - 0xdc00) = c.toNat := by omega
    rw [hesc, List.append_assoc, readChar_pair (by omega) (by omega), hsum, Char.ofNat_toNat]

theorem escaping_escapeChar : Escaping escapeChar where
  read := readChar_escapeChar
  unquoted c rest h := by
    cases hc : escapeChar c ++ rest with
    | nil =>
      rw [hc] at h
      cases h
    | cons d cs =>
      rw [hc] at h
      cases h
      exact escapeChar_ne_quote c cs rest hc.symm

/-- `ensure_ascii=False` leaves most characters as they are. -/
theorem escaping_escapeControl : Escaping escapeControl where
  read c rest := by
    unfold escapeControl
    split_ifs with h
    · exact readChar_escapeChar c rest
    · simp only [Bool.or_eq_true, decide_eq_true_eq, not_or] at h
      simp [readChar, h.1.1, h.2]
  unquoted c rest := by
    unfold escapeControl
    split_ifs with h
    · exact escaping_escapeChar.unquoted c rest
    · simp only [Bool.or_eq_true, decide_eq_true_eq, not_or] at h
      simp [h.1.2]

variable {esc : Char → List Char}

theorem Escaping.ne_nil (hesc : Escaping esc) (c : Char) : esc c ≠ [] := by
  intro h
  have hread := hesc.read c []
  rw [h] at hread
  cases hread

theorem readString_write (hesc : Escaping esc) (s : List Char) {n : Nat} (rest : List Char)
    (h : (s.flatMap esc).length < n) : readString n (s.flatMap esc ++ '"' :: rest) = .ok (s, rest) := by
  induction s generalizing n with
  | nil =>
    obtain ⟨m, rfl⟩ := Nat.exists_eq_add_of_lt h
    simp [readString]
  | cons c s ih =>
    have hpos := List.length_pos_iff.mpr (hesc.ne_nil c)
    rw [List.flatMap_cons, List.length_append] at h
    obtain ⟨m, rfl⟩ : ∃ m, n = m + 1 := ⟨n - 1, by omega⟩
    have hrest := ih (n := m) (by omega)
    rw [List.flatMap_cons, List.append_assoc, readString, if_neg (hesc.unquoted c _), hesc.read]
    simp only [hrest]

/-! ### Reading back a number -/

theorem digit_head {m : Nat} {c : Char} {cs : List Char} (h : Nat.toDigits 10 m = c :: cs) :
    c.isDigit = true :=
  Nat.isDigit_of_mem_toDigits (b := 10) (n := m) (by decide) (by decide) (by rw [h]; exact List.mem_cons_self)

/-- A numeral has no leading zero. -/
theorem head_toDigits {m : Nat} (hm : 0 < m) : (Nat.toDigits 10 m).head? ≠ some '0' := by
  induction m using Nat.strong_induction_on with
  | _ m ih =>
    by_cases hsmall : m < 10
    · have hdigit : ∀ k < 10, 0 < k → [k.digitChar].head? ≠ some '0' := by decide
      rw [Nat.toDigits_of_lt_base hsmall]
      exact hdigit m hsmall hm
    · have hquotient := ih (m / 10) (by omega) (by omega)
      have hne : Nat.toDigits 10 (m / 10) ≠ [] := Nat.toDigits_ne_nil
      rw [Nat.toDigits_of_base_le (by decide) (by omega), List.head?_append_of_ne_nil _ hne]
      exact hquotient

theorem takeWhile_digits {ds rest : List Char} (hds : ∀ c ∈ ds, c.isDigit = true) (hrest : Closed rest) :
    (ds ++ rest).takeWhile Char.isDigit = ds ∧ (ds ++ rest).dropWhile Char.isDigit = rest := by
  rw [List.takeWhile_append_of_pos hds, List.dropWhile_append_of_pos hds]
  cases rest with
  | nil => simp
  | cons c cs =>
    have hdelimiter := hrest c rfl
    have hdigit : c.isDigit = false := by
      simp only [isDelimiter, Bool.or_eq_true, decide_eq_true_eq] at hdelimiter
      rcases hdelimiter with (rfl | rfl) | rfl <;> decide
    simp [hdigit]

theorem readInteger_digits (m : Nat) {rest : List Char} (hrest : Closed rest) :
    readInteger (Nat.toDigits 10 m ++ rest) = (Nat.toDigits 10 m, rest) := by
  have hds : ∀ c ∈ Nat.toDigits 10 m, c.isDigit = true := fun c hc =>
    Nat.isDigit_of_mem_toDigits (by decide) (by decide) hc
  have hne : Nat.toDigits 10 m ≠ [] := Nat.toDigits_ne_nil
  rcases Nat.eq_zero_or_pos m with rfl | hm
  · rfl
  · have hhead := head_toDigits hm
    have hlead : (Nat.toDigits 10 m ++ rest).head? ≠ some '0' := by
      rw [List.head?_append_of_ne_nil _ hne]
      exact hhead
    rw [readInteger, if_neg hlead, (takeWhile_digits hds hrest).1, (takeWhile_digits hds hrest).2]

theorem readFraction_closed {rest : List Char} (h : Closed rest) : readFraction rest = ([], rest) := by
  cases rest with
  | nil => rfl
  | cons c cs =>
    have hc := h c rfl
    unfold readFraction
    split
    · rename_i heq
      rw [(List.cons.inj heq).1] at hc
      cases hc
    · rfl

theorem readExponent_closed {rest : List Char} (h : Closed rest) : readExponent rest = ([], rest) := by
  cases rest with
  | nil => rfl
  | cons c cs =>
    have hc := h c rfl
    have hletter : ¬ (c = 'e' ∨ c = 'E') := by
      rintro (rfl | rfl) <;> cases hc
    rw [readExponent]
    exact if_neg fun h => hletter h.1

theorem readNumber_int {n : Int} {rest : List Char} (hn : (Nat.toDigits 10 n.natAbs).length ≤ maxIntDigits)
    (hrest : Closed rest) : readNumber floatRepr ((toString n).toList ++ rest) = .ok (int n, rest) := by
  have hne : Nat.toDigits 10 n.natAbs ≠ [] := Nat.toDigits_ne_nil
  have hlimit : ¬ maxIntDigits < (Nat.toDigits 10 n.natAbs).length := by omega
  rw [toList_toString_int]
  by_cases hsign : 0 ≤ n
  · have hnat : n.toNat = n.natAbs := by omega
    have hhead : (Nat.toDigits 10 n.natAbs ++ rest).head? ≠ some '-' := by
      cases hds : Nat.toDigits 10 n.natAbs with
      | nil => exact absurd hds hne
      | cons c cs =>
        have hc := digit_head hds
        intro h
        cases h
        cases hc
    rw [if_pos hsign, hnat]
    unfold readNumber
    rw [if_neg hhead]
    simp only [readInteger_digits _ hrest, readFraction_closed hrest, readExponent_closed hrest, if_neg hne,
      if_neg hlimit, Nat.ofDigitChars_ten_toDigits, and_self, if_true]
    rw [Int.natAbs_of_nonneg hsign]
  · have hnat : (-n).toNat = n.natAbs := by omega
    have hvalue : -(n.natAbs : Int) = n := by omega
    rw [if_neg hsign, hnat]
    unfold readNumber
    simp only [List.cons_append, List.head?_cons, if_true, List.tail_cons, readInteger_digits _ hrest, readFraction_closed hrest,
      readExponent_closed hrest, if_neg hne, if_neg hlimit, Nat.ofDigitChars_ten_toDigits, and_self, if_true,
      List.cons_ne_self, if_false, hvalue]

/-- How the text of an integer begins. -/
theorem numeral_lead (n : Int) : ∃ c cs, (toString n).toList = c :: cs ∧
    (c.isDigit = true ∨ c = '-' ∧ ∃ d ds, cs = d :: ds ∧ d.isDigit = true) := by
  have hne : ∀ m, Nat.toDigits 10 m ≠ [] := fun m => Nat.toDigits_ne_nil
  rw [toList_toString_int]
  split_ifs with h
  · obtain ⟨c, cs, hds⟩ := List.exists_cons_of_ne_nil (hne n.toNat)
    exact ⟨c, cs, hds, .inl (digit_head hds)⟩
  · obtain ⟨d, ds, hds⟩ := List.exists_cons_of_ne_nil (hne (-n).toNat)
    exact ⟨'-', _, rfl, .inr ⟨rfl, d, ds, hds, digit_head hds⟩⟩

/-- No letter of a name, and no sign, is a digit. -/
theorem lead_ne_digit {e : Char} (he : e.isDigit = true) : ∀ d ∈ ['n', 't', 'f', 'N', 'I', '-'], (d == e) = false := by
  intro d hd
  rw [beq_eq_false_iff_ne]
  rintro rfl
  simp only [List.mem_cons, List.not_mem_nil, or_false] at hd
  rcases hd with rfl | rfl | rfl | rfl | rfl | rfl <;> exact absurd he (by decide)

theorem readAtom_int {n : Int} {rest : List Char} (hn : (Nat.toDigits 10 n.natAbs).length ≤ maxIntDigits)
    (hrest : Closed rest) : readAtom floatRepr ((toString n).toList ++ rest) = .ok (int n, rest) := by
  have hnumber := readNumber_int floatRepr hn hrest
  have hname : names.find? (fun name => name.1.isPrefixOf ((toString n).toList ++ rest)) = none := by
    obtain ⟨c, cs, htext, hlead⟩ := numeral_lead n
    rw [htext]
    rcases hlead with hc | ⟨rfl, d, ds, rfl, hd⟩
    · have hc' := lead_ne_digit hc
      simp only [List.mem_cons, List.not_mem_nil, or_false, forall_eq_or_imp, forall_eq] at hc'
      simp [names, List.find?, List.isPrefixOf, hc']
    · have hI := lead_ne_digit hd 'I' (by decide)
      simp [names, List.find?, List.isPrefixOf, hI]
  rw [readAtom, hname]
  exact hnumber

/-! ### Reading back a value -/

section

variable (esc : Char → List Char)

mutual

/-- Data as it is written with an escaping, the keys of every object in the order they are held. -/
def writeWith : Json → List Char
  | null => ['n', 'u', 'l', 'l']
  | bool true => ['t', 'r', 'u', 'e']
  | bool false => ['f', 'a', 'l', 's', 'e']
  | int n => (toString n).toList
  | float r => r.toList
  | str s => '"' :: (s.toList.flatMap esc ++ ['"'])
  | arr js => '[' :: writeItems js
  | obj fs => '\x7b' :: writeFields fs

def writeItems : List Json → List Char
  | [] => [']']
  | j :: js => writeWith j ++ if js = [] then [']'] else ',' :: writeItems js

def writeFields : List (String × Json) → List Char
  | [] => ['\x7d']
  | (k, j) :: fs =>
    '"' :: (k.toList.flatMap esc ++ '"' :: ':' :: (writeWith j ++
      if fs = [] then ['\x7d'] else ',' :: writeFields fs))

end

variable (blank : List Char)

mutual

/-- Data as it is written with blanks after every comma and every colon. -/
def writeSpaced : Json → List Char
  | null => ['n', 'u', 'l', 'l']
  | bool true => ['t', 'r', 'u', 'e']
  | bool false => ['f', 'a', 'l', 's', 'e']
  | int n => (toString n).toList
  | float r => r.toList
  | str s => '"' :: (s.toList.flatMap esc ++ ['"'])
  | arr js => '[' :: writeSpacedItems js
  | obj fs => '\x7b' :: writeSpacedFields fs

def writeSpacedItems : List Json → List Char
  | [] => [']']
  | j :: js => writeSpaced j ++ if js = [] then [']'] else ',' :: (blank ++ writeSpacedItems js)

def writeSpacedFields : List (String × Json) → List Char
  | [] => ['\x7d']
  | (k, j) :: fs =>
    '"' :: (k.toList.flatMap esc ++ '"' :: ':' :: (blank ++ (writeSpaced j ++
      if fs = [] then ['\x7d'] else ',' :: (blank ++ writeSpacedFields fs))))

end

mutual

theorem writeSpaced_nil : ∀ j : Json, writeSpaced esc [] j = writeWith esc j
  | null | bool true | bool false | int _ | float _ | str _ => rfl
  | arr js => congrArg ('[' :: ·) (writeSpacedItems_nil js)
  | obj fs => congrArg ('\x7b' :: ·) (writeSpacedFields_nil fs)

theorem writeSpacedItems_nil : ∀ js : List Json, writeSpacedItems esc [] js = writeItems esc js
  | [] => rfl
  | j :: js => by
    rw [writeSpacedItems, writeItems, writeSpaced_nil j, List.nil_append, writeSpacedItems_nil js]

theorem writeSpacedFields_nil : ∀ fs : List (String × Json),
    writeSpacedFields esc [] fs = writeFields esc fs
  | [] => rfl
  | (k, j) :: fs => by
    rw [writeSpacedFields, writeFields, writeSpaced_nil j, List.nil_append, List.nil_append,
      writeSpacedFields_nil fs]

end

end

mutual

/-- Data that the reader takes as it is written: no integer is too long, no key comes twice, and
every float has the text it is read from. -/
def Readable : Json → Prop
  | int n => (Nat.toDigits 10 n.natAbs).length ≤ maxIntDigits
  | float r => ∀ rest, Closed rest → readAtom floatRepr (r.toList ++ rest) = .ok (float r, rest)
  | arr js => ReadableItems js
  | obj fs => (fs.map Prod.fst).Nodup ∧ ReadableFields fs
  | _ => True

def ReadableItems : List Json → Prop
  | [] => True
  | j :: js => Readable j ∧ ReadableItems js

def ReadableFields : List (String × Json) → Prop
  | [] => True
  | (_, j) :: fs => Readable j ∧ ReadableFields fs

end

theorem readable_int {n : Int} (h : n.natAbs < 10 ^ 10) : Readable floatRepr (int n) := by
  have hdigits := (Nat.length_toDigits_le_iff (n := n.natAbs) (k := 10) (by decide) (by decide)).mpr h
  show (Nat.toDigits 10 n.natAbs).length ≤ maxIntDigits
  exact hdigits.trans (by decide)

theorem setKey_of_notMem {fs : List (String × Json)} {key : String} (h : key ∉ fs.map Prod.fst) (value : Json) :
    setKey fs key value = fs ++ [(key, value)] := by
  induction fs with
  | nil => rfl
  | cons f fs ih =>
    simp only [List.map_cons, List.mem_cons, not_or] at h
    rw [setKey, if_neg (Ne.symm h.1), ih h.2, List.cons_append]

/-- Entries under distinct keys make the object that holds them in their order. -/
theorem ofPairs_of_nodup {pairs : List (String × Json)} (h : (pairs.map Prod.fst).Nodup) :
    ofPairs pairs = pairs := by
  have hfold : ∀ (fs ps : List (String × Json)), ((fs ++ ps).map Prod.fst).Nodup →
      ps.foldl (fun fields pair => setKey fields pair.1 pair.2) fs = fs ++ ps := by
    intro fs ps
    induction ps generalizing fs with
    | nil => simp
    | cons p ps ih =>
      intro hnodup
      have hfresh : p.1 ∉ fs.map Prod.fst := by
        rw [List.map_append, List.map_cons] at hnodup
        intro hmem
        exact (List.nodup_append.mp hnodup).2.2 _ hmem _ List.mem_cons_self rfl
      rw [List.foldl_cons, setKey_of_notMem hfresh, ih _ (by simpa using hnodup)]
      simp
  exact hfold [] pairs h

theorem closed_delimiter {c : Char} (h : isDelimiter c = true) (cs : List Char) : Closed (c :: cs) := by
  intro d hd
  cases hd
  exact h

theorem skipBlanks_cons {c : Char} (h : isBlank c = false) (cs : List Char) : skipBlanks (c :: cs) = c :: cs := by
  simp [skipBlanks, h]

theorem readAtom_start {cs : List Char} {j : Json} {rest : List Char}
    (h : readAtom floatRepr cs = .ok (j, rest)) :
    ∃ c tail, cs = c :: tail ∧ isBlank c = false ∧ c ≠ ']' ∧ c ≠ '"' ∧ c ≠ '[' ∧ c ≠ '\x7b' := by
  cases cs with
  | nil => cases h
  | cons c tail =>
    have hother : ∀ d ∈ [' ', '\t', '\n', '\r', ']', '"', '[', '\x7b'], c ≠ d := by
      intro d hd heq
      rw [heq] at h
      simp only [List.mem_cons, List.not_mem_nil, or_false] at hd
      rcases hd with rfl | rfl | rfl | rfl | rfl | rfl | rfl | rfl <;>
        simp [readAtom, names, readNumber, readInteger, Char.isDigit] at h
    simp only [List.mem_cons, List.not_mem_nil, or_false, forall_eq_or_imp, forall_eq] at hother
    refine ⟨c, tail, rfl, ?_, hother.2.2.2.2.1, hother.2.2.2.2.2.1, hother.2.2.2.2.2.2.1, hother.2.2.2.2.2.2.2⟩
    simp [isBlank, hother]

theorem readValue_atom {n : Nat} {cs : List Char} {j : Json} {rest : List Char}
    (h : readAtom floatRepr cs = .ok (j, rest)) : readValue floatRepr (n + 1) cs = .ok (j, rest) := by
  obtain ⟨c, tail, rfl, -, -, hquote, hbracket, hbrace⟩ := readAtom_start floatRepr h
  rw [readValue]
  simp [hquote, hbracket, hbrace, h]

/-- A value begins with nothing the reader would skip, and with no closing bracket. -/
theorem writeSpaced_start (esc : Char → List Char) (blank : List Char) {j : Json}
    (h : Readable floatRepr j) :
    ∃ c cs, writeSpaced esc blank j = c :: cs ∧ isBlank c = false ∧ c ≠ ']' := by
  cases j with
  | null => exact ⟨_, _, rfl, by decide, by decide⟩
  | bool b => cases b <;> exact ⟨_, _, rfl, by decide, by decide⟩
  | int n =>
    have hclosed : Closed [] := by simp [Closed]
    have hread := readAtom_int floatRepr (n := n) h hclosed
    obtain ⟨c, tail, htext, hblank, hbracket, -⟩ := readAtom_start floatRepr hread
    rw [List.append_nil] at htext
    exact ⟨c, tail, htext, hblank, hbracket⟩
  | float r =>
    have hread := h [] (by simp [Closed])
    obtain ⟨c, tail, htext, hblank, hbracket, -⟩ := readAtom_start floatRepr hread
    rw [List.append_nil] at htext
    exact ⟨c, tail, htext, hblank, hbracket⟩
  | str s => exact ⟨_, _, rfl, by decide, by decide⟩
  | arr js => exact ⟨_, _, rfl, by decide, by decide⟩
  | obj fs => exact ⟨_, _, rfl, by decide, by decide⟩

/-- A value is read where it begins, without blanks to skip. -/
theorem skipBlanks_writeSpaced (esc : Char → List Char) (blank : List Char) {j : Json}
    (h : Readable floatRepr j) (rest : List Char) :
    skipBlanks (writeSpaced esc blank j ++ rest) = writeSpaced esc blank j ++ rest := by
  obtain ⟨c, cs, htext, hblank, -⟩ := writeSpaced_start floatRepr esc blank h
  rw [htext, List.cons_append, skipBlanks_cons hblank]

theorem skipBlanks_blanks {blank : List Char} (hblank : ∀ c ∈ blank, isBlank c = true) (cs : List Char) :
    skipBlanks (blank ++ cs) = skipBlanks cs :=
  List.dropWhile_append_of_pos hblank

section

variable {blank : List Char}

mutual

/-- A value that is written is read back, and the text after it is left. -/
theorem readValue_writeSpaced (hblank : ∀ c ∈ blank, isBlank c = true) (hesc : Escaping esc) :
    ∀ (j : Json) (n : Nat) (rest : List Char),
    Readable floatRepr j → Closed rest → (writeSpaced esc blank j).length < n →
    readValue floatRepr n (writeSpaced esc blank j ++ rest) = .ok (j, rest) := by
  intro j n rest hj hrest hn
  obtain ⟨m, rfl⟩ : ∃ m, n = m + 1 := ⟨n - 1, by omega⟩
  cases j with
  | null =>
    apply readValue_atom
    simp [writeSpaced, readAtom, names]
  | bool b =>
    apply readValue_atom
    cases b <;> simp [writeSpaced, readAtom, names]
  | int k => exact readValue_atom floatRepr (readAtom_int floatRepr hj hrest)
  | float r => exact readValue_atom floatRepr (hj rest hrest)
  | str s =>
    simp only [writeSpaced, List.length_cons, List.length_append, List.length_nil] at hn
    have hstring := readString_write hesc s.toList (n := m) rest (by omega)
    rw [readValue]
    simp [writeSpaced, hstring]
  | arr js =>
    have hitems := readItems_writeSpaced hblank hesc js m rest hj
    simp only [writeSpaced, List.length_cons] at hn
    cases js with
    | nil =>
      rw [readValue]
      simp [writeSpaced, writeSpacedItems, skipBlanks, isBlank]
    | cons i is =>
      have hstart := skipBlanks_writeSpaced floatRepr esc blank hj.1
        ((if is = [] then [']'] else ',' :: (blank ++ writeSpacedItems esc blank is)) ++ rest)
      obtain ⟨c, cs, htext, -, hbracket⟩ := writeSpaced_start floatRepr esc blank hj.1
      have hread := hitems (List.cons_ne_nil i is) (by omega)
      rw [readValue]
      rw [writeSpacedItems, List.append_assoc] at hread
      simp only [writeSpaced, writeSpacedItems, List.cons_append, List.head?_cons, List.tail_cons,
        List.append_assoc] at hstart hread ⊢
      rw [hstart]
      simp [htext, hbracket] at hread ⊢
      rw [hread]
  | obj fs =>
    have hfields := readFields_writeSpaced hblank hesc fs m rest hj.2
    simp only [writeSpaced, List.length_cons] at hn
    cases fs with
    | nil =>
      rw [readValue]
      simp [writeSpaced, writeSpacedFields, skipBlanks, isBlank]
    | cons f fs =>
      have hread := hfields (List.cons_ne_nil f fs) (by omega)
      have hpairs := ofPairs_of_nodup hj.1
      rw [readValue]
      obtain ⟨k, j⟩ := f
      rw [writeSpacedFields] at hread
      simp only [writeSpaced, writeSpacedFields, List.cons_append, List.head?_cons, List.tail_cons,
        skipBlanks_cons (show isBlank '"' = false by decide)]
      simp at hread ⊢
      rw [hread]
      simp [hpairs]

theorem readItems_writeSpaced (hblank : ∀ c ∈ blank, isBlank c = true) (hesc : Escaping esc) :
    ∀ (js : List Json) (n : Nat) (rest : List Char),
    ReadableItems floatRepr js → js ≠ [] → (writeSpacedItems esc blank js).length < n →
    readItems floatRepr n (writeSpacedItems esc blank js ++ rest) = .ok (js, rest) := by
  intro js n rest hjs hne hn
  obtain ⟨m, rfl⟩ : ∃ m, n = m + 1 := ⟨n - 1, by omega⟩
  cases js with
  | nil => exact absurd rfl hne
  | cons j js =>
    rw [writeSpacedItems, List.length_append] at hn
    cases js with
    | nil =>
      have hvalue := readValue_writeSpaced hblank hesc j m (']' :: rest) hjs.1 (closed_delimiter (by decide) rest)
        (by simp at hn; omega)
      rw [readItems, writeSpacedItems, if_pos rfl, List.append_assoc, List.cons_append, List.nil_append, hvalue]
      simp [skipBlanks, isBlank]
    | cons i is =>
      rw [if_neg (List.cons_ne_nil i is), List.length_cons, List.length_append] at hn
      have hvalue := readValue_writeSpaced hblank hesc j m
        (',' :: (blank ++ writeSpacedItems esc blank (i :: is) ++ rest)) hjs.1
        (closed_delimiter (by decide) _) (by omega)
      have hmore := readItems_writeSpaced hblank hesc (i :: is) m rest hjs.2 (List.cons_ne_nil i is) (by omega)
      have hstart := skipBlanks_writeSpaced floatRepr esc blank hjs.2.1
        ((if is = [] then [']'] else ',' :: (blank ++ writeSpacedItems esc blank is)) ++ rest)
      rw [readItems, writeSpacedItems, if_neg (List.cons_ne_nil i is), List.append_assoc, List.cons_append, hvalue]
      simp only [skipBlanks_cons (show isBlank ',' = false by decide), List.head?_cons, List.tail_cons]
      rw [List.append_assoc, skipBlanks_blanks hblank]
      rw [writeSpacedItems, List.append_assoc] at hmore ⊢
      rw [hstart, hmore]
      simp

theorem readFields_writeSpaced (hblank : ∀ c ∈ blank, isBlank c = true) (hesc : Escaping esc) :
    ∀ (fs : List (String × Json)) (n : Nat) (rest : List Char),
    ReadableFields floatRepr fs → fs ≠ [] → (writeSpacedFields esc blank fs).length < n →
    readFields floatRepr n (writeSpacedFields esc blank fs ++ rest) = .ok (fs, rest) := by
  intro fs n rest hfs hne hn
  obtain ⟨m, rfl⟩ : ∃ m, n = m + 1 := ⟨n - 1, by omega⟩
  cases fs with
  | nil => exact absurd rfl hne
  | cons f fs =>
    obtain ⟨k, j⟩ := f
    simp only [writeSpacedFields, List.length_cons, List.length_append] at hn
    have hkey := readString_write hesc k.toList (n := m) (':' :: (blank ++ (writeSpaced esc blank j ++
      ((if fs = [] then ['\x7d'] else ',' :: (blank ++ writeSpacedFields esc blank fs)) ++ rest)))) (by omega)
    have hstart := skipBlanks_writeSpaced floatRepr esc blank hfs.1
        ((if fs = [] then ['\x7d'] else ',' :: (blank ++ writeSpacedFields esc blank fs)) ++ rest)
    rw [readFields, writeSpacedFields]
    simp only [List.cons_append, List.append_assoc, List.head?_cons, List.tail_cons, if_true, hkey,
      skipBlanks_cons (show isBlank ':' = false by decide), skipBlanks_blanks hblank, hstart]
    cases fs with
    | nil =>
      have hvalue := readValue_writeSpaced hblank hesc j m ('\x7d' :: rest) hfs.1 (closed_delimiter (by decide) rest)
        (by simp at hn; omega)
      simp [hvalue, skipBlanks, isBlank]
    | cons g gs =>
      rw [if_neg (List.cons_ne_nil g gs), List.length_cons, List.length_append] at hn
      have hvalue := readValue_writeSpaced hblank hesc j m
        (',' :: (blank ++ writeSpacedFields esc blank (g :: gs) ++ rest)) hfs.1
        (closed_delimiter (by decide) _) (by omega)
      have hmore := readFields_writeSpaced hblank hesc (g :: gs) m rest hfs.2 (List.cons_ne_nil g gs) (by omega)
      have hquote : skipBlanks (writeSpacedFields esc blank (g :: gs) ++ rest) =
          writeSpacedFields esc blank (g :: gs) ++ rest :=
        skipBlanks_cons (by decide) _
      rw [if_neg (List.cons_ne_nil g gs), List.cons_append, hvalue]
      simp only [skipBlanks_cons (show isBlank ',' = false by decide), List.head?_cons, List.tail_cons,
        List.append_assoc, skipBlanks_blanks hblank, hquote, hmore]
      simp

end

end

theorem readValue_write (hesc : Escaping esc) (j : Json) (n : Nat) (rest : List Char)
    (hj : Readable floatRepr j) (hrest : Closed rest) (hn : (writeWith esc j).length < n) :
    readValue floatRepr n (writeWith esc j ++ rest) = .ok (j, rest) := by
  rw [← writeSpaced_nil] at hn ⊢
  exact readValue_writeSpaced floatRepr (by simp) hesc j n rest hj hrest hn

/-! ### Canonical texts -/

/-- A key with the text of its value. -/
def entryWith (esc : Char → List Char) (k : String) (value : List Char) : List Char :=
  '"' :: (k.toList.flatMap esc ++ '"' :: ':' :: value)

theorem writeItems_eq (js : List Json) : '[' :: writeItems esc js = between '[' ']' (js.map (writeWith esc)) := by
  cases js with
  | nil => rfl
  | cons j js =>
    induction js generalizing j with
    | nil => simp [writeItems, between]
    | cons i is ih =>
      have hmore := ih i
      simp only [List.map_cons, between, List.cons.injEq, true_and] at hmore
      rw [writeItems, if_neg (List.cons_ne_nil i is), hmore]
      simp [between]

theorem writeFields_eq (fs : List (String × Json)) : '\x7b' :: writeFields esc fs =
    between '\x7b' '\x7d' (fs.map fun f => entryWith esc f.1 (writeWith esc f.2)) := by
  cases fs with
  | nil => rfl
  | cons f fs =>
    induction fs generalizing f with
    | nil => simp [writeFields, between, entryWith]
    | cons g gs ih =>
      have hmore := ih g
      simp only [List.map_cons, between, List.cons.injEq, true_and] at hmore
      rw [writeFields, if_neg (List.cons_ne_nil g gs), hmore]
      simp [between, entryWith]

mutual

/-- The canonical text is what is written once the keys are sorted. -/
theorem dumpsUnicode_eq_write : ∀ j : Json, (dumpsUnicode j).toList = writeWith escapeControl (sortKeys j)
  | null => by decide
  | bool b => by cases b <;> decide
  | int n => rfl
  | float r => rfl
  | str s => by simp [dumpsUnicode, sortKeys, writeWith, quoteUnicode]
  | arr js => by
    have hitems := dumpsUnicodeItems_eq_write js
    rw [sortKeys, writeWith, writeItems_eq, ← hitems]
    exact enclosed '[' ']' (dumpsUnicodeItems js)
  | obj fs => by
    have hsorted : ((dumpsUnicodeFields fs).insertionSort (fun a b => a.1 ≤ b.1)).map
        (fun p => (p.1, p.2.toList)) =
          ((sortKeysFields fs).insertionSort (fun a b => a.1 ≤ b.1)).map
            (fun f => (f.1, writeWith escapeControl f.2)) := by
      rw [map_sortByKey String.toList, map_sortByKey (writeWith escapeControl), dumpsUnicodeFields_eq_write fs]
    have hentries : (((dumpsUnicodeFields fs).insertionSort (fun a b => a.1 ≤ b.1)).map
        (fun p => quoteUnicode p.1 ++ ":" ++ p.2)).map String.toList =
          ((sortKeysFields fs).insertionSort (fun a b => a.1 ≤ b.1)).map
            (fun f => entryWith escapeControl f.1 (writeWith escapeControl f.2)) := by
      have hmapped := congrArg (List.map fun p : String × List Char => entryWith escapeControl p.1 p.2) hsorted
      simpa [List.map_map, Function.comp_def, entryWith, quoteUnicode] using hmapped
    rw [sortKeys, writeWith, writeFields_eq, ← hentries]
    exact enclosed '\x7b' '\x7d' _

theorem dumpsUnicodeItems_eq_write : ∀ js : List Json,
    (dumpsUnicodeItems js).map String.toList = (sortKeysItems js).map (writeWith escapeControl)
  | [] => rfl
  | j :: js => by
    rw [dumpsUnicodeItems, sortKeysItems, List.map_cons, List.map_cons, dumpsUnicode_eq_write j,
      dumpsUnicodeItems_eq_write js]

theorem dumpsUnicodeFields_eq_write : ∀ fs : List (String × Json),
    (dumpsUnicodeFields fs).map (fun p => (p.1, p.2.toList)) =
      (sortKeysFields fs).map (fun f => (f.1, writeWith escapeControl f.2))
  | [] => rfl
  | (k, j) :: fs => by
    rw [dumpsUnicodeFields, sortKeysFields, List.map_cons, List.map_cons, dumpsUnicode_eq_write j,
      dumpsUnicodeFields_eq_write fs]

end

theorem readableFields_iff {fs : List (String × Json)} :
    ReadableFields floatRepr fs ↔ ∀ f ∈ fs, Readable floatRepr f.2 := by
  induction fs with
  | nil => simp [ReadableFields]
  | cons f fs ih => simp [ReadableFields, ih]

theorem sortKeysFields_keys (fs : List (String × Json)) :
    (sortKeysFields fs).map Prod.fst = fs.map Prod.fst := by
  rw [sortKeysFields_eq_map, List.map_map]
  rfl

mutual

theorem readable_sortKeys : ∀ j : Json, Readable floatRepr j → Readable floatRepr (sortKeys j)
  | null, _ | bool _, _ | str _, _ => trivial
  | int _, h => h
  | float _, h => h
  | arr js, h => readable_sortKeysItems js h
  | obj fs, h => by
    constructor
    · have hkeys := ((sortKeysFields fs).perm_insertionSort (fun a b => a.1 ≤ b.1)).map Prod.fst
      rw [hkeys.nodup_iff, sortKeysFields_keys]
      exact h.1
    · apply (readableFields_iff floatRepr).mpr
      intro f hf
      rw [List.mem_insertionSort] at hf
      exact (readableFields_iff floatRepr).mp (readable_sortKeysFields fs h.2) f hf

theorem readable_sortKeysItems : ∀ js : List Json, ReadableItems floatRepr js →
    ReadableItems floatRepr (sortKeysItems js)
  | [], _ => trivial
  | j :: js, h => ⟨readable_sortKeys j h.1, readable_sortKeysItems js h.2⟩

theorem readable_sortKeysFields : ∀ fs : List (String × Json), ReadableFields floatRepr fs →
    ReadableFields floatRepr (sortKeysFields fs)
  | [], _ => trivial
  | (_, j) :: fs, h => ⟨readable_sortKeys j h.1, readable_sortKeysFields fs h.2⟩

end

/-- A whole text that is data as it is written. -/
theorem loads_writeSpaced (hesc : Escaping esc) (blank : List Char) (hblank : ∀ c ∈ blank, isBlank c = true)
    {j : Json} (h : Readable floatRepr j) {text : String} (htext : text.toList = writeSpaced esc blank j) :
    loads floatRepr text = .ok j := by
  have hread := readValue_writeSpaced floatRepr hblank hesc j (2 * text.toList.length + 1) [] h
    (by simp [Closed]) (by rw [htext]; omega)
  have hstart := skipBlanks_writeSpaced floatRepr esc blank h []
  rw [List.append_nil, ← htext] at hread hstart
  rw [loads, hstart, hread]
  simp [skipBlanks]

/-- What `dumps` wrote, `loads` reads back, with the keys of every object sorted. -/
theorem loads_dumpsUnicode {j : Json} (h : Readable floatRepr j) :
    loads floatRepr (dumpsUnicode j) = .ok (sortKeys j) :=
  loads_writeSpaced floatRepr escaping_escapeControl [] (by simp) (readable_sortKeys floatRepr j h)
    (by rw [writeSpaced_nil, dumpsUnicode_eq_write])

/-- `json.dumps(value, sort_keys=True)`, whose separators end in a blank. -/
def dumpsSpaced (j : Json) : String := String.ofList (writeSpaced escapeChar [' '] (sortKeys j))

theorem loads_dumpsSpaced {j : Json} (h : Readable floatRepr j) :
    loads floatRepr (dumpsSpaced j) = .ok (sortKeys j) :=
  loads_writeSpaced floatRepr escaping_escapeChar [' '] (by simp [isBlank]) (readable_sortKeys floatRepr j h)
    String.toList_ofList

mutual

theorem sortKeys_sortKeys : ∀ j : Json, sortKeys (sortKeys j) = sortKeys j
  | null | bool _ | int _ | float _ | str _ => rfl
  | arr js => congrArg arr (sortKeysItems_sortKeysItems js)
  | obj fs => by
    have hsorted : ((sortKeysFields fs).insertionSort (fun a b => a.1 ≤ b.1)).Pairwise
        (fun a b => a.1 ≤ b.1) := List.pairwise_insertionSort _ _
    rw [sortKeys, sortKeys, sortKeysFields_eq_map, map_sortByKey sortKeys, ← sortKeysFields_eq_map,
      sortKeysFields_sortKeysFields fs, hsorted.insertionSort_eq]

theorem sortKeysItems_sortKeysItems : ∀ js : List Json, sortKeysItems (sortKeysItems js) = sortKeysItems js
  | [] => rfl
  | j :: js => by
    rw [sortKeysItems, sortKeysItems, sortKeys_sortKeys j, sortKeysItems_sortKeysItems js]

theorem sortKeysFields_sortKeysFields : ∀ fs : List (String × Json),
    sortKeysFields (sortKeysFields fs) = sortKeysFields fs
  | [] => rfl
  | (k, j) :: fs => by
    rw [sortKeysFields, sortKeysFields, sortKeys_sortKeys j, sortKeysFields_sortKeysFields fs]

end

/-- A text that some call of `json.dumps` gives: with the keys as they come or sorted, with blanks
in the separators or without, and with one escaping or another. -/
def IsDump (j : Json) (text : String) : Prop :=
  ∃ esc blank k, Escaping esc ∧ (∀ c ∈ blank, isBlank c = true) ∧ (k = j ∨ k = sortKeys j) ∧
    text.toList = writeSpaced esc blank k

theorem loads_isDump {j : Json} (h : Readable floatRepr j) {text : String} (htext : IsDump j text) :
    ∃ k, loads floatRepr text = .ok k ∧ sortKeys k = sortKeys j := by
  obtain ⟨esc, blank, k, hesc, hblank, hk, htext⟩ := htext
  rcases hk with rfl | rfl
  · exact ⟨k, loads_writeSpaced floatRepr hesc blank hblank h htext, rfl⟩
  · exact ⟨_, loads_writeSpaced floatRepr hesc blank hblank (readable_sortKeys floatRepr j h) htext,
      sortKeys_sortKeys j⟩

/-- Data with the same text is the same data, up to the order of the keys. -/
theorem dumpsUnicode_injective {a b : Json} (ha : Readable floatRepr a) (hb : Readable floatRepr b)
    (h : dumpsUnicode a = dumpsUnicode b) : sortKeys a = sortKeys b := by
  have hread := loads_dumpsUnicode floatRepr ha
  rw [h, loads_dumpsUnicode floatRepr hb] at hread
  exact (Except.ok.inj hread).symm

/-! ### Looking up keys -/

theorem lookup_eq_some_iff {fs : List (String × Json)} (h : (fs.map Prod.fst).Nodup) {key : String} {j : Json} :
    fs.lookup key = some j ↔ (key, j) ∈ fs := by
  induction fs with
  | nil => simp
  | cons f fs ih =>
    obtain ⟨k, i⟩ := f
    simp only [List.map_cons, List.nodup_cons] at h
    rw [List.lookup_cons, List.mem_cons]
    by_cases hk : key = k
    · have hother : (key, j) ∉ fs := fun hmem => h.1 (hk ▸ List.mem_map_of_mem (f := Prod.fst) hmem)
      simp only [hk, beq_self_eq_true, Option.some.injEq, Prod.mk.injEq, true_and]
      rw [hk] at hother
      constructor
      · exact fun heq => .inl heq.symm
      · rintro (heq | hmem)
        · exact heq.symm
        · exact absurd hmem hother
    · have hbeq : (key == k) = false := beq_eq_false_iff_ne.mpr hk
      simp only [hbeq, ih h.2, Prod.mk.injEq, hk, false_and, false_or]

/-- The entry of a key after the keys are sorted. -/
theorem lookup_sorted {fs : List (String × Json)} (h : (fs.map Prod.fst).Nodup) (key : String) :
    ((sortKeysFields fs).insertionSort (fun a b => a.1 ≤ b.1)).lookup key =
      (fs.lookup key).map sortKeys := by
  have hkeys := (((sortKeysFields fs).perm_insertionSort (fun a b => a.1 ≤ b.1)).map Prod.fst).nodup_iff.mpr
    (by rw [sortKeysFields_keys]; exact h)
  ext j
  rw [lookup_eq_some_iff hkeys, List.mem_insertionSort, sortKeysFields_eq_map, List.mem_map,
    Option.map_eq_some_iff]
  constructor
  · rintro ⟨f, hf, heq⟩
    cases heq
    exact ⟨f.2, (lookup_eq_some_iff h).mpr hf, rfl⟩
  · rintro ⟨i, hi, rfl⟩
    exact ⟨(key, i), (lookup_eq_some_iff h).mp hi, rfl⟩

theorem get_sorted {fs : List (String × Json)} (h : (fs.map Prod.fst).Nodup) (key : String) :
    get ((sortKeysFields fs).insertionSort (fun a b => a.1 ≤ b.1)) key = sortKeys (get fs key) := by
  rw [get, lookup_sorted h, get]
  cases fs.lookup key <;> rfl

/-- An object that was written comes back with the same entries. -/
theorem loads_obj {fs : List (String × Json)} (h : Readable floatRepr (obj fs)) :
    ∃ fields, loads floatRepr (dumpsUnicode (obj fs)) = .ok (obj fields) ∧
      ∀ key, get fields key = sortKeys (get fs key) :=
  ⟨_, loads_dumpsUnicode floatRepr h, get_sorted h.1⟩

/-- Objects that agree once sorted have the same entry for every key. -/
theorem get_eq_of_sortKeys_eq {fs gs : List (String × Json)} (hf : (fs.map Prod.fst).Nodup)
    (hg : (gs.map Prod.fst).Nodup) (h : sortKeys (obj fs) = sortKeys (obj gs)) (key : String) :
    sortKeys (get fs key) = sortKeys (get gs key) := by
  simp only [sortKeys, obj.injEq] at h
  rw [← get_sorted hf, h, get_sorted hg]

theorem get_eq_of_dumpsUnicode_eq {fs gs : List (String × Json)} (hf : Readable floatRepr (obj fs))
    (hg : Readable floatRepr (obj gs)) (h : dumpsUnicode (obj fs) = dumpsUnicode (obj gs)) (key : String) :
    sortKeys (get fs key) = sortKeys (get gs key) :=
  get_eq_of_sortKeys_eq hf.1 hg.1 (dumpsUnicode_injective floatRepr hf hg h) key

theorem sortKeysItems_eq_map (js : List Json) : sortKeysItems js = js.map sortKeys := by
  induction js with
  | nil => rfl
  | cons j js ih => rw [sortKeysItems, ih, List.map_cons]

theorem sortKeys_texts (texts : List String) : sortKeys (arr (texts.map str)) = arr (texts.map str) := by
  rw [sortKeys, sortKeysItems_eq_map, List.map_map]
  rfl

theorem texts_inj {xs ys : List String} (h : sortKeys (arr (xs.map str)) = sortKeys (arr (ys.map str))) :
    xs = ys := by
  rw [sortKeys_texts, sortKeys_texts] at h
  exact List.map_injective_iff.mpr (fun _ _ => str.inj) (arr.inj h)

theorem str_inj {s t : String} (h : sortKeys (str s) = sortKeys (str t)) : s = t := str.inj h

theorem int_inj {m n : Int} (h : sortKeys (int m) = sortKeys (int n)) : m = n := int.inj h

theorem bool_inj {a b : Bool} (h : sortKeys (bool a) = sortKeys (bool b)) : a = b := bool.inj h

theorem optStr_inj {s t : Option String} (h : sortKeys (optStr s) = sortKeys (optStr t)) : s = t := by
  cases s <;> cases t <;> simp_all [optStr, sortKeys]

theorem printed_texts (texts : List String) : Printed (arr (texts.map str)) := by
  show PrintedItems (texts.map str)
  induction texts with
  | nil => trivial
  | cons s texts ih => exact ⟨trivial, ih⟩

theorem readableItems_iff {js : List Json} : ReadableItems floatRepr js ↔ ∀ j ∈ js, Readable floatRepr j := by
  induction js with
  | nil => simp [ReadableItems]
  | cons j js ih => simp [ReadableItems, ih]

theorem readable_texts (texts : List String) : Readable floatRepr (arr (texts.map str)) := by
  apply (readableItems_iff floatRepr).mpr
  intro j hj
  obtain ⟨s, -, rfl⟩ := List.mem_map.mp hj
  trivial

theorem readable_optStr (s : Option String) : Readable floatRepr (optStr s) := by
  cases s <;> trivial

/-! ### The fuel suffices -/

/-- A reading that takes something off the text and does not run out of fuel. -/
def Shortens {α : Type} (cs : List Char) (r : Reading α) : Prop :=
  r ≠ .error .fuel ∧ ∀ a rest, r = .ok (a, rest) → rest.length < cs.length

theorem shortens_ok {α : Type} {cs rest : List Char} {a : α} (h : rest.length < cs.length) :
    Shortens cs (.ok (a, rest)) := by
  constructor
  · intro heq
    cases heq
  · intro b other heq
    cases heq
    exact h

theorem shortens_error {α : Type} {cs : List Char} {x : LoadsError} (h : x ≠ .fuel) :
    Shortens cs (.error x : Reading α) := by
  constructor
  · intro heq
    cases heq
    exact h rfl
  · intro a rest heq
    cases heq

/-- Such a reading fails for a reason of the text, or leaves less to read. -/
theorem Shortens.outcome {α : Type} {cs : List Char} {r : Reading α} (h : Shortens cs r) :
    (∃ x, x ≠ LoadsError.fuel ∧ r = .error x) ∨
      ∃ (a : α) (rest : List Char), rest.length < cs.length ∧ r = .ok (a, rest) := by
  cases r with
  | error x => exact .inl ⟨x, fun heq => h.1 (congrArg Except.error heq), rfl⟩
  | ok p => exact .inr ⟨p.1, p.2, h.2 p.1 p.2 rfl, rfl⟩

theorem Shortens.mono {α : Type} {cs ds : List Char} {r : Reading α} (h : Shortens ds r)
    (hle : ds.length ≤ cs.length) : Shortens cs r := by
  refine ⟨h.1, fun a rest hr => ?_⟩
  have hshort := h.2 a rest hr
  omega

theorem readUnit_shortens (cs : List Char) : Shortens cs (readUnit cs) := by
  unfold readUnit
  split
  · split_ifs
    · exact shortens_ok (by simp only [List.length_cons]; omega)
    · exact shortens_error (by decide)
  · exact shortens_error (by decide)

theorem readLow_shortens (high : Nat) (cs : List Char) : Shortens cs (readLow high cs) := by
  unfold readLow
  split
  · rename_i rest
    rcases (readUnit_shortens rest).outcome with ⟨x, hx, hread⟩ | ⟨low, more, hmore, hread⟩
    · rw [hread]
      exact shortens_error hx
    · rw [hread]
      dsimp only
      split_ifs
      · exact shortens_ok (by simp only [List.length_cons]; omega)
      · exact shortens_error (by decide)
  · exact shortens_error (by decide)

theorem readEscape_shortens (cs : List Char) : Shortens cs (readEscape cs) := by
  cases cs with
  | nil => exact shortens_error (by decide)
  | cons e rest =>
    rw [readEscape]
    split_ifs
    · rcases (readUnit_shortens rest).outcome with ⟨x, hx, hread⟩ | ⟨unit, more, hmore, hread⟩
      · rw [hread]
        exact shortens_error hx
      · rw [hread]
        dsimp only
        split_ifs
        · exact shortens_ok (by simp only [List.length_cons]; omega)
        · exact (readLow_shortens unit more).mono (by simp only [List.length_cons]; omega)
        · exact shortens_error (by decide)
    · cases escapes.lookup e with
      | none => exact shortens_error (by decide)
      | some c => exact shortens_ok (by simp)

theorem readChar_shortens (cs : List Char) : Shortens cs (readChar cs) := by
  cases cs with
  | nil => exact shortens_error (by decide)
  | cons c rest =>
    rw [readChar]
    split_ifs
    · exact (readEscape_shortens rest).mono (by simp)
    · exact shortens_error (by decide)
    · exact shortens_ok (by simp)

theorem tail_shorter {cs : List Char} {c : Char} (h : cs.head? = some c) : cs.tail.length < cs.length := by
  cases cs with
  | nil => cases h
  | cons d ds => simp

theorem skipBlanks_length (cs : List Char) : (skipBlanks cs).length ≤ cs.length :=
  (List.dropWhile_suffix _).length_le

theorem readString_shortens (n : Nat) (cs : List Char) (h : cs.length < n) : Shortens cs (readString n cs) := by
  induction n generalizing cs with
  | zero => omega
  | succ n ih =>
    rw [readString]
    split_ifs with hquote
    · exact shortens_ok (tail_shorter hquote)
    · rcases (readChar_shortens cs).outcome with ⟨x, hx, hread⟩ | ⟨c, rest, hrest, hread⟩
      · rw [hread]
        exact shortens_error hx
      · have hmore := ih rest (by omega)
        rw [hread]
        rcases hmore.outcome with ⟨x, hx, hread⟩ | ⟨s, more, hshort, hread⟩
        · simp only [hread]
          exact shortens_error hx
        · simp only [hread]
          exact shortens_ok (by omega)

theorem readInteger_append (cs : List Char) : (readInteger cs).1 ++ (readInteger cs).2 = cs := by
  unfold readInteger
  split_ifs with h
  · cases cs with
    | nil => cases h
    | cons c cs =>
      cases h
      rfl
  · exact List.takeWhile_append_dropWhile

theorem readFraction_append (cs : List Char) : (readFraction cs).1 ++ (readFraction cs).2 = cs := by
  unfold readFraction
  split
  · split_ifs
    · rfl
    · simp [List.takeWhile_append_dropWhile]
  · rfl

theorem readExponent_length (cs : List Char) : (readExponent cs).2.length ≤ cs.length := by
  cases cs with
  | nil => simp [readExponent]
  | cons e rest =>
    simp only [readExponent]
    split_ifs
    · simp only [List.length_drop, List.length_cons]
      omega
    · exact le_rfl

theorem readNumber_shortens (cs : List Char) : Shortens cs (readNumber floatRepr cs) := by
  unfold readNumber
  generalize hsplit : (if cs.head? = some '-' then (['-'], cs.tail) else ([], cs)) = split
  obtain ⟨sign, unsigned⟩ := split
  have hunsigned : unsigned.length ≤ cs.length := by
    split_ifs at hsplit <;> cases hsplit <;> simp
  have hinteger := congrArg List.length (readInteger_append unsigned)
  have hfraction := congrArg List.length (readFraction_append (readInteger unsigned).2)
  have hexponent := readExponent_length (readFraction (readInteger unsigned).2).2
  rw [List.length_append] at hinteger hfraction
  have hshort : (readInteger unsigned).1 ≠ [] →
      (readExponent (readFraction (readInteger unsigned).2).2).2.length < cs.length := by
    intro hne
    have hpos := List.length_pos_iff.mpr hne
    omega
  dsimp only
  split_ifs with h1 h2 h3 h4
  · exact shortens_error (by decide)
  · exact shortens_error (by decide)
  · exact shortens_ok (hshort h1)
  · exact shortens_ok (hshort h1)
  · exact shortens_ok (hshort h1)

theorem readAtom_shortens (cs : List Char) : Shortens cs (readAtom floatRepr cs) := by
  unfold readAtom
  split
  · rename_i name j hfind
    have hmem := List.mem_of_find?_eq_some hfind
    have hstarts : name.isPrefixOf cs = true := List.find?_some (p := fun name : List Char × Json => name.1.isPrefixOf cs) hfind
    have hprefix := (List.isPrefixOf_iff_prefix.mp hstarts).length_le
    have hpos : ∀ p ∈ names, 0 < p.1.length := by decide
    have hname := hpos _ hmem
    apply shortens_ok
    rw [List.length_drop]
    simp only at hname
    omega
  · exact readNumber_shortens floatRepr cs

theorem afterDelimiter_length {cs : List Char} {c : Char} (h : (skipBlanks cs).head? = some c) :
    (skipBlanks (skipBlanks cs).tail).length < cs.length := by
  have hblanks := skipBlanks_length cs
  have htail := tail_shorter h
  have hmore := skipBlanks_length (skipBlanks cs).tail
  omega

theorem items_shortens {n : Nat} (hvalue : ∀ cs : List Char, 2 * cs.length < n → Shortens cs (readValue floatRepr n cs))
    (hitems : ∀ cs : List Char, 2 * cs.length + 1 < n → Shortens cs (readItems floatRepr n cs))
    {cs : List Char} (h : 2 * cs.length < n) : Shortens cs (readItems floatRepr (n + 1) cs) := by
  rw [readItems]
  rcases (hvalue cs h).outcome with ⟨x, hx, hread⟩ | ⟨j, rest, hrest, hread⟩
  · rw [hread]
    exact shortens_error hx
  · have hblanks := skipBlanks_length rest
    rw [hread]
    dsimp only
    split_ifs with hclose hcomma
    · have htail := tail_shorter hclose
      exact shortens_ok (by omega)
    · have hafter := afterDelimiter_length hcomma
      rcases (hitems (skipBlanks (skipBlanks rest).tail) (by omega)).outcome with
        ⟨x, hx, hread⟩ | ⟨js, more, hmore, hread⟩
      · rw [hread]
        exact shortens_error hx
      · rw [hread]
        exact shortens_ok (by omega)
    · exact shortens_error (by decide)

theorem fields_shortens {n : Nat} (hvalue : ∀ cs : List Char, 2 * cs.length < n → Shortens cs (readValue floatRepr n cs))
    (hfields : ∀ cs : List Char, 2 * cs.length + 1 < n → Shortens cs (readFields floatRepr n cs))
    {cs : List Char} (h : 2 * cs.length < n) : Shortens cs (readFields floatRepr (n + 1) cs) := by
  rw [readFields]
  split_ifs with hquote
  · have htail := tail_shorter hquote
    rcases (readString_shortens n cs.tail (by omega)).outcome with
      ⟨x, hx, hread⟩ | ⟨key, rest, hrest, hread⟩
    · rw [hread]
      exact shortens_error hx
    · rw [hread]
      dsimp only
      split_ifs with hcolon
      · have hafter := afterDelimiter_length hcolon
        rcases (hvalue (skipBlanks (skipBlanks rest).tail) (by omega)).outcome with
          ⟨x, hx, hread⟩ | ⟨j, more, hmore, hread⟩
        · rw [hread]
          exact shortens_error hx
        · have hblanks := skipBlanks_length more
          rw [hread]
          dsimp only
          split_ifs with hclose hcomma
          · have hlast := tail_shorter hclose
            exact shortens_ok (by omega)
          · have hnext := afterDelimiter_length hcomma
            rcases (hfields (skipBlanks (skipBlanks more).tail) (by omega)).outcome with
              ⟨x, hx, hread⟩ | ⟨fs, left, hleft, hread⟩
            · rw [hread]
              exact shortens_error hx
            · rw [hread]
              exact shortens_ok (by omega)
          · exact shortens_error (by decide)
      · exact shortens_error (by decide)
  · exact shortens_error (by decide)

/-- With twice as much fuel as characters, each of the three takes something and none runs out. -/
theorem value_shortens (n : Nat) :
    (∀ cs : List Char, 2 * cs.length < n → Shortens cs (readValue floatRepr n cs)) ∧
      (∀ cs : List Char, 2 * cs.length + 1 < n → Shortens cs (readItems floatRepr n cs)) ∧
        ∀ cs : List Char, 2 * cs.length + 1 < n → Shortens cs (readFields floatRepr n cs) := by
  induction n with
  | zero => exact ⟨fun _ h => by omega, fun _ h => by omega, fun _ h => by omega⟩
  | succ n ih =>
    obtain ⟨hvalue, hitems, hfields⟩ := ih
    refine ⟨fun cs hcs => ?_, fun cs hcs => items_shortens floatRepr hvalue hitems (by omega),
      fun cs hcs => fields_shortens floatRepr hvalue hfields (by omega)⟩
    have hblanks := skipBlanks_length cs.tail
    rw [readValue]
    split_ifs with h1 h2 h3 h4 h5
    · have htail := tail_shorter h1
      rcases (readString_shortens n cs.tail (by omega)).outcome with
        ⟨x, hx, hread⟩ | ⟨s, rest, hrest, hread⟩
      · rw [hread]
        exact shortens_error hx
      · rw [hread]
        exact shortens_ok (by omega)
    · have htail := tail_shorter h2
      have hclose := tail_shorter h3
      exact shortens_ok (by omega)
    · have htail := tail_shorter h2
      rcases (hitems (skipBlanks cs.tail) (by omega)).outcome with ⟨x, hx, hread⟩ | ⟨js, rest, hrest, hread⟩
      · rw [hread]
        exact shortens_error hx
      · rw [hread]
        exact shortens_ok (by omega)
    · have htail := tail_shorter h4
      have hclose := tail_shorter h5
      exact shortens_ok (by omega)
    · have htail := tail_shorter h4
      rcases (hfields (skipBlanks cs.tail) (by omega)).outcome with ⟨x, hx, hread⟩ | ⟨fs, rest, hrest, hread⟩
      · rw [hread]
        exact shortens_error hx
      · rw [hread]
        exact shortens_ok (by omega)
    · exact readAtom_shortens floatRepr cs

/-- The reader never stops for want of fuel. -/
theorem loads_ne_fuel (text : String) : loads floatRepr text ≠ .error .fuel := by
  have hblanks := skipBlanks_length text.toList
  have hread := (value_shortens floatRepr (2 * text.toList.length + 1)).1 (skipBlanks text.toList) (by omega)
  rw [loads]
  rcases hread.outcome with ⟨x, hx, hread⟩ | ⟨j, rest, -, hread⟩
  · rw [hread]
    exact fun heq => hx (Except.error.inj heq)
  · rw [hread]
    dsimp only
    split_ifs
    · exact fun heq => by cases heq
    · exact fun heq => by cases heq

end Json

end EngineeringIntelligence.Framework
