import Mathlib.Data.List.Basic
import Mathlib.Data.List.Infix

namespace EngineeringIntelligence.Framework

/-- Remove the leading and trailing characters of a class. -/
def trimBy (blank : Char → Bool) (s : String) : String :=
  String.ofList ((s.toList.dropWhile blank).reverse.dropWhile blank).reverse

/-- The Unicode `White_Space` characters, as Go's `unicode.IsSpace` lists them. -/
def isUnicodeSpace (c : Char) : Bool :=
  ['\t', '\n', '\x0b', '\x0c', '\r', ' ', '\u0085', '\u00a0', '\u1680', '\u2028', '\u2029',
    '\u202f', '\u205f', '\u3000'].contains c || (0x2000 ≤ c.toNat && c.toNat ≤ 0x200a)

/-- Python's `str.isspace`: the four information separators count as well. -/
def isPythonSpace (c : Char) : Bool :=
  isUnicodeSpace c || (0x1c ≤ c.toNat && c.toNat ≤ 0x1f)

/-- Python's `str.strip()`. -/
def strip (s : String) : String := trimBy isPythonSpace s

theorem not_blank_head_dropWhile {blank : Char → Bool} {cs : List Char} {c : Char}
    (h : c ∈ (cs.dropWhile blank).head?) : blank c = false := by
  have := List.head?_dropWhile_not blank cs
  rw [Option.mem_def.mp h] at this
  simpa using this

theorem dropWhile_blank_eq_self {blank : Char → Bool} {cs : List Char}
    (h : ∀ c ∈ cs.head?, blank c = false) : cs.dropWhile blank = cs := by
  cases cs with
  | nil => rfl
  | cons c cs => rw [List.dropWhile_cons_of_neg (by simp [h c rfl])]

/-- The texts that come out of `strip` are those without a blank at either end. -/
theorem stripped_iff (s : String) :
    (∃ text, strip text = s) ↔
      (∀ c ∈ s.toList.head?, isPythonSpace c = false) ∧
        ∀ c ∈ s.toList.getLast?, isPythonSpace c = false := by
  constructor
  · intro h
    obtain ⟨text, rfl⟩ := h
    rw [strip, trimBy, String.toList_ofList]
    have hprefix : ((text.toList.dropWhile isPythonSpace).reverse.dropWhile isPythonSpace).reverse
        <+: text.toList.dropWhile isPythonSpace := by
      rw [← List.reverse_suffix, List.reverse_reverse]
      exact List.dropWhile_suffix _
    constructor
    · intro c hc
      obtain ⟨rest, hrest⟩ := hprefix
      have hfirst : c ∈ (text.toList.dropWhile isPythonSpace).head? := by
        rw [← hrest, List.head?_append, Option.mem_def.mp hc]
        rfl
      exact not_blank_head_dropWhile hfirst
    · intro c hc
      rw [List.getLast?_reverse] at hc
      exact not_blank_head_dropWhile hc
  · intro h
    obtain ⟨hhead, hlast⟩ := h
    refine ⟨s, ?_⟩
    have hback : s.toList.reverse.dropWhile isPythonSpace = s.toList.reverse := by
      apply dropWhile_blank_eq_self
      rw [List.head?_reverse]
      exact hlast
    rw [strip, trimBy, dropWhile_blank_eq_self hhead, hback, List.reverse_reverse,
      String.ofList_toList]

/-- Case folding as far as a comparison with an ASCII word can see it: no
character outside ASCII maps to the letters of the words compared here. -/
def asciiLower (s : String) : String := String.ofList (s.toList.map Char.toLower)

theorem toNat_toLower (c : Char) :
    c.toLower.toNat = if 65 ≤ c.toNat ∧ c.toNat ≤ 90 then c.toNat + 32 else c.toNat := by
  unfold Char.toLower Char.toNat
  split
  · next h =>
    have hupper : 65 ≤ c.val.toNat ∧ c.val.toNat ≤ 90 := h
    rw [if_pos hupper]
    change (c.val + 32).toNat = _
    rw [UInt32.toNat_add]
    change (c.val.toNat + 32) % 2 ^ 32 = _
    omega
  · next h =>
    have hother : ¬ (65 ≤ c.val.toNat ∧ c.val.toNat ≤ 90) := h
    rw [if_neg hother]

theorem toLower_toLower (c : Char) : c.toLower.toLower = c.toLower := by
  apply Char.toNat_inj.mp
  rw [toNat_toLower c.toLower, toNat_toLower c]
  split_ifs <;> omega

theorem length_asciiLower (s : String) : (asciiLower s).length = s.length := by
  simp [asciiLower, String.length_toList]

theorem asciiLower_asciiLower (s : String) : asciiLower (asciiLower s) = asciiLower s := by
  unfold asciiLower
  rw [String.toList_ofList, List.map_map]
  exact congrArg String.ofList (List.map_congr_left fun c _ => toLower_toLower c)

/-- See `asciiLower`. -/
def asciiUpper (s : String) : String := String.ofList (s.toList.map Char.toUpper)

/-- `str.lower` for texts that are only compared with ASCII patterns: the Kelvin sign and
the dotted capital I are the two other characters whose lower case has an ASCII letter. -/
def lower (s : String) : String := String.ofList (s.toList.flatMap fun c =>
  if c = '\u212a' then ['k'] else if c = '\u0130' then ['i', '\u0307'] else [c.toLower])

theorem lower_lower (s : String) : lower (lower s) = lower s := by
  have hchar (c : Char) (h : c ≠ '\u212a') (h' : c ≠ '\u0130') :
      c.toLower ≠ '\u212a' ∧ c.toLower ≠ '\u0130' := by
    have hto := toNat_toLower c
    split_ifs at hto with hupper
    · constructor
      · intro heq
        rw [heq] at hto
        have : ('\u212a' : Char).toNat = 8490 := by decide
        omega
      · intro heq
        rw [heq] at hto
        have : ('\u0130' : Char).toNat = 304 := by decide
        omega
    · rw [Char.toNat_inj.mp hto]
      exact ⟨h, h'⟩
  unfold lower
  rw [String.toList_ofList, List.flatMap_assoc]
  refine congrArg String.ofList (List.flatMap_congr fun c _ => ?_)
  by_cases hk : c = '\u212a'
  · rw [if_pos hk]
    decide
  · by_cases hi : c = '\u0130'
    · rw [if_neg hk, if_pos hi]
      decide
    · obtain ⟨hk', hi'⟩ := hchar c hk hi
      rw [if_neg hk, if_neg hi, List.flatMap_singleton, if_neg hk', if_neg hi', toLower_toLower]

/-- `text.startswith(starts)` for a tuple. -/
def startsWithAny (text : String) (starts : List String) : Bool :=
  starts.any fun p => p.toList.isPrefixOf text.toList

/-- `text.endswith(ends)` for a tuple. -/
def endsWithAny (text : String) (ends : List String) : Bool :=
  ends.any fun p => p.toList.isSuffixOf text.toList

/-- Python's `text.split()`: the runs of characters that are not blank. -/
def words (text : String) : List String :=
  ((text.toList.splitOnP isPythonSpace).filter (· ≠ [])).map String.ofList

/-- The characters at which `str.splitlines` ends a line. -/
def isLineBreak (c : Char) : Bool :=
  ['\n', '\r', '\x0b', '\x0c', '\x1c', '\x1d', '\x1e', '\u0085', '\u2028', '\u2029'].contains c

/-- Python's `str.splitlines()`; `line` is what has been read of the current line. -/
def lineChars : List Char → List Char → List (List Char)
  | line, [] => if line = [] then [] else [line]
  | line, '\r' :: '\n' :: rest => line :: lineChars [] rest
  | line, c :: rest => if isLineBreak c then line :: lineChars [] rest else lineChars (line ++ [c]) rest

def splitLines (text : String) : List String := (lineChars [] text.toList).map String.ofList

/-- Python's `text.split("\n\n")`; `block` is what has been read since the last cut. -/
def blockChars : List Char → List Char → List (List Char)
  | block, [] => [block]
  | block, '\n' :: '\n' :: rest => block :: blockChars [] rest
  | block, c :: rest => blockChars (block ++ [c]) rest

theorem blockChars_cons {c : Char} {cs : List Char} (h : ¬ (c = '\n' ∧ cs.head? = some '\n')) (block : List Char) :
    blockChars block (c :: cs) = blockChars (block ++ [c]) cs := by
  rw [blockChars]
  rintro rest rfl rfl
  exact h ⟨rfl, rfl⟩

def splitBlocks (text : String) : List String := (blockChars [] text.toList).map String.ofList

/-- `part in text`. -/
def hasInfix (text part : String) : Bool :=
  text.toList.tails.any fun rest => part.toList.isPrefixOf rest

theorem hasInfix_of_starts {text part : String} (h : part.toList <+: text.toList) : hasInfix text part = true := by
  unfold hasInfix
  rw [List.any_eq_true]
  exact ⟨text.toList, (List.mem_tails _ _).mpr List.suffix_rfl, List.isPrefixOf_iff_prefix.mpr h⟩

/-! Shell patterns, as `fnmatch` reads them on a system whose paths keep their case. -/

inductive GlobToken where
  | star
  | any
  | char (c : Char)
  | set (negated : Bool) (ranges : List (Char × Char))

/-- The members of `[seq]`; a range that runs backwards is dropped. -/
def globRanges : List Char → List (Char × Char)
  | a :: '-' :: b :: rest => if a ≤ b then (a, b) :: globRanges rest else globRanges rest
  | a :: rest => (a, a) :: globRanges rest
  | [] => []

/-- The text between `[` and its `]`, and what follows; a `]` right after `[` or `[!` is a member. -/
def globSetBody (cs : List Char) : Option (List Char × List Char) :=
  let lead := match cs with
    | '!' :: ']' :: _ => 2
    | '!' :: _ => 1
    | ']' :: _ => 1
    | _ => 0
  let rest := cs.drop lead
  match rest.dropWhile (· ≠ ']') with
  | [] => none
  | _ :: after => some (cs.take lead ++ rest.takeWhile (· ≠ ']'), after)

/-- The pattern's tokens; `fuel` is its length. -/
def globTokens : Nat → List Char → List GlobToken
  | _, [] => []
  | 0, _ => []
  | fuel + 1, '*' :: cs => .star :: globTokens fuel cs
  | fuel + 1, '?' :: cs => .any :: globTokens fuel cs
  | fuel + 1, '[' :: cs =>
    match globSetBody cs with
    | none => .char '[' :: globTokens fuel cs
    | some ('!' :: body, after) => .set true (globRanges body) :: globTokens fuel after
    | some (body, after) => .set false (globRanges body) :: globTokens fuel after
  | fuel + 1, c :: cs => .char c :: globTokens fuel cs

def globMatch : List GlobToken → List Char → Bool
  | [], cs => cs.isEmpty
  | .star :: ts, cs => cs.tails.any (globMatch ts)
  | .any :: ts, cs => match cs with
    | [] => false
    | _ :: cs => globMatch ts cs
  | .char c :: ts, cs => match cs with
    | [] => false
    | d :: cs => d = c && globMatch ts cs
  | .set negated ranges :: ts, cs => match cs with
    | [] => false
    | d :: cs => (ranges.any fun r => r.1 ≤ d && d ≤ r.2) != negated && globMatch ts cs

def fnmatch (name pattern : String) : Bool :=
  globMatch (globTokens pattern.length pattern.toList) name.toList

end EngineeringIntelligence.Framework
