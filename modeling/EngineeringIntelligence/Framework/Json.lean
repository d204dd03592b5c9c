import Mathlib.Algebra.Group.Nat.Defs
import Mathlib.Algebra.Group.Int.Defs
import Mathlib.Data.List.Sort

namespace EngineeringIntelligence.Framework

/-- A Python float; a finite one is known by its exact value. -/
inductive PyFloat where
  | finite (q : Rat)
  | posInf
  | negInf
  | nan
  deriving DecidableEq, Repr

namespace PyFloat

/-- JSON has no text for the other values. -/
def isFinite : PyFloat → Bool
  | finite _ => true
  | _ => false

/-- A float written as a decimal, with or without an exponent. -/
def ofDecimal (cs : List Char) : Rat :=
  let digits (ds : List Char) : Nat := ds.foldl (fun n c => 10 * n + (c.toNat - '0'.toNat)) 0
  let (mantissa, exponent) := cs.span (· ≠ 'e')
  let (whole, fraction) := mantissa.span (· ≠ '.')
  let scale : Int := match exponent with
    | 'e' :: '-' :: ds => -(digits ds : Int)
    | 'e' :: '+' :: ds => digits ds
    | 'e' :: ds => digits ds
    | _ => 0
  let shift := scale - (fraction.length - 1 : Nat)
  mkRat (digits (whole ++ fraction.drop 1) * 10 ^ shift.toNat) (10 ^ (-shift).toNat)

/-- The float with a given `repr`, by the value of its decimal; the encoder has texts of its
own for the values that are not finite. -/
def ofRepr (repr : String) : PyFloat :=
  if repr = "nan" ∨ repr = "NaN" then nan
  else if repr = "inf" ∨ repr = "Infinity" then posInf
  else if repr = "-inf" ∨ repr = "-Infinity" then negInf
  else
    match repr.toList with
    | '-' :: cs => finite (-ofDecimal cs)
    | cs => finite (ofDecimal cs)

/-- `x <= 0`. -/
def nonpos : PyFloat → Bool
  | finite q => q ≤ 0
  | posInf => false
  | negInf => true
  | nan => false

end PyFloat

/-- JSON data as Python holds it. A float is known by its `repr`, which is what
the encoder writes; an object keeps the insertion order of its keys. -/
inductive Json where
  | null
  | bool (b : Bool)
  | int (n : Int)
  | float (repr : String)
  | str (s : String)
  | arr (items : List Json)
  | obj (fields : List (String × Json))
  deriving Repr, BEq

namespace Json

/-- `mapping.get(key)`, with `null` for a missing key as for an explicit one. -/
def get (fields : List (String × Json)) (key : String) : Json := (fields.lookup key).getD null

def optStr : Option String → Json
  | none => null
  | some s => str s

def optInt : Option Int → Json
  | none => null
  | some n => int n

/-- `bool(value)`. -/
def truthy : Json → Bool
  | null => false
  | bool b => b
  | int n => n ≠ 0
  | float r => PyFloat.ofRepr r ≠ .finite 0
  | str s => s ≠ ""
  | arr items => !items.isEmpty
  | obj fields => !fields.isEmpty

def hexDigit (n : Nat) : Char := "0123456789abcdef".toList.getD n '0'

/-- `\uXXXX` of a 16-bit unit. -/
def unicodeEscape (n : Nat) : List Char :=
  ['\\', 'u', hexDigit (n / 4096 % 16), hexDigit (n / 256 % 16), hexDigit (n / 16 % 16),
    hexDigit (n % 16)]

/-- One character of an ASCII-only JSON string; astral ones become a surrogate pair. -/
def escapeChar (c : Char) : List Char :=
  if c = '"' then ['\\', '"']
  else if c = '\\' then ['\\', '\\']
  else if c = '\n' then ['\\', 'n']
  else if c = '\r' then ['\\', 'r']
  else if c = '\t' then ['\\', 't']
  else if c = '\x0c' then ['\\', 'f']
  else if c = '\x08' then ['\\', 'b']
  else if 0x20 ≤ c.toNat && c.toNat ≤ 0x7e then [c]
  else if c.toNat < 0x10000 then unicodeEscape c.toNat
  else unicodeEscape (0xd800 + (c.toNat - 0x10000) / 0x400) ++
    unicodeEscape (0xdc00 + (c.toNat - 0x10000) % 0x400)

def quote (s : String) : String := String.ofList ('"' :: s.toList.flatMap escapeChar ++ ['"'])

mutual

/-- `json.dumps(value, sort_keys=True, separators=(",", ":"))`. -/
def dumps : Json → String
  | null => "null"
  | bool b => if b then "true" else "false"
  | int n => toString n
  | float r => r
  | str s => quote s
  | arr items => "[" ++ ",".intercalate (dumpsItems items) ++ "]"
  | obj fields =>
    "\x7b" ++ ",".intercalate (((dumpsFields fields).insertionSort (fun a b => a.1 ≤ b.1)).map
      (fun p => quote p.1 ++ ":" ++ p.2)) ++ "\x7d"

def dumpsItems : List Json → List String
  | [] => []
  | j :: js => dumps j :: dumpsItems js

def dumpsFields : List (String × Json) → List (String × String)
  | [] => []
  | (k, j) :: fs => (k, dumps j) :: dumpsFields fs

end

/-- One character of a JSON string with `ensure_ascii=False`: only controls, the quote and the
backslash are escaped. -/
def escapeControl (c : Char) : List Char :=
  if c.toNat < 0x20 || c = '"' || c = '\\' then escapeChar c else [c]

def quoteUnicode (s : String) : String :=
  String.ofList ('"' :: s.toList.flatMap escapeControl ++ ['"'])

mutual

/-- `json.dumps(value, sort_keys=True, separators=(",", ":"), ensure_ascii=False)`. -/
def dumpsUnicode : Json → String
  | null => "null"
  | bool b => if b then "true" else "false"
  | int n => toString n
  | float r => r
  | str s => quoteUnicode s
  | arr items => "[" ++ ",".intercalate (dumpsUnicodeItems items) ++ "]"
  | obj fields =>
    "\x7b" ++ ",".intercalate (((dumpsUnicodeFields fields).insertionSort (fun a b => a.1 ≤ b.1)).map
      (fun p => quoteUnicode p.1 ++ ":" ++ p.2)) ++ "\x7d"

def dumpsUnicodeItems : List Json → List String
  | [] => []
  | j :: js => dumpsUnicode j :: dumpsUnicodeItems js

def dumpsUnicodeFields : List (String × Json) → List (String × String)
  | [] => []
  | (k, j) :: fs => (k, dumpsUnicode j) :: dumpsUnicodeFields fs

end

end Json

end EngineeringIntelligence.Framework
