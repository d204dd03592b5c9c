import Mathlib.Data.List.Basic
import Mathlib.Tactic.Common

namespace EngineeringIntelligence.Framework

/-! The part of the OData filter language that asks whether a collection of strings has a
given member: its expressions, their text, their meaning, and a reader of the text. -/

inductive ODataFilter where
  | never
  | anyEq (field var literal : String)
  | or (left right : ODataFilter)
  | paren (inner : ODataFilter)

namespace ODataFilter

/-- A quote inside a literal is written twice. -/
def escape (value : String) : String :=
  String.ofList (value.toList.flatMap fun c => if c = '\'' then ['\'', '\''] else [c])

def text : ODataFilter → String
  | never => "false"
  | anyEq field var literal =>
    field ++ "/any(" ++ var ++ ": " ++ var ++ " eq '" ++ escape literal ++ "')"
  | or left right => left.text ++ " or " ++ right.text
  | paren inner => "(" ++ inner.text ++ ")"

/-- The comparisons of an expression, left to right. -/
def comparisons : ODataFilter → List (String × String)
  | never => []
  | anyEq field _ literal => [(field, literal)]
  | or left right => left.comparisons ++ right.comparisons
  | paren inner => inner.comparisons

/-- What the expression says of a row with these collections. -/
def Holds (collection : String → List String) : ODataFilter → Prop
  | never => False
  | anyEq field _ literal => literal ∈ collection field
  | or left right => left.Holds collection ∨ right.Holds collection
  | paren inner => inner.Holds collection

theorem holds_iff (collection : String → List String) (f : ODataFilter) :
    f.Holds collection ↔ ∃ p ∈ f.comparisons, p.2 ∈ collection p.1 := by
  induction f with
  | never => simp [Holds, comparisons]
  | anyEq field var literal => simp [Holds, comparisons]
  | or left right ihl ihr =>
    simp only [Holds, ihl, ihr, comparisons, List.mem_append, or_and_right, exists_or]
  | paren inner ih => simpa [Holds, comparisons] using ih

def isNameChar (c : Char) : Bool := c.isAlphanum || c = '_'

def isName (name : String) : Bool := name.toList.all isNameChar

/-- A range variable is one letter here. -/
def isVariable (var : String) : Bool := var.length = 1 && var.toList.all Char.isAlpha

/-- Fields are names, range variables letters. -/
def WellFormed : ODataFilter → Prop
  | never => True
  | anyEq field var _ => isName field ∧ isVariable var
  | or left right => left.WellFormed ∧ right.WellFormed
  | paren inner => inner.WellFormed

/-- Where a reader of the text stands. -/
inductive Reading where
  | outside (name : List Char)
  | lambda (field : List Char)
  | literal (field value : List Char)
  | quoted (field value : List Char)

def comparison (field value : List Char) : String × String :=
  (String.ofList field, String.ofList value)

/-- The comparisons that a text makes. -/
def read : Reading → List Char → List (String × String)
  | .quoted field value, [] => [comparison field value]
  | _, [] => []
  | .outside name, c :: cs =>
    if c = '/' then read (.lambda name) cs
    else if isNameChar c then read (.outside (name ++ [c])) cs
    else read (.outside []) cs
  | .lambda field, c :: cs =>
    if c = '\'' then read (.literal field []) cs else read (.lambda field) cs
  | .literal field value, c :: cs =>
    if c = '\'' then read (.quoted field value) cs else read (.literal field (value ++ [c])) cs
  | .quoted field value, c :: cs =>
    if c = '\'' then read (.literal field (value ++ [c])) cs
    else comparison field value :: read (.outside []) cs

theorem read_name {cs : List Char} (h : cs.all isNameChar = true) (name rest : List Char) :
    read (.outside name) (cs ++ rest) = read (.outside (name ++ cs)) rest := by
  induction cs generalizing name with
  | nil => simp
  | cons c cs ih =>
    have hboth : isNameChar c = true ∧ cs.all isNameChar = true := by simpa using h
    have hslash : c ≠ '/' := by
      rintro rfl
      exact absurd hboth.1 (by decide)
    rw [List.cons_append, read, if_neg hslash, if_pos hboth.1, ih hboth.2]
    simp

theorem read_lambda {cs : List Char} (h : '\'' ∉ cs) (field rest : List Char) :
    read (.lambda field) (cs ++ rest) = read (.lambda field) rest := by
  induction cs with
  | nil => rfl
  | cons c cs ih =>
    have hne : c ≠ '\'' := fun hc => h (hc ▸ List.mem_cons_self)
    rw [List.cons_append, read, if_neg hne, ih fun hm => h (List.mem_cons_of_mem c hm)]

theorem read_literal (value field before rest : List Char) :
    read (.literal field before) ((value.flatMap fun c => if c = '\'' then ['\'', '\''] else [c]) ++
        '\'' :: ')' :: rest) =
      comparison field (before ++ value) :: read (.outside []) rest := by
  induction value generalizing before with
  | nil => simp [read]
  | cons c value ih =>
    rw [List.flatMap_cons, List.append_assoc, show before ++ c :: value = (before ++ [c]) ++ value by simp,
      ← ih]
    by_cases hc : c = '\''
    · subst hc
      rw [if_pos rfl]
      change read (.quoted field before) ('\'' :: _) = _
      rw [read, if_pos rfl]
      rfl
    · rw [if_neg hc]
      change read (.literal field before) (c :: _) = _
      rw [read, if_neg hc]
      rfl

/-- The name under the reader's eye after an expression: only `false` ends in a letter. -/
def lastName : ODataFilter → List Char
  | never => "false".toList
  | anyEq _ _ _ => []
  | or _ right => right.lastName
  | paren _ => []

theorem read_text {f : ODataFilter} (h : f.WellFormed) (rest : List Char) :
    read (.outside []) (f.text.toList ++ rest) =
      f.comparisons ++ read (.outside f.lastName) rest := by
  induction f generalizing rest with
  | never =>
    rw [text, read_name (by decide)]
    rfl
  | anyEq field var literal =>
    obtain ⟨hfield, hvar⟩ := h
    have hquiet : '\'' ∉ "any(".toList ++ var.toList ++ ": ".toList ++ var.toList ++ " eq ".toList := by
      have hv : '\'' ∉ var.toList := by
        intro hmem
        have hletters : var.toList.all Char.isAlpha = true := (Bool.and_eq_true_iff.mp hvar).2
        exact absurd (List.all_eq_true.mp hletters _ hmem) (by decide)
      simp [hv]
    have htext : (anyEq field var literal).text.toList ++ rest = field.toList ++ '/' ::
        (("any(".toList ++ var.toList ++ ": ".toList ++ var.toList ++ " eq ".toList) ++ '\'' ::
          ((literal.toList.flatMap fun c => if c = '\'' then ['\'', '\''] else [c]) ++
            '\'' :: ')' :: rest)) := by
      simp [text, escape]
    rw [htext, read_name hfield, read, if_pos rfl, read_lambda hquiet, read, if_pos rfl, read_literal]
    unfold lastName
    simp [comparison, comparisons]
  | or left right ihl ihr =>
    have hsep : ∀ name, read (.outside name) (" or ".toList ++ (right.text.toList ++ rest)) =
        read (.outside []) (right.text.toList ++ rest) := by
      intro name
      simp [read, isNameChar]
    rw [text, String.toList_append, String.toList_append, List.append_assoc, List.append_assoc,
      ihl h.1, hsep, ihr h.2, comparisons, List.append_assoc]
    rfl
  | paren inner ih =>
    have hclose : ∀ name, read (.outside name) (')' :: rest) = read (.outside []) rest := by
      intro name
      simp [read, isNameChar]
    have htext : (paren inner).text.toList ++ rest =
        '(' :: (inner.text.toList ++ ')' :: rest) := by
      simp [text]
    rw [htext, show read (.outside []) ('(' :: (inner.text.toList ++ ')' :: rest)) =
      read (.outside []) (inner.text.toList ++ ')' :: rest) by simp [read, isNameChar], ih h, hclose]
    rfl

/-- A text that is read, and what it is then taken to say. -/
def Accepts (source : String) (collection : String → List String) : Prop :=
  ∃ p ∈ read (.outside []) source.toList, p.2 ∈ collection p.1

instance (source : String) (collection : String → List String) :
    Decidable (Accepts source collection) :=
  inferInstanceAs (Decidable (∃ p ∈ _, _))

/-- The reader takes every expression for what it means. -/
theorem accepts_text {f : ODataFilter} (h : f.WellFormed) (collection : String → List String) :
    Accepts f.text collection ↔ f.Holds collection := by
  have hread := read_text h []
  have hend : ∀ name, read (.outside name) [] = [] := fun name => by simp [read]
  rw [List.append_nil, hend, List.append_nil] at hread
  rw [Accepts, hread, holds_iff]

/-- Several expressions joined by `or`. -/
def disjunction : List ODataFilter → ODataFilter
  | [] => never
  | [f] => f
  | f :: g :: fs => or f (disjunction (g :: fs))

theorem disjunction_text (f : ODataFilter) (fs : List ODataFilter) :
    (disjunction (f :: fs)).text = " or ".intercalate ((f :: fs).map text) := by
  induction fs generalizing f with
  | nil => simp [disjunction, String.intercalate_singleton]
  | cons g fs ih =>
    rw [disjunction, text, ih, List.map_cons, List.map_cons, List.map_cons,
      String.intercalate_cons_cons]

theorem disjunction_wellFormed {fs : List ODataFilter} (h : ∀ f ∈ fs, f.WellFormed) :
    (disjunction fs).WellFormed := by
  induction fs with
  | nil => trivial
  | cons f fs ih =>
    cases fs with
    | nil => exact h f List.mem_cons_self
    | cons g fs =>
      exact ⟨h f List.mem_cons_self, ih fun k hk => h k (List.mem_cons_of_mem f hk)⟩

theorem disjunction_holds (collection : String → List String) (fs : List ODataFilter) :
    (disjunction fs).Holds collection ↔ ∃ f ∈ fs, f.Holds collection := by
  induction fs with
  | nil => simp [disjunction, Holds]
  | cons f fs ih =>
    cases fs with
    | nil => simp [disjunction]
    | cons g fs =>
      rw [disjunction, Holds, ih]
      simp only [List.exists_mem_cons_iff]

end ODataFilter

end EngineeringIntelligence.Framework
