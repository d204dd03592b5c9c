import EngineeringIntelligence.Framework.Fallible
import EngineeringIntelligence.Framework.Json
import EngineeringIntelligence.Framework.Text
import Mathlib.Data.List.TakeWhile

namespace EngineeringIntelligence.Framework

/-! Checks that constructors and parsers share: a line of text, and a condition with its message. -/

/-- Some text on one line, of at most `maximum` characters. -/
def isLine (maximum : Nat) (value : String) : Bool :=
  strip value ≠ "" && value.toList.length ≤ maximum && !value.toList.contains '\n'

theorem isLine_iff {m n : Nat} {value : String} (h : isLine n value = true) :
    isLine m value = true ↔ value.toList.length ≤ m := by
  simp only [isLine, Bool.and_eq_true, decide_eq_true_eq] at h ⊢
  exact ⟨fun hm => hm.1.2, fun hm => ⟨⟨h.1.1, hm⟩, h.2⟩⟩

theorem isLine_ofList {cs : List Char} {maximum : Nat} (hblank : ∃ c ∈ cs, isPythonSpace c = false)
    (hlength : cs.length ≤ maximum) (hline : '\n' ∉ cs) : isLine maximum (String.ofList cs) = true := by
  have hstrip : strip (String.ofList cs) ≠ "" := by
    intro h
    obtain ⟨c, hc, hspace⟩ := hblank
    have hnil := congrArg String.toList h
    rw [strip, trimBy, String.toList_ofList, String.toList_ofList, String.toList_empty,
      List.reverse_eq_nil_iff, List.dropWhile_eq_nil_iff] at hnil
    have hleft : cs.dropWhile isPythonSpace = [] := by
      cases hd : cs.dropWhile isPythonSpace with
      | nil => rfl
      | cons d ds =>
        have hhead := not_blank_head_dropWhile (c := d) (by rw [hd]; rfl)
        rw [hnil d (by simp [hd])] at hhead
        cases hhead
    rw [List.dropWhile_eq_nil_iff.mp hleft c hc] at hspace
    cases hspace
  simp [isLine, hstrip, hlength, hline]

/-- Data that is to be a line of text. -/
def lineOf (value : Json) (label : String) (maximum : Nat) : Except String String :=
  match value with
  | .str s => if isLine maximum s then .ok s else .error (label ++ " is invalid")
  | _ => .error (label ++ " is invalid")

@[simp] theorem lineOf_str_eq_ok {s t label : String} {maximum : Nat} :
    lineOf (.str s) label maximum = .ok t ↔ isLine maximum s = true ∧ s = t := by
  rw [lineOf, ite_else_error_eq_ok_iff, Except.ok.injEq]

/-- Raise `message` unless the condition holds. -/
def ensure {ε : Type} (condition : Prop) [Decidable condition] (message : ε) : Except ε Unit :=
  if condition then .ok () else .error message

@[simp] theorem ensure_eq_ok {ε : Type} {condition : Prop} [Decidable condition] {message : ε} {u : Unit} :
    ensure condition message = .ok u ↔ condition := by
  rw [ensure, ite_else_error_eq_ok_iff]
  exact ⟨fun h => h.1, fun h => ⟨h, rfl⟩⟩

/-- A frozen dataclass called on its fields, which its `__post_init__` checks. -/
def construct {ε F R : Type} (check : F → Except ε Unit) (build : ∀ f, check f = .ok () → R) (f : F) :
    Except ε R :=
  match h : check f with
  | .ok () => .ok (build f h)
  | .error x => .error x

theorem construct_eq_ok {ε F R : Type} {check : F → Except ε Unit} {build : ∀ f, check f = .ok () → R}
    {f : F} {r : R} : construct check build f = .ok r ↔ ∃ h, build f h = r := by
  rw [construct]
  split
  · rename_i h
    exact ⟨fun heq => ⟨h, Except.ok.inj heq⟩, fun ⟨_, heq⟩ => congrArg Except.ok heq⟩
  · rename_i h
    refine ⟨nofun, fun ⟨hok, _⟩ => ?_⟩
    rw [hok] at h
    cases h

end EngineeringIntelligence.Framework
