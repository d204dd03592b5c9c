import EngineeringIntelligence.Framework.Find
import EngineeringIntelligence.Framework.JsonPrefix

namespace EngineeringIntelligence.Framework

namespace Json

/-! Which parts a canonical text contains: those that stand in one of its strings. -/

section
variable (p : List Char)

mutual

/-- The part stands in a text of the data, a key or a value. -/
def Mentions : Json → Prop
  | str s => p <:+: s.toList
  | float r => p <:+: r.toList
  | arr js => MentionsItems js
  | obj fs => MentionsFields fs
  | _ => False

def MentionsItems : List Json → Prop
  | [] => False
  | j :: js => Mentions j ∨ MentionsItems js

def MentionsFields : List (String × Json) → Prop
  | [] => False
  | (k, j) :: fs => p <:+: k.toList ∨ Mentions j ∨ MentionsFields fs

end

mutual

def decideMentions : (j : Json) → Decidable (Mentions p j)
  | null | bool _ | int _ => isFalse id
  | float r => inferInstanceAs (Decidable (p <:+: r.toList))
  | str s => inferInstanceAs (Decidable (p <:+: s.toList))
  | arr js => decideMentionsItems js
  | obj fs => decideMentionsFields fs

def decideMentionsItems : (js : List Json) → Decidable (MentionsItems p js)
  | [] => isFalse id
  | j :: js =>
    have := decideMentions j
    have := decideMentionsItems js
    inferInstanceAs (Decidable (Mentions p j ∨ MentionsItems p js))

def decideMentionsFields : (fs : List (String × Json)) → Decidable (MentionsFields p fs)
  | [] => isFalse id
  | (k, j) :: fs =>
    have := decideMentions j
    have := decideMentionsFields fs
    inferInstanceAs (Decidable (p <:+: k.toList ∨ Mentions p j ∨ MentionsFields p fs))

end

instance (j : Json) : Decidable (Mentions p j) := decideMentions p j

theorem mentionsItems_iff {js : List Json} : MentionsItems p js ↔ ∃ j ∈ js, Mentions p j := by
  induction js with
  | nil => simp [MentionsItems]
  | cons j js ih => simp [MentionsItems, ih]

theorem mentionsFields_iff {fs : List (String × Json)} :
    MentionsFields p fs ↔ ∃ f ∈ fs, p <:+: f.1.toList ∨ Mentions p f.2 := by
  induction fs with
  | nil => simp [MentionsFields]
  | cons f fs ih => simp [MentionsFields, ih, or_assoc]

mutual

/-- Sorting the keys moves texts about. -/
theorem mentions_sortKeys : ∀ j : Json, Mentions p (sortKeys j) ↔ Mentions p j
  | null | bool _ | int _ | float _ | str _ => Iff.rfl
  | arr js => mentionsItems_sortKeys js
  | obj fs => by
    have hfields := mentionsFields_sortKeys fs
    rw [sortKeys, Mentions, Mentions, ← hfields, mentionsFields_iff, mentionsFields_iff]
    simp only [List.mem_insertionSort]

theorem mentionsItems_sortKeys : ∀ js : List Json, MentionsItems p (sortKeysItems js) ↔ MentionsItems p js
  | [] => Iff.rfl
  | j :: js => or_congr (mentions_sortKeys j) (mentionsItems_sortKeys js)

theorem mentionsFields_sortKeys : ∀ fs : List (String × Json),
    MentionsFields p (sortKeysFields fs) ↔ MentionsFields p fs
  | [] => Iff.rfl
  | (_, j) :: fs => or_congr Iff.rfl (or_congr (mentions_sortKeys j) (mentionsFields_sortKeys fs))

end

end

/-- A part that can stand in strings only: it has a blank, which no other token has, and no punctuation. -/
structure Textual (p : List Char) : Prop where
  blank : ' ' ∈ p
  punctuation : ∀ c ∈ ['"', ',', ':', '[', ']', '\x7b', '\x7d'], c ∉ p

theorem Textual.ne_nil {p : List Char} (h : Textual p) : p ≠ [] := List.ne_nil_of_mem h.blank

theorem Textual.not_token {p token : List Char} (h : Textual p) (htoken : ' ' ∉ token) : ¬ p <:+: token :=
  fun hwithin => htoken (hwithin.subset h.blank)

theorem numeral_no_blank (n : Int) : ' ' ∉ (toString n).toList := by
  have hdigit : ∀ m, ' ' ∉ Nat.toDigits 10 m := by
    intro m hmem
    have hblank := Nat.isDigit_of_mem_toDigits (by decide) (by decide) hmem
    cases hblank
  rw [toList_toString_int]
  split_ifs
  · exact hdigit _
  · intro hmem
    rcases List.mem_cons.mp hmem with heq | hmem
    · cases heq
    · exact hdigit _ hmem

section
variable {esc : Char → List Char} {p : List Char}

/-- A string stands between its quotes. -/
theorem infix_quoted (hesc : Keeps esc p) (hp : Textual p) (s rest : List Char) :
    p <:+: '"' :: (s.flatMap esc ++ '"' :: rest) ↔ p <:+: s ∨ p <:+: rest := by
  have hquote := hp.punctuation '"' (by decide)
  rw [infix_cons_of_notMem hp.ne_nil hquote, infix_append_cons hquote, hesc.infix_iff hp.ne_nil]

mutual

theorem infix_writeWith (hesc : Keeps esc p) (hp : Textual p) : ∀ j : Json, p <:+: writeWith esc j ↔ Mentions p j
  | null => iff_of_false (hp.not_token (show ' ' ∉ ['n', 'u', 'l', 'l'] by decide)) id
  | bool true => iff_of_false (hp.not_token (show ' ' ∉ ['t', 'r', 'u', 'e'] by decide)) id
  | bool false => iff_of_false (hp.not_token (show ' ' ∉ ['f', 'a', 'l', 's', 'e'] by decide)) id
  | int n => iff_of_false (hp.not_token (numeral_no_blank n)) id
  | float r => Iff.rfl
  | str s => by
    rw [writeWith, Mentions, infix_quoted hesc hp, List.infix_nil, or_iff_left hp.ne_nil]
  | arr js => by
    rw [writeWith, Mentions, infix_cons_of_notMem hp.ne_nil (hp.punctuation '[' (by decide)),
      infix_writeItems hesc hp js]
  | obj fs => by
    rw [writeWith, Mentions, infix_cons_of_notMem hp.ne_nil (hp.punctuation '\x7b' (by decide)),
      infix_writeFields hesc hp fs]

theorem infix_writeItems (hesc : Keeps esc p) (hp : Textual p) : ∀ js : List Json,
    p <:+: writeItems esc js ↔ MentionsItems p js
  | [] => by
    rw [writeItems, MentionsItems, infix_cons_of_notMem hp.ne_nil (hp.punctuation ']' (by decide)), List.infix_nil]
    exact iff_of_false hp.ne_nil id
  | [j] => by
    rw [writeItems, if_pos rfl, infix_append_cons (hp.punctuation ']' (by decide)), infix_writeWith hesc hp j,
      List.infix_nil, or_iff_left hp.ne_nil]
    simp [MentionsItems]
  | j :: i :: js => by
    rw [writeItems, if_neg (List.cons_ne_nil i js), infix_append_cons (hp.punctuation ',' (by decide)),
      infix_writeWith hesc hp j, infix_writeItems hesc hp (i :: js)]
    exact Iff.rfl

theorem infix_writeFields (hesc : Keeps esc p) (hp : Textual p) : ∀ fs : List (String × Json),
    p <:+: writeFields esc fs ↔ MentionsFields p fs
  | [] => by
    rw [writeFields, MentionsFields, infix_cons_of_notMem hp.ne_nil (hp.punctuation '\x7d' (by decide)),
      List.infix_nil]
    exact iff_of_false hp.ne_nil id
  | [(k, j)] => by
    rw [writeFields, if_pos rfl, infix_quoted hesc hp,
      infix_cons_of_notMem hp.ne_nil (hp.punctuation ':' (by decide)),
      infix_append_cons (hp.punctuation '\x7d' (by decide)), infix_writeWith hesc hp j, List.infix_nil,
      or_iff_left hp.ne_nil]
    simp [MentionsFields]
  | (k, j) :: f :: fs => by
    rw [writeFields, if_neg (List.cons_ne_nil f fs), infix_quoted hesc hp,
      infix_cons_of_notMem hp.ne_nil (hp.punctuation ':' (by decide)),
      infix_append_cons (hp.punctuation ',' (by decide)), infix_writeWith hesc hp j,
      infix_writeFields hesc hp (f :: fs)]
    exact Iff.rfl

end

end

/-- A canonical text contains a part exactly when one of its strings does. -/
theorem infix_dumps {p : List Char} (hesc : Keeps escapeChar p) (hp : Textual p) (j : Json) :
    p <:+: (dumps j).toList ↔ Mentions p j := by
  rw [dumps_eq_writeWith, infix_writeWith hesc hp, mentions_sortKeys]

theorem between_closing (opening closing : Char) (items : List (List Char)) :
    ∃ inside, between opening closing items = inside ++ [closing] := by
  cases items with
  | nil => exact ⟨[opening], rfl⟩
  | cons item items => exact ⟨opening :: (item ++ items.flatMap fun u => ',' :: u), rfl⟩

/-- An object's text ends with its brace. -/
theorem dumps_obj_closing (fs : List (String × Json)) : ∃ inside, (dumps (obj fs)).toList = inside ++ ['\x7d'] := by
  rw [dumps_eq_writeWith, sortKeys, writeWith, writeFields_eq]
  exact between_closing _ _ _

end Json

end EngineeringIntelligence.Framework
