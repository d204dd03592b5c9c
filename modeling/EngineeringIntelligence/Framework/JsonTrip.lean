import EngineeringIntelligence.Framework.JsonReader

namespace EngineeringIntelligence.Framework

namespace Json

/-! `json.loads(json.dumps(value))`: what it gives back, and on which data it raises. -/

mutual

/-- No integer has more digits than `str` and `int` convert. -/
def Convertible : Json → Prop
  | int n => n.natAbs < 10 ^ maxIntDigits
  | arr js => ConvertibleItems js
  | obj fs => ConvertibleFields fs
  | _ => True

def ConvertibleItems : List Json → Prop
  | [] => True
  | j :: js => Convertible j ∧ ConvertibleItems js

def ConvertibleFields : List (String × Json) → Prop
  | [] => True
  | (_, j) :: fs => Convertible j ∧ ConvertibleFields fs

end

theorem convertibleItems_iff {js : List Json} : ConvertibleItems js ↔ ∀ j ∈ js, Convertible j := by
  induction js with
  | nil => simp [ConvertibleItems]
  | cons j js ih => rw [ConvertibleItems, ih, List.forall_mem_cons]

theorem convertibleFields_append {fs gs : List (String × Json)} :
    ConvertibleFields (fs ++ gs) ↔ ConvertibleFields fs ∧ ConvertibleFields gs := by
  induction fs with
  | nil => simp [ConvertibleFields]
  | cons f fs ih => rw [List.cons_append, ConvertibleFields, ih, ConvertibleFields, and_assoc]

variable (floatRepr : String → String)

mutual

/-- Data as Python holds it: no key comes twice, and a float is known by the text that reads back as
that float. -/
def Held : Json → Prop
  | float r => ∀ rest, Closed rest → readAtom floatRepr (r.toList ++ rest) = .ok (float r, rest)
  | arr js => HeldItems js
  | obj fs => (fs.map Prod.fst).Nodup ∧ HeldFields fs
  | _ => True

def HeldItems : List Json → Prop
  | [] => True
  | j :: js => Held j ∧ HeldItems js

def HeldFields : List (String × Json) → Prop
  | [] => True
  | (_, j) :: fs => Held j ∧ HeldFields fs

end

theorem heldItems_iff {js : List Json} : HeldItems floatRepr js ↔ ∀ j ∈ js, Held floatRepr j := by
  induction js with
  | nil => simp [HeldItems]
  | cons j js ih => rw [HeldItems, ih, List.forall_mem_cons]

mutual

theorem readable_of_held : ∀ j : Json, Convertible j → Held floatRepr j → Readable floatRepr j
  | null, _, _ | bool _, _, _ | str _, _, _ => trivial
  | int n, hn, _ => (Nat.length_toDigits_le_iff (by decide) (by decide)).mpr hn
  | float _, _, hr => hr
  | arr js, hc, hj => readableItems_of_held js hc hj
  | obj fs, hc, hj => ⟨hj.1, readableFields_of_held fs hc hj.2⟩

theorem readableItems_of_held : ∀ js : List Json, ConvertibleItems js → HeldItems floatRepr js →
    ReadableItems floatRepr js
  | [], _, _ => trivial
  | j :: js, hc, hj => ⟨readable_of_held j hc.1 hj.1, readableItems_of_held js hc.2 hj.2⟩

theorem readableFields_of_held : ∀ fs : List (String × Json), ConvertibleFields fs →
    HeldFields floatRepr fs → ReadableFields floatRepr fs
  | [], _, _ => trivial
  | (_, j) :: fs, hc, hj => ⟨readable_of_held j hc.1 hj.1, readableFields_of_held fs hc.2 hj.2⟩

end

/-- A text that some call of `json.dumps` gives, with its own separators and its own escaping; `str`
raises on an integer of too many digits. -/
def DumpedAs (j : Json) (text : String) : Prop :=
  Convertible j ∧ ∃ esc blank, Escaping esc ∧ (∀ c ∈ blank, isBlank c = true) ∧
    text.toList = writeSpaced esc blank j

theorem exists_dumpedAs {j : Json} : (∃ text, DumpedAs j text) ↔ Convertible j := by
  constructor
  · rintro ⟨text, hj, -⟩
    exact hj
  · intro hj
    exact ⟨String.ofList (writeSpaced escapeChar [' '] j), hj, escapeChar, [' '], escaping_escapeChar,
      by simp [isBlank], String.toList_ofList⟩

theorem loads_dumpedAs {j : Json} (hj : Held floatRepr j) {text : String} (h : DumpedAs j text) :
    loads floatRepr text = .ok j := by
  obtain ⟨hconvertible, esc, blank, hesc, hblank, htext⟩ := h
  exact loads_writeSpaced floatRepr hesc blank hblank (readable_of_held floatRepr j hconvertible hj) htext

variable {ε α : Type} (parse : Json → Except ε α)

/-- However it is dumped, and it is, what is read back parses to a value with `P`. -/
def RoundTrips (P : α → Prop) (j : Json) : Prop :=
  (∃ text, DumpedAs j text) ∧ ∀ text, DumpedAs j text →
    ∃ k a, loads floatRepr text = .ok k ∧ parse k = .ok a ∧ P a

/-- What is left of a round trip is the parser on the data itself. -/
theorem roundTrips_iff {P : α → Prop} {j : Json} (hj : Held floatRepr j) :
    RoundTrips floatRepr parse P j ↔ Convertible j ∧ ∃ a, parse j = .ok a ∧ P a := by
  constructor
  · rintro ⟨⟨text, htext⟩, hback⟩
    obtain ⟨k, a, hloads, hparse, ha⟩ := hback text htext
    rw [loads_dumpedAs floatRepr hj htext] at hloads
    obtain rfl := Except.ok.inj hloads
    exact ⟨htext.1, a, hparse, ha⟩
  · rintro ⟨hconvertible, a, hparse, ha⟩
    exact ⟨exists_dumpedAs.mpr hconvertible, fun text htext =>
      ⟨j, a, loads_dumpedAs floatRepr hj htext, hparse, ha⟩⟩

end Json

end EngineeringIntelligence.Framework
