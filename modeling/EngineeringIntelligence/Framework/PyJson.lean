import EngineeringIntelligence.Framework.Binary64
import EngineeringIntelligence.Framework.JsonText
import Mathlib.Data.String.Basic

namespace EngineeringIntelligence.Framework

/-! `json.dumps(value, sort_keys=True, separators=(",", ":"), default=str)` of a Python value,
and what `json.loads` gives back. -/

/-- The text of a float. -/
def FloatRepr := { r : String // Json.FloatText r }

/-- `a < b` of two floats. -/
def PyFloat.lt : PyFloat → PyFloat → Bool
  | nan, _ | _, nan => false
  | finite a, finite b => a < b
  | negInf, negInf => false
  | negInf, _ => true
  | _, negInf => false
  | posInf, _ => false
  | finite _, posInf => true

/-- The key of a mapping. -/
inductive PyKey where
  | str (s : String)
  | int (n : Int)
  | float (r : FloatRepr)
  | bool (b : Bool)
  | none
  | other

namespace PyKey

/-- The string the encoder writes for a key; other keys raise `TypeError`. -/
def text : PyKey → Option String
  | str s => some s
  | int n => some (toString n)
  | float r => some r.1
  | bool true => some "true"
  | bool false => some "false"
  | none => some "null"
  | other => Option.none

/-- The number a key compares as. -/
def number : PyKey → Option PyFloat
  | int n => some (.finite n)
  | float r => some (.ofRepr r.1)
  | bool b => some (.finite (if b then 1 else 0))
  | _ => Option.none

def isStr : PyKey → Bool
  | str _ => true
  | _ => false

/-- `a < b` is not raised and holds. -/
def lt (a b : PyKey) : Bool :=
  match a, b with
  | str s, str t => s < t
  | a, b =>
    match a.number, b.number with
    | some x, some y => x.lt y
    | _, _ => false

/-- `sorted` puts the first key no later than the second. -/
def le (a b : PyKey) : Prop := lt b a = false

instance : DecidableRel le := fun a b => inferInstanceAs (Decidable (lt b a = false))

/-- Keys that `sorted` can compare: all strings, all numbers, or fewer than two. -/
def comparable (keys : List PyKey) : Bool :=
  keys.length ≤ 1 || keys.all isStr || keys.all (·.number.isSome)

end PyKey

/-- `dataclasses.asdict` copies a payload anew before each serialisation: the one that is
hashed, the one that is stored and the one that is compared with a stored event. -/
inductive Serialisation where
  | hashing
  | storing
  | comparing
  deriving DecidableEq, Repr

/-- A Python value as `asdict` leaves it. A value that JSON has no form for is known by the
`str` of each of its copies. -/
inductive PyValue where
  | none
  | bool (b : Bool)
  | int (n : Int)
  | float (r : FloatRepr)
  | str (s : String)
  | list (items : List PyValue)
  | dict (entries : List (PyKey × PyValue))
  | other (str : Serialisation → String)

namespace PyValue

/-- The entries in the order the encoder writes them, each key with its text. -/
def arrange (entries : List (PyKey × Json)) : Option (List (String × Json)) :=
  if PyKey.comparable (entries.map (·.1)) then
    (entries.insertionSort (fun a b => PyKey.le a.1 b.1)).mapM
      (fun e => e.1.text.map (fun k => (k, e.2)))
  else Option.none

mutual

/-- The JSON document a value is written as, keys in the order they are written; nothing
where the encoder raises. -/
def document (copy : Serialisation) : PyValue → Option Json
  | none => some .null
  | bool b => some (.bool b)
  | int n => some (.int n)
  | float r => some (.float r.1)
  | str s => some (.str s)
  | list items => (documentItems copy items).map .arr
  | dict entries => ((documentEntries copy entries).bind arrange).map .obj
  | other s => some (.str (s copy))

def documentItems (copy : Serialisation) : List PyValue → Option (List Json)
  | [] => some []
  | v :: vs => (document copy v).bind fun j => (documentItems copy vs).map (j :: ·)

def documentEntries (copy : Serialisation) : List (PyKey × PyValue) → Option (List (PyKey × Json))
  | [] => some []
  | (k, v) :: es =>
    (document copy v).bind fun j => (documentEntries copy es).map ((k, j) :: ·)

end

/-- `json.dumps`. -/
def dumps (copy : Serialisation) (v : PyValue) : Option String :=
  (v.document copy).map fun j => String.ofList j.write

/-- Keys that stand in one order as Python sorts them and as their texts sort. The place of a
NaN among other keys depends on how `sorted` works. -/
def KeysInOrder (keys : List PyKey) : Prop :=
  ((keys.insertionSort PyKey.le).filterMap PyKey.text).Pairwise (· < ·) ∧
    (1 < keys.length → ∀ k ∈ keys, k.number ≠ some .nan)

mutual

/-- A value whose text survives being read back: every mapping's keys are in order, and the
copies of a value that is not JSON read alike. -/
def Steady : PyValue → Prop
  | list items => SteadyItems items
  | dict entries => KeysInOrder (entries.map (·.1)) ∧ SteadyEntries entries
  | other s => ∀ copy, s copy = s .storing
  | _ => True

def SteadyItems : List PyValue → Prop
  | [] => True
  | v :: vs => Steady v ∧ SteadyItems vs

def SteadyEntries : List (PyKey × PyValue) → Prop
  | [] => True
  | (_, v) :: es => Steady v ∧ SteadyEntries es

end

mutual

theorem document_copy (copy : Serialisation) : ∀ v : PyValue, Steady v →
    document copy v = document .storing v
  | none, _ | bool _, _ | int _, _ | float _, _ | str _, _ => rfl
  | list items, h => by rw [document, document, documentItems_copy copy items h]
  | dict entries, h => by rw [document, document, documentEntries_copy copy entries h.2]
  | other s, h => by rw [document, document, h copy]

theorem documentItems_copy (copy : Serialisation) : ∀ items : List PyValue, SteadyItems items →
    documentItems copy items = documentItems .storing items
  | [], _ => rfl
  | v :: vs, h => by
    rw [documentItems, documentItems, document_copy copy v h.1, documentItems_copy copy vs h.2]

theorem documentEntries_copy (copy : Serialisation) : ∀ entries : List (PyKey × PyValue),
    SteadyEntries entries → documentEntries copy entries = documentEntries .storing entries
  | [], _ => rfl
  | (k, v) :: es, h => by
    rw [documentEntries, documentEntries, document_copy copy v h.1, documentEntries_copy copy es h.2]

end

/-- What arranging the entries does to keys and values. -/
theorem arrange_eq_some {entries : List (PyKey × Json)} {fields : List (String × Json)}
    (h : arrange entries = some fields) :
    fields.map (·.1) = ((entries.map (·.1)).insertionSort PyKey.le).filterMap PyKey.text ∧
      ∀ f ∈ fields, ∃ e ∈ entries, e.2 = f.2 := by
  have hmap : ∀ (l : List (PyKey × Json)) (fs : List (String × Json)),
      l.mapM (fun e => e.1.text.map (fun k => (k, e.2))) = some fs →
        fs.map (·.1) = (l.map (·.1)).filterMap PyKey.text ∧ ∀ f ∈ fs, ∃ e ∈ l, e.2 = f.2 := by
    intro l
    induction l with
    | nil =>
      intro fs hfs
      obtain rfl : [] = fs := by simpa using hfs
      simp
    | cons e l ih =>
      intro fs hfs
      rw [List.mapM_cons] at hfs
      cases hk : e.1.text with
      | none => simp [hk] at hfs
      | some k =>
        cases hl : l.mapM (fun e => e.1.text.map (fun k => (k, e.2))) with
        | none => simp [hk, hl] at hfs
        | some gs =>
          obtain ⟨hkeys, hvalues⟩ := ih gs hl
          obtain rfl : (k, e.2) :: gs = fs := by simpa [hk, hl] using hfs
          refine ⟨by simp [hk, hkeys], ?_⟩
          intro f hf
          rcases List.mem_cons.mp hf with rfl | hf
          · exact ⟨e, List.mem_cons_self, rfl⟩
          · obtain ⟨e', he', hv⟩ := hvalues f hf
            exact ⟨e', List.mem_cons_of_mem _ he', hv⟩
  unfold arrange at h
  split at h
  · obtain ⟨hkeys, hvalues⟩ := hmap _ _ h
    refine ⟨?_, ?_⟩
    · rw [hkeys]
      congr 1
      exact List.map_insertionSort _ _ _ _ fun _ _ _ _ => Iff.rfl
    · intro f hf
      obtain ⟨e, he, hv⟩ := hvalues f hf
      exact ⟨e, (List.mem_insertionSort _).mp he, hv⟩
  · cases h

theorem documentEntries_keys {copy : Serialisation} {entries : List (PyKey × PyValue)}
    {es : List (PyKey × Json)} (h : documentEntries copy entries = some es) :
    es.map (·.1) = entries.map (·.1) := by
  induction entries generalizing es with
  | nil =>
    obtain rfl : [] = es := by simpa [documentEntries] using h
    rfl
  | cons e entries ih =>
    obtain ⟨j, -, htail⟩ := Option.bind_eq_some_iff.mp h
    obtain ⟨rest, hrest, rfl⟩ := Option.map_eq_some_iff.mp htail
    simp [ih hrest]

/-- An object whose keys increase and whose values are sorted is sorted. -/
theorem sortKeys_obj_of_increasing {fields : List (String × Json)}
    (hkeys : (fields.map (·.1)).Pairwise (· < ·))
    (hvalues : ∀ f ∈ fields, f.2.sortKeys = f.2) : (Json.obj fields).sortKeys = .obj fields := by
  have hsame : Json.sortKeysFields fields = fields := by
    rw [Json.sortKeysFields_eq_map]
    calc fields.map (fun f => (f.1, f.2.sortKeys)) = fields.map id :=
          List.map_congr_left fun f hf => by rw [hvalues f hf]; rfl
      _ = fields := List.map_id fields
  rw [Json.sortKeys, hsame]
  congr 1
  apply List.Pairwise.insertionSort_eq
  rw [List.pairwise_map] at hkeys
  exact hkeys.imp fun h => Std.le_of_lt h

mutual

/-- The document of a steady value has its keys sorted. -/
theorem sortKeys_document {copy : Serialisation} : ∀ (v : PyValue) (j : Json), Steady v →
    document copy v = some j → j.sortKeys = j
  | none, j, _, h | bool _, j, _, h | int _, j, _, h | float _, j, _, h | str _, j, _, h
  | other _, j, _, h => by
    obtain rfl := Option.some.inj h
    rfl
  | list items, j, hv, h => by
    obtain ⟨js, hjs, rfl⟩ := Option.map_eq_some_iff.mp h
    rw [Json.sortKeys, sortKeys_documentItems items js hv hjs]
  | dict entries, j, hv, h => by
    obtain ⟨fields, hfields, rfl⟩ := Option.map_eq_some_iff.mp h
    obtain ⟨es, hes, harrange⟩ := Option.bind_eq_some_iff.mp hfields
    obtain ⟨hkeys, hvalues⟩ := arrange_eq_some harrange
    apply sortKeys_obj_of_increasing
    · rw [hkeys, documentEntries_keys hes]
      exact hv.1.1
    · intro f hf
      obtain ⟨e, he, hef⟩ := hvalues f hf
      rw [← hef]
      exact sortKeys_documentEntries entries es hv.2 hes e he

theorem sortKeys_documentItems {copy : Serialisation} : ∀ (items : List PyValue) (js : List Json),
    SteadyItems items → documentItems copy items = some js → Json.sortKeysItems js = js
  | [], js, _, h => by
    obtain rfl := Option.some.inj h
    rfl
  | v :: vs, js, hv, h => by
    obtain ⟨j, hj, htail⟩ := Option.bind_eq_some_iff.mp h
    obtain ⟨rest, hrest, rfl⟩ := Option.map_eq_some_iff.mp htail
    rw [Json.sortKeysItems, sortKeys_document v j hv.1 hj, sortKeys_documentItems vs rest hv.2 hrest]

theorem sortKeys_documentEntries {copy : Serialisation} : ∀ (entries : List (PyKey × PyValue))
    (es : List (PyKey × Json)), SteadyEntries entries → documentEntries copy entries = some es →
    ∀ e ∈ es, e.2.sortKeys = e.2
  | [], es, _, h => by
    obtain rfl := Option.some.inj h
    simp
  | (k, v) :: entries, es, hv, h => by
    obtain ⟨j, hj, htail⟩ := Option.bind_eq_some_iff.mp h
    obtain ⟨rest, hrest, rfl⟩ := Option.map_eq_some_iff.mp htail
    intro e he
    rcases List.mem_cons.mp he with rfl | he
    · exact sortKeys_document v j hv.1 hj
    · exact sortKeys_documentEntries entries rest hv.2 hrest e he

end

mutual

theorem printed_document {copy : Serialisation} : ∀ (v : PyValue) (j : Json),
    document copy v = some j → j.Printed
  | none, j, h | bool _, j, h | int _, j, h | str _, j, h | other _, j, h => by
    obtain rfl := Option.some.inj h
    trivial
  | float r, j, h => by
    obtain rfl := Option.some.inj h
    exact r.2
  | list items, j, h => by
    obtain ⟨js, hjs, rfl⟩ := Option.map_eq_some_iff.mp h
    exact printed_documentItems items js hjs
  | dict entries, j, h => by
    obtain ⟨fields, hfields, rfl⟩ := Option.map_eq_some_iff.mp h
    obtain ⟨es, hes, harrange⟩ := Option.bind_eq_some_iff.mp hfields
    apply Json.printedFields_iff.mpr
    intro f hf
    obtain ⟨e, he, hef⟩ := (arrange_eq_some harrange).2 f hf
    rw [← hef]
    exact printed_documentEntries entries es hes e he

theorem printed_documentItems {copy : Serialisation} : ∀ (items : List PyValue) (js : List Json),
    documentItems copy items = some js → Json.PrintedItems js
  | [], js, h => by
    obtain rfl := Option.some.inj h
    trivial
  | v :: vs, js, h => by
    obtain ⟨j, hj, htail⟩ := Option.bind_eq_some_iff.mp h
    obtain ⟨rest, hrest, rfl⟩ := Option.map_eq_some_iff.mp htail
    exact ⟨printed_document v j hj, printed_documentItems vs rest hrest⟩

theorem printed_documentEntries {copy : Serialisation} : ∀ (entries : List (PyKey × PyValue))
    (es : List (PyKey × Json)), documentEntries copy entries = some es → ∀ e ∈ es, e.2.Printed
  | [], es, h => by
    obtain rfl := Option.some.inj h
    simp
  | (k, v) :: entries, es, h => by
    obtain ⟨j, hj, htail⟩ := Option.bind_eq_some_iff.mp h
    obtain ⟨rest, hrest, rfl⟩ := Option.map_eq_some_iff.mp htail
    intro e he
    rcases List.mem_cons.mp he with rfl | he
    · exact printed_document v j hj
    · exact printed_documentEntries entries rest hrest e he

end

/-! ### JSON data as Python values -/

mutual

/-- JSON data that Python can hold: floats that it prints, and one value for each key. -/
def Proper : Json → Prop
  | .float r => Json.FloatText r
  | .arr js => ProperItems js
  | .obj fs => (fs.map (·.1)).Nodup ∧ ProperFields fs
  | _ => True

def ProperItems : List Json → Prop
  | [] => True
  | j :: js => Proper j ∧ ProperItems js

def ProperFields : List (String × Json) → Prop
  | [] => True
  | (_, j) :: fs => Proper j ∧ ProperFields fs

end

instance (r : String) : Decidable (Json.FloatText r) :=
  decidable_of_iff
    ((r.toList.head?.all fun c => c.isDigit || c == '-' || c == 'N' || c == 'I') = true ∧
      r.toList.all Json.isFloatChar = true ∧ (r.toList.any fun c => !c.isDigit && c != '-') = true) (by
    rw [Json.FloatText, Option.all_eq_true, List.all_eq_true, List.any_eq_true]
    simp [or_assoc])

mutual

/-- The Python value of JSON data. -/
def ofJson : Json → PyValue
  | .null => none
  | .bool b => bool b
  | .int n => int n
  | .float r => if h : Json.FloatText r then float ⟨r, h⟩ else str r
  | .str s => str s
  | .arr js => list (ofJsonItems js)
  | .obj fs => dict (ofJsonFields fs)

def ofJsonItems : List Json → List PyValue
  | [] => []
  | j :: js => ofJson j :: ofJsonItems js

def ofJsonFields : List (String × Json) → List (PyKey × PyValue)
  | [] => []
  | (k, j) :: fs => (.str k, ofJson j) :: ofJsonFields fs

end

theorem le_str {a b : String} : PyKey.le (.str a) (.str b) ↔ a ≤ b := by
  change decide (b < a) = false ↔ a ≤ b
  rw [decide_eq_false_iff_not, not_lt]

theorem sorted_str (keys : List String) :
    (keys.map PyKey.str).insertionSort PyKey.le = (keys.insertionSort (· ≤ ·)).map PyKey.str :=
  (List.map_insertionSort (· ≤ ·) PyKey.le PyKey.str keys fun _ _ _ _ => le_str.symm).symm

theorem filterMap_text_str (keys : List String) :
    (keys.map PyKey.str).filterMap PyKey.text = keys := by
  rw [List.filterMap_map]
  exact List.filterMap_some

/-- Distinct strings are in order as keys. -/
theorem keysInOrder_str {keys : List String} (h : keys.Nodup) : KeysInOrder (keys.map PyKey.str) := by
  constructor
  · rw [sorted_str, filterMap_text_str]
    have hsorted := List.pairwise_insertionSort (· ≤ ·) keys
    have hnodup : (keys.insertionSort (· ≤ ·)).Nodup :=
      (List.perm_insertionSort (· ≤ ·) keys).nodup_iff.mpr h
    exact (hsorted.and hnodup).imp fun hab => lt_of_le_of_ne hab.1 hab.2
  · intro _ k hk
    obtain ⟨s, -, rfl⟩ := List.mem_map.mp hk
    simp [PyKey.number]

theorem ofJsonFields_keys (fs : List (String × Json)) :
    (ofJsonFields fs).map (·.1) = (fs.map (·.1)).map PyKey.str := by
  induction fs with
  | nil => rfl
  | cons f fs ih => simp [ofJsonFields, ih]

mutual

theorem steady_ofJson : ∀ j : Json, Proper j → Steady (ofJson j)
  | .null, _ | .bool _, _ | .int _, _ | .str _, _ => trivial
  | .float r, _ => by
    unfold ofJson
    split <;> exact True.intro
  | .arr js, h => steady_ofJsonItems js h
  | .obj fs, h => by
    refine ⟨?_, steady_ofJsonFields fs h.2⟩
    rw [ofJsonFields_keys]
    exact keysInOrder_str h.1

theorem steady_ofJsonItems : ∀ js : List Json, ProperItems js → SteadyItems (ofJsonItems js)
  | [], _ => trivial
  | j :: js, h => ⟨steady_ofJson j h.1, steady_ofJsonItems js h.2⟩

theorem steady_ofJsonFields : ∀ fs : List (String × Json), ProperFields fs →
    SteadyEntries (ofJsonFields fs)
  | [], _ => trivial
  | (_, j) :: fs, h => ⟨steady_ofJson j h.1, steady_ofJsonFields fs h.2⟩

end

/-- Entries under string keys are written sorted. -/
theorem arrange_str (fs : List (String × Json)) :
    arrange (fs.map fun f => (.str f.1, f.2)) = some (fs.insertionSort (fun a b => a.1 ≤ b.1)) := by
  have hsorted : (fs.map fun f => (PyKey.str f.1, f.2)).insertionSort
      (fun a b => PyKey.le a.1 b.1) =
        (fs.insertionSort (fun a b => a.1 ≤ b.1)).map fun f => (.str f.1, f.2) :=
    (List.map_insertionSort (fun a b : String × Json => a.1 ≤ b.1) _
      (fun f => (PyKey.str f.1, f.2)) fs fun _ _ _ _ => le_str.symm).symm
  have hcomparable : PyKey.comparable ((fs.map fun f => (PyKey.str f.1, f.2)).map (·.1)) = true := by
    simp [PyKey.comparable, PyKey.isStr]
  rw [arrange, if_pos hcomparable, hsorted]
  induction fs.insertionSort (fun a b => a.1 ≤ b.1) with
  | nil => rfl
  | cons f fs ih =>
    rw [List.map_cons, List.mapM_cons, ih]
    rfl

mutual

/-- JSON data is written with its keys sorted. -/
theorem document_ofJson {copy : Serialisation} : ∀ j : Json, Proper j →
    document copy (ofJson j) = some j.sortKeys
  | .null, _ | .bool _, _ | .int _, _ | .str _, _ => rfl
  | .float r, h => by
    have htext : Json.FloatText r := h
    rw [ofJson, dif_pos htext]
    rfl
  | .arr js, h => by
    rw [ofJson, document, documentItems_ofJson js h]
    rfl
  | .obj fs, h => by
    rw [ofJson, document, documentEntries_ofJson fs h.2, Option.bind_some, arrange_str]
    rfl

theorem documentItems_ofJson {copy : Serialisation} : ∀ js : List Json, ProperItems js →
    documentItems copy (ofJsonItems js) = some (Json.sortKeysItems js)
  | [], _ => rfl
  | j :: js, h => by
    rw [ofJsonItems, documentItems, document_ofJson j h.1, documentItems_ofJson js h.2]
    rfl

theorem documentEntries_ofJson {copy : Serialisation} : ∀ fs : List (String × Json),
    ProperFields fs → documentEntries copy (ofJsonFields fs) =
      some ((Json.sortKeysFields fs).map fun f => (.str f.1, f.2))
  | [], _ => rfl
  | (k, j) :: fs, h => by
    rw [ofJsonFields, documentEntries, document_ofJson j h.1, documentEntries_ofJson fs h.2]
    rfl

end

mutual

theorem printed_of_proper : ∀ j : Json, Proper j → j.Printed
  | .null, _ | .bool _, _ | .int _, _ | .str _, _ => trivial
  | .float _, h => h
  | .arr js, h => printed_of_properItems js h
  | .obj fs, h => printed_of_properFields fs h.2

theorem printed_of_properItems : ∀ js : List Json, ProperItems js → Json.PrintedItems js
  | [], _ => trivial
  | j :: js, h => ⟨printed_of_proper j h.1, printed_of_properItems js h.2⟩

theorem printed_of_properFields : ∀ fs : List (String × Json), ProperFields fs → Json.PrintedFields fs
  | [], _ => trivial
  | (_, j) :: fs, h => ⟨printed_of_proper j h.1, printed_of_properFields fs h.2⟩

end

end PyValue

namespace PyFloat

/-! ### Comparisons

A float that is not a number compares false with all. -/

/-- `a <= b` of two floats. -/
def le : PyFloat → PyFloat → Bool
  | nan, _ | _, nan => false
  | finite a, finite b => a ≤ b
  | negInf, _ => true
  | _, posInf => true
  | _, _ => false

/-- `float(n)`; nothing from the first integer that rounds past the largest float. -/
def ofInt (n : Int) : Option PyFloat :=
  if n.natAbs < 2 ^ 1024 - 2 ^ 970 then some (finite (Binary64.round n)) else none

theorem not_lt_of_le {a b : PyFloat} (h : a.le b = true) : b.lt a = false := by
  cases a <;> cases b <;> simp_all [le, lt]

theorem ne_nan_of_le {a b : PyFloat} (h : a.le b = true) : a ≠ nan ∧ b ≠ nan := by
  cases a <;> cases b <;> simp_all [le]

/-- Of two numbers the one is no more than the other just when the other is not less. -/
theorem le_iff_not_lt {a b : PyFloat} (ha : a ≠ nan) (hb : b ≠ nan) : a.le b = true ↔ b.lt a = false := by
  cases a <;> cases b <;> simp_all [le, lt]

end PyFloat

end EngineeringIntelligence.Framework
