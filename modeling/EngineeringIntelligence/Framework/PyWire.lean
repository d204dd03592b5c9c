import EngineeringIntelligence.Framework.PyJson
import Mathlib.Data.List.Perm.Basic

namespace EngineeringIntelligence.Framework

namespace PyValue

/-! `json.dumps(value)` of a Python value with keys in the order they stand and no fallback,
as a document service is sent it. -/

mutual

/-- The document a value is sent as; nothing where the encoder raises, or where JSON has no
number for a float. -/
def wire : PyValue → Option Json
  | none => some .null
  | bool b => some (.bool b)
  | int n => some (.int n)
  | float r => if (PyFloat.ofRepr r.1).isFinite then some (.float r.1) else Option.none
  | str s => some (.str s)
  | list items => (wireItems items).map .arr
  | dict entries => (wireEntries entries).map .obj
  | other _ => Option.none

def wireItems : List PyValue → Option (List Json)
  | [] => some []
  | v :: vs => (wire v).bind fun j => (wireItems vs).map (j :: ·)

def wireEntries : List (PyKey × PyValue) → Option (List (String × Json))
  | [] => some []
  | (k, v) :: es =>
    k.text.bind fun t => (wire v).bind fun j => (wireEntries es).map ((t, j) :: ·)

end

/-- A list of entries under increasing keys is the sorted form of any of its permutations. -/
theorem insertionSort_of_perm {fs gs : List (String × Json)} (hperm : gs.Perm fs)
    (hkeys : (gs.map (·.1)).Pairwise (· < ·)) :
    fs.insertionSort (fun a b => a.1 ≤ b.1) = gs := by
  have hnodup : (gs.map (·.1)).Nodup := hkeys.imp fun h => ne_of_lt h
  have hsorted : gs.Pairwise (fun a b => a.1 ≤ b.1) := by
    rw [List.pairwise_map] at hkeys
    exact hkeys.imp fun h => le_of_lt h
  have hsorted' : (fs.insertionSort (fun a b => a.1 ≤ b.1)).Pairwise (fun a b => a.1 ≤ b.1) :=
    List.pairwise_insertionSort _ fs
  have hperm' : (fs.insertionSort (fun a b => a.1 ≤ b.1)).Perm gs :=
    (List.perm_insertionSort _ fs).trans hperm.symm
  apply hperm'.eq_of_pairwise ?_ hsorted' hsorted
  intro a b ha hb hab hba
  exact List.inj_on_of_nodup_map hnodup (hperm'.subset ha) hb (le_antisymm hab hba)

theorem filterMap_of_mapM {α β : Type} {f : α → Option β} {xs : List α} {ys : List β}
    (h : xs.mapM f = some ys) : xs.filterMap f = ys := by
  induction xs generalizing ys with
  | nil =>
    obtain rfl : [] = ys := by simpa using h
    rfl
  | cons x xs ih =>
    rw [List.mapM_cons] at h
    cases hx : f x with
    | none => simp [hx] at h
    | some y =>
      cases hxs : xs.mapM f with
      | none => simp [hx, hxs] at h
      | some zs =>
        obtain rfl : y :: zs = ys := by simpa [hx, hxs] using h
        rw [List.filterMap_cons_some hx, ih hxs]

/-- The keyed documents of entries, each key with its text. -/
theorem mapM_text_wire {entries : List (PyKey × PyValue)} {ws : List (String × Json)}
    {es : List (PyKey × Json)} (hkeys : es.map (·.1) = entries.map (·.1))
    (hw : wireEntries entries = some ws)
    (hvalues : List.Forall₂ (fun e w => e.2 = w.2.sortKeys) es ws) :
    es.mapM (fun e => e.1.text.map (fun k => (k, e.2))) = some (Json.sortKeysFields ws) := by
  induction entries generalizing es ws with
  | nil =>
    obtain rfl : [] = ws := by simpa [wireEntries] using hw
    cases hvalues
    rfl
  | cons entry entries ih =>
    obtain ⟨k, v⟩ := entry
    obtain ⟨t, ht, hrest⟩ := Option.bind_eq_some_iff.mp hw
    obtain ⟨j, -, hrest⟩ := Option.bind_eq_some_iff.mp hrest
    obtain ⟨rest, htail, rfl⟩ := Option.map_eq_some_iff.mp hrest
    cases hvalues with
    | @cons e _ es _ he hes =>
      rw [List.map_cons, List.map_cons, List.cons.injEq] at hkeys
      obtain ⟨hk, hkeys⟩ := hkeys
      rw [List.mapM_cons, ih hkeys htail hes, hk, ht, he]
      rfl

mutual

/-- The sorted document of a steady value is the one that is sent, with its keys sorted. -/
theorem document_wire {copy : Serialisation} : ∀ (v : PyValue) (j d : Json), Steady v →
    wire v = some j → document copy v = some d → d = j.sortKeys
  | none, j, d, _, hw, hd | bool _, j, d, _, hw, hd | int _, j, d, _, hw, hd
  | str _, j, d, _, hw, hd => by
    obtain rfl := Option.some.inj hw
    obtain rfl := Option.some.inj hd
    rfl
  | float r, j, d, _, hw, hd => by
    obtain rfl := Option.some.inj hd
    unfold wire at hw
    split at hw
    · obtain rfl := Option.some.inj hw
      rfl
    · cases hw
  | other _, j, d, _, hw, _ => by cases hw
  | list items, j, d, hv, hw, hd => by
    obtain ⟨js, hjs, rfl⟩ := Option.map_eq_some_iff.mp hw
    obtain ⟨ds, hds, rfl⟩ := Option.map_eq_some_iff.mp hd
    rw [documentItems_wire items js ds hv hjs hds, Json.sortKeys]
  | dict entries, j, d, hv, hw, hd => by
    obtain ⟨ws, hws, rfl⟩ := Option.map_eq_some_iff.mp hw
    obtain ⟨fields, hfields, rfl⟩ := Option.map_eq_some_iff.mp hd
    obtain ⟨es, hes, harrange⟩ := Option.bind_eq_some_iff.mp hfields
    have hkeys := documentEntries_keys hes
    have htexts := mapM_text_wire hkeys hws (documentEntries_wire entries ws es hv.2 hws hes)
    have hincreasing : (fields.map (·.1)).Pairwise (· < ·) := by
      rw [(arrange_eq_some harrange).1, hkeys]
      exact hv.1.1
    have hperm : fields.Perm (Json.sortKeysFields ws) := by
      unfold arrange at harrange
      split at harrange
      · rw [← filterMap_of_mapM harrange, ← filterMap_of_mapM htexts]
        exact (List.perm_insertionSort _ es).filterMap _
      · cases harrange
    rw [Json.sortKeys, insertionSort_of_perm hperm hincreasing]

theorem documentItems_wire {copy : Serialisation} : ∀ (items : List PyValue) (js ds : List Json),
    SteadyItems items → wireItems items = some js → documentItems copy items = some ds →
    ds = Json.sortKeysItems js
  | [], js, ds, _, hw, hd => by
    obtain rfl := Option.some.inj hw
    obtain rfl := Option.some.inj hd
    rfl
  | v :: vs, js, ds, hv, hw, hd => by
    obtain ⟨j, hj, hw⟩ := Option.bind_eq_some_iff.mp hw
    obtain ⟨js', hjs, rfl⟩ := Option.map_eq_some_iff.mp hw
    obtain ⟨d, hd', hd⟩ := Option.bind_eq_some_iff.mp hd
    obtain ⟨ds', hds, rfl⟩ := Option.map_eq_some_iff.mp hd
    rw [Json.sortKeysItems, document_wire v j d hv.1 hj hd',
      documentItems_wire vs js' ds' hv.2 hjs hds]

theorem documentEntries_wire {copy : Serialisation} : ∀ (entries : List (PyKey × PyValue))
    (ws : List (String × Json)) (es : List (PyKey × Json)), SteadyEntries entries →
    wireEntries entries = some ws → documentEntries copy entries = some es →
    List.Forall₂ (fun e w => e.2 = w.2.sortKeys) es ws
  | [], ws, es, _, hw, hd => by
    obtain rfl := Option.some.inj hw
    obtain rfl := Option.some.inj hd
    exact .nil
  | (k, v) :: entries, ws, es, hv, hw, hd => by
    obtain ⟨t, -, hw⟩ := Option.bind_eq_some_iff.mp hw
    obtain ⟨j, hj, hw⟩ := Option.bind_eq_some_iff.mp hw
    obtain ⟨ws', hws, rfl⟩ := Option.map_eq_some_iff.mp hw
    obtain ⟨d, hd', hd⟩ := Option.bind_eq_some_iff.mp hd
    obtain ⟨es', hes, rfl⟩ := Option.map_eq_some_iff.mp hd
    exact .cons (document_wire v j d hv.1 hj hd') (documentEntries_wire entries ws' es' hv.2 hws hes)

end

mutual

theorem printed_wire : ∀ (v : PyValue) (j : Json), wire v = some j → j.Printed
  | none, j, h | bool _, j, h | int _, j, h | str _, j, h => by
    obtain rfl := Option.some.inj h
    trivial
  | float r, j, h => by
    unfold wire at h
    split at h
    · obtain rfl := Option.some.inj h
      exact r.2
    · cases h
  | other _, j, h => by cases h
  | list items, j, h => by
    obtain ⟨js, hjs, rfl⟩ := Option.map_eq_some_iff.mp h
    exact printed_wireItems items js hjs
  | dict entries, j, h => by
    obtain ⟨ws, hws, rfl⟩ := Option.map_eq_some_iff.mp h
    exact printed_wireEntries entries ws hws

theorem printed_wireItems : ∀ (items : List PyValue) (js : List Json),
    wireItems items = some js → Json.PrintedItems js
  | [], js, h => by
    obtain rfl := Option.some.inj h
    trivial
  | v :: vs, js, h => by
    obtain ⟨j, hj, h⟩ := Option.bind_eq_some_iff.mp h
    obtain ⟨js', hjs, rfl⟩ := Option.map_eq_some_iff.mp h
    exact ⟨printed_wire v j hj, printed_wireItems vs js' hjs⟩

theorem printed_wireEntries : ∀ (entries : List (PyKey × PyValue)) (ws : List (String × Json)),
    wireEntries entries = some ws → Json.PrintedFields ws
  | [], ws, h => by
    obtain rfl := Option.some.inj h
    trivial
  | (k, v) :: entries, ws, h => by
    obtain ⟨t, -, h⟩ := Option.bind_eq_some_iff.mp h
    obtain ⟨j, hj, h⟩ := Option.bind_eq_some_iff.mp h
    obtain ⟨ws', hws, rfl⟩ := Option.map_eq_some_iff.mp h
    exact ⟨printed_wire v j hj, printed_wireEntries entries ws' hws⟩

end

end PyValue

end EngineeringIntelligence.Framework
