import Mathlib.Data.List.Nodup
import Mathlib.Tactic.Tauto

namespace EngineeringIntelligence.Framework

/-- A table whose rows are told apart by a primary key. -/
structure Table {ρ κ : Type} (key : ρ → κ) where
  rows : List ρ
  unique : (rows.map key).Nodup

namespace Table

variable {ρ κ : Type} [DecidableEq κ] {key : ρ → κ}

def empty : Table key := ⟨[], List.nodup_nil⟩

def get (t : Table key) (k : κ) : Option ρ := t.rows.find? (fun r => key r = k)

theorem key_of_get {t : Table key} {k : κ} {r : ρ} (h : t.get k = some r) : key r = k := by
  simpa using List.find?_some h

theorem mem_of_get {t : Table key} {k : κ} {r : ρ} (h : t.get k = some r) : r ∈ t.rows :=
  List.mem_of_find?_eq_some h

theorem get_of_mem {t : Table key} {r : ρ} (h : r ∈ t.rows) : t.get (key r) = some r := by
  cases hget : t.get (key r) with
  | none =>
    have hne := List.find?_eq_none.mp hget r h
    simp at hne
  | some r' =>
    have hkey := key_of_get hget
    have hmem := mem_of_get hget
    rw [List.inj_on_of_nodup_map t.unique hmem h hkey]

theorem get_eq_none_iff {t : Table key} {k : κ} : t.get k = none ↔ k ∉ t.rows.map key := by
  simp [get]

@[simp] theorem get_empty (k : κ) : (empty : Table key).get k = none := rfl

/-- `INSERT OR IGNORE`. -/
def insertOrIgnore (t : Table key) (r : ρ) : Table key :=
  if h : key r ∈ t.rows.map key then t
  else ⟨t.rows ++ [r], by
    rw [List.map_append, List.nodup_append]
    refine ⟨t.unique, by simp, ?_⟩
    intro a ha b hb hab
    rw [List.map_singleton, List.mem_singleton] at hb
    exact h (hb ▸ hab ▸ ha)⟩

theorem get_insertOrIgnore (t : Table key) (r : ρ) (k : κ) :
    (t.insertOrIgnore r).get k =
      if k = key r then some ((t.get k).getD r) else t.get k := by
  unfold insertOrIgnore
  split
  · next h =>
    split
    · next hk =>
      subst hk
      cases hget : t.get (key r) with
      | none => exact absurd h (get_eq_none_iff.mp hget)
      | some r' => rfl
    · rfl
  · next h =>
    have hnone : t.get (key r) = none := get_eq_none_iff.mpr h
    split
    · next hk =>
      subst hk
      rw [hnone]
      simp only [get] at hnone ⊢
      rw [List.find?_append, hnone]
      simp
    · next hk =>
      simp only [get]
      rw [List.find?_append]
      simp [Ne.symm hk]

/-- `UPDATE … WHERE key = k`. -/
def update (t : Table key) (k : κ) (f : ρ → ρ) (hf : ∀ r, key (f r) = key r) : Table key where
  rows := t.rows.map (fun r => if key r = k then f r else r)
  unique := by
    have hkeys : (key ∘ fun r => if key r = k then f r else r) = key := by
      funext r
      simp only [Function.comp_apply]
      split
      · exact hf r
      · rfl
    rw [List.map_map, hkeys]
    exact t.unique

theorem get_update (t : Table key) (k k' : κ) (f : ρ → ρ) (hf : ∀ r, key (f r) = key r) :
    (t.update k f hf).get k' = if k' = k then (t.get k').map f else t.get k' := by
  simp only [get, update]
  induction t.rows with
  | nil => simp
  | cons r rows ih =>
    rw [List.map_cons, List.find?_cons, List.find?_cons, ih]
    by_cases hr : key r = k
    · by_cases hk : k' = k
      · subst hk
        simp [hr, hf]
      · have hrk : ¬ key r = k' := fun h => hk (h.symm.trans hr)
        simp [hr, hf, hk, Ne.symm hk]
    · by_cases hk : k' = k
      · subst hk
        simp [hr]
      · simp [hr, hk]

/-- What holds of every row, and of the updated one, holds of every row of the update. -/
theorem forall_update {t : Table key} {k : κ} {f : ρ → ρ} {hf : ∀ r, key (f r) = key r}
    {P : ρ → Prop} (h : ∀ k r, t.get k = some r → P r)
    (hnew : ∀ r, t.get k = some r → P r → P (f r)) {k' : κ} {r : ρ}
    (hr : (t.update k f hf).get k' = some r) : P r := by
  rw [get_update] at hr
  split at hr
  · next hk =>
    subst hk
    obtain ⟨old, hold, rfl⟩ := Option.map_eq_some_iff.mp hr
    exact hnew old hold (h k' old hold)
  · exact h k' r hr

theorem forall_insertOrIgnore {t : Table key} {r₀ : ρ} {P : ρ → Prop}
    (h : ∀ k r, t.get k = some r → P r) (hnew : P r₀) {k : κ} {r : ρ}
    (hr : (t.insertOrIgnore r₀).get k = some r) : P r := by
  rw [get_insertOrIgnore] at hr
  split at hr
  · cases hget : t.get k with
    | none =>
      rw [hget] at hr
      cases hr
      exact hnew
    | some old =>
      rw [hget] at hr
      cases hr
      exact h k old hget
  · exact h k r hr

/-- An update that leaves the row as it is leaves the table as it is. -/
theorem update_eq_self {t : Table key} {k : κ} {f : ρ → ρ} {hf : ∀ r, key (f r) = key r}
    (h : ∀ r, t.get k = some r → f r = r) : t.update k f hf = t := by
  have hrows : (t.rows.map fun r => if key r = k then f r else r) = t.rows := by
    refine (List.map_congr_left ?_).trans (List.map_id t.rows)
    intro r hr
    split
    · next hk =>
      subst hk
      exact h r (get_of_mem hr)
    · rfl
  cases t
  simp only [update, Table.mk.injEq]
  exact hrows

/-- `INSERT … ON CONFLICT(key) DO UPDATE`: the row takes the place of the one with its key,
or comes last. -/
def put (t : Table key) (r : ρ) : Table key where
  rows := if key r ∈ t.rows.map key then t.rows.map (fun x => if key x = key r then r else x)
    else t.rows ++ [r]
  unique := by
    split
    · have hkeys : (key ∘ fun x => if key x = key r then r else x) = key := by
        funext x
        simp only [Function.comp_apply]
        split
        · next h => exact h.symm
        · rfl
      rw [List.map_map, hkeys]
      exact t.unique
    · next h =>
      rw [List.map_append, List.nodup_append]
      refine ⟨t.unique, by simp, ?_⟩
      intro a ha b hb hab
      rw [List.map_singleton, List.mem_singleton] at hb
      exact h (hb ▸ hab ▸ ha)

theorem mem_put {t : Table key} {r x : ρ} :
    x ∈ (t.put r).rows ↔ x = r ∨ x ∈ t.rows ∧ key x ≠ key r := by
  unfold put
  dsimp only
  split
  · next h =>
    simp only [List.mem_map]
    constructor
    · rintro ⟨y, hy, rfl⟩
      by_cases hk : key y = key r
      · simp [hk]
      · simp [hk, hy]
    · rintro (rfl | ⟨hx, hk⟩)
      · obtain ⟨y, hy, hkey⟩ := List.mem_map.mp h
        exact ⟨y, hy, by simp [hkey]⟩
      · exact ⟨x, hx, by simp [hk]⟩
  · next h =>
    rw [List.mem_append, List.mem_singleton]
    constructor
    · rintro (hx | rfl)
      · exact .inr ⟨hx, fun hk => h (hk ▸ List.mem_map_of_mem hx)⟩
      · exact .inl rfl
    · rintro (rfl | ⟨hx, -⟩)
      · exact .inr rfl
      · exact .inl hx

theorem get_eq_some_iff {t : Table key} {k : κ} {r : ρ} :
    t.get k = some r ↔ r ∈ t.rows ∧ key r = k :=
  ⟨fun h => ⟨mem_of_get h, key_of_get h⟩, fun ⟨hr, hk⟩ => hk ▸ get_of_mem hr⟩

theorem get_put (t : Table key) (r : ρ) (k : κ) :
    (t.put r).get k = if k = key r then some r else t.get k := by
  apply Option.ext
  intro x
  rw [get_eq_some_iff, mem_put]
  split
  · next hk =>
    rw [Option.some_inj]
    constructor
    · rintro ⟨rfl | ⟨-, hne⟩, hx⟩
      · rfl
      · exact absurd (hx.trans hk) hne
    · rintro rfl
      exact ⟨.inl rfl, hk.symm⟩
  · next hk =>
    rw [get_eq_some_iff]
    constructor
    · rintro ⟨rfl | ⟨hx, -⟩, hkey⟩
      · exact absurd hkey.symm hk
      · exact ⟨hx, hkey⟩
    · rintro ⟨hx, hkey⟩
      exact ⟨.inr ⟨hx, fun h => hk (hkey.symm.trans h)⟩, hkey⟩

@[simp] theorem get_put_self (t : Table key) (r : ρ) : (t.put r).get (key r) = some r := by
  rw [get_put, if_pos rfl]

theorem get_put_of_ne (t : Table key) {r : ρ} {k : κ} (h : k ≠ key r) :
    (t.put r).get k = t.get k := by
  rw [get_put, if_neg h]

/-- Putting a row that is there leaves the table as it is. -/
theorem put_eq_self {t : Table key} {r : ρ} (h : t.get (key r) = some r) : t.put r = t := by
  have hmem : key r ∈ t.rows.map key := List.mem_map_of_mem (mem_of_get h)
  have hrows : (t.rows.map fun x => if key x = key r then r else x) = t.rows := by
    refine (List.map_congr_left ?_).trans (List.map_id t.rows)
    intro x hx
    split
    · next hkey => exact List.inj_on_of_nodup_map t.unique (mem_of_get h) hx hkey.symm
    · rfl
  cases t
  simp only [put, Table.mk.injEq]
  rw [if_pos hmem]
  exact hrows

theorem rows_put_of_notMem {t : Table key} {r : ρ} (h : key r ∉ t.rows.map key) :
    (t.put r).rows = t.rows ++ [r] := by
  simp only [put, if_neg h]

/-- Rows with new keys come last, in their order. -/
theorem rows_foldl_put {t : Table key} {xs : List ρ} (h : (t.rows.map key ++ xs.map key).Nodup) :
    (xs.foldl put t).rows = t.rows ++ xs := by
  induction xs generalizing t with
  | nil => simp
  | cons x xs ih =>
    have hnew : key x ∉ t.rows.map key := by
      intro hmem
      exact (List.nodup_append.mp h).2.2 _ hmem _ (by simp) rfl
    have hrows := rows_put_of_notMem hnew
    rw [List.foldl_cons, ih, hrows, List.append_assoc, List.singleton_append]
    rw [hrows, List.map_append, List.append_assoc]
    exact h

theorem get_foldl_put {xs : List ρ} (h : (xs.map key).Nodup) {k : κ} {r : ρ} :
    (xs.foldl put (empty : Table key)).get k = some r ↔ r ∈ xs ∧ key r = k := by
  rw [get_eq_some_iff, rows_foldl_put (t := empty) (by simpa [empty] using h)]
  simp [empty]

theorem get_puts_of_notMem {t : Table key} {xs : List ρ} {k : κ} (h : k ∉ xs.map key) :
    (xs.foldl put t).get k = t.get k := by
  induction xs generalizing t with
  | nil => rfl
  | cons x xs ih =>
    rw [List.map_cons, List.mem_cons, not_or] at h
    rw [List.foldl_cons, ih h.2, get_put_of_ne t h.1]

theorem get_puts_of_mem {t : Table key} {xs : List ρ} (h : (xs.map key).Nodup) {r : ρ} (hr : r ∈ xs) :
    (xs.foldl put t).get (key r) = some r := by
  induction xs generalizing t with
  | nil => simp at hr
  | cons x xs ih =>
    rw [List.map_cons, List.nodup_cons] at h
    rw [List.foldl_cons]
    rcases List.mem_cons.mp hr with heq | hmem
    · subst heq
      rw [get_puts_of_notMem h.1, get_put_self]
    · exact ih h.2 hmem

/-- The rows that meet a test. -/
def select (t : Table key) (p : ρ → Bool) : Table key where
  rows := t.rows.filter p
  unique := t.unique.sublist (List.filter_sublist.map key)

theorem get_select (t : Table key) (p : ρ → Bool) (k : κ) :
    (t.select p).get k = (t.get k).filter p := by
  apply Option.ext
  intro x
  rw [get_eq_some_iff, Option.filter_eq_some_iff, get_eq_some_iff]
  simp only [select, List.mem_filter]
  tauto

theorem get_select_ne (t : Table key) (k k' : κ) :
    (t.select fun r => key r ≠ k).get k' = if k' = k then none else t.get k' := by
  rw [get_select]
  cases hget : t.get k' with
  | none => simp
  | some r =>
    have hkey : key r = k' := key_of_get hget
    simp [Option.filter_some, hkey]

end Table

end EngineeringIntelligence.Framework
