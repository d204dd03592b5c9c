import Mathlib.Data.List.Dedup
import Mathlib.Data.List.Sort

namespace EngineeringIntelligence.Framework

/-! Python's `sorted`, by a key, and of a set. -/

section
variable {α β : Type} [LinearOrder β]

/-- `sorted(xs, key=f)`: equal keys keep their order. -/
def sortedBy (f : α → β) (xs : List α) : List α := xs.insertionSort (fun a b => f a ≤ f b)

/-- `sorted(set(xs))`. -/
def sortedSet (xs : List β) : List β := xs.dedup.insertionSort (· ≤ ·)

theorem perm_sortedBy (f : α → β) (xs : List α) : (sortedBy f xs).Perm xs :=
  List.perm_insertionSort _ xs

@[simp] theorem mem_sortedBy {f : α → β} {xs : List α} {a : α} : a ∈ sortedBy f xs ↔ a ∈ xs :=
  List.mem_insertionSort _

@[simp] theorem mem_sortedSet {xs : List β} {b : β} : b ∈ sortedSet xs ↔ b ∈ xs := by
  rw [sortedSet, List.mem_insertionSort, List.mem_dedup]

theorem pairwise_sortedBy (f : α → β) (xs : List α) :
    (sortedBy f xs).Pairwise (fun a b => f a ≤ f b) :=
  have : Std.Total (fun a b : α => f a ≤ f b) := ⟨fun a b => le_total (f a) (f b)⟩
  have : IsTrans α (fun a b => f a ≤ f b) := ⟨fun _ _ _ => le_trans⟩
  List.pairwise_insertionSort _ xs

theorem sortedBy_of_pairwise {f : α → β} {xs : List α} (h : xs.Pairwise (fun a b => f a ≤ f b)) :
    sortedBy f xs = xs :=
  h.insertionSort_eq

theorem sortedBy_sortedBy (f : α → β) (xs : List α) : sortedBy f (sortedBy f xs) = sortedBy f xs :=
  sortedBy_of_pairwise (pairwise_sortedBy f xs)

theorem sortedBy_eq_nil {f : α → β} {xs : List α} : sortedBy f xs = [] ↔ xs = [] :=
  ⟨fun h => (List.Perm.nil_eq (h ▸ perm_sortedBy f xs)).symm, by rintro rfl; rfl⟩

/-- What comes first has the least key. -/
theorem le_of_head?_sortedBy {f : α → β} {xs : List α} {a b : α} (h : (sortedBy f xs).head? = some a)
    (hb : b ∈ xs) : f a ≤ f b := by
  have hsorted := pairwise_sortedBy f xs
  have hmem : b ∈ sortedBy f xs := mem_sortedBy.mpr hb
  cases hlist : sortedBy f xs with
  | nil => simp [hlist] at h
  | cons first rest =>
    rw [hlist] at h hsorted hmem
    obtain rfl : first = a := by simpa using h
    rcases List.mem_cons.mp hmem with rfl | hrest
    · exact le_rfl
    · exact (List.pairwise_cons.mp hsorted).1 b hrest

/-- Sorting forgets the order of items the key tells apart. -/
theorem sortedBy_perm {f : α → β} {xs ys : List α} (h : xs.Perm ys)
    (hf : ∀ a ∈ xs, ∀ b ∈ ys, f a = f b → a = b) : sortedBy f xs = sortedBy f ys := by
  have hperm : (sortedBy f xs).Perm (sortedBy f ys) :=
    (perm_sortedBy f xs).trans (h.trans (perm_sortedBy f ys).symm)
  refine hperm.eq_of_pairwise ?_ (pairwise_sortedBy f xs) (pairwise_sortedBy f ys)
  intro a b ha hb hab hba
  exact hf a (mem_sortedBy.mp ha) b (mem_sortedBy.mp hb) (le_antisymm hab hba)

/-- Items of one key keep their order: which of two comes first shows. -/
theorem sortedBy_swap_iff {f : α → β} {a b : α} (h : f a = f b) (xs : List α) :
    sortedBy f (a :: b :: xs) = sortedBy f (b :: a :: xs) ↔ a = b := by
  have htwo (a b : α) (h : f a = f b) : sortedBy f (a :: b :: xs) =
      (sortedBy f xs).takeWhile (fun x => ¬f b ≤ f x) ++ a :: b :: (sortedBy f xs).dropWhile (fun x => ¬f b ≤ f x) := by
    have hbefore : ∀ x ∈ (sortedBy f xs).takeWhile (fun x => ¬f b ≤ f x), (¬f a ≤ f x : Bool) = true := by
      intro x hx
      rw [h]
      exact List.all_eq_true.mp List.all_takeWhile x hx
    have hle : f a ≤ f b := h.le
    rw [sortedBy, List.insertionSort_cons, List.insertionSort_cons, List.orderedInsert_eq_take_drop,
      List.orderedInsert_eq_take_drop, ← sortedBy, List.takeWhile_append_of_pos hbefore,
      List.dropWhile_append_of_pos hbefore]
    simp [hle]
  constructor
  · intro heq
    rw [htwo a b h, htwo b a h.symm, h] at heq
    exact (List.cons.inj (List.append_cancel_left heq)).1
  · rintro rfl
    rfl

theorem pairwise_sortedSet (xs : List β) : (sortedSet xs).Pairwise (· < ·) := by
  have hsorted : (sortedSet xs).SortedLE := (List.pairwise_insertionSort (· ≤ ·) xs.dedup).sortedLE
  have hnodup : (sortedSet xs).Nodup :=
    (List.perm_insertionSort (· ≤ ·) xs.dedup).nodup_iff.mpr xs.nodup_dedup
  exact (hsorted.sortedLT_of_nodup hnodup).pairwise

/-- A strictly increasing list is told by its members. -/
theorem increasing_ext {xs ys : List β} (hx : xs.Pairwise (· < ·)) (hy : ys.Pairwise (· < ·))
    (h : ∀ b, b ∈ xs ↔ b ∈ ys) : xs = ys :=
  hx.eq_of_mem_iff hy fun {b} => h b

theorem sortedSet_nodup (xs : List β) : (sortedSet xs).Nodup :=
  (pairwise_sortedSet xs).imp ne_of_lt

theorem sortedSet_of_increasing {xs : List β} (h : xs.Pairwise (· < ·)) : sortedSet xs = xs :=
  increasing_ext (pairwise_sortedSet xs) h fun _ => mem_sortedSet

/-- Sorting gives a set in order just when nothing occurs twice. -/
theorem sortedBy_id_increasing {xs : List β} : sortedBy id xs = sortedSet (sortedBy id xs) ↔ xs.Nodup := by
  have hperm := (perm_sortedBy id xs).nodup_iff
  constructor
  · intro h
    rw [← hperm, h]
    exact (pairwise_sortedSet _).imp fun hlt => ne_of_lt hlt
  · intro h
    refine (sortedSet_of_increasing ?_).symm
    have hle : (sortedBy id xs).Pairwise fun a b => a ≤ b := pairwise_sortedBy id xs
    exact (hle.and (hperm.mpr h)).imp fun hboth => lt_of_le_of_ne hboth.1 hboth.2

theorem sortedSet_congr {xs ys : List β} (h : ∀ b, b ∈ xs ↔ b ∈ ys) : sortedSet xs = sortedSet ys :=
  increasing_ext (pairwise_sortedSet xs) (pairwise_sortedSet ys) fun b => by simp [h b]

end

end EngineeringIntelligence.Framework
