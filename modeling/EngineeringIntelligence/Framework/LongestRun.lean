import EngineeringIntelligence.Framework.Sorted
import Mathlib.Algebra.Order.Group.Defs
import Mathlib.Data.List.Induction
import Mathlib.Data.Prod.Lex
import Mathlib.Order.Lattice
import Mathlib.Tactic.Abel

namespace EngineeringIntelligence.Framework

/-! The longest run of timed items, found in one sweep over them. -/

section
variable {α T : Type} [AddCommGroup T] [LinearOrder T]
variable (time : α → T) (valid : α → Prop) (gap : T)

/-- Two valid items with every item strictly between them valid and none of these further than the gap from the
next. -/
structure LooseSpan (xs : List α) (a b : T) : Prop where
  le : a ≤ b
  first : ∃ x ∈ xs, valid x ∧ time x = a
  last : ∃ x ∈ xs, valid x ∧ time x = b
  between : ∀ x ∈ xs, a < time x → time x < b → valid x
  close : ∀ x ∈ xs, valid x → a ≤ time x → time x < b →
    ∃ y ∈ xs, valid y ∧ time x < time y ∧ time y ≤ b ∧ time y - time x ≤ gap

/-- A span with no item at its ends that is not valid. -/
structure CleanSpan (xs : List α) (a b : T) : Prop extends LooseSpan time valid gap xs a b where
  clean : ∀ x ∈ xs, a ≤ time x → time x ≤ b → valid x

/-- The length of the longest clean span; zero when there is none. -/
def IsLongestSpan (xs : List α) (length : T) : Prop :=
  (∀ a b, CleanSpan time valid gap xs a b → b - a ≤ length) ∧
    (length = 0 ∨ ∃ a b, CleanSpan time valid gap xs a b ∧ b - a = length)

/-- The items end with valid ones from `a` to `b`, each within the gap of the one before. -/
inductive OpenRun : List α → T → T → Prop
  | single (xs : List α) {x : α} (hx : valid x) : OpenRun (xs ++ [x]) (time x) (time x)
  | extend {xs : List α} {x : α} {a b : T} (h : OpenRun xs a b) (hx : valid x) (hgap : time x - b ≤ gap) :
    OpenRun (xs ++ [x]) a (time x)

/-- A run somewhere in the items. -/
def Run (xs : List α) (a b : T) : Prop := ∃ ys, ys <+: xs ∧ OpenRun time valid gap ys a b

/-! ### One sweep -/

/-- What a sweep keeps: the open run and the longest closed one. -/
structure RunSweep (T : Type) where
  window : Option (T × T)
  best : T

namespace RunSweep

/-- Count the open run as closed. -/
def flush (s : RunSweep T) : T :=
  match s.window with
  | none => s.best
  | some (start, last) => max s.best (last - start)

variable [DecidablePred valid]

def step (s : RunSweep T) (x : α) : RunSweep T :=
  if valid x then
    match s.window with
    | none => ⟨some (time x, time x), s.best⟩
    | some (start, last) =>
      if time x - last ≤ gap then ⟨some (start, time x), s.best⟩ else ⟨some (time x, time x), s.flush⟩
  else ⟨none, s.flush⟩

end RunSweep

/-- The length of the longest run. -/
def longestRun [DecidablePred valid] (xs : List α) : T :=
  (xs.foldl (RunSweep.step time valid gap) ⟨none, 0⟩).flush

end

/-! ### Runs of sorted items -/

theorem le_last {α T : Type} [Preorder T] {time : α → T} {xs : List α} {x y : α}
    (hsorted : (xs ++ [x]).Pairwise fun a b => time a ≤ time b) (hy : y ∈ xs ++ [x]) : time y ≤ time x := by
  rcases List.mem_append.mp hy with hy | hy
  · exact (List.pairwise_append.mp hsorted).2.2 y hy x List.mem_cons_self
  · rw [List.mem_singleton.mp hy]

section
variable {α T : Type} [AddCommGroup T] [LinearOrder T]
variable {time : α → T} {valid : α → Prop} {gap : T}

theorem OpenRun.exists_first {xs : List α} {a b : T} (h : OpenRun time valid gap xs a b) :
    ∃ x ∈ xs, valid x ∧ time x = a := by
  induction h with
  | single xs hx => exact ⟨_, List.mem_append_right _ List.mem_cons_self, hx, rfl⟩
  | extend _ _ _ ih =>
    obtain ⟨y, hy, hvalid, rfl⟩ := ih
    exact ⟨y, List.mem_append_left _ hy, hvalid, rfl⟩

theorem OpenRun.exists_last {xs : List α} {a b : T} (h : OpenRun time valid gap xs a b) :
    ∃ ys x, xs = ys ++ [x] ∧ valid x ∧ time x = b := by
  cases h with
  | single xs hx => exact ⟨xs, _, rfl, hx, rfl⟩
  | extend _ hx _ => exact ⟨_, _, rfl, hx, rfl⟩

theorem OpenRun.le_end {xs : List α} {a b : T} (h : OpenRun time valid gap xs a b)
    (hsorted : xs.Pairwise fun a b => time a ≤ time b) {y : α} (hy : y ∈ xs) : time y ≤ b := by
  obtain ⟨ys, x, rfl, -, rfl⟩ := h.exists_last
  exact le_last hsorted hy

theorem OpenRun.start_le {xs : List α} {a b : T} (h : OpenRun time valid gap xs a b)
    (hsorted : xs.Pairwise fun a b => time a ≤ time b) : a ≤ b := by
  obtain ⟨x, hx, -, rfl⟩ := h.exists_first
  exact h.le_end hsorted hx

/-- What comes after the first instant of a run at the end is in the run. -/
theorem OpenRun.valid_of_lt {xs : List α} {a b : T} (h : OpenRun time valid gap xs a b)
    (hsorted : xs.Pairwise fun a b => time a ≤ time b) : ∀ y ∈ xs, a < time y → valid y := by
  induction h with
  | single xs hx =>
    intro y hy hlt
    exact absurd (le_last hsorted hy) (not_le.mpr hlt)
  | extend _ hx _ ih =>
    intro y hy hlt
    rcases List.mem_append.mp hy with hy | hy
    · exact ih (List.pairwise_append.mp hsorted).1 y hy hlt
    · rw [List.mem_singleton.mp hy]
      exact hx

theorem OpenRun.close {xs : List α} {a b : T} (h : OpenRun time valid gap xs a b)
    (hsorted : xs.Pairwise fun a b => time a ≤ time b) : ∀ x ∈ xs, a ≤ time x → time x < b →
      ∃ y ∈ xs, valid y ∧ time x < time y ∧ time y ≤ b ∧ time y - time x ≤ gap := by
  induction h with
  | single xs hx =>
    intro y _ hle hlt
    exact absurd hle (not_le.mpr hlt)
  | @extend xs x a b h hx hgap ih =>
    intro y hy hle hlt
    have hprefix := (List.pairwise_append.mp hsorted).1
    have hlast : x ∈ xs ++ [x] := List.mem_append_right _ List.mem_cons_self
    rcases List.mem_append.mp hy with hy | hy
    · rcases lt_or_eq_of_le (h.le_end hprefix hy) with hbefore | hend
      · obtain ⟨z, hz, hvalid, hafter, hend, hnear⟩ := ih hprefix y hy hle hbefore
        exact ⟨z, List.mem_append_left _ hz, hvalid, hafter,
          le_last hsorted (List.mem_append_left _ hz), hnear⟩
      · refine ⟨x, hlast, hx, hlt, le_rfl, ?_⟩
        rw [hend]
        exact hgap
    · rw [List.mem_singleton.mp hy] at hlt
      exact absurd hlt (lt_irrefl _)

/-- A run of sorted items is a loose span of them. -/
theorem Run.loose {xs : List α} {a b : T} (hsorted : xs.Pairwise fun a b => time a ≤ time b)
    (h : Run time valid gap xs a b) : LooseSpan time valid gap xs a b := by
  obtain ⟨ys, ⟨rest, rfl⟩, hrun⟩ := h
  obtain ⟨hys, -, hcross⟩ := List.pairwise_append.mp hsorted
  obtain ⟨zs, x, hlast, hx, hend⟩ := hrun.exists_last
  have hmem : x ∈ ys := by
    rw [hlast]
    exact List.mem_append_right _ List.mem_cons_self
  -- the items behind the run are no earlier than its end
  have hbefore (y : α) (hy : y ∈ ys ++ rest) (hlt : time y < b) : y ∈ ys := by
    rcases List.mem_append.mp hy with hy | hy
    · exact hy
    · have hle := hcross x hmem y hy
      rw [hend] at hle
      exact absurd hle (not_le.mpr hlt)
  refine ⟨hrun.start_le hys, ?_, ⟨x, List.mem_append_left _ hmem, hx, hend⟩, ?_, ?_⟩
  · obtain ⟨y, hy, hvalid, htime⟩ := hrun.exists_first
    exact ⟨y, List.mem_append_left _ hy, hvalid, htime⟩
  · intro y hy hafter hlt
    exact hrun.valid_of_lt hys y (hbefore y hy hlt) hafter
  · intro y hy _ hle hlt
    obtain ⟨z, hz, hvalid, hafter, hend, hnear⟩ := hrun.close hys y (hbefore y hy hlt) hle hlt
    exact ⟨z, List.mem_append_left _ hz, hvalid, hafter, hend, hnear⟩

theorem openRun_concat {xs : List α} {x : α} {a b : T} : OpenRun time valid gap (xs ++ [x]) a b ↔
    valid x ∧ b = time x ∧ (a = time x ∨ ∃ last, OpenRun time valid gap xs a last ∧ time x - last ≤ gap) := by
  constructor
  · intro h
    generalize hxs : xs ++ [x] = zs at h
    cases h with
    | single ys hx =>
      obtain ⟨-, rfl⟩ := List.append_inj' hxs rfl |>.imp id List.singleton_inj.mp
      exact ⟨hx, rfl, .inl rfl⟩
    | extend h hx hnear =>
      obtain ⟨rfl, rfl⟩ := List.append_inj' hxs rfl |>.imp id List.singleton_inj.mp
      exact ⟨hx, rfl, .inr ⟨_, h, hnear⟩⟩
  · rintro ⟨hx, rfl, rfl | ⟨last, h, hnear⟩⟩
    · exact .single xs hx
    · exact .extend h hx hnear

theorem run_concat {xs : List α} {x : α} {a b : T} : Run time valid gap (xs ++ [x]) a b ↔
    Run time valid gap xs a b ∨ OpenRun time valid gap (xs ++ [x]) a b := by
  constructor
  · rintro ⟨ys, hprefix, h⟩
    rcases List.prefix_concat_iff.mp hprefix with rfl | hprefix
    · exact .inr h
    · exact .inl ⟨ys, hprefix, h⟩
  · rintro (⟨ys, hprefix, h⟩ | h)
    · exact ⟨ys, hprefix.trans (List.prefix_append xs [x]), h⟩
    · exact ⟨_, List.prefix_refl _, h⟩

theorem OpenRun.run {xs : List α} {a b : T} (h : OpenRun time valid gap xs a b) : Run time valid gap xs a b :=
  ⟨xs, List.prefix_refl xs, h⟩

theorem LooseSpan.perm {xs ys : List α} {a b : T} (hperm : xs.Perm ys) (h : LooseSpan time valid gap xs a b) :
    LooseSpan time valid gap ys a b := by
  obtain ⟨hle, hfirst, hlast, hbetween, hclose⟩ := h
  simp only [hperm.mem_iff] at hfirst hlast hbetween hclose
  exact ⟨hle, hfirst, hlast, hbetween, hclose⟩

theorem CleanSpan.perm {xs ys : List α} {a b : T} (hperm : xs.Perm ys) (h : CleanSpan time valid gap xs a b) :
    CleanSpan time valid gap ys a b :=
  ⟨h.toLooseSpan.perm hperm, fun x hx => h.clean x (hperm.mem_iff.mpr hx)⟩

namespace RunSweep

variable (time valid gap) in
/-- What a sweep keeps of the sorted items it has passed. -/
structure Keeps (s : RunSweep T) (xs : List α) : Prop where
  closed : s.window = none → ∀ a b, ¬OpenRun time valid gap xs a b
  opened : ∀ start last, s.window = some (start, last) → OpenRun time valid gap xs start last ∧
    ∀ a b, OpenRun time valid gap xs a b → start ≤ a ∧ b = last
  bound : ∀ a b, Run time valid gap xs a b → b - a ≤ s.flush
  attained : s.best = 0 ∨ ∃ a b, Run time valid gap xs a b ∧ b - a = s.best

theorem keeps_nil : Keeps time valid gap ⟨none, 0⟩ [] := by
  have hnone (a b : T) : ¬OpenRun time valid gap [] a b := by
    intro h
    obtain ⟨x, hx, -⟩ := h.exists_first
    exact List.not_mem_nil hx
  refine ⟨fun _ => hnone, nofun, ?_, .inl rfl⟩
  rintro a b ⟨ys, hprefix, h⟩
  rw [List.prefix_nil.mp hprefix] at h
  exact absurd h (hnone a b)

/-- The longest run so far is one of the items. -/
theorem Keeps.flush_attained {s : RunSweep T} {xs : List α} (h : s.Keeps time valid gap xs) :
    s.flush = 0 ∨ ∃ a b, Run time valid gap xs a b ∧ b - a = s.flush := by
  rw [flush]
  split
  · exact h.attained
  · next start last hwindow =>
    rcases max_choice s.best (last - start) with hbest | hopen
    · rw [hbest]
      exact h.attained
    · rw [hopen]
      exact .inr ⟨start, last, (h.opened start last hwindow).1.run, rfl⟩

end RunSweep

variable [IsOrderedAddMonoid T]

/-- Items sorted by a key that refines the time have a run from one item to another when all items between the two
are valid and none is too far from the next. -/
theorem exists_run {K : Type} [LinearOrder K] {key : α → K} (hgap : 0 ≤ gap)
    (hkey : ∀ x y, key x ≤ key y → time x ≤ time y) {xs : List α}
    (hsorted : xs.Pairwise fun a b => key a ≤ key b) {first last : α} (hfirst : first ∈ xs) (hlast : last ∈ xs)
    (hle : key first ≤ key last) (hvalid : ∀ x ∈ xs, key first ≤ key x → key x ≤ key last → valid x)
    (hclose : ∀ x ∈ xs, valid x → time first ≤ time x → time x < time last →
      ∃ y ∈ xs, valid y ∧ time x < time y ∧ time y ≤ time last ∧ time y - time x ≤ gap) :
    Run time valid gap xs (time first) (time last) := by
  -- by induction on what stands before an item between the two
  have hrun (ys : List α) : ∀ x rest, xs = ys ++ x :: rest → key first ≤ key x → key x ≤ key last →
      OpenRun time valid gap (ys ++ [x]) (time first) (time x) := by
    induction ys using List.reverseRecOn with
    | nil =>
      intro x rest hxs hlow hhigh
      subst hxs
      have hx := hvalid x List.mem_cons_self hlow hhigh
      have hstart : key x ≤ key first := by
        rcases List.mem_cons.mp hfirst with rfl | hmem
        · exact le_rfl
        · exact (List.pairwise_cons.mp hsorted).1 first hmem
      rw [le_antisymm (hkey _ _ hlow) (hkey _ _ hstart)]
      exact .single [] hx
    | append_singleton ys z ih =>
      intro x rest hxs hlow hhigh
      have hmem : x ∈ xs := by
        rw [hxs]
        exact List.mem_append_right _ List.mem_cons_self
      have hz : z ∈ xs := by
        rw [hxs]
        exact List.mem_append_left _ (List.mem_append_right _ List.mem_cons_self)
      -- an item with a key above that of `z` is `x` or behind it
      have hbehind (y : α) (hy : y ∈ xs) (hlt : key z < key y) : key x ≤ key y := by
        rw [hxs] at hy hsorted
        obtain ⟨hfront, hback, -⟩ := List.pairwise_append.mp hsorted
        rcases List.mem_append.mp hy with hy | hy
        · exact absurd (le_last hfront hy) (not_le.mpr hlt)
        · rcases List.mem_cons.mp hy with rfl | hy
          · exact le_rfl
          · exact (List.pairwise_cons.mp hback).1 y hy
      have hx := hvalid x hmem hlow hhigh
      have hzx : key z ≤ key x := by
        rw [hxs] at hsorted
        exact (List.pairwise_append.mp hsorted).2.2 z (List.mem_append_right _ List.mem_cons_self) x
          List.mem_cons_self
      rcases lt_or_ge (key z) (key first) with hbefore | hfrom
      · rw [le_antisymm (hkey _ _ hlow) (hkey _ _ (hbehind first hfirst hbefore))]
        exact .single _ hx
      · have hsplit : xs = ys ++ z :: x :: rest := by
          rw [hxs, List.append_assoc]
          rfl
        refine .extend (ih z (x :: rest) hsplit hfrom (hzx.trans hhigh)) hx ?_
        rcases eq_or_lt_of_le (hkey _ _ hzx) with heq | hlt
        · rw [heq, sub_self]
          exact hgap
        · obtain ⟨y, hy, -, hafter, -, hnear⟩ := hclose z hz (hvalid z hz hfrom (hzx.trans hhigh))
            (hkey _ _ hfrom) (lt_of_lt_of_le hlt (hkey _ _ hhigh))
          have hxy : time x ≤ time y := by
            refine hkey _ _ (hbehind y hy ?_)
            by_contra hnot
            exact absurd (hkey _ _ (not_lt.mp hnot)) (not_le.mpr hafter)
          exact (sub_le_sub_right hxy _).trans hnear
  obtain ⟨ys, rest, hxs⟩ := List.append_of_mem hlast
  refine ⟨ys ++ [last], ⟨rest, ?_⟩, hrun ys last rest hxs hle le_rfl⟩
  rw [hxs, List.append_assoc]
  rfl

theorem RunSweep.Keeps.step [DecidablePred valid] {s : RunSweep T} {xs : List α} {x : α}
    (h : s.Keeps time valid gap xs) (hsorted : (xs ++ [x]).Pairwise fun a b => time a ≤ time b) :
    (s.step time valid gap x).Keeps time valid gap (xs ++ [x]) := by
  have hpassed := (List.pairwise_append.mp hsorted).1
  have hkept (t : T) (ht : t = 0 ∨ ∃ a b, Run time valid gap xs a b ∧ b - a = t) :
      t = 0 ∨ ∃ a b, Run time valid gap (xs ++ [x]) a b ∧ b - a = t := by
    refine ht.imp id ?_
    rintro ⟨a, b, hrun, hlength⟩
    exact ⟨a, b, run_concat.mpr (.inl hrun), hlength⟩
  rw [RunSweep.step]
  split
  · next hx =>
    -- a run that ends with the new item and had to begin there
    have hfresh (hnone : ∀ a last, OpenRun time valid gap xs a last → ¬time x - last ≤ gap) (best : T)
        (hbest : s.flush = best) :
        Keeps time valid gap ⟨some (time x, time x), best⟩ (xs ++ [x]) := by
      subst hbest
      have honly (a b : T) (hopen : OpenRun time valid gap (xs ++ [x]) a b) : a = time x ∧ b = time x := by
        obtain ⟨-, hb, ha | ⟨last, hopen, hnear⟩⟩ := openRun_concat.mp hopen
        · exact ⟨ha, hb⟩
        · exact absurd hnear (hnone a last hopen)
      refine ⟨nofun, ?_, ?_, hkept _ h.flush_attained⟩
      · rintro start last ⟨⟩
        refine ⟨.single xs hx, fun a b hopen => ?_⟩
        obtain ⟨rfl, rfl⟩ := honly a b hopen
        exact ⟨le_rfl, rfl⟩
      · intro a b hrun
        rcases run_concat.mp hrun with hrun | hopen
        · exact (h.bound a b hrun).trans (le_max_left _ _)
        · obtain ⟨rfl, rfl⟩ := honly a b hopen
          exact le_max_right _ _
    split
    · next hwindow =>
      refine hfresh (fun a last hopen => absurd hopen (h.closed hwindow a last)) s.best ?_
      rw [flush, hwindow]
    · next start last hwindow =>
      obtain ⟨hopen, hfirst⟩ := h.opened start last hwindow
      split
      · next hnear =>
        have hlast : last ≤ time x := by
          obtain ⟨ys, y, hys, -, hy⟩ := hopen.exists_last
          rw [← hy]
          refine le_last hsorted (List.mem_append_left _ ?_)
          rw [hys]
          exact List.mem_append_right _ List.mem_cons_self
        have hstart (a b : T) (hends : OpenRun time valid gap (xs ++ [x]) a b) : start ≤ a ∧ b = time x := by
          obtain ⟨-, hb, rfl | ⟨before, hbefore, -⟩⟩ := openRun_concat.mp hends
          · exact ⟨(hopen.start_le hpassed).trans hlast, hb⟩
          · exact ⟨(hfirst a before hbefore).1, hb⟩
        refine ⟨nofun, ?_, ?_, hkept _ h.attained⟩
        · rintro start' last' ⟨⟩
          exact ⟨.extend hopen hx hnear, hstart⟩
        · intro a b hrun
          rcases run_concat.mp hrun with hrun | hends
          · have hle := h.bound a b hrun
            rw [flush, hwindow] at hle
            exact hle.trans (max_le_max le_rfl (sub_le_sub_right hlast _))
          · obtain ⟨hle, rfl⟩ := hstart a b hends
            exact (sub_le_sub_left hle _).trans (le_max_right _ _)
      · next hfar =>
        refine hfresh (fun a before hbefore => ?_) s.flush rfl
        rw [(hfirst a before hbefore).2]
        exact hfar
  · next hx =>
    have hnone (a b : T) : ¬OpenRun time valid gap (xs ++ [x]) a b := fun hopen =>
      hx (openRun_concat.mp hopen).1
    refine ⟨fun _ => hnone, nofun, ?_, hkept _ h.flush_attained⟩
    intro a b hrun
    rcases run_concat.mp hrun with hrun | hopen
    · exact h.bound a b hrun
    · exact absurd hopen (hnone a b)

theorem RunSweep.keeps_foldl [DecidablePred valid] {xs : List α} (hsorted : xs.Pairwise fun a b => time a ≤ time b) :
    (xs.foldl (RunSweep.step time valid gap) ⟨none, 0⟩).Keeps time valid gap xs := by
  induction xs using List.reverseRecOn with
  | nil => exact keeps_nil
  | append_singleton xs x ih =>
    rw [List.foldl_concat]
    exact (ih (List.pairwise_append.mp hsorted).1).step hsorted

theorem IsLongestSpan.unique {xs : List α} {s t : T} (hs : IsLongestSpan time valid gap xs s)
    (ht : IsLongestSpan time valid gap xs t) : s = t := by
  have hle (s t : T) (hs : IsLongestSpan time valid gap xs s) (ht : IsLongestSpan time valid gap xs t) : s ≤ t := by
    rcases hs.2 with rfl | ⟨a, b, hclean, rfl⟩
    · rcases ht.2 with rfl | ⟨a, b, hclean, rfl⟩
      · exact le_rfl
      · exact sub_nonneg.mpr hclean.le
    · exact ht.1 a b hclean
  exact le_antisymm (hle s t hs ht) (hle t s ht hs)

/-- A clean span is a run of the items in any order of their times. -/
theorem CleanSpan.run (hgap : 0 ≤ gap) {xs : List α} {a b : T} (h : CleanSpan time valid gap xs a b)
    (hsorted : xs.Pairwise fun a b => time a ≤ time b) : Run time valid gap xs a b := by
  obtain ⟨first, hfirst, -, rfl⟩ := h.first
  obtain ⟨last, hlast, -, rfl⟩ := h.last
  exact exists_run hgap (fun _ _ => id) hsorted hfirst hlast h.le h.clean h.close

section
variable [DecidablePred valid]

theorem le_longestRun {xs : List α} (hsorted : xs.Pairwise fun a b => time a ≤ time b) {a b : T}
    (h : Run time valid gap xs a b) : b - a ≤ longestRun time valid gap xs :=
  (RunSweep.keeps_foldl hsorted).bound a b h

theorem longestRun_attained {xs : List α} (hsorted : xs.Pairwise fun a b => time a ≤ time b) :
    longestRun time valid gap xs = 0 ∨
      ∃ a b, Run time valid gap xs a b ∧ b - a = longestRun time valid gap xs :=
  (RunSweep.keeps_foldl hsorted).flush_attained

/-- A loose span is a run in that order of the items which puts what is not valid outside of it. -/
theorem LooseSpan.exists_order (hgap : 0 ≤ gap) {xs : List α} {a b : T} (h : LooseSpan time valid gap xs a b)
    (hlt : a < b) : ∃ order : List α, order.Perm xs ∧ (order.Pairwise fun a b => time a ≤ time b) ∧
      Run time valid gap order a b := by
  obtain ⟨first, hfirst, hvalidFirst, rfl⟩ := h.first
  obtain ⟨last, hlast, hvalidLast, rfl⟩ := h.last
  let side (x : α) : Nat := if valid x then 1 else if time x = time first then 0 else 2
  let key (x : α) : T ×ₗ Nat := toLex (time x, side x)
  have htime (x y : α) (hxy : key x ≤ key y) : time x ≤ time y := by
    rcases Prod.Lex.toLex_le_toLex.mp hxy with hxy | ⟨hxy, -⟩
    · exact hxy.le
    · exact hxy.le
  have hsorted := pairwise_sortedBy key xs
  have hperm := perm_sortedBy key xs
  have horder := h.perm hperm.symm
  refine ⟨sortedBy key xs, hperm, hsorted.imp (htime _ _), exists_run hgap htime hsorted
    (hperm.mem_iff.mpr hfirst) (hperm.mem_iff.mpr hlast) (Prod.Lex.toLex_le_toLex.mpr (.inl hlt)) ?_ horder.close⟩
  intro x hx hlow hhigh
  have hfirstSide : side first = 1 := if_pos hvalidFirst
  have hlastSide : side last = 1 := if_pos hvalidLast
  by_contra hnot
  rcases Prod.Lex.toLex_le_toLex.mp hlow with hafter | ⟨hstart, hside⟩
  · have hxSide : side x = 2 := (if_neg hnot).trans (if_neg hafter.ne')
    rcases Prod.Lex.toLex_le_toLex.mp hhigh with hbefore | ⟨-, hside⟩
    · exact hnot (horder.between x hx hafter hbefore)
    · simp only [hxSide, hlastSide] at hside
      omega
  · have hxSide : side x = 0 := (if_neg hnot).trans (if_pos hstart.symm)
    simp only [hxSide, hfirstSide] at hside
    omega

/-- The sweep finds the longest clean span whatever the order of the items with one time, just when no loose span
is longer than every clean one. -/
theorem longestRun_stable_iff (hgap : 0 ≤ gap) (xs : List α) :
    (∃ length, IsLongestSpan time valid gap xs length ∧ ∀ order : List α, order.Perm xs →
        longestRun time valid gap (sortedBy time order) = length) ↔
      ∀ a b, LooseSpan time valid gap xs a b → a < b → ∃ c d, CleanSpan time valid gap xs c d ∧ b - a ≤ d - c := by
  constructor
  · rintro ⟨length, hlongest, hall⟩ a b hloose hlt
    obtain ⟨order, hperm, hsorted, hrun⟩ := hloose.exists_order hgap hlt
    have hlength := hall order hperm
    rw [sortedBy_of_pairwise hsorted] at hlength
    have hle := le_longestRun hsorted hrun
    rw [hlength] at hle
    rcases hlongest.2 with rfl | ⟨c, d, hclean, rfl⟩
    · exact absurd hle (not_le.mpr (sub_pos.mpr hlt))
    · exact ⟨c, d, hclean, hle⟩
  · intro h
    have hlongest (order : List α) (hperm : order.Perm xs) :
        IsLongestSpan time valid gap xs (longestRun time valid gap (sortedBy time order)) := by
      have hsorted := pairwise_sortedBy time order
      have hsortedPerm := (perm_sortedBy time order).trans hperm
      have hbound (a b : T) (hclean : CleanSpan time valid gap xs a b) :
          b - a ≤ longestRun time valid gap (sortedBy time order) :=
        le_longestRun hsorted ((hclean.perm hsortedPerm.symm).run hgap hsorted)
      refine ⟨hbound, ?_⟩
      have hattained : longestRun time valid gap (sortedBy time order) = 0 ∨ _ := longestRun_attained hsorted
      rcases hattained with hzero | ⟨a, b, hrun, hlength⟩
      · exact .inl hzero
      · have hloose := (hrun.loose hsorted).perm hsortedPerm
        rcases eq_or_lt_of_le hloose.le with rfl | hlt
        · rw [sub_self] at hlength
          exact .inl hlength.symm
        · obtain ⟨c, d, hclean, hle⟩ := h a b hloose hlt
          rw [hlength] at hle
          exact .inr ⟨c, d, hclean, le_antisymm (hbound c d hclean) hle⟩
    exact ⟨_, hlongest xs (.refl xs), fun order hperm =>
      (hlongest order hperm).unique (hlongest xs (.refl xs))⟩

end

end

end EngineeringIntelligence.Framework
