import Mathlib.Data.List.Basic
import Mathlib.Logic.Function.Iterate
import Mathlib.Logic.Relation
import Mathlib.Order.Bounds.Basic

namespace EngineeringIntelligence.Framework

/-! What a search finds that keeps the nodes seen so far and a stack of those whose neighbours it
has still to look at. -/

section
variable {α : Type} [DecidableEq α] (next : α → List α)

/-- The neighbours of one node: those not seen before are marked and pushed. -/
def visit (seen pending : List α) : List α → List α × List α
  | [] => (seen, pending)
  | x :: xs => if x ∈ seen then visit seen pending xs else visit (x :: seen) (x :: pending) xs

/-- The search, for so many nodes taken off the stack. -/
def worklist : Nat → List α → List α → List α
  | 0, seen, _ => seen
  | _ + 1, seen, [] => seen
  | n + 1, seen, x :: pending =>
    worklist n (visit seen pending (next x)).1 (visit seen pending (next x)).2

/-- One round: the node on top of the stack is taken off and its neighbours are looked at. -/
def searchRound (s : List α × List α) : List α × List α :=
  match s.2 with
  | [] => s
  | x :: pending => visit s.1 pending (next x)

/-- How many of the nodes have not been seen. -/
def unseen (nodes seen : List α) : Nat := (nodes.filter (· ∉ seen)).length

/-- Between two rounds: what is seen can be reached, and only what is pending may have neighbours
that are not seen. -/
structure Explored (start seen pending : List α) : Prop where
  started : ∀ x ∈ start, x ∈ seen
  marked : ∀ x ∈ pending, x ∈ seen
  reached : ∀ y ∈ seen, ∃ x ∈ start, Relation.ReflTransGen (fun a b => b ∈ next a) x y
  closed : ∀ x ∈ seen, x ∉ pending → ∀ y ∈ next x, y ∈ seen

variable {next}

theorem mem_visit_seen {xs seen pending : List α} {y : α} :
    y ∈ (visit seen pending xs).1 ↔ y ∈ seen ∨ y ∈ xs := by
  induction xs generalizing seen pending with
  | nil => simp [visit]
  | cons x xs ih =>
    unfold visit
    split
    · next hseen =>
      rw [ih, List.mem_cons]
      constructor
      · rintro (h | h)
        · exact .inl h
        · exact .inr (.inr h)
      · rintro (h | rfl | h)
        · exact .inl h
        · exact .inl hseen
        · exact .inr h
    · rw [ih, List.mem_cons, List.mem_cons]
      tauto

theorem mem_visit_pending {xs seen pending : List α} {y : α} :
    y ∈ (visit seen pending xs).2 ↔ y ∈ pending ∨ (y ∈ xs ∧ y ∉ seen) := by
  induction xs generalizing seen pending with
  | nil => simp [visit]
  | cons x xs ih =>
    unfold visit
    split
    · next hseen =>
      rw [ih, List.mem_cons]
      by_cases hy : y = x
      · subst hy
        simp [hseen]
      · simp [hy]
    · next hseen =>
      rw [ih, List.mem_cons, List.mem_cons, List.mem_cons]
      by_cases hy : y = x
      · subst hy
        simp [hseen]
      · simp [hy]

theorem unseen_cons {nodes seen : List α} {x : α} (hx : x ∈ nodes) (hseen : x ∉ seen) :
    unseen nodes (x :: seen) + 1 ≤ unseen nodes seen := by
  have hsub : (nodes.filter (· ∉ x :: seen)).Sublist (nodes.filter (· ∉ seen)) := by
    refine List.monotone_filter_right nodes fun y hy => ?_
    simp only [List.mem_cons, not_or, decide_eq_true_eq] at hy ⊢
    exact hy.2
  have hlength := hsub.length_le
  unfold unseen
  by_contra hlt
  have heq := hsub.eq_of_length (by omega)
  have hmem : x ∈ nodes.filter (· ∉ seen) := List.mem_filter.mpr ⟨hx, by simpa using hseen⟩
  rw [← heq] at hmem
  simp at hmem

/-- Each node is pushed once. -/
theorem visit_measure {nodes xs : List α} (h : ∀ x ∈ xs, x ∈ nodes) (seen pending : List α) :
    (visit seen pending xs).2.length + unseen nodes (visit seen pending xs).1 ≤
      pending.length + unseen nodes seen := by
  induction xs generalizing seen pending with
  | nil => exact Nat.le_refl _
  | cons x xs ih =>
    have htail : ∀ y ∈ xs, y ∈ nodes := fun y hy => h y (List.mem_cons_of_mem x hy)
    unfold visit
    split
    · exact ih htail seen pending
    · next hseen =>
      have hrest := ih htail (x :: seen) (x :: pending)
      have hless := unseen_cons (h x List.mem_cons_self) hseen
      rw [List.length_cons] at hrest
      omega

theorem Explored.visit {start seen pending : List α} {x : α} (h : Explored next start seen (x :: pending)) :
    Explored next start (visit seen pending (next x)).1 (visit seen pending (next x)).2 where
  started y hy := mem_visit_seen.mpr (.inl (h.started y hy))
  marked y hy := by
    obtain hpending | ⟨hnext, -⟩ := mem_visit_pending.mp hy
    · exact mem_visit_seen.mpr (.inl (h.marked y (List.mem_cons_of_mem x hpending)))
    · exact mem_visit_seen.mpr (.inr hnext)
  reached y hy := by
    obtain hseen | hnext := mem_visit_seen.mp hy
    · exact h.reached y hseen
    · obtain ⟨z, hz, hpath⟩ := h.reached x (h.marked x List.mem_cons_self)
      exact ⟨z, hz, hpath.tail hnext⟩
  closed y hy hpending z hz := by
    rw [mem_visit_pending, not_or, not_and, not_not] at hpending
    obtain hseen | hnext := mem_visit_seen.mp hy
    · by_cases hyx : y = x
      · subst hyx
        exact mem_visit_seen.mpr (.inr hz)
      · refine mem_visit_seen.mpr (.inl (h.closed y hseen ?_ z hz))
        rw [List.mem_cons, not_or]
        exact ⟨hyx, hpending.1⟩
    · have hseen := hpending.2 hnext
      by_cases hyx : y = x
      · subst hyx
        exact mem_visit_seen.mpr (.inr hz)
      · refine mem_visit_seen.mpr (.inl (h.closed y hseen ?_ z hz))
        rw [List.mem_cons, not_or]
        exact ⟨hyx, hpending.1⟩

theorem Explored.worklist {nodes : List α} (hnodes : ∀ x, ∀ y ∈ next x, y ∈ nodes) {start : List α}
    (n : Nat) {seen pending : List α} (h : Explored next start seen pending)
    (hfuel : pending.length + unseen nodes seen ≤ n) :
    Explored next start (worklist next n seen pending) [] := by
  induction n generalizing seen pending with
  | zero =>
    have hempty : pending = [] := List.length_eq_zero_iff.mp (by omega)
    subst hempty
    exact h
  | succ n ih =>
    cases pending with
    | nil => exact h
    | cons x pending =>
      have hmeasure := visit_measure (hnodes x) seen pending
      rw [List.length_cons] at hfuel
      exact ih h.visit (by omega)

theorem searchRound_nil (seen : List α) (n : Nat) :
    (searchRound next)^[n] (seen, []) = (seen, []) :=
  Function.iterate_fixed rfl n

/-- The search is so many rounds. -/
theorem worklist_eq_rounds (n : Nat) (seen pending : List α) :
    worklist next n seen pending = ((searchRound next)^[n] (seen, pending)).1 := by
  induction n generalizing seen pending with
  | zero => rfl
  | succ n ih =>
    cases pending with
    | nil => rw [searchRound_nil, worklist]
    | cons x pending =>
      rw [worklist, ih, Function.iterate_succ_apply]
      rfl

/-- With a round for every node, nothing is left to look at. -/
theorem rounds_finish {nodes : List α} (hnodes : ∀ x, ∀ y ∈ next x, y ∈ nodes) (n : Nat)
    {seen pending : List α} (hfuel : pending.length + unseen nodes seen ≤ n) :
    ((searchRound next)^[n] (seen, pending)).2 = [] := by
  induction n generalizing seen pending with
  | zero =>
    have hempty : pending = [] := List.length_eq_zero_iff.mp (by omega)
    exact hempty
  | succ n ih =>
    cases pending with
    | nil => rw [searchRound_nil]
    | cons x pending =>
      have hmeasure := visit_measure (hnodes x) seen pending
      rw [List.length_cons] at hfuel
      rw [Function.iterate_succ_apply]
      have hround : (searchRound next (seen, x :: pending)) = visit seen pending (next x) := rfl
      rw [hround]
      exact ih (by omega)

/-- The search is over after some round; it has then seen just what so many rounds give. -/
theorem worklist_finishes {nodes : List α} (hnodes : ∀ x, ∀ y ∈ next x, y ∈ nodes) (start pending : List α)
    {n : Nat} (hfuel : pending.length + nodes.length ≤ n) :
    ((searchRound next)^[n] (start, pending)).2 = [] ∧
      worklist next n start pending = ((searchRound next)^[n] (start, pending)).1 := by
  have hunseen : unseen nodes start ≤ nodes.length := List.length_filter_le _ _
  exact ⟨rounds_finish hnodes n (by omega), worklist_eq_rounds n start pending⟩

/-- The search finds what can be reached from where it starts. -/
theorem mem_worklist {nodes : List α} (hnodes : ∀ x, ∀ y ∈ next x, y ∈ nodes) {start pending : List α}
    (hpending : ∀ x, x ∈ pending ↔ x ∈ start) {n : Nat} (hfuel : pending.length + nodes.length ≤ n)
    {y : α} :
    y ∈ worklist next n start pending ↔
      ∃ x ∈ start, Relation.ReflTransGen (fun a b => b ∈ next a) x y := by
  have hexplored : Explored next start start pending := by
    refine ⟨fun x hx => hx, fun x hx => (hpending x).mp hx, fun x hx => ⟨x, hx, .refl⟩, ?_⟩
    intro x hx hnot
    exact absurd ((hpending x).mpr hx) hnot
  have hunseen : unseen nodes start ≤ nodes.length := List.length_filter_le _ _
  have hdone := hexplored.worklist hnodes n (by omega)
  constructor
  · exact hdone.reached y
  · rintro ⟨x, hx, hpath⟩
    induction hpath with
    | refl => exact hdone.started x hx
    | tail _ hstep ih => exact hdone.closed _ ih List.not_mem_nil _ hstep

end

/-- The sets that hold what a search starts from and, with a node, whatever leads to it. -/
def ClosedFrom {α : Type} (start : List α) (leadsTo : α → α → Prop) (S : Set α) : Prop :=
  (∀ x ∈ start, x ∈ S) ∧ ∀ x y, y ∈ S → leadsTo x y → x ∈ S

/-- What can be reached backwards is the least of these sets. -/
theorem isLeast_reached {α : Type} (start : List α) (leadsTo : α → α → Prop) :
    IsLeast {S | ClosedFrom start leadsTo S}
      {x | ∃ c ∈ start, Relation.ReflTransGen (fun y z => leadsTo z y) c x} := by
  constructor
  · constructor
    · exact fun c hc => ⟨c, hc, .refl⟩
    · rintro x y ⟨c, hc, hpath⟩ hleads
      exact ⟨c, hc, hpath.tail hleads⟩
  · rintro S ⟨hstart, hclosed⟩ x ⟨c, hc, hpath⟩
    induction hpath with
    | refl => exact hstart c hc
    | tail _ hleads ih => exact hclosed _ _ ih hleads

end EngineeringIntelligence.Framework
