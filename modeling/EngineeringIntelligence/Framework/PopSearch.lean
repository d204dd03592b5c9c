import EngineeringIntelligence.Framework.Worklist

namespace EngineeringIntelligence.Framework

/-! What a search finds that marks a node when it takes it off the stack: until then the node may be
stacked again. -/

/-- The order in which a set lists its elements. -/
structure Listing (α : Type) where
  list : List α → List α
  perm : ∀ xs, (list xs).Perm xs

theorem Listing.mem_list {α : Type} (l : Listing α) {xs : List α} {x : α} : x ∈ l.list xs ↔ x ∈ xs :=
  (l.perm xs).mem_iff

section
variable {α : Type} [DecidableEq α] (next : α → List α) (l : Listing α)

/-- The search, for so many nodes taken off the stack. -/
def popSearch : Nat → List α → List α → List α
  | 0, seen, _ => seen
  | _ + 1, seen, [] => seen
  | n + 1, seen, x :: stack =>
    if x ∈ seen then popSearch n seen stack
    else popSearch n (x :: seen) (l.list ((next x).filter (· ∉ x :: seen)) ++ stack)

/-- Between two rounds: what is seen or stacked can be reached, and nothing that follows a seen node is
missing from both. -/
structure Covered (start seen stack : List α) : Prop where
  started : ∀ x ∈ start, x ∈ seen ∨ x ∈ stack
  reached : ∀ y, y ∈ seen ∨ y ∈ stack → ∃ x ∈ start, Relation.ReflTransGen (fun a b => b ∈ next a) x y
  closed : ∀ x ∈ seen, ∀ y ∈ next x, y ∈ seen ∨ y ∈ stack

variable {next l} {start seen stack : List α} {x : α}

omit [DecidableEq α] in
theorem Covered.skip (h : Covered next start seen (x :: stack)) (hx : x ∈ seen) : Covered next start seen stack := by
  have hmove : ∀ y, y ∈ seen ∨ y ∈ x :: stack → y ∈ seen ∨ y ∈ stack := by
    intro y hy
    rw [List.mem_cons] at hy
    rcases hy with hy | rfl | hy
    · exact .inl hy
    · exact .inl hx
    · exact .inr hy
  refine ⟨fun y hy => hmove y (h.started y hy), fun y hy => h.reached y ?_, fun z hz y hy => hmove y (h.closed z hz y hy)⟩
  exact hy.imp_right (List.mem_cons_of_mem x)

theorem Covered.mark (h : Covered next start seen (x :: stack)) :
    Covered next start (x :: seen) (l.list ((next x).filter (· ∉ x :: seen)) ++ stack) := by
  have hpushed : ∀ y, y ∈ l.list ((next x).filter (· ∉ x :: seen)) ↔ y ∈ next x ∧ y ∉ x :: seen := by
    intro y
    rw [l.mem_list, List.mem_filter, decide_eq_true_eq]
  have hmove : ∀ y, y ∈ seen ∨ y ∈ x :: stack →
      y ∈ x :: seen ∨ y ∈ l.list ((next x).filter (· ∉ x :: seen)) ++ stack := by
    intro y hy
    rw [List.mem_cons] at hy
    rcases hy with hy | rfl | hy
    · exact .inl (List.mem_cons_of_mem x hy)
    · exact .inl List.mem_cons_self
    · exact .inr (List.mem_append_right _ hy)
  refine ⟨fun y hy => hmove y (h.started y hy), ?_, ?_⟩
  · intro y hy
    rw [List.mem_cons, List.mem_append, hpushed] at hy
    rcases hy with (rfl | hy) | ⟨hnext, -⟩ | hy
    · exact h.reached y (.inr List.mem_cons_self)
    · exact h.reached y (.inl hy)
    · obtain ⟨z, hz, hpath⟩ := h.reached x (.inr List.mem_cons_self)
      exact ⟨z, hz, hpath.tail hnext⟩
    · exact h.reached y (.inr (List.mem_cons_of_mem x hy))
  · intro z hz y hy
    rw [List.mem_cons] at hz
    rcases hz with rfl | hz
    · by_cases hseen : y ∈ z :: seen
      · exact .inl hseen
      · exact .inr (List.mem_append_left _ ((hpushed y).mpr ⟨hy, hseen⟩))
    · exact hmove y (h.closed z hz y hy)

/-- With enough rounds the stack is used up: a round takes one node off it, and puts a node's neighbours on it
once. -/
theorem Covered.popSearch {nodes : List α} (hnodes : ∀ x, ∀ y ∈ next x, y ∈ nodes) {bound : Nat}
    (hbound : ∀ x, (next x).length ≤ bound) (n : Nat) {seen stack : List α} (h : Covered next start seen stack)
    (hstack : ∀ x ∈ stack, x ∈ nodes) (hfuel : stack.length + unseen nodes seen * bound ≤ n) :
    Covered next start (popSearch next l n seen stack) [] := by
  induction n generalizing seen stack with
  | zero =>
    have hempty : stack = [] := List.length_eq_zero_iff.mp (by omega)
    subst hempty
    exact h
  | succ n ih =>
    cases stack with
    | nil => exact h
    | cons x stack =>
      rw [List.forall_mem_cons] at hstack
      rw [List.length_cons] at hfuel
      unfold Framework.popSearch
      split
      · next hseen => exact ih (h.skip hseen) hstack.2 (by omega)
      · next hseen =>
        refine ih h.mark ?_ ?_
        · intro y hy
          rw [List.mem_append, l.mem_list, List.mem_filter] at hy
          exact hy.elim (fun hnew => hnodes x y hnew.1) (hstack.2 y)
        · have hpushed : (l.list ((next x).filter (· ∉ x :: seen))).length ≤ bound := by
            rw [(l.perm _).length_eq]
            exact (List.length_filter_le _ _).trans (hbound x)
          have hless := Nat.mul_le_mul_right bound (unseen_cons hstack.1 hseen)
          rw [Nat.succ_mul] at hless
          rw [List.length_append]
          omega

/-- The search finds what can be reached from where it starts. -/
theorem mem_popSearch {nodes : List α} (hnodes : ∀ x, ∀ y ∈ next x, y ∈ nodes) {bound : Nat}
    (hbound : ∀ x, (next x).length ≤ bound) (hstart : ∀ x ∈ start, x ∈ nodes) {n : Nat}
    (hfuel : start.length + nodes.length * bound ≤ n) {y : α} :
    y ∈ popSearch next l n [] start ↔ ∃ x ∈ start, Relation.ReflTransGen (fun a b => b ∈ next a) x y := by
  have hbegin : Covered next start [] start := by
    refine ⟨fun x hx => .inr hx, fun x hx => ?_, fun x hx => absurd hx List.not_mem_nil⟩
    rcases hx with hx | hx
    · exact absurd hx List.not_mem_nil
    · exact ⟨x, hx, .refl⟩
  have hunseen : unseen nodes [] * bound ≤ nodes.length * bound :=
    Nat.mul_le_mul_right bound (List.length_filter_le _ _)
  have hdone := hbegin.popSearch (l := l) hnodes hbound n hstart (by omega)
  constructor
  · exact fun hy => hdone.reached y (.inl hy)
  · rintro ⟨x, hx, hpath⟩
    induction hpath with
    | refl => exact (hdone.started x hx).resolve_right List.not_mem_nil
    | tail _ hstep ih => exact (hdone.closed _ ih _ hstep).resolve_right List.not_mem_nil

end

end EngineeringIntelligence.Framework
