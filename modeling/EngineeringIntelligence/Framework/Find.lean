import Mathlib.Data.List.Infix

namespace EngineeringIntelligence.Framework

/-! The first place where a part stands in a text, and which parts survive an escaping. -/

section
variable {α : Type} [DecidableEq α]

/-- `text.find(part)`. -/
def find (part : List α) : List α → Option Nat
  | [] => if part = [] then some 0 else none
  | c :: text => if part.isPrefixOf (c :: text) then some 0 else (find part text).map (· + 1)

/-- The first place is no later than any. -/
theorem find_le (part before after : List α) : ∃ n ≤ before.length, find part (before ++ part ++ after) = some n := by
  induction before with
  | nil =>
    cases part with
    | nil => cases after <;> exact ⟨0, le_rfl, rfl⟩
    | cons c part =>
      have hstarts : (c :: part).isPrefixOf (c :: (part ++ after)) = true :=
        List.isPrefixOf_iff_prefix.mpr ⟨after, rfl⟩
      exact ⟨0, le_rfl, if_pos hstarts⟩
  | cons c before ih =>
    obtain ⟨n, hle, hfind⟩ := ih
    rw [List.cons_append, List.cons_append, find]
    split_ifs with hstarts
    · exact ⟨0, Nat.zero_le _, rfl⟩
    · rw [hfind]
      exact ⟨n + 1, Nat.succ_le_succ hle, rfl⟩

/-- A part that does not begin earlier is found where it stands. -/
theorem find_eq {part before after : List α} (h : ¬ part <:+: before ++ part.dropLast) :
    find part (before ++ part ++ after) = some before.length := by
  induction before with
  | nil =>
    cases part with
    | nil => exact absurd (List.nil_infix) h
    | cons c part =>
      have hstarts : (c :: part).isPrefixOf (c :: (part ++ after)) = true :=
        List.isPrefixOf_iff_prefix.mpr ⟨after, rfl⟩
      exact if_pos hstarts
  | cons c before ih =>
    rw [List.cons_append, List.infix_cons_iff, not_or] at h
    have hrest := ih h.2
    have hnot : part.isPrefixOf (c :: (before ++ part ++ after)) ≠ true := by
      intro hstarts
      apply h.1
      have hlong := List.isPrefixOf_iff_prefix.mp hstarts
      have hwhole : c :: (before ++ part.dropLast) <+: c :: (before ++ part ++ after) := by
        obtain ⟨last, hlast⟩ := List.dropLast_prefix part
        refine ⟨last ++ after, ?_⟩
        rw [List.cons_append, List.append_assoc, ← List.append_assoc part.dropLast, hlast, List.append_assoc]
      apply List.prefix_of_prefix_length_le hlong hwhole
      simp only [List.length_cons, List.length_append, List.length_dropLast]
      omega
    rw [List.cons_append, List.cons_append, find, if_neg hnot, hrest]
    rfl

end

section
variable {α : Type} {p : List α}

theorem prefix_append_cons {a b : List α} {c : α} (hc : c ∉ p) : p <+: a ++ c :: b ↔ p <+: a := by
  induction a generalizing p with
  | nil =>
    cases p with
    | nil => simp
    | cons d p =>
      have hne : d ≠ c := fun heq => hc (heq ▸ List.mem_cons_self)
      simp [List.cons_prefix_cons, hne]
  | cons e a ih =>
    cases p with
    | nil => simp
    | cons d p =>
      have hrest : c ∉ p := fun hmem => hc (List.mem_cons_of_mem d hmem)
      rw [List.cons_append, List.cons_prefix_cons, List.cons_prefix_cons, ih hrest]

/-- A part stands on one side of a character it does not hold. -/
theorem infix_append_cons {a b : List α} {c : α} (hc : c ∉ p) : p <:+: a ++ c :: b ↔ p <:+: a ∨ p <:+: b := by
  induction a with
  | nil =>
    rw [List.nil_append, List.infix_cons_iff]
    have hstarts : p <+: c :: b ↔ p <+: [] := prefix_append_cons (a := []) hc
    rw [hstarts, List.prefix_nil, List.infix_nil]
  | cons e a ih =>
    have hstarts : p <+: e :: (a ++ c :: b) ↔ p <+: e :: a := prefix_append_cons (a := e :: a) hc
    rw [List.cons_append, List.infix_cons_iff, hstarts, ih, List.infix_cons_iff, or_assoc]

theorem infix_cons_of_notMem {a : List α} {c : α} (hp : p ≠ []) (hc : c ∉ p) : p <:+: c :: a ↔ p <:+: a := by
  have hsplit : p <:+: [] ++ c :: a ↔ p <:+: [] ∨ p <:+: a := infix_append_cons hc
  rw [List.nil_append, List.infix_nil] at hsplit
  simpa [hp] using hsplit

theorem infix_append_of_notMem {a b : List α} (hp : p ≠ []) (ha : ∀ c ∈ a, c ∉ p) : p <:+: a ++ b ↔ p <:+: b := by
  induction a with
  | nil => rfl
  | cons c a ih =>
    have hrest := ih fun d hd => ha d (List.mem_cons_of_mem c hd)
    rw [List.cons_append, infix_cons_of_notMem hp (ha c List.mem_cons_self), hrest]

/-- An escaping leaves alone every character it does not replace by others that the part does not hold either. -/
def Keeps (esc : α → List α) (p : List α) : Prop :=
  ∀ c, esc c = [c] ∨ esc c ≠ [] ∧ (∀ d ∈ esc c, d ∉ p) ∧ c ∉ p

theorem Keeps.prefix_iff {esc : α → List α} (h : Keeps esc p) {q s : List α} (hq : q ⊆ p) :
    q <+: s.flatMap esc ↔ q <+: s := by
  induction s generalizing q with
  | nil => simp
  | cons c s ih =>
    cases q with
    | nil => simp
    | cons d q =>
      have hd : d ∈ p := hq List.mem_cons_self
      have hrest := ih (fun e he => hq (List.mem_cons_of_mem d he))
      rw [List.flatMap_cons]
      rcases h c with hsame | ⟨hne, hout, hc⟩
      · rw [hsame, List.singleton_append, List.cons_prefix_cons, List.cons_prefix_cons, hrest]
      · obtain ⟨e, es, hes⟩ := List.exists_cons_of_ne_nil hne
        have hde : d ≠ e := by
          intro heq
          exact hout e (by rw [hes]; exact List.mem_cons_self) (heq ▸ hd)
        have hdc : d ≠ c := fun heq => hc (heq ▸ hd)
        rw [hes, List.cons_append, List.cons_prefix_cons, List.cons_prefix_cons]
        simp [hde, hdc]

/-- The part stands in the escaped text exactly where it stands in the text. -/
theorem Keeps.infix_iff {esc : α → List α} (h : Keeps esc p) (hp : p ≠ []) {s : List α} :
    p <:+: s.flatMap esc ↔ p <:+: s := by
  induction s with
  | nil => rfl
  | cons c s ih =>
    rcases h c with hsame | ⟨-, hout, hc⟩
    · have hstarts := h.prefix_iff (s := c :: s) (List.Subset.refl p)
      rw [List.flatMap_cons, hsame, List.singleton_append] at hstarts ⊢
      rw [List.infix_cons_iff, List.infix_cons_iff, hstarts, ih]
    · rw [List.flatMap_cons, infix_append_of_notMem hp hout, infix_cons_of_notMem hp hc, ih]

end

end EngineeringIntelligence.Framework
