import Mathlib.Data.List.TakeWhile
import Mathlib.Tactic.Ext

namespace EngineeringIntelligence.Framework

/-! Patterns as Python's `re` matches them: by backtracking, the preferred way first. -/

inductive Regex where
  | empty
  /-- A character of a class. -/
  | one (p : Char → Bool)
  /-- `[...]*`: as many characters as there are, then fewer. -/
  | many (p : Char → Bool)
  | seq (r s : Regex)
  | alt (r s : Regex)
  /-- `(?:...)?`: with it, then without. -/
  | opt (r : Regex)
  | group (r : Regex)
  /-- `^` of a pattern with `(?m)`. -/
  | lineStart
  /-- `\b`, by the characters of `\w`. -/
  | wordEdge (isWord : Char → Bool)

namespace Regex

/-- A place in a text, with the groups closed on the way to it: where each starts, and what it holds.
The characters before the place stand last one first. -/
@[ext] structure Place where
  before : List Char
  after : List Char
  groups : List (Nat × List Char)

/-- `[...]+`. -/
def many1 (p : Char → Bool) : Regex := seq (one p) (many p)

/-- The characters themselves. -/
def word : List Char → Regex
  | [] => empty
  | c :: cs => seq (one (· = c)) (word cs)

/-- The ways to take characters of a class, from a place on. -/
def manyWays (p : Char → Bool) : List Char → List Char → List (List Char × List Char)
  | before, [] => [(before, [])]
  | before, c :: after => (if p c then manyWays p (c :: before) after else []) ++ [(before, c :: after)]

def atLineStart (before : List Char) : Bool := before.head?.all (· = '\n')

def atWordEdge (isWord : Char → Bool) (before after : List Char) : Bool :=
  before.head?.any isWord != after.head?.any isWord

/-- The places where a match from a place can end, the preferred one first. -/
def ways : Regex → Place → List Place
  | empty, x => [x]
  | one p, x =>
    match x.after with
    | [] => []
    | c :: after => if p c then [{ x with before := c :: x.before, after }] else []
  | many p, x => (manyWays p x.before x.after).map fun y => { x with before := y.1, after := y.2 }
  | seq r s, x => (ways r x).flatMap (ways s)
  | alt r s, x => ways r x ++ ways s x
  | opt r, x => ways r x ++ [x]
  | group r, x => (ways r x).map fun y =>
    { y with groups := y.groups ++
        [(x.before.length, (y.before.take (y.before.length - x.before.length)).reverse)] }
  | lineStart, x => if atLineStart x.before then [x] else []
  | wordEdge isWord, x => if atWordEdge isWord x.before x.after then [x] else []

/-- The preferred match from a place. -/
def matchAt (r : Regex) (before after : List Char) : Option (List Char × Place) :=
  (ways r ⟨before, after, []⟩).head?.map fun y => (before, y)

/-- `search`, from a place on: where the match starts, and where it ends. -/
def searchFrom (r : Regex) : List Char → List Char → Option (List Char × Place)
  | before, [] => matchAt r before []
  | before, c :: after => (matchAt r before (c :: after)).or (searchFrom r (c :: before) after)

def search (r : Regex) (text : List Char) : Option (List Char × Place) := searchFrom r [] text

/-- The characters taken are of the class. -/
theorem mem_manyWays {p : Char → Bool} {before after : List Char} {y : List Char × List Char} :
    y ∈ manyWays p before after ↔
      ∃ taken, (∀ c ∈ taken, p c = true) ∧ y.1 = taken.reverse ++ before ∧ after = taken ++ y.2 := by
  induction after generalizing before with
  | nil =>
    rw [manyWays, List.mem_singleton]
    constructor
    · rintro rfl
      exact ⟨[], by simp⟩
    · rintro ⟨taken, -, hbefore, hafter⟩
      obtain ⟨rfl, hnil⟩ := List.append_eq_nil_iff.mp hafter.symm
      exact Prod.ext hbefore hnil
  | cons c after ih =>
    rw [manyWays, List.mem_append, List.mem_singleton]
    constructor
    · rintro (hy | rfl)
      · split at hy
        · next hc =>
          obtain ⟨taken, hall, hbefore, hafter⟩ := ih.mp hy
          refine ⟨c :: taken, List.forall_mem_cons.mpr ⟨hc, hall⟩, ?_, ?_⟩
          · rw [hbefore, List.reverse_cons, List.append_assoc]
            rfl
          · rw [hafter]
            rfl
        · cases hy
      · exact ⟨[], by simp⟩
    · rintro ⟨taken, hall, hbefore, hafter⟩
      cases taken with
      | nil => exact Or.inr (Prod.ext hbefore hafter.symm)
      | cons d taken =>
        obtain ⟨rfl, hrest⟩ := List.cons.inj hafter
        obtain ⟨hc, hall⟩ := List.forall_mem_cons.mp hall
        left
        rw [if_pos hc]
        refine ih.mpr ⟨taken, hall, ?_, hrest⟩
        rw [hbefore, List.reverse_cons, List.append_assoc]
        rfl

theorem matchAt_eq_some {r : Regex} {before after start : List Char} {y : Place} :
    matchAt r before after = some (start, y) ↔
      (ways r ⟨before, after, []⟩).head? = some y ∧ before = start := by
  simp [matchAt]

theorem matchAt_eq_none {r : Regex} {before after : List Char} :
    matchAt r before after = none ↔ ways r ⟨before, after, []⟩ = [] := by
  simp [matchAt]

/-- The search stops at the first place from which there is a match. -/
theorem searchFrom_eq_some {r : Regex} {before after start : List Char} {y : Place}
    (h : searchFrom r before after = some (start, y)) : ∃ passed rest,
      after = passed ++ rest ∧ start = passed.reverse ++ before ∧
      (ways r ⟨start, rest, []⟩).head? = some y ∧
      ∀ passed' rest', after = passed' ++ rest' → passed'.length < passed.length →
        ways r ⟨passed'.reverse ++ before, rest', []⟩ = [] := by
  induction after generalizing before with
  | nil =>
    obtain ⟨hy, rfl⟩ := matchAt_eq_some.mp h
    exact ⟨[], [], rfl, rfl, hy, fun _ _ _ hlt => absurd hlt (Nat.not_lt_zero _)⟩
  | cons c after ih =>
    rw [searchFrom, Option.or_eq_some_iff] at h
    rcases h with h | ⟨hnone, h⟩
    · obtain ⟨hy, rfl⟩ := matchAt_eq_some.mp h
      exact ⟨[], c :: after, rfl, rfl, hy, fun _ _ _ hlt => absurd hlt (Nat.not_lt_zero _)⟩
    · obtain ⟨passed, rest, rfl, rfl, hy, hearlier⟩ := ih h
      refine ⟨c :: passed, rest, rfl, by simp, hy, ?_⟩
      intro passed' rest' hsplit hlt
      cases passed' with
      | nil =>
        rw [List.nil_append] at hsplit
        rw [← hsplit]
        exact matchAt_eq_none.mp hnone
      | cons d passed' =>
        obtain ⟨rfl, hrest⟩ := List.cons.inj hsplit
        rw [List.reverse_cons, List.append_assoc]
        exact hearlier passed' rest' hrest (Nat.lt_of_succ_lt_succ hlt)

theorem searchFrom_eq_none {r : Regex} {before after : List Char}
    (h : searchFrom r before after = none) {passed rest : List Char} (hsplit : after = passed ++ rest) :
    ways r ⟨passed.reverse ++ before, rest, []⟩ = [] := by
  induction after generalizing before passed with
  | nil =>
    obtain ⟨rfl, rfl⟩ := List.append_eq_nil_iff.mp hsplit.symm
    exact matchAt_eq_none.mp h
  | cons c after ih =>
    rw [searchFrom, Option.or_eq_none_iff] at h
    cases passed with
    | nil =>
      rw [List.nil_append] at hsplit
      rw [← hsplit]
      exact matchAt_eq_none.mp h.1
    | cons d passed =>
      obtain ⟨rfl, hrest⟩ := List.cons.inj hsplit
      rw [List.reverse_cons, List.append_assoc]
      exact ih h.2 hrest

/-- Where a match goes on in one way only, the preferred match is the one of that way. -/
theorem head_flatMap_of_unique {α β : Type} {l : List α} {f : α → List β} {a : α} (ha : a ∈ l)
    (h : ∀ b ∈ l, f b ≠ [] → b = a) : (l.flatMap f).head? = (f a).head? := by
  induction l with
  | nil => cases ha
  | cons b l ih =>
    rw [List.flatMap_cons, List.head?_append]
    by_cases hb : f b = []
    · have hmem : a ∈ l ∨ f a = [] := by
        rcases List.mem_cons.mp ha with rfl | hmem
        · exact Or.inr hb
        · exact Or.inl hmem
      rw [hb]
      rcases hmem with hmem | hnil
      · exact ih hmem fun c hc => h c (List.mem_cons_of_mem _ hc)
      · have hall : l.flatMap f = [] := by
          rw [List.flatMap_eq_nil_iff]
          intro c hc
          by_contra hne
          exact hne (h c (List.mem_cons_of_mem _ hc) hne ▸ hnil)
        rw [hall, hnil]
        rfl
    · have hhead : (f b).head? ≠ none := by
        rw [Ne, List.head?_eq_none_iff]
        exact hb
      obtain rfl := h b (List.mem_cons_self ..) hb
      cases hhd : (f b).head? with
      | none => exact absurd hhd hhead
      | some y => rfl

theorem mem_ways_word {cs : List Char} {x y : Place} :
    y ∈ ways (word cs) x ↔
      y.before = cs.reverse ++ x.before ∧ x.after = cs ++ y.after ∧ y.groups = x.groups := by
  induction cs generalizing x with
  | nil =>
    rw [word, ways, List.mem_singleton]
    constructor
    · rintro rfl
      exact ⟨rfl, rfl, rfl⟩
    · rintro ⟨hbefore, hafter, hgroups⟩
      cases x
      cases y
      cases hbefore
      cases hafter
      cases hgroups
      rfl
  | cons c cs ih =>
    rw [word, ways, List.mem_flatMap]
    constructor
    · rintro ⟨z, hz, hy⟩
      unfold ways at hz
      split at hz
      · cases hz
      · next d after hafter =>
        split at hz
        · next hd =>
          obtain rfl := List.mem_singleton.mp hz
          obtain ⟨hbefore, hrest, hgroups⟩ := ih.mp hy
          refine ⟨?_, ?_, hgroups⟩
          · rw [hbefore, of_decide_eq_true hd, List.reverse_cons, List.append_assoc]
            rfl
          · rw [hafter, of_decide_eq_true hd, List.cons_append]
            exact congrArg (c :: ·) hrest
        · cases hz
    · rintro ⟨hbefore, hafter, hgroups⟩
      refine ⟨⟨c :: x.before, cs ++ y.after, x.groups⟩, ?_, ih.mpr ⟨?_, rfl, hgroups⟩⟩
      · rw [ways, hafter]
        simp
      · rw [hbefore, List.reverse_cons, List.append_assoc]
        rfl

end Regex

end EngineeringIntelligence.Framework
