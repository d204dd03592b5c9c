import EngineeringIntelligence.Framework.Run

namespace EngineeringIntelligence.Framework

/-! A journal of accepted events. Every event belongs to a stream, carries an
idempotency key and an identity, and advances the record of its stream. An event
whose key was seen before is answered from the journal. -/

/-- How events are keyed and what they do to the record of their stream. -/
structure JournalRules (ε ρ err ω κ ι φ : Type*) where
  stream : ε → ω
  key : ε → κ
  ident : ε → ι
  digest : ε → φ
  advance : Option ρ → ε → Except err ρ

inductive JournalAnswer (ρ err : Type*) where
  | accepted (r : ρ)
  | replayed (r : ρ)
  | reusedKey
  | reusedIdent
  | refused (e : err)

namespace JournalRules

set_option linter.unusedSectionVars false

variable {ε ρ err ω κ ι φ : Type*} [DecidableEq ω] [DecidableEq κ] [DecidableEq ι] [DecidableEq φ]
variable (R : JournalRules ε ρ err ω κ ι φ)

/-- Two events are the same submission. -/
structure Same (e e' : ε) : Prop where
  stream : R.stream e = R.stream e'
  key : R.key e = R.key e'
  ident : R.ident e = R.ident e'
  digest : R.digest e = R.digest e'

/-- What a stream has accepted, oldest first. -/
def entries (j : List (ε × ρ)) (w : ω) : List (ε × ρ) := j.filter (fun p => R.stream p.1 = w)

/-- The record of a stream: that of its last accepted event. -/
def current (j : List (ε × ρ)) (w : ω) : Option ρ := (R.entries j w).getLast?.map Prod.snd

def lookupKey (j : List (ε × ρ)) (w : ω) (k : κ) : Option (ε × ρ) :=
  j.find? (fun p => R.stream p.1 = w ∧ R.key p.1 = k)

def identUsed (j : List (ε × ρ)) (w : ω) (i : ι) : Bool :=
  j.any (fun p => R.stream p.1 = w ∧ R.ident p.1 = i)

/-- One submission. `unique` says whether a fresh key may come with a used identity. -/
def submit (unique : Bool) (j : List (ε × ρ)) (e : ε) : List (ε × ρ) × JournalAnswer ρ err :=
  match R.lookupKey j (R.stream e) (R.key e) with
  | some p =>
    (j, if R.ident p.1 = R.ident e ∧ R.digest p.1 = R.digest e then .replayed p.2 else .reusedKey)
  | none =>
    if unique && R.identUsed j (R.stream e) (R.ident e) then (j, .reusedIdent)
    else
      match R.advance (R.current j (R.stream e)) e with
      | .error x => (j, .refused x)
      | .ok r => (j ++ [(e, r)], .accepted r)

@[simp] theorem entries_nil (w : ω) : R.entries [] w = [] := rfl

theorem entries_snoc (j : List (ε × ρ)) (e : ε) (r : ρ) (w : ω) :
    R.entries (j ++ [(e, r)]) w =
      if R.stream e = w then R.entries j w ++ [(e, r)] else R.entries j w := by
  by_cases h : R.stream e = w <;> simp [entries, h]

theorem current_snoc_of_eq {e : ε} {w : ω} (h : R.stream e = w) (j : List (ε × ρ)) (r : ρ) :
    R.current (j ++ [(e, r)]) w = some r := by
  simp [current, entries_snoc, h]

theorem current_snoc_of_ne {e : ε} {w : ω} (h : R.stream e ≠ w) (j : List (ε × ρ)) (r : ρ) :
    R.current (j ++ [(e, r)]) w = R.current j w := by
  simp [current, entries_snoc, h]

theorem lookupKey_snoc (j : List (ε × ρ)) (e : ε) (r : ρ) (w : ω) (k : κ) :
    R.lookupKey (j ++ [(e, r)]) w k = (R.lookupKey j w k).or
      (if R.stream e = w ∧ R.key e = k then some (e, r) else none) := by
  by_cases h : R.stream e = w ∧ R.key e = k
  · simp [lookupKey, List.find?_append, h]
  · simp only [lookupKey, List.find?_append, List.find?_cons, h, if_false, decide_false,
      List.find?_nil]

theorem lookupKey_snoc_of_ne {e : ε} {w : ω} {k : κ} (h : ¬(R.stream e = w ∧ R.key e = k))
    (j : List (ε × ρ)) (r : ρ) : R.lookupKey (j ++ [(e, r)]) w k = R.lookupKey j w k := by
  rw [lookupKey_snoc, if_neg h, Option.or_none]

theorem identUsed_eq_false (j : List (ε × ρ)) (w : ω) (i : ι) :
    R.identUsed j w i = false ↔ ∀ p ∈ j, R.stream p.1 = w → R.ident p.1 ≠ i := by
  simp [identUsed]

section
variable {R} {unique : Bool} {j : List (ε × ρ)} {e : ε}

theorem submit_of_lookup {p : ε × ρ} (hk : R.lookupKey j (R.stream e) (R.key e) = some p) :
    R.submit unique j e = (j, if R.ident p.1 = R.ident e ∧ R.digest p.1 = R.digest e
      then .replayed p.2 else .reusedKey) := by
  rw [submit, hk]

theorem submit_of_replay {p : ε × ρ} (hk : R.lookupKey j (R.stream e) (R.key e) = some p)
    (hs : R.ident p.1 = R.ident e ∧ R.digest p.1 = R.digest e) :
    R.submit unique j e = (j, .replayed p.2) := by
  rw [submit_of_lookup hk, if_pos hs]

theorem submit_of_reuse {p : ε × ρ} (hk : R.lookupKey j (R.stream e) (R.key e) = some p)
    (hs : ¬(R.ident p.1 = R.ident e ∧ R.digest p.1 = R.digest e)) :
    R.submit unique j e = (j, .reusedKey) := by
  rw [submit_of_lookup hk, if_neg hs]

theorem submit_of_used (hk : R.lookupKey j (R.stream e) (R.key e) = none) (hu : unique = true)
    (hi : R.identUsed j (R.stream e) (R.ident e) = true) :
    R.submit unique j e = (j, .reusedIdent) := by
  simp [submit, hk, hu, hi]

theorem submit_of_refused (hk : R.lookupKey j (R.stream e) (R.key e) = none)
    (hi : unique = true → R.identUsed j (R.stream e) (R.ident e) = false) {x : err}
    (ha : R.advance (R.current j (R.stream e)) e = .error x) :
    R.submit unique j e = (j, .refused x) := by
  have hu : (unique && R.identUsed j (R.stream e) (R.ident e)) = false := by
    cases unique <;> simp_all
  simp [submit, hk, hu, ha]

theorem submit_of_advance (hk : R.lookupKey j (R.stream e) (R.key e) = none)
    (hi : unique = true → R.identUsed j (R.stream e) (R.ident e) = false) {r : ρ}
    (ha : R.advance (R.current j (R.stream e)) e = .ok r) :
    R.submit unique j e = (j ++ [(e, r)], .accepted r) := by
  have hu : (unique && R.identUsed j (R.stream e) (R.ident e)) = false := by
    cases unique <;> simp_all
  simp [submit, hk, hu, ha]

end

/-- Either the journal is untouched, or the event is new in key (and in identity
where that is asked for) and its stream advances. -/
theorem submit_cases (unique : Bool) (j : List (ε × ρ)) (e : ε) :
    ((R.submit unique j e).1 = j ∧ ∀ r, (R.submit unique j e).2 ≠ .accepted r) ∨
    ∃ r, R.lookupKey j (R.stream e) (R.key e) = none ∧
      (unique = true → R.identUsed j (R.stream e) (R.ident e) = false) ∧
      R.advance (R.current j (R.stream e)) e = .ok r ∧
      R.submit unique j e = (j ++ [(e, r)], .accepted r) := by
  cases hk : R.lookupKey j (R.stream e) (R.key e) with
  | some p =>
    rw [submit_of_lookup hk]
    refine Or.inl ⟨rfl, fun r => ?_⟩
    split_ifs <;> simp
  | none =>
    by_cases hu : unique = true ∧ R.identUsed j (R.stream e) (R.ident e) = true
    · rw [submit_of_used hk hu.1 hu.2]
      exact Or.inl ⟨rfl, by simp⟩
    · have hi : unique = true → R.identUsed j (R.stream e) (R.ident e) = false := by simpa using hu
      cases ha : R.advance (R.current j (R.stream e)) e with
      | error x =>
        rw [submit_of_refused hk hi ha]
        exact Or.inl ⟨rfl, by simp⟩
      | ok r => exact Or.inr ⟨r, rfl, hi, rfl, submit_of_advance hk hi ha⟩

theorem submit_grows (unique : Bool) (j : List (ε × ρ)) (e : ε) :
    j <+: (R.submit unique j e).1 := by
  obtain ⟨h, -⟩ | ⟨r, -, -, -, h⟩ := R.submit_cases unique j e
  · exact ⟨[], by rw [h, List.append_nil]⟩
  · rw [h]; exact List.prefix_append _ _

/-- What every journal built by `submit` satisfies: the record of an entry is its
stream advanced, and within a stream no key (and, where asked for, no identity)
occurs twice. -/
inductive Lawful (unique : Bool) : List (ε × ρ) → Prop where
  | nil : Lawful unique []
  | snoc {j : List (ε × ρ)} {e : ε} {r : ρ} (hj : Lawful unique j)
      (hk : R.lookupKey j (R.stream e) (R.key e) = none)
      (hi : unique = true → R.identUsed j (R.stream e) (R.ident e) = false)
      (ha : R.advance (R.current j (R.stream e)) e = .ok r) : Lawful unique (j ++ [(e, r)])

theorem submit_lawful (unique : Bool) (j : List (ε × ρ)) (e : ε) (h : R.Lawful unique j) :
    R.Lawful unique (R.submit unique j e).1 := by
  obtain ⟨heq, -⟩ | ⟨r, hk, hi, ha, heq⟩ := R.submit_cases unique j e
  · rwa [heq]
  · rw [heq]; exact .snoc h hk hi ha

variable {R}

/-- Keys identify entries: looking one up finds the entry that carries it. -/
theorem Lawful.lookupKey_of_mem {unique : Bool} {j : List (ε × ρ)} (h : R.Lawful unique j)
    {p : ε × ρ} (hp : p ∈ j) : R.lookupKey j (R.stream p.1) (R.key p.1) = some p := by
  induction h with
  | nil => simp at hp
  | @snoc j e r hj hk hi ha ih =>
    rw [lookupKey_snoc]
    rcases List.mem_append.mp hp with hp | hp
    · simp [ih hp]
    · obtain rfl : p = (e, r) := by simpa using hp
      simp [hk]

/-- An entry is alone under its key. -/
theorem Lawful.countP_key {unique : Bool} {j : List (ε × ρ)} (h : R.Lawful unique j) {p : ε × ρ}
    (hp : p ∈ j) :
    j.countP (fun q => R.stream q.1 = R.stream p.1 ∧ R.key q.1 = R.key p.1) = 1 := by
  induction h with
  | nil => cases hp
  | @snoc j e r hj hk hi ha ih =>
    have hnew := List.find?_eq_none.mp hk
    rw [List.countP_append]
    rcases List.mem_append.mp hp with hp | hp
    · have hother : ¬ (R.stream e = R.stream p.1 ∧ R.key e = R.key p.1) := by
        intro hsame
        have hfresh := hnew p hp
        simp [hsame] at hfresh
      rw [ih hp]
      simp [hother]
    · obtain rfl : p = (e, r) := List.mem_singleton.mp hp
      have hnone : j.countP (fun q => R.stream q.1 = R.stream e ∧ R.key q.1 = R.key e) = 0 :=
        List.countP_eq_zero.mpr hnew
      rw [hnone]
      simp

theorem Lawful.ident_nodup {j : List (ε × ρ)} (h : R.Lawful true j) (w : ω) :
    ((R.entries j w).map (fun p => R.ident p.1)).Nodup := by
  induction h with
  | nil => simp
  | @snoc j e r hj hk hi ha ih =>
    rw [entries_snoc]
    split_ifs with hw
    · subst hw
      have hfresh := (R.identUsed_eq_false j _ _).mp (hi rfl)
      rw [List.map_append, List.nodup_append]
      refine ⟨ih, by simp, ?_⟩
      intro a ha b hb
      obtain ⟨p, hp, rfl⟩ := List.mem_map.mp ha
      obtain ⟨hp, hw⟩ := List.mem_filter.mp hp
      obtain rfl : b = R.ident e := by simpa using hb
      exact hfresh p hp (by simpa using hw)
    · exact ih

/-- The induction rule for streams: a fact about the accepted entries of one
stream that every advance of it preserves. -/
theorem Lawful.stream_induction {unique : Bool} {w : ω} {P : List (ε × ρ) → Prop} (hnil : P [])
    (hsnoc : ∀ l e r, P l → R.stream e = w → R.advance (l.getLast?.map Prod.snd) e = .ok r →
      P (l ++ [(e, r)]))
    {j : List (ε × ρ)} (h : R.Lawful unique j) : P (R.entries j w) := by
  induction h with
  | nil => exact hnil
  | @snoc j e r hj hk hi ha ih =>
    rw [entries_snoc]
    split_ifs with hw
    · subst hw
      exact hsnoc _ e r ih rfl ha
    · exact ih

/-- An event that is accepted or replayed is in the journal afterwards. -/
theorem same_of_answered (unique : Bool) (j : List (ε × ρ)) (e : ε) (r : ρ)
    (h : (R.submit unique j e).2 = .accepted r ∨ (R.submit unique j e).2 = .replayed r) :
    ∃ p ∈ (R.submit unique j e).1, R.Same p.1 e ∧ p.2 = r := by
  cases hk : R.lookupKey j (R.stream e) (R.key e) with
  | some p =>
    have hp := List.mem_of_find?_eq_some hk
    have hkey := List.find?_some hk
    simp only [decide_eq_true_eq] at hkey
    rw [submit_of_lookup hk] at h ⊢
    dsimp only at h
    split_ifs at h with hs
    · refine ⟨p, hp, ⟨hkey.1, hkey.2, hs.1, hs.2⟩, ?_⟩
      simpa using h
    · simp at h
  | none =>
    by_cases hu : unique = true ∧ R.identUsed j (R.stream e) (R.ident e) = true
    · rw [submit_of_used hk hu.1 hu.2] at h
      simp at h
    · have hi : unique = true → R.identUsed j (R.stream e) (R.ident e) = false := by simpa using hu
      cases ha : R.advance (R.current j (R.stream e)) e with
      | error x =>
        rw [submit_of_refused hk hi ha] at h
        simp at h
      | ok r' =>
        rw [submit_of_advance hk hi ha] at h ⊢
        have hr : r' = r := by simpa using h
        exact ⟨(e, r'), by simp, ⟨rfl, rfl, rfl, rfl⟩, hr⟩

end JournalRules

end EngineeringIntelligence.Framework
