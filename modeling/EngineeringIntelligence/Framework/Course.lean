import EngineeringIntelligence.Framework.Journal
import EngineeringIntelligence.Framework.Retry
import Mathlib.Data.List.Nodup

namespace EngineeringIntelligence.Framework

/-! Scripts that write to one stream of a journal and all play parts of one course. In
whatever order they get to submit, an event of theirs is either the next of the course or
answered from the journal. -/

theorem position_eq {α β : Type*} {f : α → β} {l : List α} (h : (l.map f).Nodup) {m n : Nat}
    {a b : α} (ha : l[m]? = some a) (hb : l[n]? = some b) (hab : f a = f b) : m = n := by
  have hbound : m < (l.map f).length := by
    rw [List.length_map]
    exact (List.getElem?_eq_some_iff.mp ha).1
  have hsame : (l.map f)[m]? = (l.map f)[n]? := by
    rw [List.getElem?_map, List.getElem?_map, ha, hb]
    exact congrArg some hab
  exact (List.getElem?_inj hbound h).mp hsame

namespace JournalRules

variable {ε ρ err ω κ ι φ : Type*} [DecidableEq ω] [DecidableEq κ] [DecidableEq ι] [DecidableEq φ]
variable (R : JournalRules ε ρ err ω κ ι φ)

/-- Events of a stream, each with the record it leads to from the one before. -/
structure Course (w : ω) (course : List (ε × ρ)) : Prop where
  stream : ∀ p ∈ course, R.stream p.1 = w
  advances : ∀ k e r, course[k]? = some (e, r) →
    R.advance ((course.take k).getLast?.map Prod.snd) e = .ok r
  keys : (course.map (fun p => R.key p.1)).Nodup
  idents : (course.map (fun p => R.ident p.1)).Nodup

omit [DecidableEq ι] [DecidableEq φ] in
theorem lookupKey_entries (j : List (ε × ρ)) (w : ω) (k : κ) :
    R.lookupKey j w k = (R.entries j w).find? (fun p => R.key p.1 = k) := by
  simp only [lookupKey, entries, List.find?_filter, Bool.decide_and, Bool.decide_eq_true]

omit [DecidableEq κ] [DecidableEq φ] in
theorem identUsed_entries (j : List (ε × ρ)) (w : ω) (i : ι) :
    R.identUsed j w i = (R.entries j w).any (fun p => R.ident p.1 = i) := by
  simp only [identUsed, entries, List.any_filter, Bool.decide_and]

variable {R} {w : ω} {course : List (ε × ρ)}

omit [DecidableEq ω] [DecidableEq κ] [DecidableEq ι] [DecidableEq φ] in
theorem course_nil : R.Course w [] := ⟨by simp, by simp, by simp, by simp⟩

omit [DecidableEq ω] [DecidableEq κ] [DecidableEq ι] [DecidableEq φ] in
theorem Course.snoc (h : R.Course w course) {e : ε} {r : ρ} (hstream : R.stream e = w)
    (hadvance : R.advance (course.getLast?.map Prod.snd) e = .ok r)
    (hkey : ∀ p ∈ course, R.key p.1 ≠ R.key e) (hident : ∀ p ∈ course, R.ident p.1 ≠ R.ident e) :
    R.Course w (course ++ [(e, r)]) := by
  refine ⟨?_, ?_, ?_, ?_⟩
  · intro p hp
    rcases List.mem_append.mp hp with hp | hp
    · exact h.stream p hp
    · rw [List.mem_singleton.mp hp]
      exact hstream
  · intro k e' r' hk
    rcases Nat.lt_or_ge k course.length with hlt | hge
    · rw [List.getElem?_append_left hlt] at hk
      rw [List.take_append_of_le_length (Nat.le_of_lt hlt)]
      exact h.advances k e' r' hk
    · rw [List.getElem?_append_right hge, List.getElem?_singleton] at hk
      split at hk
      · next hzero =>
        obtain ⟨rfl, rfl⟩ := Prod.mk.inj (Option.some.inj hk)
        rw [List.take_append_of_le_length (by omega), List.take_of_length_le (by omega)]
        exact hadvance
      · cases hk
  · rw [List.map_append, List.nodup_append]
    refine ⟨h.keys, by simp, ?_⟩
    intro a ha b hb
    obtain ⟨p, hp, rfl⟩ := List.mem_map.mp ha
    rw [List.mem_singleton.mp hb]
    exact hkey p hp
  · rw [List.map_append, List.nodup_append]
    refine ⟨h.idents, by simp, ?_⟩
    intro a ha b hb
    obtain ⟨p, hp, rfl⟩ := List.mem_map.mp ha
    rw [List.mem_singleton.mp hb]
    exact hident p hp

section
variable {unique : Bool} {j : List (ε × ρ)} {k n : Nat} {e : ε} {r : ρ}

/-- An event of the course that the stream already has is replayed. -/
theorem Course.submit_again (h : R.Course w course) (hj : R.entries j w = course.take n)
    (hk : course[k]? = some (e, r)) (hlt : k < n) : R.submit unique j e = (j, .replayed r) := by
  have hmem : (e, r) ∈ course.take n := by
    apply List.mem_of_getElem? (i := k)
    rw [List.getElem?_take_of_lt hlt]
    exact hk
  have hlookup : R.lookupKey j (R.stream e) (R.key e) = some (e, r) := by
    rw [h.stream (e, r) (List.mem_of_getElem? hk), lookupKey_entries, hj]
    obtain ⟨p, hp⟩ := Option.isSome_iff_exists.mp (List.find?_isSome.mpr
      ⟨(e, r), hmem, decide_eq_true rfl⟩ : ((course.take n).find? (fun p => R.key p.1 = R.key e)).isSome)
    have hkey : R.key p.1 = R.key e := by simpa using List.find?_some hp
    have hp' : p ∈ course := List.mem_of_mem_take (List.mem_of_find?_eq_some hp)
    have hsame : p = (e, r) :=
      List.inj_on_of_nodup_map h.keys hp' (List.mem_of_getElem? hk) hkey
    rw [hp, hsame]
  exact submit_of_replay hlookup ⟨rfl, rfl⟩

/-- The next event of the course is taken. -/
theorem Course.submit_next (h : R.Course w course) (hj : R.entries j w = course.take n)
    (hn : course[n]? = some (e, r)) :
    R.submit unique j e = (j ++ [(e, r)], .accepted r) ∧
      R.entries (j ++ [(e, r)]) w = course.take (n + 1) := by
  have hstream := h.stream (e, r) (List.mem_of_getElem? hn)
  have hlength := (List.getElem?_eq_some_iff.mp hn).1
  -- what the stream has stands before the event in the course, so it has another key
  have hearlier : ∀ p ∈ course.take n, R.key p.1 ≠ R.key e ∧ R.ident p.1 ≠ R.ident e := by
    intro p hp
    obtain ⟨m, hpm⟩ := List.mem_iff_getElem?.mp hp
    have hm : m < n := by
      have hbound := (List.getElem?_eq_some_iff.mp hpm).1
      rw [List.length_take] at hbound
      omega
    rw [List.getElem?_take_of_lt hm] at hpm
    refine ⟨fun hkey => ?_, fun hident => ?_⟩
    · exact Nat.ne_of_lt hm (position_eq h.keys hpm hn hkey)
    · exact Nat.ne_of_lt hm (position_eq h.idents hpm hn hident)
  have hlookup : R.lookupKey j (R.stream e) (R.key e) = none := by
    rw [hstream, lookupKey_entries, hj, List.find?_eq_none]
    intro p hp
    simpa using (hearlier p hp).1
  have hident : unique = true → R.identUsed j (R.stream e) (R.ident e) = false := by
    intro _
    rw [hstream, identUsed_entries, hj, List.any_eq_false]
    intro p hp
    simpa using (hearlier p hp).2
  have hadvance : R.advance (R.current j (R.stream e)) e = .ok r := by
    rw [hstream, current, hj]
    exact h.advances n e r hn
  refine ⟨submit_of_advance hlookup hident hadvance, ?_⟩
  rw [entries_snoc, if_pos hstream, hj, List.take_add_one, hn]
  rfl

/-- Events of other streams do not touch the stream. -/
theorem entries_submit_of_ne (unique : Bool) (j : List (ε × ρ)) (h : R.stream e ≠ w) :
    R.entries (R.submit unique j e).1 w = R.entries j w := by
  obtain ⟨heq, -⟩ | ⟨r, -, -, -, heq⟩ := R.submit_cases unique j e
  · rw [heq]
  · rw [heq, entries_snoc, if_neg h]

end

end JournalRules

/-! ### Scripts on a course -/

section
variable {γ ε ρ τ α : Type} {event : γ → ε} {Reply : ε → ρ → τ → Prop}

/-- From position `k` of the course on, the script submits what stands there, as long as it is
answered with the records that stand there. It ends as `Done` says. -/
inductive Follows (event : γ → ε) (Reply : ε → ρ → τ → Prop) (course : List (ε × ρ))
    (Done : Nat → α → Prop) : Nat → Script γ τ α → Prop
  | finish {k : Nat} {a : α} : Done k a → Follows event Reply course Done k (.finish a)
  | call {k : Nat} {c : γ} {r : ρ} {next : τ → Script γ τ α} :
      course[k]? = some (event c, r) →
      (∀ t, Reply (event c) r t → Follows event Reply course Done (k + 1) (next t)) →
      Follows event Reply course Done k (.call c next)

variable {course : List (ε × ρ)} {Done : Nat → α → Prop}

theorem Follows.mono {course' : List (ε × ρ)} {Done' : Nat → α → Prop} {k : Nat}
    {script : Script γ τ α} (h : Follows event Reply course Done k script)
    (hcourse : course <+: course') (hdone : ∀ k a, Done k a → Done' k a) :
    Follows event Reply course' Done' k script := by
  induction h with
  | finish ha => exact .finish (hdone _ _ ha)
  | call hk _ ih =>
    refine .call ?_ ih
    obtain ⟨later, rfl⟩ := hcourse
    rw [List.getElem?_append_left (List.getElem?_eq_some_iff.mp hk).1]
    exact hk

theorem Follows.map {β : Type} {f : α → β} {Done' : Nat → β → Prop} {k : Nat} {script : Script γ τ α}
    (h : Follows event Reply course (fun k a => Done' k (f a)) k script) :
    Follows event Reply course Done' k (script.map f) := by
  induction h with
  | finish ha => exact .finish ha
  | call hk _ ih => exact .call hk ih

end

end EngineeringIntelligence.Framework
