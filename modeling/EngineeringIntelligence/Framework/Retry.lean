import Mathlib.Data.List.Basic
import Mathlib.Tactic.Set

namespace EngineeringIntelligence.Framework

/-! Work that is retried from the beginning until it gets through. A script makes calls on a
shared state; a call may be cut short, and then nobody knows how far it came. -/

/-- Calls made one after another, each in the light of the answers before it. -/
inductive Script (ε ρ α : Type) where
  | finish (result : α)
  | call (event : ε) (next : ρ → Script ε ρ α)

/-- The script with its result passed on. -/
def Script.map {ε ρ α β : Type} (f : α → β) : Script ε ρ α → Script ε ρ β
  | .finish a => .finish (f a)
  | .call e next => .call e (fun r => (next r).map f)

section
variable {σ ε ρ χ φ α β : Type} (perform : φ → σ → ε → σ × Except χ ρ)

/-- One attempt at a script; `fs` says how each of its calls goes. -/
def attempt (fs : Nat → φ) (s : σ) : Script ε ρ α → σ × Except χ α
  | .finish a => (s, .ok a)
  | .call e next =>
    match perform (fs 0) s e with
    | (s', .error x) => (s', .error x)
    | (s', .ok r) => attempt (fun n => fs (n + 1)) s' (next r)

/-- The calls of an attempt that were answered, with their answers. -/
def answeredCalls (fs : Nat → φ) (s : σ) : Script ε ρ α → List (ε × ρ)
  | .finish _ => []
  | .call e next =>
    match perform (fs 0) s e with
    | (_, .error _) => []
    | (s', .ok r) => (e, r) :: answeredCalls (fun n => fs (n + 1)) s' (next r)

/-- What makes calls safe to repeat. `smooth` are the circumstances under which nothing is cut
short, `Sound` the states that come up. -/
structure Retryable (smooth : φ → Prop) (Sound : σ → Prop) : Prop where
  sound : ∀ {f s e}, Sound s → Sound (perform f s e).1
  /-- A call made again ends as if it had not been begun before. -/
  resumed : ∀ {f g s e}, Sound s → smooth g → perform g (perform f s e).1 e = perform g s e
  /-- An answer is that of a call that went through. -/
  answered : ∀ {f g s e r}, Sound s → smooth g → (perform f s e).2 = .ok r →
    perform g s e = perform f s e
  /-- A call that was answered stays answered, whatever is called meanwhile. -/
  kept : ∀ {f g s e e' r}, Sound s → smooth g → perform g s e = (s, .ok r) →
    perform g (perform f s e').1 e = ((perform f s e').1, .ok r)

/-- Every call of the script is answered from what is there, and so its result is known. -/
inductive Settled (smooth : φ → Prop) (s : σ) : Script ε ρ α → α → Prop
  | finish {a : α} : Settled smooth s (.finish a) a
  | call {e : ε} {next : ρ → Script ε ρ α} {r : ρ} {a : α} :
      (∀ g, smooth g → perform g s e = (s, .ok r)) → Settled smooth s (next r) a →
      Settled smooth s (.call e next) a

variable {perform}

theorem attempt_of_error {fs : Nat → φ} {s : σ} {e : ε} {x : χ} (next : ρ → Script ε ρ α)
    (h : (perform (fs 0) s e).2 = .error x) :
    attempt perform fs s (.call e next) = ((perform (fs 0) s e).1, .error x) := by
  have hpair : perform (fs 0) s e = ((perform (fs 0) s e).1, .error x) := Prod.ext rfl h
  rw [attempt, hpair]

theorem attempt_of_ok {fs : Nat → φ} {s : σ} {e : ε} {r : ρ} (next : ρ → Script ε ρ α)
    (h : (perform (fs 0) s e).2 = .ok r) :
    attempt perform fs s (.call e next) =
      attempt perform (fun n => fs (n + 1)) (perform (fs 0) s e).1 (next r) := by
  have hpair : perform (fs 0) s e = ((perform (fs 0) s e).1, .ok r) := Prod.ext rfl h
  rw [attempt, hpair]

theorem answeredCalls_of_ok {fs : Nat → φ} {s : σ} {e : ε} {r : ρ} (next : ρ → Script ε ρ α)
    (h : (perform (fs 0) s e).2 = .ok r) :
    answeredCalls perform fs s (.call e next) =
      (e, r) :: answeredCalls perform (fun n => fs (n + 1)) (perform (fs 0) s e).1 (next r) := by
  have hpair : perform (fs 0) s e = ((perform (fs 0) s e).1, .ok r) := Prod.ext rfl h
  rw [answeredCalls, hpair]

variable {smooth : φ → Prop} {Sound : σ → Prop} (R : Retryable perform smooth Sound)
include R

theorem attempt_sound {fs : Nat → φ} {s : σ} (hs : Sound s) (a : Script ε ρ α) :
    Sound (attempt perform fs s a).1 := by
  induction a generalizing fs s with
  | finish => exact hs
  | call e next ih =>
    cases h : (perform (fs 0) s e).2 with
    | error x =>
      rw [attempt_of_error next h]
      exact R.sound hs
    | ok r =>
      rw [attempt_of_ok next h]
      exact ih r (R.sound hs)

/-- An answered call is still answered after an attempt at another script. -/
theorem attempt_kept {fs : Nat → φ} {g : φ} (hg : smooth g) {s : σ} (hs : Sound s) {e : ε} {r : ρ}
    (h : perform g s e = (s, .ok r)) (a : Script ε ρ α) :
    perform g (attempt perform fs s a).1 e = ((attempt perform fs s a).1, .ok r) := by
  induction a generalizing fs s with
  | finish => exact h
  | call e' next ih =>
    have hkept : perform g (perform (fs 0) s e').1 e = ((perform (fs 0) s e').1, .ok r) :=
      R.kept hs hg h
    cases hcall : (perform (fs 0) s e').2 with
    | error x =>
      rw [attempt_of_error next hcall]
      exact hkept
    | ok r' =>
      rw [attempt_of_ok next hcall]
      exact ih r' (R.sound hs) hkept

/-- A call that was answered is answered alike where it left the state. -/
theorem perform_again {f g : φ} (hg : smooth g) {s : σ} (hs : Sound s) {e : ε} {r : ρ}
    (h : (perform f s e).2 = .ok r) :
    perform g (perform f s e).1 e = ((perform f s e).1, .ok r) := by
  rw [R.resumed hs hg, R.answered hs hg h]
  exact Prod.ext rfl h

/-- However an attempt went, the next one that nothing disturbs ends as if it were the
first. -/
theorem attempt_resumed {fs gs : Nat → φ} (hgs : ∀ n, smooth (gs n)) {s : σ} (hs : Sound s)
    (a : Script ε ρ α) :
    attempt perform gs (attempt perform fs s a).1 a = attempt perform gs s a := by
  induction a generalizing fs gs s with
  | finish => rfl
  | call e next ih =>
    cases h : (perform (fs 0) s e).2 with
    | error x =>
      rw [attempt_of_error next h, attempt, attempt, R.resumed hs (hgs 0)]
    | ok r =>
      rw [attempt_of_ok next h]
      -- the first call is done, and the rest of the attempt leaves it so
      set s' := (perform (fs 0) s e).1
      set rest := attempt perform (fun n => fs (n + 1)) s' (next r)
      have hdone : perform (gs 0) rest.1 e = (rest.1, .ok r) :=
        attempt_kept R (hgs 0) (R.sound hs) (perform_again R (hgs 0) hs h) (next r)
      have hfirst := R.answered hs (hgs 0) h
      have hrest : attempt perform (fun n => gs (n + 1)) rest.1 (next r) =
          attempt perform (fun n => gs (n + 1)) s' (next r) :=
        ih r (fun n => hgs (n + 1)) (R.sound hs)
      rw [attempt_of_ok next (congrArg Prod.snd hdone), hdone, hrest,
        attempt_of_ok next ((congrArg Prod.snd hfirst).trans h), hfirst]

/-- An attempt that got through went as one that nothing disturbs. -/
theorem attempt_answered {fs gs : Nat → φ} (hgs : ∀ n, smooth (gs n)) {s : σ} (hs : Sound s)
    {a : Script ε ρ α} {r : α} (h : (attempt perform fs s a).2 = .ok r) :
    attempt perform gs s a = attempt perform fs s a := by
  induction a generalizing fs gs s with
  | finish => rfl
  | call e next ih =>
    cases hcall : (perform (fs 0) s e).2 with
    | error x =>
      rw [attempt_of_error next hcall] at h
      cases h
    | ok r' =>
      rw [attempt_of_ok next hcall] at h ⊢
      have hfirst := R.answered hs (hgs 0) hcall
      rw [attempt_of_ok next ((congrArg Prod.snd hfirst).trans hcall), hfirst]
      exact ih r' (fun n => hgs (n + 1)) (R.sound hs) h

/-- The calls that an attempt got answered are answered alike where it left the state. -/
theorem perform_answered {fs : Nat → φ} {s : σ} (hs : Sound s) {a : Script ε ρ α} {c : ε × ρ}
    (hc : c ∈ answeredCalls perform fs s a) {g : φ} (hg : smooth g) :
    perform g (attempt perform fs s a).1 c.1 = ((attempt perform fs s a).1, .ok c.2) := by
  induction a generalizing fs s with
  | finish => cases hc
  | call e next ih =>
    cases hcall : (perform (fs 0) s e).2 with
    | error x =>
      have hpair : perform (fs 0) s e = ((perform (fs 0) s e).1, .error x) := Prod.ext rfl hcall
      rw [answeredCalls, hpair] at hc
      cases hc
    | ok r =>
      rw [answeredCalls_of_ok next hcall] at hc
      rw [attempt_of_ok next hcall]
      rcases List.mem_cons.mp hc with rfl | hc
      · exact attempt_kept R hg (R.sound hs) (perform_again R hg hs hcall) (next r)
      · exact ih r (R.sound hs) hc

/-- An attempt that got through leaves the script settled. -/
theorem settled_of_answered {fs : Nat → φ} {s : σ} (hs : Sound s) {a : Script ε ρ α} {r : α}
    (h : (attempt perform fs s a).2 = .ok r) :
    Settled perform smooth (attempt perform fs s a).1 a r := by
  induction a generalizing fs s with
  | finish b =>
    obtain rfl := Except.ok.inj h
    exact .finish
  | call e next ih =>
    cases hcall : (perform (fs 0) s e).2 with
    | error x =>
      rw [attempt_of_error next hcall] at h
      cases h
    | ok r' =>
      rw [attempt_of_ok next hcall] at h ⊢
      refine .call ?_ (ih r' (R.sound hs) h)
      intro g hg
      exact attempt_kept R hg (R.sound hs) (perform_again R hg hs hcall) (next r')

theorem Settled.kept {fs : Nat → φ} {s : σ} (hs : Sound s) {a : Script ε ρ α} {r : α}
    (h : Settled perform smooth s a r) (b : Script ε ρ β) :
    Settled perform smooth (attempt perform fs s b).1 a r := by
  induction h with
  | finish => exact .finish
  | call hcall _ ih => exact .call (fun g hg => attempt_kept R hg hs (hcall g hg) b) ih

omit R in
theorem Settled.attempt {gs : Nat → φ} (hgs : ∀ n, smooth (gs n)) {s : σ} {a : Script ε ρ α} {r : α}
    (h : Settled perform smooth s a r) :
    attempt perform gs s a = (s, .ok r) := by
  induction h generalizing gs with
  | finish => rfl
  | @call e next r' a hcall _ ih =>
    have hfirst := hcall (gs 0) (hgs 0)
    rw [attempt_of_ok next (congrArg Prod.snd hfirst), hfirst]
    exact ih (fun n => hgs (n + 1))

end

end EngineeringIntelligence.Framework
