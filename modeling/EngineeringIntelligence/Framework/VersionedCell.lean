import EngineeringIntelligence.Framework.Run
import Mathlib.Data.List.Range
import Mathlib.Data.List.Nodup

namespace EngineeringIntelligence.Framework

/-! Optimistic concurrency: a cell whose content carries a version, which a writer that names a
version replaces only while it is the present one. -/

section
variable {σ α β ρ : Type} (step : σ → α → σ × β)

/-- The accepted writes to a cell in a run, each with the version its writer expected. -/
def wins (won : σ → α → Option (Option Int × ρ)) (s : σ) : List α → List (Option Int × ρ)
  | [] => []
  | a :: as => (won s a).toList ++ wins won (step s a).1 as

/-- What the steps of a machine do to a cell. -/
structure CellLaw (Inv : σ → Prop) (cell : σ → Option ρ) (version : ρ → Int)
    (won : σ → α → Option (Option Int × ρ)) : Prop where
  preserved : ∀ s a, Inv s → Inv (step s a).1
  kept : ∀ s a, Inv s → won s a = none → cell (step s a).1 = cell s
  replaced : ∀ s a expected r, Inv s → won s a = some (expected, r) →
    cell (step s a).1 = some r ∧ version r = (cell s).elim 0 version + 1 ∧
      ∀ v, expected = some v → (cell s).map version = some v

/-- No update of a run is lost: at most one write succeeds for each expected version, the
successful writes are numbered one by one, and the last of them is what the cell holds. -/
structure NoLostUpdate (cell : σ → Option ρ) (version : ρ → Int)
    (won : σ → α → Option (Option Int × ρ)) (s : σ) (as : List α) : Prop where
  once : ((wins step won s as).filterMap (·.1)).Nodup
  numbered : (wins step won s as).map (fun w => version w.2) =
    (List.range (wins step won s as).length).map fun i : Nat => (cell s).elim 0 version + 1 + i
  last : cell (runState step s as) = ((wins step won s as).getLast?.map (·.2)).or (cell s)

variable {step} {Inv : σ → Prop} {cell : σ → Option ρ} {version : ρ → Int}
  {won : σ → α → Option (Option Int × ρ)}

theorem wins_cons_none {s : σ} {a : α} (h : won s a = none) (as : List α) :
    wins step won s (a :: as) = wins step won (step s a).1 as := by
  rw [wins, h, Option.toList_none, List.nil_append]

theorem wins_cons_some {s : σ} {a : α} {w : Option Int × ρ} (h : won s a = some w) (as : List α) :
    wins step won s (a :: as) = w :: wins step won (step s a).1 as := by
  rw [wins, h, Option.toList_some, List.singleton_append]

namespace CellLaw

variable (law : CellLaw step Inv cell version won)

include law

theorem numbered {s : σ} (hs : Inv s) (as : List α) : (wins step won s as).map (fun w => version w.2) =
    (List.range (wins step won s as).length).map fun i : Nat => (cell s).elim 0 version + 1 + i := by
  induction as generalizing s with
  | nil => rfl
  | cons a as ih =>
    have hnext := ih (law.preserved s a hs)
    cases hwon : won s a with
    | none =>
      rw [law.kept s a hs hwon] at hnext
      rw [wins_cons_none hwon, hnext]
    | some w =>
      obtain ⟨hcell, hversion, -⟩ := law.replaced s a w.1 w.2 hs hwon
      rw [hcell, Option.elim_some, hversion] at hnext
      rw [wins_cons_some hwon, List.map_cons, List.length_cons, List.range_succ_eq_map, List.map_cons,
        List.map_map, hnext, hversion]
      refine congrArg₂ _ (by simp) (List.map_congr_left fun i _ => ?_)
      simp only [Function.comp_apply]
      omega

theorem last {s : σ} (hs : Inv s) (as : List α) :
    cell (runState step s as) = ((wins step won s as).getLast?.map (·.2)).or (cell s) := by
  induction as generalizing s with
  | nil => rfl
  | cons a as ih =>
    have hnext := ih (law.preserved s a hs)
    rw [runState_cons, hnext]
    cases hwon : won s a with
    | none => rw [wins_cons_none hwon, law.kept s a hs hwon]
    | some w =>
      obtain ⟨hcell, -⟩ := law.replaced s a w.1 w.2 hs hwon
      rw [wins_cons_some hwon, hcell]
      generalize wins step won (step s a).1 as = rest
      cases rest with
      | nil => rfl
      | cons x rest => simp [List.getLast?_cons]

/-- Whoever expected a version and succeeded left the next one. -/
theorem expected {s : σ} (hs : Inv s) {as : List α} {w : Option Int × ρ} (hw : w ∈ wins step won s as)
    {v : Int} (hv : w.1 = some v) : version w.2 = v + 1 := by
  induction as generalizing s with
  | nil => cases hw
  | cons a as ih =>
    cases hwon : won s a with
    | none =>
      rw [wins_cons_none hwon] at hw
      exact ih (law.preserved s a hs) hw
    | some x =>
      rw [wins_cons_some hwon, List.mem_cons] at hw
      obtain rfl | hw := hw
      · obtain ⟨-, hversion, hpresent⟩ := law.replaced s a w.1 w.2 hs hwon
        obtain ⟨r, hr, hrv⟩ := Option.map_eq_some_iff.mp (hpresent v hv)
        rw [hversion, hr, Option.elim_some, hrv]
      · exact ih (law.preserved s a hs) hw

theorem noLostUpdate {s : σ} (hs : Inv s) (as : List α) : NoLostUpdate step cell version won s as where
  numbered := law.numbered hs as
  last := law.last hs as
  once := by
    have hversions : ((wins step won s as).map fun w => version w.2).Nodup := by
      rw [law.numbered hs as]
      refine List.Nodup.map (fun i j hij => ?_) List.nodup_range
      omega
    have hdistinct : (wins step won s as).Pairwise fun w w' => version w.2 ≠ version w'.2 :=
      List.pairwise_map.mp hversions
    refine List.pairwise_filterMap.mpr (hdistinct.imp_of_mem ?_)
    intro w w' hw hw' hne v hv v' hv' heq
    subst heq
    exact hne ((law.expected hs hw hv).trans (law.expected hs hw' hv').symm)

end CellLaw

end

end EngineeringIntelligence.Framework
