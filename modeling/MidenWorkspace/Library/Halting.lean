import Mathlib.Logic.Basic

/-!
Contract: runs of a deterministic machine that may halt with a result.

A step either moves to a next state or ends the run with a result. Owns the run
with a bound on its steps, the judgement `Halts` that forgets the bound, how both
behave along steps, and the comparison of a machine with one that takes several
smaller steps for each of its steps.

Does not own: any state or any result.
-/

namespace MidenWorkspace.Library.Halting

universe u v

variable {σ : Type u} {ρ : Type v}

/-- At most `fuel` steps; `.error` is the result with which a run ends. -/
def runFor (step : σ → Except ρ σ) : Nat → σ → Option ρ
  | 0, _ => none
  | fuel + 1, state =>
      match step state with
      | .ok next => runFor step fuel next
      | .error result => some result

/-- The run from `state` ends with `result`. -/
def Halts (step : σ → Except ρ σ) (state : σ) (result : ρ) : Prop :=
  ∃ fuel, runFor step fuel state = some result

/-- What `outcome`, the answer of one step, leads to after `count` further steps. -/
inductive LeadsTo (step : σ → Except ρ σ) : Nat → Except ρ σ → Except ρ σ → Prop where
  | refl (outcome : Except ρ σ) : LeadsTo step 0 outcome outcome
  | step {count : Nat} {state : σ} {outcome : Except ρ σ}
      (rest : LeadsTo step count (step state) outcome) :
      LeadsTo step (count + 1) (.ok state) outcome

/-- The run that goes on from `outcome` ends within `fuel` steps. -/
def HaltsWithin (step : σ → Except ρ σ) (fuel : Nat) : Except ρ σ → Prop
  | .ok state => (runFor step fuel state).isSome
  | .error _ => True

section Runs

variable {step : σ → Except ρ σ} {state next : σ} {result : ρ}

theorem runFor_mono {fuel more : Nat} (ran : runFor step fuel state = some result)
    (le : fuel ≤ more) : runFor step more state = some result := by
  induction fuel generalizing state more with
  | zero => exact nomatch ran
  | succ fuel inductionHypothesis =>
      obtain ⟨extra, rfl⟩ : ∃ extra, more = extra + 1 := ⟨more - 1, by omega⟩
      rw [runFor] at ran ⊢
      cases stepped : step state with
      | ok next =>
          rw [stepped] at ran
          exact inductionHypothesis ran (by omega)
      | error ended =>
          rw [stepped] at ran
          exact ran

theorem halts_of_step_ok (stepped : step state = .ok next) :
    Halts step state result ↔ Halts step next result := by
  constructor
  · rintro ⟨fuel, ran⟩
    match fuel with
    | 0 => exact nomatch ran
    | fuel + 1 =>
        rw [runFor, stepped] at ran
        exact ⟨fuel, ran⟩
  · rintro ⟨fuel, ran⟩
    refine ⟨fuel + 1, ?_⟩
    rw [runFor, stepped]
    exact ran

theorem halts_of_step_error (stepped : step state = .error result) : Halts step state result := by
  refine ⟨1, ?_⟩
  rw [runFor, stepped]

theorem Halts.unique {other : ρ} (first : Halts step state result)
    (second : Halts step state other) : result = other := by
  obtain ⟨fuel, ran⟩ := first
  induction fuel generalizing state with
  | zero => exact nomatch ran
  | succ fuel inductionHypothesis =>
      rw [runFor] at ran
      cases stepped : step state with
      | ok next =>
          rw [stepped] at ran
          exact inductionHypothesis ((halts_of_step_ok stepped).mp second) ran
      | error ended =>
          rw [stepped] at ran
          obtain ⟨otherFuel, otherRan⟩ := second
          match otherFuel with
          | 0 => exact nomatch otherRan
          | otherFuel + 1 =>
              rw [runFor, stepped] at otherRan
              exact Option.some.inj (ran.symm.trans otherRan)

theorem haltsWithin_zero : ¬ HaltsWithin step 0 (.ok state) := Bool.false_ne_true

theorem haltsWithin_succ {fuel : Nat} :
    HaltsWithin step (fuel + 1) (.ok state) ↔ HaltsWithin step fuel (step state) := by
  rw [HaltsWithin, runFor]
  cases step state with
  | ok next => exact Iff.rfl
  | error ended => exact iff_of_true rfl trivial

theorem HaltsWithin.succ {fuel : Nat} {outcome : Except ρ σ}
    (within : HaltsWithin step fuel outcome) : HaltsWithin step (fuel + 1) outcome := by
  cases outcome with
  | error ended => trivial
  | ok state =>
      obtain ⟨result, ran⟩ := Option.isSome_iff_exists.mp within
      exact Option.isSome_iff_exists.mpr ⟨result, runFor_mono ran fuel.le_succ⟩

namespace LeadsTo

variable {outcome final : Except ρ σ} {count : Nat}

theorem trans {more : Nat} {last : Except ρ σ} (first : LeadsTo step count outcome final)
    (second : LeadsTo step more final last) : LeadsTo step (count + more) outcome last := by
  induction first with
  | refl outcome =>
      rw [Nat.zero_add]
      exact second
  | step rest inductionHypothesis =>
      rw [Nat.add_right_comm]
      exact .step (inductionHypothesis second)

theorem error_eq (led : LeadsTo step count (.error result) final) : final = .error result := by
  cases led
  rfl

theorem runFor_eq (led : LeadsTo step count (.ok state) (.ok next)) (fuel : Nat) :
    runFor step (count + fuel) state = runFor step fuel next := by
  generalize started : (Except.ok state : Except ρ σ) = outcome at led
  generalize ended : (Except.ok next : Except ρ σ) = final at led
  induction led generalizing state with
  | refl outcome =>
      obtain rfl := Except.ok.inj (ended.trans started.symm)
      rw [Nat.zero_add]
  | @step count middle outcome rest inductionHypothesis =>
      obtain rfl := Except.ok.inj started
      rw [Nat.add_right_comm, runFor]
      cases stepped : step state with
      | ok later => exact inductionHypothesis stepped.symm ended
      | error result =>
          rw [stepped] at rest
          exact nomatch rest.error_eq.symm.trans ended.symm

/-- What is left of a run ends within the same bound. -/
theorem haltsWithin {fuel : Nat} (led : LeadsTo step count outcome final)
    (within : HaltsWithin step fuel outcome) : HaltsWithin step fuel final := by
  induction led with
  | refl outcome => exact within
  | step rest inductionHypothesis =>
      match fuel with
      | 0 => exact absurd within haltsWithin_zero
      | fuel + 1 => exact inductionHypothesis (haltsWithin_succ.mp within).succ

theorem halts (led : LeadsTo step count (.ok state) (.error result)) : Halts step state result := by
  generalize started : (Except.ok state : Except ρ σ) = outcome at led
  generalize ended : (Except.error result : Except ρ σ) = final at led
  induction led generalizing state with
  | refl outcome => exact nomatch ended.trans started.symm
  | @step count middle outcome rest inductionHypothesis =>
      obtain rfl := Except.ok.inj started
      cases stepped : step state with
      | ok later => exact (halts_of_step_ok stepped).mpr (inductionHypothesis stepped.symm ended)
      | error other =>
          rw [stepped] at rest
          obtain rfl := Except.error.inj (ended.trans rest.error_eq)
          exact halts_of_step_error stepped

end LeadsTo

end Runs

/-- A machine that takes at least one smaller step for each step of another halts with the
same results, from every state. -/
theorem halts_iff_of_smaller_steps {coarse fine : σ → Except ρ σ}
    (smaller : ∀ state, ∃ count, LeadsTo fine count (fine state) (coarse state))
    (state : σ) (result : ρ) : Halts coarse state result ↔ Halts fine state result := by
  have steps : ∀ state, ∃ count, LeadsTo fine (count + 1) (.ok state) (coarse state) := by
    intro state
    obtain ⟨count, led⟩ := smaller state
    exact ⟨count, .step led⟩
  constructor
  · rintro ⟨fuel, ran⟩
    induction fuel generalizing state with
    | zero => exact nomatch ran
    | succ fuel inductionHypothesis =>
        rw [runFor] at ran
        obtain ⟨count, led⟩ := steps state
        cases stepped : coarse state with
        | ok next =>
            rw [stepped] at ran led
            obtain ⟨fineFuel, fineRan⟩ := inductionHypothesis next ran
            exact ⟨count + 1 + fineFuel, (led.runFor_eq fineFuel).trans fineRan⟩
        | error ended =>
            rw [stepped] at ran led
            obtain rfl := Option.some.inj ran
            exact led.halts
  · rintro ⟨fuel, ran⟩
    -- Each coarse step uses up at least one of the finer steps.
    induction fuel using Nat.strongRecOn generalizing state with
    | ind fuel inductionHypothesis =>
        obtain ⟨count, led⟩ := steps state
        cases stepped : coarse state with
        | ok next =>
            rw [stepped] at led
            apply (halts_of_step_ok stepped).mpr
            by_cases enough : count + 1 ≤ fuel
            · obtain ⟨rest, rfl⟩ := Nat.exists_eq_add_of_le enough
              rw [led.runFor_eq rest] at ran
              exact inductionHypothesis rest (by omega) next ran
            · have later := runFor_mono ran (Nat.le_of_not_le enough)
              rw [← Nat.add_zero (count + 1), led.runFor_eq 0] at later
              exact nomatch later
        | error ended =>
            rw [stepped] at led
            obtain rfl := led.halts.unique ⟨fuel, ran⟩
            exact halts_of_step_error stepped

end MidenWorkspace.Library.Halting
