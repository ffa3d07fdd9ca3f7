import Mathlib.Logic.Basic

/-!
Contract: fallible computations that follow a specification.

`Matches` compares a computation with the one that specifies it. Both end in
related values, or both fail with corresponding errors, or the computation fails
because a resource of its own ran out, of which the specification knows nothing.

Owns the relation, its composition along `bind`, and the passage from steps to
runs. A run that ran out of a resource has done so at one of its steps: `RunsInto`
keeps what both sides had reached there.
-/

namespace MidenWorkspace.Library.Simulation

universe u v w x

variable {ε : Type u} {δ : Type v} {σ σ' : Type w} {τ τ' : Type x}

theorem ok_bind (value : σ) (next : σ → Except ε σ') :
    (Except.ok value >>= next) = next value := rfl

/-- `left` follows `right`, unless it runs out of a resource. -/
inductive Matches (Same : ε → δ → Prop) (Exhausted : ε → Prop) (Related : σ → τ → Prop) :
    Except ε σ → Except δ τ → Prop where
  | ok {left : σ} {right : τ} (related : Related left right) :
      Matches Same Exhausted Related (.ok left) (.ok right)
  | error {left : ε} {right : δ} (same : Same left right) :
      Matches Same Exhausted Related (.error left) (.error right)
  | exhausted {left : ε} (ranOut : Exhausted left) (right : Except δ τ) :
      Matches Same Exhausted Related (.error left) right

/-- Both runs succeed up to a step before which `Full` holds of what they have reached. -/
def RunsInto {ι : Type*} (step : σ → ι → Except ε σ) (specified : τ → ι → Except δ τ)
    (Full : σ → τ → ι → Prop) (state : σ) (spec : τ) (inputs : List ι) : Prop :=
  ∃ done input reached reachedSpec, done ++ [input] <+: inputs ∧
    done.foldlM step state = .ok reached ∧ done.foldlM specified spec = .ok reachedSpec ∧
      Full reached reachedSpec input

section Runs

variable {ι : Type*} {step : σ → ι → Except ε σ} {specified : τ → ι → Except δ τ}
  {Full : σ → τ → ι → Prop} {state next : σ} {spec nextSpec : τ} {input : ι} {inputs : List ι}

theorem RunsInto.head (full : Full state spec input) :
    RunsInto step specified Full state spec (input :: inputs) :=
  ⟨[], input, state, spec, List.prefix_append [input] inputs, rfl, rfl, full⟩

theorem RunsInto.tail (stepped : step state input = .ok next)
    (specStepped : specified spec input = .ok nextSpec)
    (later : RunsInto step specified Full next nextSpec inputs) :
    RunsInto step specified Full state spec (input :: inputs) := by
  obtain ⟨done, last, reached, reachedSpec, within, ran, specRan, full⟩ := later
  refine ⟨input :: done, last, reached, reachedSpec, ?_, ?_, ?_, full⟩
  · exact (List.prefix_cons_inj input).mpr within
  · rw [List.foldlM_cons, stepped]
    exact ran
  · rw [List.foldlM_cons, specStepped]
    exact specRan

end Runs

namespace Matches

variable {Same : ε → δ → Prop} {Exhausted : ε → Prop} {Related : σ → τ → Prop}
  {Related' : σ' → τ' → Prop}

theorem bind_of_eq {left : Except ε σ} {right : Except δ τ} {next : σ → Except ε σ'}
    {specified : τ → Except δ τ'} (first : Matches Same Exhausted Related left right)
    (rest : ∀ state spec, left = .ok state → right = .ok spec → Related state spec →
      Matches Same Exhausted Related' (next state) (specified spec)) :
    Matches Same Exhausted Related' (left >>= next) (right >>= specified) := by
  cases first with
  | ok related => exact rest _ _ rfl rfl related
  | error same => exact .error same
  | exhausted ranOut right => exact .exhausted ranOut _

theorem imp {Wider : σ → τ → Prop} {Often : ε → Prop} {left : Except ε σ} {right : Except δ τ}
    (matched : Matches Same Exhausted Related left right)
    (often : ∀ failure, Exhausted failure → Often failure)
    (wider : ∀ state spec, Related state spec → Wider state spec) :
    Matches Same Often Wider left right := by
  cases matched with
  | ok related => exact .ok (wider _ _ related)
  | error failed => exact .error failed
  | exhausted ranOut right => exact .exhausted (often _ ranOut) right

variable {ι : Type*} {step : σ → ι → Except ε σ} {specified : τ → ι → Except δ τ}
  {Full : σ → τ → ι → Prop}

/-- Computations whose steps follow the specified steps follow them along every run, and run
out of the resource only where one of the steps does. -/
theorem foldlM (inputs : List ι)
    (steps : ∀ state spec input, Related state spec →
      Matches Same (fun failure => Exhausted failure ∧ Full state spec input) Related
        (step state input) (specified spec input))
    {state : σ} {spec : τ} (related : Related state spec) :
    Matches Same
      (fun failure => Exhausted failure ∧ RunsInto step specified Full state spec inputs) Related
      (inputs.foldlM step state) (inputs.foldlM specified spec) := by
  induction inputs generalizing state spec with
  | nil => exact .ok related
  | cons input rest inductionHypothesis =>
      rw [List.foldlM_cons, List.foldlM_cons]
      have first : Matches Same
          (fun failure => Exhausted failure ∧
            RunsInto step specified Full state spec (input :: rest))
          Related (step state input) (specified spec input) :=
        (steps state spec input related).imp
          (fun _ ranOut => ⟨ranOut.1, .head ranOut.2⟩) fun _ _ => id
      apply first.bind_of_eq
      intro next nextSpec stepped specStepped nextRelated
      exact (inductionHypothesis nextRelated).imp
        (fun _ ranOut => ⟨ranOut.1, .tail stepped specStepped ranOut.2⟩) fun _ _ => id

end Matches

end MidenWorkspace.Library.Simulation
