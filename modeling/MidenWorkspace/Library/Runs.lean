import Mathlib.Data.List.Induction

/-!
Contract: runs of a deterministic system.

Owns the state after a list of inputs, how it composes, and the rules by which
facts about one step become facts about every run: a property that each step
keeps, a property that a step keeps exactly under a condition, and a preorder
along which each step moves; and runs in which every step meets a condition.
-/

namespace MidenWorkspace.Library.Runs

variable {State Input : Type*} (step : State → Input → State)

/-- The state after all inputs, in order. -/
def after (start : State) (inputs : List Input) : State :=
  inputs.foldl step start

@[simp] theorem after_nil (start : State) : after step start [] = start := rfl

@[simp] theorem after_cons (start : State) (input : Input) (rest : List Input) :
    after step start (input :: rest) = after step (step start input) rest := rfl

theorem after_append (start : State) (first second : List Input) :
    after step start (first ++ second) = after step (after step start first) second :=
  List.foldl_append

variable {step}

theorem after_invariant (Kept : State → Prop) {inputs : List Input}
    (keeps : ∀ state, ∀ input ∈ inputs, Kept state → Kept (step state input))
    {start : State} (holds : Kept start) : Kept (after step start inputs) := by
  induction inputs generalizing start with
  | nil => exact holds
  | cons input rest inductionHypothesis =>
      apply inductionHypothesis
      · exact fun state later member => keeps state later (List.mem_cons_of_mem input member)
      · exact keeps start input List.mem_cons_self holds

/-- If a step keeps the property exactly under a condition, then all states of a
run have it exactly if every step of the run meets the condition where it starts. -/
theorem forall_after_iff (Kept : State → Prop) (Condition : State → Input → Prop)
    (keeps : ∀ state input, Kept state → (Kept (step state input) ↔ Condition state input))
    {start : State} (holds : Kept start) (inputs : List Input) :
    (∀ done, done <+: inputs → Kept (after step start done)) ↔
      ∀ done next, done ++ [next] <+: inputs → Condition (after step start done) next := by
  constructor
  · intro kept done next within
    have before := kept done ((List.prefix_append done [next]).trans within)
    have behind := kept (done ++ [next]) within
    rw [after_append] at behind
    exact (keeps _ next before).mp behind
  · intro conditions done
    induction done using List.reverseRecOn with
    | nil => exact fun _ => holds
    | append_singleton done next inductionHypothesis =>
        intro within
        have before := inductionHypothesis ((List.prefix_append done [next]).trans within)
        rw [after_append]
        exact (keeps _ next before).mpr (conditions done next within)

theorem after_moves (Moves : State → State → Prop) (refl : ∀ state, Moves state state)
    (trans : ∀ {first second third}, Moves first second → Moves second third → Moves first third)
    (moves : ∀ state input, Moves state (step state input))
    (start : State) (inputs : List Input) : Moves start (after step start inputs) := by
  induction inputs generalizing start with
  | nil => exact refl start
  | cons input rest inductionHypothesis =>
      exact trans (moves start input) (inductionHypothesis (step start input))

/-! ### Conditions along a run -/

variable (step) in
/-- Every step meets the condition where it starts. -/
def Along (Holds : State → Input → Prop) : State → List Input → Prop
  | _, [] => True
  | state, input :: rest => Holds state input ∧ Along Holds (step state input) rest

instance Along.decidable {Holds : State → Input → Prop}
    [∀ state input, Decidable (Holds state input)] :
    ∀ start inputs, Decidable (Along step Holds start inputs)
  | _, [] => inferInstanceAs (Decidable True)
  | start, input :: rest =>
      have : Decidable (Along step Holds (step start input) rest) :=
        Along.decidable (step start input) rest
      inferInstanceAs (Decidable (Holds start input ∧ Along step Holds (step start input) rest))

theorem along_append {Holds : State → Input → Prop} {start : State} {first second : List Input} :
    Along step Holds start (first ++ second) ↔
      Along step Holds start first ∧ Along step Holds (after step start first) second := by
  induction first generalizing start with
  | nil => simp [Along]
  | cons input rest inductionHypothesis =>
      simp only [List.cons_append, Along, inductionHypothesis, after_cons, and_assoc]

/-- What each step keeps when it meets the condition. -/
theorem Along.invariant {Holds : State → Input → Prop} (Kept : State → Prop)
    (keeps : ∀ state input, Holds state input → Kept state → Kept (step state input))
    {start : State} {inputs : List Input} (along : Along step Holds start inputs)
    (holds : Kept start) : Kept (after step start inputs) := by
  induction inputs generalizing start with
  | nil => exact holds
  | cons input rest inductionHypothesis =>
      exact inductionHypothesis along.2 (keeps start input along.1 holds)

end MidenWorkspace.Library.Runs
