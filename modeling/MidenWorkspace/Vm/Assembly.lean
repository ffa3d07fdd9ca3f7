import Mathlib.Tactic.IntervalCases
import MidenWorkspace.Library.Structured
import MidenWorkspace.Vm.Operation

/-!
Contract: assembly instructions, their lowering to operations, and what each
lowered instruction does to cells over a caller's stack.

Owns:
- `Instruction.lower`, one branch per branch of `compile_instruction_impl`
  that the modelled procedures reach;
- the machine on which procedures run, with the loop test of
  `start_loop_node` and `finish_loop_node`;
- one step law for each instruction that does not depend on the values it
  meets. Comparisons and boolean connectives have a module of their own.
-/

namespace MidenWorkspace.Vm

open Fin.CommRing
open MidenWorkspace.Library.Structured

inductive Instruction (η : Type) where
  | assert
  | assertEq
  | add
  | addImm (value : Felt)
  | sub
  | subImm (value : Felt)
  | mul
  | not
  | xor
  | eqImm (value : Felt)
  | lt
  | gt
  | gte
  | drop
  | dropW
  | padW
  | dup (n : Nat)
  | swap (n : Nat)
  | swapW1
  | swapW3
  | swapDw
  | movUp (n : Nat)
  | movDn (n : Nat)
  | push (value : Felt)
  | advPush
  | advPushW
  | mtreeSet
  | debugStack
  | call (procedure : η)
deriving DecidableEq, Repr

namespace Instruction

variable {η : Type}

/-! ### Comparison sequences (`field_ops.rs`) -/

/-- `[b, a] ⇒ [b_lo, b_hi, a_lo, a_hi]`. -/
def splitElements : List (Operation η) := [.swap, .u32split, .movUp 2, .u32split]

def checkLtAndEq : List (Operation η) := [.u32sub, .swap, .eqz]

def checkLtHighBits : List (Operation η) :=
  [.movUp 3, .movUp 2] ++ checkLtAndEq ++ [.movUp 2, .movUp 3, .swap]

def checkGtHighBits : List (Operation η) :=
  [.swap, .movUp 3] ++ checkLtAndEq ++ [.movUp 2, .movUp 3]

def checkLt : List (Operation η) := [.u32sub, .swap, .drop]

def checkLte : List (Operation η) := [.u32sub, .swap, .eqz, .or]

def setResult : List (Operation η) := [.and, .or]

/-! ### Merkle sequences (`crypto_ops.rs`) -/

def pushSystemEvent (event : SystemEvent) : List (Operation η) :=
  [.push event.eventId, .emit event, .drop]

def readMtreeNode : List (Operation η) :=
  pushSystemEvent .merkleNodeToStack ++ [.pad, .pad, .pad, .pad, .advPopW]

def updateMtree : List (Operation η) :=
  readMtreeNode ++
    -- duplicate the old value in two halves, since only 16 cells are in reach
    [.movUp 5, .movUp 5, .dup 5, .dup 5, .swapDW, .swapW, .swapW2, .dup 13, .dup 13,
      .mrUpdate,
      .movUp 4, .drop, .movUp 4, .drop,
      .swapW, .drop, .drop, .drop, .drop,
      .swapW, .drop, .drop, .drop, .drop,
      .swapW]

/-! ### Lowering -/

def lower : Instruction η → List (Operation η)
  | .assert => [.assert]
  | .assertEq => [.eq, .assert]
  | .add => [.add]
  | .addImm value =>
      if value = 0 then [.noop]
      else if value = 1 then [.incr]
      else if value = 2 then [.incr, .incr]
      else [.push value, .add]
  | .sub => [.neg, .add]
  | .subImm value => if value = 0 then [.noop] else [.push (-value), .add]
  | .mul => [.mul]
  | .not => [.not]
  | .xor => [.dup 0, .dup 2, .or, .movDn 2, .and, .not, .and]
  | .eqImm value => if value = 0 then [.eqz] else [.push value, .eq]
  | .lt => splitElements ++ checkLtHighBits ++ checkLt ++ setResult
  | .gt => splitElements ++ checkGtHighBits ++ checkLt ++ setResult
  | .gte => splitElements ++ checkGtHighBits ++ checkLte ++ setResult
  | .drop => [.drop]
  | .dropW => [.drop, .drop, .drop, .drop]
  | .padW => [.pad, .pad, .pad, .pad]
  | .dup n => if n ∈ [8, 10, 12, 14] then [.pad, .dup (n + 1), .add] else [.dup n]
  | .swap n =>
      match n with
      | 1 => [.swap]
      | 2 => [.swap, .movUp 2]
      | 9 => [.movDn 8, .swapDW, .swap, .swapDW, .movUp 8]
      | 10 => [.movDn 8, .swapDW, .swap, .movUp 2, .swapDW, .movUp 8]
      | n =>
          if n ≤ 8 then [.movDn (n - 1), .movUp n]
          else [.movDn 8, .swapDW, .movDn (n - 9), .movUp (n - 8), .swapDW, .movUp 8]
  | .swapW1 => [.swapW]
  | .swapW3 => [.swapW3]
  | .swapDw => [.swapDW]
  | .movUp n =>
      if n ≤ 8 then [.movUp n]
      else if n = 9 then [.swapDW, .swap, .swapDW, .movUp 8]
      else [.swapDW, .movUp (n - 8), .swapDW, .movUp 8]
  | .movDn n =>
      if n ≤ 8 then [.movDn n]
      else if n = 9 then [.movDn 8, .swapDW, .swap, .swapDW]
      else [.movDn 8, .swapDW, .movDn (n - 8), .swapDW]
  | .push value => [.push value]
  | .advPush => [.advPop]
  | .advPushW => [.pad, .pad, .pad, .pad, .advPopW]
  | .mtreeSet => updateMtree
  | .debugStack => []
  | .call procedure => [.call procedure]

end Instruction

section Machine

variable {κ σ η : Type}

/-- Run operations in order. -/
def executeAll (environment : Environment κ σ η) :
    List (Operation η) → State κ σ → Except ExecutionError (State κ σ)
  | [], state => .ok state
  | operation :: rest, state => do
      executeAll environment rest (← operation.execute environment state)

/-- Loop nodes pop their condition and accept only `1` and `0`. -/
def popCondition (state : State κ σ) : Except ExecutionError (Bool × State κ σ) :=
  let condition := state.stack.get 0
  if condition = 1 then .ok (true, { state with stack := state.stack.drop })
  else if condition = 0 then .ok (false, { state with stack := state.stack.drop })
  else .error (.notBinaryValueLoop condition)

def machine (environment : Environment κ σ η) :
    Machine (Instruction η) (State κ σ) ExecutionError where
  step instruction := executeAll environment instruction.lower
  test := popCondition

/-! ### Step laws -/

@[simp] theorem popTwoPush_above (f : Felt → Felt → Felt) (b a : Felt) (top : List Felt)
    (caller : OperandStack) :
    Operation.popTwoPush f (.above (b :: a :: top) caller) = .above (f a b :: top) caller := by
  unfold Operation.popTwoPush
  rw [OperandStack.drop_above]
  rfl

variable (environment : Environment κ σ η)

/-- Operations that run to the end hand their final state to those after them. -/
theorem executeAll_append {before : List (Operation η)} {state middle : State κ σ}
    (ran : executeAll environment before state = .ok middle) (after : List (Operation η)) :
    executeAll environment (before ++ after) state = executeAll environment after middle := by
  induction before generalizing state with
  | nil =>
      obtain rfl : state = middle := by simpa [executeAll] using ran
      rfl
  | cons operation rest inductionHypothesis =>
      simp only [List.cons_append, executeAll] at ran ⊢
      cases stepped : operation.execute environment state with
      | error failure => simp [stepped, bind, Except.bind] at ran
      | ok next =>
          rw [stepped] at ran
          exact inductionHypothesis ran

/-- A lowering to one operation runs that operation. -/
theorem step_of_lower_singleton {instruction : Instruction η} {operation : Operation η}
    (single : instruction.lower = [operation]) (state : State κ σ) :
    (machine environment).step instruction state = operation.execute environment state := by
  simp only [machine, single, executeAll]
  cases operation.execute environment state <;> rfl

/-- From `movup.9` on there is no operation of its own; the lowering through
the double words still lifts the named cell. -/
theorem step_movUp {n : Nat} (valid : n ≤ 15) (state : State κ σ) :
    (machine environment).step (.movUp n) state =
      .ok { state with stack := state.stack.movUp n } := by
  by_cases small : n ≤ 8
  · rw [step_of_lower_singleton environment (by rw [Instruction.lower, if_pos small])]
    rfl
  · rw [← OperandStack.movUp_through_swapCells (by omega) valid]
    by_cases nine : n = 9
    · subst nine
      rw [← OperandStack.swap_eq_movUp]
      rfl
    · show executeAll environment (Instruction.movUp n).lower state = _
      rw [Instruction.lower, if_neg small, if_neg nine]
      rfl

section Over

variable (caller : OperandStack) (advice : List Felt) (store : σ) (storage : Storage κ)
  (top : List Felt)

@[simp] theorem step_push (value : Felt) :
    (machine environment).step (.push value) ⟨.above top caller, advice, store, storage⟩ =
      .ok ⟨.above (value :: top) caller, advice, store, storage⟩ := rfl

@[simp] theorem step_padW :
    (machine environment).step .padW ⟨.above top caller, advice, store, storage⟩ =
      .ok ⟨.above (0 :: 0 :: 0 :: 0 :: top) caller, advice, store, storage⟩ := rfl

@[simp] theorem step_drop (a : Felt) :
    (machine environment).step .drop ⟨.above (a :: top) caller, advice, store, storage⟩ =
      .ok ⟨.above top caller, advice, store, storage⟩ := by
  rw [step_of_lower_singleton environment rfl]
  simp [Operation.execute]

@[simp] theorem step_dropW (a b c d : Felt) :
    (machine environment).step .dropW
        ⟨.above (a :: b :: c :: d :: top) caller, advice, store, storage⟩ =
      .ok ⟨.above top caller, advice, store, storage⟩ := by
  simp [machine, Instruction.lower, executeAll, Operation.execute, bind, Except.bind]

@[simp] theorem step_dup_zero (a : Felt) :
    (machine environment).step (.dup 0) ⟨.above (a :: top) caller, advice, store, storage⟩ =
      .ok ⟨.above (a :: a :: top) caller, advice, store, storage⟩ := rfl

@[simp] theorem step_dup_four (a b c d e : Felt) :
    (machine environment).step (.dup 4)
        ⟨.above (a :: b :: c :: d :: e :: top) caller, advice, store, storage⟩ =
      .ok ⟨.above (e :: a :: b :: c :: d :: e :: top) caller, advice, store, storage⟩ := rfl

@[simp] theorem step_swap_one (a b : Felt) :
    (machine environment).step (.swap 1) ⟨.above (a :: b :: top) caller, advice, store, storage⟩ =
      .ok ⟨.above (b :: a :: top) caller, advice, store, storage⟩ := rfl

@[simp] theorem step_swap_two (a b c : Felt) :
    (machine environment).step (.swap 2)
        ⟨.above (a :: b :: c :: top) caller, advice, store, storage⟩ =
      .ok ⟨.above (c :: b :: a :: top) caller, advice, store, storage⟩ := rfl

@[simp] theorem step_swap_three (a b c d : Felt) :
    (machine environment).step (.swap 3)
        ⟨.above (a :: b :: c :: d :: top) caller, advice, store, storage⟩ =
      .ok ⟨.above (d :: b :: c :: a :: top) caller, advice, store, storage⟩ := rfl

@[simp] theorem step_movUp_above {n : Nat} (valid : n ≤ 15) (inTop : n < top.length) :
    (machine environment).step (.movUp n) ⟨.above top caller, advice, store, storage⟩ =
      .ok ⟨.above (liftCell n top) caller, advice, store, storage⟩ := by
  rw [step_movUp environment valid, OperandStack.movUp_above caller inTop]

@[simp] theorem step_movDn_above {n : Nat} (direct : n ≤ 8) (inTop : n < top.length) :
    (machine environment).step (.movDn n) ⟨.above top caller, advice, store, storage⟩ =
      .ok ⟨.above (sinkCell n top) caller, advice, store, storage⟩ := by
  rw [step_of_lower_singleton environment (by rw [Instruction.lower, if_pos direct])]
  simp [Operation.execute, inTop]

@[simp] theorem step_add (b a : Felt) :
    (machine environment).step .add ⟨.above (b :: a :: top) caller, advice, store, storage⟩ =
      .ok ⟨.above ((a + b) :: top) caller, advice, store, storage⟩ := by
  rw [step_of_lower_singleton environment rfl]
  simp [Operation.execute]

@[simp] theorem step_mul (b a : Felt) :
    (machine environment).step .mul ⟨.above (b :: a :: top) caller, advice, store, storage⟩ =
      .ok ⟨.above ((a * b) :: top) caller, advice, store, storage⟩ := by
  rw [step_of_lower_singleton environment rfl]
  simp [Operation.execute]

/-- `sub` reads `[b, a]` and leaves `a - b`. -/
@[simp] theorem step_sub (b a : Felt) :
    (machine environment).step .sub ⟨.above (b :: a :: top) caller, advice, store, storage⟩ =
      .ok ⟨.above ((a - b) :: top) caller, advice, store, storage⟩ := by
  change Except.ok (State.mk (Operation.popTwoPush (· + ·) (.above (-b :: a :: top) caller)) _ _ _) = _
  rw [popTwoPush_above, sub_eq_add_neg]

@[simp] theorem step_addImm_one (a : Felt) :
    (machine environment).step (.addImm 1) ⟨.above (a :: top) caller, advice, store, storage⟩ =
      .ok ⟨.above ((a + 1) :: top) caller, advice, store, storage⟩ := rfl

@[simp] theorem step_subImm_one (a : Felt) :
    (machine environment).step (.subImm 1) ⟨.above (a :: top) caller, advice, store, storage⟩ =
      .ok ⟨.above ((a - 1) :: top) caller, advice, store, storage⟩ := by
  change Except.ok (State.mk (Operation.popTwoPush (· + ·) (.above (-1 :: a :: top) caller)) _ _ _) = _
  rw [popTwoPush_above, sub_eq_add_neg]

@[simp] theorem step_eqImm_zero (a : Felt) :
    (machine environment).step (.eqImm 0) ⟨.above (a :: top) caller, advice, store, storage⟩ =
      .ok ⟨.above (Felt.ofBool (a = 0) :: top) caller, advice, store, storage⟩ := rfl

@[simp] theorem step_advPush (value : Felt) :
    (machine environment).step .advPush ⟨.above top caller, value :: advice, store, storage⟩ =
      .ok ⟨.above (value :: top) caller, advice, store, storage⟩ := rfl

@[simp] theorem step_advPush_nil :
    (machine environment).step .advPush ⟨.above top caller, [], store, storage⟩ =
      .error .adviceStackReadFailed := rfl

@[simp] theorem step_advPushW (a b c d : Felt) :
    (machine environment).step .advPushW
        ⟨.above top caller, a :: b :: c :: d :: advice, store, storage⟩ =
      .ok ⟨.above (a :: b :: c :: d :: top) caller, advice, store, storage⟩ := rfl

@[simp] theorem step_debugStack (state : State κ σ) :
    (machine environment).step .debugStack state = .ok state := rfl

@[simp] theorem step_call (procedure : η) (state : State κ σ) :
    (machine environment).step (.call procedure) state = environment.call procedure state := by
  rw [step_of_lower_singleton environment rfl]
  rfl

theorem popCondition_above (flag : Bool) :
    popCondition (⟨.above (Felt.ofBool flag :: top) caller, advice, store, storage⟩ : State κ σ) =
      .ok (flag, ⟨.above top caller, advice, store, storage⟩) := by
  cases flag <;> simp [popCondition]

end Over

end Machine

end MidenWorkspace.Vm
