import MidenWorkspace.Vm.Assembly

/-!
Contract: what code leaves alone, the caller's stack and the account storage.

Owns:
- the number of cells each operation takes and leaves, and the heights that
  instructions and whole programs get from it;
- the theorem that a completing program started over a caller's stack ends over
  the same caller's stack, at the computed height;
- the rule that a storage property kept by the host procedures is kept by every
  program.

A host procedure enters with its own count, which its environment must respect.
Cells that are only read are not counted: reading below the counted cells looks
into the caller's stack and changes nothing there.
-/

namespace MidenWorkspace.Vm

open Fin.CommRing
open MidenWorkspace.Library.Structured

namespace OperandStack

/-- The stack shows `height` cells over the caller's stack. -/
def Framed (caller : OperandStack) (height : Nat) (stack : OperandStack) : Prop :=
  ∃ top : List Felt, top.length = height ∧ stack = above top caller

namespace Framed

variable {caller stack : OperandStack} {height : Nat}

theorem refl (caller : OperandStack) : Framed caller 0 caller := ⟨[], rfl, rfl⟩

theorem depth (framed : Framed caller height stack) : stack.depth = height + caller.depth := by
  obtain ⟨top, rfl, rfl⟩ := framed
  exact above_depth caller top

theorem push (framed : Framed caller height stack) (value : Felt) :
    Framed caller (height + 1) (stack.push value) := by
  obtain ⟨top, rfl, rfl⟩ := framed
  exact ⟨value :: top, rfl, rfl⟩

theorem drop (framed : Framed caller (height + 1) stack) : Framed caller height stack.drop := by
  obtain ⟨top, length, rfl⟩ := framed
  match top, length with
  | cell :: rest, length => exact ⟨rest, by simpa using length, drop_above caller cell rest⟩

theorem set (framed : Framed caller height stack) {index : Nat} (inTop : index < height)
    (value : Felt) : Framed caller height (stack.set index value) := by
  obtain ⟨top, rfl, rfl⟩ := framed
  refine ⟨top.set index value, by simp, ?_⟩
  apply OperandStack.ext
  simp only [OperandStack.set, above, List.set_append_left _ _ inTop]

theorem movUp (framed : Framed caller height stack) {n : Nat} (inTop : n < height) :
    Framed caller height (stack.movUp n) := by
  obtain ⟨top, rfl, rfl⟩ := framed
  exact ⟨liftCell n top, liftCell_length n top, movUp_above caller inTop⟩

theorem movDn (framed : Framed caller height stack) {n : Nat} (inTop : n < height) :
    Framed caller height (stack.movDn n) := by
  obtain ⟨top, rfl, rfl⟩ := framed
  exact ⟨sinkCell n top, sinkCell_length n top, movDn_above caller inTop⟩

theorem swapCells (framed : Framed caller height stack) {count position : Nat}
    (apart : count ≤ position) (inReach : position + count ≤ minStackDepth)
    (inTop : position + count ≤ height) :
    Framed caller height (stack.swapCells count position apart inReach) := by
  obtain ⟨top, rfl, rfl⟩ := framed
  refine ⟨(top.drop position).take count ++ (top.drop count).take (position - count) ++
    top.take count ++ top.drop (position + count), ?_, ?_⟩
  · simp only [List.length_append, List.length_take, List.length_drop]
    omega
  · apply OperandStack.ext
    have belowPosition : count ≤ (top.drop position).length := by
      rw [List.length_drop]
      omega
    have belowCount : position - count ≤ (top.drop count).length := by
      rw [List.length_drop]
      omega
    simp only [OperandStack.swapCells, above, List.append_assoc,
      List.drop_append_of_le_length (show position ≤ top.length by omega),
      List.drop_append_of_le_length (show count ≤ top.length by omega),
      List.drop_append_of_le_length inTop, List.take_append_of_le_length belowPosition,
      List.take_append_of_le_length belowCount,
      List.take_append_of_le_length (show count ≤ top.length by omega)]

theorem popTwoPush (framed : Framed caller (height + 2) stack) (f : Felt → Felt → Felt) :
    Framed caller (height + 1) (Operation.popTwoPush f stack) :=
  framed.drop.set (Nat.succ_pos height) _

theorem setWord (framed : Framed caller height stack) (inTop : 4 ≤ height) (word : Word) :
    Framed caller height (stack.setWord 0 word) :=
  (((framed.set (by omega) _).set (by omega) _).set (by omega) _).set (by omega) _

end Framed

end OperandStack

/-! ### Counts -/

/-- The cells an operation takes off the top and the cells it leaves there. -/
def Operation.arity {η : Type} (host : η → Nat × Nat) : Operation η → Nat × Nat
  | .noop | .emit _ => (0, 0)
  | .assert | .drop => (1, 0)
  | .add | .mul | .and | .or | .eq => (2, 1)
  | .neg | .incr | .not | .eqz => (1, 1)
  | .u32split => (1, 2)
  | .u32sub | .swap => (2, 2)
  | .pad | .push _ | .advPop | .dup _ => (0, 1)
  | .swapW => (8, 8)
  | .swapW2 => (12, 12)
  | .swapW3 | .swapDW => (16, 16)
  | .movUp n | .movDn n => (n + 1, n + 1)
  | .advPopW | .mrUpdate => (4, 4)
  | .call procedure => host procedure

/-- The height after taking and leaving cells; `none` if too few are there. -/
def moveHeight (arity : Nat × Nat) (height : Nat) : Option Nat :=
  if arity.1 ≤ height then some (height - arity.1 + arity.2) else none

def Operation.effect {η : Type} (host : η → Nat × Nat) (operation : Operation η) :
    Nat → Option Nat :=
  moveHeight (operation.arity host)

/-- The height after an instruction. A far `movup` is lowered through the double
words, which reach below the cells it moves, and is counted as what it does. -/
def Instruction.effect {η : Type} (host : η → Nat × Nat) (instruction : Instruction η)
    (height : Nat) : Option Nat :=
  match instruction with
  | .movUp n => if n ≤ 15 then moveHeight (n + 1, n + 1) height else none
  | instruction => instruction.lower.foldlM (fun now operation => operation.effect host now) height

/-- The height at which a program leaves the stack. -/
def stackEffect {η : Type} (host : η → Nat × Nat) : Code (Instruction η) → Nat → Option Nat :=
  Code.effect (Instruction.effect host) (moveHeight (1, 0))

/-! ### What the fallible operations do to the stack -/

section Fallible

variable {κ σ : Type} {stack final : OperandStack} {state reached : State κ σ}

private theorem popTwoBoolean_shape {f : Bool → Bool → Bool}
    (ran : Operation.popTwoBoolean f stack = .ok final) :
    ∃ value, final = stack.drop.set 0 value := by
  unfold Operation.popTwoBoolean at ran
  cases first : Operation.assertBinary (stack.get 0) with
  | error failure => simp [first, bind, Except.bind] at ran
  | ok _ =>
      cases second : Operation.assertBinary (stack.get 1) with
      | error failure => simp [first, second, bind, Except.bind] at ran
      | ok _ =>
          simp only [first, second, bind, Except.bind, pure, Except.pure, Except.ok.injEq] at ran
          exact ⟨_, ran.symm⟩

private theorem subU32_shape (ran : Operation.subU32 stack = .ok final) :
    ∃ borrow difference, final = (stack.set 0 borrow).set 1 difference := by
  simp only [Operation.subU32] at ran
  split at ran
  · cases ran
  · exact ⟨_, _, (Except.ok.inj ran).symm⟩

private theorem map_stack_eq_ok {operands : Except ExecutionError OperandStack}
    (ran : (do return { state with stack := ← operands }) = Except.ok reached) :
    ∃ stack, operands = .ok stack ∧ { state with stack } = reached := by
  cases operands with
  | error failure => cases ran
  | ok stack => exact ⟨stack, rfl, Except.ok.inj ran⟩

private theorem copyMerkleNodeToAdviceStack_shape {merkle : MerkleLibrary σ}
    (ran : Operation.copyMerkleNodeToAdviceStack merkle state = .ok reached) :
    reached.stack = state.stack ∧ reached.storage = state.storage := by
  simp only [Operation.copyMerkleNodeToAdviceStack, bind, Except.bind, pure, Except.pure] at ran
  split at ran
  · cases ran
  · obtain rfl := Except.ok.inj ran
    exact ⟨rfl, rfl⟩

private theorem updateMerkleRoot_shape {merkle : MerkleLibrary σ}
    (ran : Operation.updateMerkleRoot merkle state = .ok reached) :
    (∃ root, reached.stack = state.stack.setWord 0 root) ∧ reached.storage = state.storage := by
  simp only [Operation.updateMerkleRoot, bind, Except.bind, pure, Except.pure, throw,
    throwThe, MonadExceptOf.throw] at ran
  split at ran
  · cases ran
  · split at ran
    · cases ran
    · split at ran
      · cases ran
      · split at ran
        · cases ran
        · obtain rfl := Except.ok.inj ran
          exact ⟨⟨_, rfl⟩, rfl⟩

end Fallible

/-! ### Soundness of the counts -/

section Soundness

variable {κ σ η : Type} {environment : Environment κ σ η} {host : η → Nat × Nat}

/-- The host procedures keep to the counts given for them. -/
def Environment.Framed (environment : Environment κ σ η) (host : η → Nat × Nat) : Prop :=
  ∀ {procedure : η} {caller : OperandStack} {height after : Nat} {state final : State κ σ},
    moveHeight (host procedure) height = some after → caller.Framed height state.stack →
    environment.call procedure state = .ok final → caller.Framed after final.stack

theorem moveHeight_eq_some {arity : Nat × Nat} {height after : Nat}
    (moved : moveHeight arity height = some after) :
    ∃ below, height = below + arity.1 ∧ after = below + arity.2 := by
  unfold moveHeight at moved
  split at moved
  · exact ⟨height - arity.1, by omega, (Option.some.inj moved).symm⟩
  · cases moved

theorem Operation.execute_framed (hostFramed : environment.Framed host)
    {operation : Operation η} {caller : OperandStack} {height after : Nat} {state final : State κ σ}
    (moved : operation.effect host height = some after) (framed : caller.Framed height state.stack)
    (ran : operation.execute environment state = .ok final) : caller.Framed after final.stack := by
  obtain ⟨below, rfl, rfl⟩ := moveHeight_eq_some moved
  cases operation with
  | noop =>
      cases ran
      exact framed
  | assert =>
      simp only [execute] at ran
      split at ran <;> cases ran
      exact framed.drop
  | add =>
      cases ran
      exact framed.popTwoPush (· + ·)
  | mul =>
      cases ran
      exact framed.popTwoPush (· * ·)
  | eq =>
      cases ran
      exact framed.popTwoPush fun a b => Felt.ofBool (a = b)
  | neg | incr | eqz =>
      cases ran
      exact framed.set (Nat.succ_pos below) _
  | and | or =>
      obtain ⟨stack, combined, rfl⟩ := map_stack_eq_ok ran
      obtain ⟨value, rfl⟩ := popTwoBoolean_shape combined
      exact framed.drop.set (Nat.succ_pos below) value
  | not =>
      simp only [execute] at ran
      split at ran
      · cases ran
        exact framed.set (Nat.succ_pos below) 1
      · split at ran <;> cases ran
        exact framed.set (Nat.succ_pos below) 0
  | u32split =>
      cases ran
      exact ((framed.push 0).set (by simp [arity]) _).set (by simp [arity]) _
  | u32sub =>
      obtain ⟨stack, subtracted, rfl⟩ := map_stack_eq_ok ran
      obtain ⟨borrow, difference, rfl⟩ := subU32_shape subtracted
      exact (framed.set (by simp [arity]) borrow).set (by simp [arity]) difference
  | pad | push _ | dup _ =>
      cases ran
      exact framed.push _
  | drop =>
      cases ran
      exact framed.drop
  | swap =>
      cases ran
      exact (framed.set (by simp [arity]) _).set (by simp [arity]) _
  | swapW | swapW2 | swapW3 | swapDW =>
      cases ran
      exact framed.swapCells (by decide) (by decide) (by simp [arity])
  | movUp n =>
      cases ran
      exact framed.movUp (by simp [arity]; omega)
  | movDn n =>
      cases ran
      exact framed.movDn (by simp [arity]; omega)
  | advPop =>
      simp only [execute] at ran
      split at ran <;> cases ran
      exact framed.push _
  | advPopW =>
      simp only [execute] at ran
      split at ran <;> cases ran
      exact framed.setWord (by simp [arity]) _
  | emit event =>
      rw [(copyMerkleNodeToAdviceStack_shape ran).1]
      exact framed
  | mrUpdate =>
      obtain ⟨⟨root, stacked⟩, -⟩ := updateMerkleRoot_shape ran
      rw [stacked]
      exact framed.setWord (by simp [arity]) root
  | call procedure => exact hostFramed moved framed ran

theorem popCondition_framed {caller : OperandStack} {height after : Nat} {flag : Bool}
    {state final : State κ σ} (moved : moveHeight (1, 0) height = some after)
    (framed : caller.Framed height state.stack) (ran : popCondition state = .ok (flag, final)) :
    caller.Framed after final.stack := by
  obtain ⟨below, rfl, rfl⟩ := moveHeight_eq_some moved
  simp only [popCondition] at ran
  split at ran
  · cases ran
    exact framed.drop
  · split at ran <;> cases ran
    exact framed.drop

/-- Lowered operations run as a block of a machine of their own. -/
private theorem executeAll_eq_runBlock (operations : List (Operation η)) (state : State κ σ) :
    executeAll environment operations state =
      Machine.runBlock ⟨fun operation => operation.execute environment, popCondition⟩
        operations state := by
  induction operations generalizing state with
  | nil => rfl
  | cons operation rest inductionHypothesis =>
      simp only [executeAll, Machine.runBlock]
      cases operation.execute environment state with
      | error failure => rfl
      | ok reached => exact inductionHypothesis reached

theorem executeAll_framed (hostFramed : environment.Framed host) {operations : List (Operation η)}
    {caller : OperandStack} {height after : Nat} {state final : State κ σ}
    (moved : operations.foldlM (fun now operation => operation.effect host now) height = some after)
    (framed : caller.Framed height state.stack)
    (ran : executeAll environment operations state = .ok final) :
    caller.Framed after final.stack := by
  rw [executeAll_eq_runBlock] at ran
  have respects : Machine.Respects
      ⟨fun operation => operation.execute environment, popCondition⟩
      (fun height (state : State κ σ) => caller.Framed height state.stack)
      (Operation.effect host) (moveHeight (1, 0)) :=
    ⟨Operation.execute_framed hostFramed, popCondition_framed⟩
  exact respects.block moved framed ran

theorem step_movUp_framed {n : Nat} {caller : OperandStack} {height after : Nat}
    {state final : State κ σ} (moved : (Instruction.movUp n).effect host height = some after)
    (framed : caller.Framed height state.stack)
    (ran : (machine environment).step (.movUp n) state = .ok final) :
    caller.Framed after final.stack := by
  simp only [Instruction.effect, Option.ite_none_right_eq_some] at moved
  obtain ⟨valid, moved⟩ := moved
  obtain ⟨below, rfl, rfl⟩ := moveHeight_eq_some moved
  rw [step_movUp environment valid] at ran
  cases ran
  exact framed.movUp (by simp only; omega)

theorem machine_respects_stackEffect (hostFramed : environment.Framed host)
    (caller : OperandStack) :
    (machine environment).Respects (fun height state => caller.Framed height state.stack)
      (Instruction.effect host) (moveHeight (1, 0)) where
  step {instruction _ _ _ _} moved framed ran := by
    cases instruction with
    | movUp n => exact step_movUp_framed moved framed ran
    | _ => exact executeAll_framed hostFramed moved framed ran
  test moved framed ran := popCondition_framed moved framed ran

/-- A completing program ends over its caller's stack, at the counted height. -/
theorem completes_framed (hostFramed : environment.Framed host) {code : Code (Instruction η)}
    {height : Nat} (counted : stackEffect host code 0 = some height) {state final : State κ σ}
    (ran : (machine environment).Completes code state final) :
    state.stack.Framed height final.stack :=
  (machine_respects_stackEffect hostFramed state.stack).completes counted (.refl state.stack) ran

/-! ### Account storage -/

/-- Only host procedures reach the account storage. -/
theorem Operation.execute_storage {operation : Operation η} {state final : State κ σ}
    (local_ : ∀ procedure, operation ≠ .call procedure)
    (ran : operation.execute environment state = .ok final) :
    final.storage = state.storage := by
  cases operation with
  | noop | add | mul | eq | neg | incr | eqz | u32split | pad | push _ | dup _ | drop | swap
  | swapW | swapW2 | swapW3 | swapDW | movUp _ | movDn _ =>
      cases ran
      rfl
  | assert | advPop | advPopW =>
      simp only [execute] at ran
      split at ran <;> cases ran
      rfl
  | and | or | u32sub =>
      obtain ⟨stack, -, rfl⟩ := map_stack_eq_ok ran
      rfl
  | not =>
      simp only [execute] at ran
      split at ran
      · cases ran
        rfl
      · split at ran <;> cases ran
        rfl
  | emit event => exact (copyMerkleNodeToAdviceStack_shape ran).2
  | mrUpdate => exact (updateMerkleRoot_shape ran).2
  | call procedure => exact absurd rfl (local_ procedure)

private theorem popCondition_storage {flag : Bool} {state final : State κ σ}
    (ran : popCondition state = .ok (flag, final)) : final.storage = state.storage := by
  simp only [popCondition] at ran
  split at ran
  · cases ran
    rfl
  · split at ran <;> cases ran
    rfl

/-- What every host procedure keeps about the storage, every program keeps. -/
theorem completes_storage (Kept : Storage κ → Prop)
    (hostKeeps : ∀ {procedure : η} {state final : State κ σ}, Kept state.storage →
      environment.call procedure state = .ok final → Kept final.storage)
    {code : Code (Instruction η)} {state final : State κ σ} (kept : Kept state.storage)
    (ran : (machine environment).Completes code state final) : Kept final.storage := by
  have operationKeeps : ∀ {operation : Operation η} {before after : State κ σ},
      Kept before.storage → operation.execute environment before = .ok after →
      Kept after.storage := by
    intro operation before after keptBefore stepped
    by_cases isCall : ∃ procedure, operation = .call procedure
    · obtain ⟨procedure, rfl⟩ := isCall
      exact hostKeeps keptBefore stepped
    · rw [Operation.execute_storage (fun procedure same => isCall ⟨procedure, same⟩) stepped]
      exact keptBefore
  have conditionKeeps : ∀ {before : State κ σ} {flag : Bool} {after : State κ σ},
      Kept before.storage → popCondition before = .ok (flag, after) → Kept after.storage := by
    intro before flag after keptBefore popped
    rw [popCondition_storage popped]
    exact keptBefore
  refine Machine.Completes.invariant (fun reached => Kept reached.storage) ?_ conditionKeeps kept ran
  intro instruction before after keptBefore stepped
  have ranBlock := (executeAll_eq_runBlock instruction.lower before).symm.trans stepped
  exact Machine.Completes.invariant (fun reached : State κ σ => Kept reached.storage)
    operationKeeps conditionKeeps keptBefore (Machine.yields_block_iff.mpr ranBlock)

end Soundness

end MidenWorkspace.Vm
