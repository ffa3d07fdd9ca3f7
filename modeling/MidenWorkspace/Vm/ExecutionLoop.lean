import MidenWorkspace.Library.Halting
import MidenWorkspace.Vm.Stack

/-!
Contract: MAST forests and the processor's execution loop over continuations.

The processor does not recurse over the nodes of a program. It pops continuations
from a stack, each of which starts or finishes a node or resumes a basic block, and
asks a stopper after every clock cycle. Events and lookups of other forests break out
of the inner loop and are handled by an outer one.

Owns:
- forests, nodes with their decorators, and continuations;
- `Processor`, what the loop takes from the processor, its host and its kernel;
- every branch of `execute_impl` with its start and finish functions, and the outer
  loop around it, for any stopper;
- `execute_sync` and `execute_by_step_sync` around the loop.

A decorator calls the host, which may fail. Tracers only record, so they are left out.
Does not own: any operation set.
-/

namespace MidenWorkspace.Vm

abbrev MastNodeId := Nat

/-- The nodes of a forest over operations `ω`. A basic block is never empty, so it has
a first batch. Every other node is named by its identifier. -/
inductive MastNodeKind (ω : Type) where
  | block (firstBatch : List ω) (otherBatches : List (List ω))
  | join (first second : MastNodeId)
  | split (onTrue onFalse : MastNodeId)
  | loop (body : MastNodeId)
  | call (callee : MastNodeId) (isSyscall : Bool)
  | dyn (isDyncall : Bool)
  | external
deriving DecidableEq, Repr

inductive DebugOptions where
  | stackAll
  | stackTop (count : Nat)
  | memAll
  | memInterval (first last : Nat)
  | localInterval (first last numLocals : Nat)
  | advStackTop (count : Nat)
deriving DecidableEq, Repr

inductive Decorator where
  | debug (options : DebugOptions)
  | trace (id : Nat)
deriving DecidableEq, Repr

structure MastNode (ω : Type) where
  kind : MastNodeKind ω
  digest : Word
  beforeEnter : List Decorator
  afterExit : List Decorator
  /-- In a basic block, each with the index of the operation that it precedes. -/
  opDecorators : List (Nat × Decorator)
deriving DecidableEq, Repr

structure MastForest (ω : Type) where
  nodes : List (MastNode ω)
  roots : List MastNodeId
deriving DecidableEq, Repr

namespace MastForest

variable {ω : Type}

def getNodeById (forest : MastForest ω) (nodeId : MastNodeId) : Option (MastNode ω) :=
  forest.nodes[nodeId]?

def findProcedureRoot (forest : MastForest ω) (digest : Word) : Option MastNodeId :=
  forest.roots.find? fun rootId => (forest.getNodeById rootId).any (·.digest = digest)

def decoratorsForOp (forest : MastForest ω) (nodeId : MastNodeId) (opIdxInBlock : Nat) :
    List Decorator :=
  match forest.getNodeById nodeId with
  | none => []
  | some node => (node.opDecorators.filter (·.1 = opIdxInBlock)).map Prod.snd

end MastForest

structure Program (ω : Type) where
  forest : MastForest ω
  entrypoint : MastNodeId

inductive Continuation (ω : Type) where
  | startNode (nodeId : MastNodeId)
  | finishJoin (nodeId : MastNodeId)
  | finishSplit (nodeId : MastNodeId)
  | finishLoop (nodeId : MastNodeId) (wasEntered : Bool)
  | finishCall (nodeId : MastNodeId)
  | finishDyn (nodeId : MastNodeId)
  | finishExternal (nodeId : MastNodeId)
  | resumeBasicBlock (nodeId : MastNodeId) (batchIndex opIdxInBatch : Nat)
  | respan (nodeId : MastNodeId) (batchIndex : Nat)
  | finishBasicBlock (nodeId : MastNodeId)
  | enterForest (forest : MastForest ω)
  | afterExitDecorators (nodeId : MastNodeId)
  | afterExitDecoratorsBasicBlock (nodeId : MastNodeId)
deriving DecidableEq, Repr

/-- The errors that the loop adds to those of the processor and its host. `panic` stands for a
failed `unwrap` or `expect`. -/
inductive LoopError (ε : Type) where
  | operation (failure : ε)
  | notBinaryValueIf (value : Felt)
  | notBinaryValueLoop (value : Felt)
  | syscallTargetNotInKernel (procRoot : Word)
  | circularExternalNode (digest : Word)
  | outputStackOverflow (excess : Nat)
  | panic
deriving DecidableEq, Repr

/-- What the loop takes from a processor with states `π`, its host and its kernel. -/
structure Processor (π ω ε : Type) where
  /-- `Operation::Emit`, which the outer loop executes. -/
  isEmit : ω → Bool
  executeOp : ω → π → Except ε π
  /-- `stack().get(0)`. -/
  stackTop : π → Except ε Felt
  decrementSize : π → Except ε π
  saveContextAndTruncateStack : π → Except ε π
  restoreContext : π → Except ε π
  /-- The registers of a fresh context for the callee, and its frame pointer in memory. -/
  enterContext : Word → π → Except ε π
  /-- `set_ctx(ContextId::root())`. -/
  enterKernel : π → π
  /-- The word in memory at the address on top of the stack. -/
  readCalleeHash : π → Except ε Word
  incrementClock : π → π
  /-- `check_if_max_cycles_exceeded`, `check_if_continuation_stack_too_large`. -/
  checkLimits : π → Nat → Except ε Unit
  kernelContainsProc : Word → Bool
  inDebugMode : Bool
  enableTracing : Bool
  /-- The host's handlers of decorators. -/
  onDebug : DebugOptions → π → Except ε π
  onTrace : Nat → π → Except ε π
  /-- `extend_map` with the advice map of the forest, which may clash with the one at hand. -/
  extendAdviceMap : MastForest ω → π → Except ε π
  /-- The whole operand stack, topmost cell first. -/
  stackElements : π → List Felt
  /-- `load_mast_forest`: the forest of the host, its root, and its advice taken over. -/
  loadMastForest : Word → π → Except ε (MastForest ω × MastNodeId × π)

/-- The mutable state of the loop; the top of the continuation stack comes first. -/
structure Execution (π ω : Type) where
  processor : π
  continuations : List (Continuation ω)
  forest : MastForest ω

/-- `InternalBreakReason` and `BreakReason`, with the state in which they arise. -/
inductive BreakReason (π ω ε : Type) where
  | failed (error : LoopError ε)
  | stopped (continuationAfterStop : Option (Continuation ω)) (execution : Execution π ω)
  | emit (operation : ω) (continuation : Continuation ω) (execution : Execution π ω)
  | loadFromDyn (calleeHash : Word) (execution : Execution π ω)
  | loadFromExternal (nodeId : MastNodeId) (procedureHash : Word) (execution : Execution π ω)

/-- Whether to stop after a clock cycle. The limits are checked before it is asked. -/
abbrev Stopper (π ω : Type) := π → List (Continuation ω) → Bool

/-- `NeverStopper`. -/
def neverStopper {π ω : Type} : Stopper π ω := fun _ _ => false

/-- `StepStopper`. -/
def stepStopper {π ω : Type} : Stopper π ω := fun _ _ => true

namespace Execution

variable {π ω : Type}

def push (execution : Execution π ω) (continuations : List (Continuation ω)) : Execution π ω :=
  { execution with continuations := continuations ++ execution.continuations }

end Execution

namespace Processor

variable {π ω ε : Type} (m : Processor π ω ε) (stop : Stopper π ω)

/-- `ControlFlow`: a computation that may break out of the loop. -/
abbrev Flow (π ω ε : Type) := Except (BreakReason π ω ε)

/-- Errors of the processor break the loop. -/
def attempt {α : Type} : Except ε α → Flow π ω ε α
  | .ok value => .ok value
  | .error failure => .error (.failed (.operation failure))

def onProcessor (action : π → Except ε π) (execution : Execution π ω) :
    Flow π ω ε (Execution π ω) := do
  return { execution with processor := ← attempt (action execution.processor) }

/-! ### Decorators -/

/-- What decorators do, given the forest: an error of the host or a panic ends the run. -/
abbrev Decorating (π ω ε : Type) := MastForest ω → π → Except (LoopError ε) π

def decorate (action : Decorating π ω ε) (execution : Execution π ω) :
    Flow π ω ε (Execution π ω) :=
  match action execution.forest execution.processor with
  | .ok processor => .ok { execution with processor }
  | .error error => .error (.failed error)

def perform {α : Type} : Except ε α → Except (LoopError ε) α
  | .ok value => .ok value
  | .error failure => .error (.operation failure)

def shouldExecuteDecorators : Bool := m.inDebugMode || m.enableTracing

def executeDecorator (processor : π) : Decorator → Except ε π
  | .debug options => if m.inDebugMode then m.onDebug options processor else .ok processor
  | .trace id => if m.enableTracing then m.onTrace id processor else .ok processor

def executeDecorators (decorators : List Decorator) (processor : π) : Except ε π :=
  decorators.foldlM m.executeDecorator processor

def executeBeforeEnterDecorators (nodeId : MastNodeId) : Decorating π ω ε :=
  fun forest processor =>
    if m.shouldExecuteDecorators then
      match forest.getNodeById nodeId with
      | none => .error .panic
      | some node => perform (m.executeDecorators node.beforeEnter processor)
    else .ok processor

/-- In debug mode only, trace decorators too. -/
def executeAfterExitDecorators (nodeId : MastNodeId) : Decorating π ω ε :=
  fun forest processor =>
    if m.inDebugMode then
      match forest.getNodeById nodeId with
      | none => .error .panic
      | some node => perform (m.executeDecorators node.afterExit processor)
    else .ok processor

def executeDecoratorsForOp (nodeId : MastNodeId) (opIdxInBlock : Nat) : Decorating π ω ε :=
  fun forest processor =>
    if m.shouldExecuteDecorators then
      perform (m.executeDecorators (forest.decoratorsForOp nodeId opIdxInBlock) processor)
    else .ok processor

/-! ### Clock cycles -/

/-- `finalize_clock_cycle_with_continuation`. -/
def finalizeClockCycle (continuationAfterStop : Option (Continuation ω))
    (execution : Execution π ω) : Flow π ω ε (Execution π ω) :=
  let finalized := { execution with processor := m.incrementClock execution.processor }
  match m.checkLimits finalized.processor finalized.continuations.length with
  | .error failure => .error (.failed (.operation failure))
  | .ok () =>
      if stop finalized.processor finalized.continuations then
        .error (.stopped continuationAfterStop finalized)
      else .ok finalized

section Cycle

variable {m stop} {execution : Execution π ω} (continuationAfterStop : Option (Continuation ω))

theorem finalizeClockCycle_of_limit {failure : ε}
    (limit : m.checkLimits (m.incrementClock execution.processor) execution.continuations.length =
      .error failure) :
    m.finalizeClockCycle stop continuationAfterStop execution =
      .error (.failed (.operation failure)) := by
  simp only [finalizeClockCycle, limit]

theorem finalizeClockCycle_of_stop
    (within : m.checkLimits (m.incrementClock execution.processor) execution.continuations.length =
      .ok ())
    (stops : stop (m.incrementClock execution.processor) execution.continuations) :
    m.finalizeClockCycle stop continuationAfterStop execution =
      .error (.stopped continuationAfterStop
        { execution with processor := m.incrementClock execution.processor }) := by
  simp only [finalizeClockCycle, within, stops, if_true]

theorem finalizeClockCycle_of_go
    (within : m.checkLimits (m.incrementClock execution.processor) execution.continuations.length =
      .ok ())
    (goes : stop (m.incrementClock execution.processor) execution.continuations = false) :
    m.finalizeClockCycle stop continuationAfterStop execution =
      .ok { execution with processor := m.incrementClock execution.processor } := by
  simp [finalizeClockCycle, within, goes]

end Cycle

/-- The END of a node; the decorators after it run in the same iteration. -/
def finishNode (nodeId : MastNodeId) (execution : Execution π ω) :
    Flow π ω ε (Execution π ω) := do
  let finalized ← m.finalizeClockCycle stop (some (.afterExitDecorators nodeId)) execution
  decorate (m.executeAfterExitDecorators nodeId) finalized

/-! ### Basic blocks -/

/-- `get_continuation_after_executing_operation`. -/
def continuationAfter (nodeId : MastNodeId) (batches : List (List ω))
    (batchIndex opIdxInBatch : Nat) : Continuation ω :=
  if opIdxInBatch < (batches.getD batchIndex []).length - 1 then
    .resumeBasicBlock nodeId batchIndex (opIdxInBatch + 1)
  else if batchIndex < batches.length - 1 then .respan nodeId (batchIndex + 1)
  else .finishBasicBlock nodeId

/-- `batch_offset_in_block`: the number of operations in the batches before. -/
def batchOffset (batches : List (List ω)) (batchIndex : Nat) : Nat :=
  ((batches.take batchIndex).map List.length).sum

/-- The loop of `execute_op_batch` over the operations from `opIdxInBatch` on. -/
def executeOps (nodeId : MastNodeId) (batches : List (List ω)) (batchIndex : Nat) :
    Nat → List ω → Execution π ω → Flow π ω ε (Execution π ω)
  | _, [], execution => .ok execution
  | opIdxInBatch, operation :: rest, execution => do
      let decorated ← decorate
        (m.executeDecoratorsForOp nodeId (batchOffset batches batchIndex + opIdxInBatch)) execution
      let continuation := continuationAfter nodeId batches batchIndex opIdxInBatch
      if m.isEmit operation then .error (.emit operation continuation decorated)
      else
        let executed ← onProcessor (m.executeOp operation) decorated
        let finalized ← m.finalizeClockCycle stop (some continuation) executed
        executeOps nodeId batches batchIndex (opIdxInBatch + 1) rest finalized

/-- `execute_op_batch`. -/
def executeOpBatch (nodeId : MastNodeId) (batches : List (List ω))
    (batchIndex startOpIdx : Nat) (execution : Execution π ω) : Flow π ω ε (Execution π ω) :=
  match batches[batchIndex]? with
  | none => .error (.failed .panic)
  | some batch =>
      m.executeOps stop nodeId batches batchIndex startOpIdx (batch.drop startOpIdx) execution

/-- The decorators that are filed behind the last operation. Their index is a `u32`. -/
def executeEndOfBlockDecorators (nodeId : MastNodeId) (batches : List (List ω)) :
    Decorating π ω ε :=
  fun forest processor =>
    if m.shouldExecuteDecorators ∧ 2 ^ 32 ≤ batchOffset batches batches.length then .error .panic
    else m.executeDecoratorsForOp nodeId (batchOffset batches batches.length) forest processor

/-- What follows the END of a basic block. -/
def leaveBasicBlock (nodeId : MastNodeId) (batches : List (List ω)) (execution : Execution π ω) :
    Flow π ω ε (Execution π ω) := do
  let decorated ← decorate (m.executeEndOfBlockDecorators nodeId batches) execution
  decorate (m.executeAfterExitDecorators nodeId) decorated

def finishBasicBlock (nodeId : MastNodeId) (batches : List (List ω)) (execution : Execution π ω) :
    Flow π ω ε (Execution π ω) := do
  let finalized ←
    m.finalizeClockCycle stop (some (.afterExitDecoratorsBasicBlock nodeId)) execution
  m.leaveBasicBlock nodeId batches finalized

/-- The loop of `execute_basic_block_node_from_batch` over the batches from `batchIndex`
on, each after its RESPAN, and the END of the block. -/
def executeBatches (nodeId : MastNodeId) (batches : List (List ω)) :
    Nat → List (List ω) → Execution π ω → Flow π ω ε (Execution π ω)
  | _, [], execution => m.finishBasicBlock stop nodeId batches execution
  | batchIndex, _ :: rest, execution => do
      let finalized ←
        m.finalizeClockCycle stop (some (.resumeBasicBlock nodeId batchIndex 0)) execution
      let executed ← m.executeOpBatch stop nodeId batches batchIndex 0 finalized
      executeBatches nodeId batches (batchIndex + 1) rest executed

def executeBasicBlockFromBatch (nodeId : MastNodeId) (batches : List (List ω))
    (startBatchIndex : Nat) : Execution π ω → Flow π ω ε (Execution π ω) :=
  m.executeBatches stop nodeId batches startBatchIndex (batches.drop startBatchIndex)

def executeBasicBlockFromOpIdx (nodeId : MastNodeId) (batches : List (List ω))
    (startBatchIndex startOpIdx : Nat) (execution : Execution π ω) :
    Flow π ω ε (Execution π ω) := do
  let executed ← m.executeOpBatch stop nodeId batches startBatchIndex startOpIdx execution
  m.executeBasicBlockFromBatch stop nodeId batches (startBatchIndex + 1) executed

def executeBasicBlockFromStart (nodeId : MastNodeId) (batches : List (List ω))
    (execution : Execution π ω) : Flow π ω ε (Execution π ω) := do
  let decorated ← decorate (m.executeBeforeEnterDecorators nodeId) execution
  let finalized ← m.finalizeClockCycle stop (some (.resumeBasicBlock nodeId 0 0)) decorated
  let executed ← m.executeOpBatch stop nodeId batches 0 0 finalized
  m.executeBasicBlockFromBatch stop nodeId batches 1 executed

/-! ### Control flow -/

def startJoinNode (nodeId first second : MastNodeId) (execution : Execution π ω) :
    Flow π ω ε (Execution π ω) := do
  let decorated ← decorate (m.executeBeforeEnterDecorators nodeId) execution
  m.finalizeClockCycle stop none
    (decorated.push [.startNode first, .startNode second, .finishJoin nodeId])

def startSplitNode (nodeId onTrue onFalse : MastNodeId) (execution : Execution π ω) :
    Flow π ω ε (Execution π ω) := do
  let decorated ← decorate (m.executeBeforeEnterDecorators nodeId) execution
  let condition ← attempt (m.stackTop decorated.processor)
  let dropped ← onProcessor m.decrementSize decorated
  if condition = 1 then
    m.finalizeClockCycle stop none (dropped.push [.startNode onTrue, .finishSplit nodeId])
  else if condition = 0 then
    m.finalizeClockCycle stop none (dropped.push [.startNode onFalse, .finishSplit nodeId])
  else .error (.failed (.notBinaryValueIf condition))

/-- The REPEAT of a loop whose condition has been dropped, and its first LOOP. -/
def repeatLoop (nodeId body : MastNodeId) (execution : Execution π ω) :
    Flow π ω ε (Execution π ω) :=
  m.finalizeClockCycle stop none (execution.push [.startNode body, .finishLoop nodeId true])

/-- A loop that was never entered has dropped its condition, which was zero. -/
def loopCondition (wasEntered : Bool) (execution : Execution π ω) : Flow π ω ε Felt :=
  if wasEntered then attempt (m.stackTop execution.processor) else .ok 0

def finishLoopNode (wasEntered : Bool) (nodeId body : MastNodeId) (execution : Execution π ω) :
    Flow π ω ε (Execution π ω) := do
  let condition ← m.loopCondition wasEntered execution
  if condition = 1 then
    let dropped ← onProcessor m.decrementSize execution
    m.repeatLoop stop nodeId body dropped
  else if condition = 0 then
    if wasEntered then
      let dropped ← onProcessor m.decrementSize execution
      m.finishNode stop nodeId dropped
    else m.finishNode stop nodeId execution
  else .error (.failed (.notBinaryValueLoop condition))

def startLoopNode (nodeId body : MastNodeId) (execution : Execution π ω) :
    Flow π ω ε (Execution π ω) := do
  let decorated ← decorate (m.executeBeforeEnterDecorators nodeId) execution
  let condition ← attempt (m.stackTop decorated.processor)
  let dropped ← onProcessor m.decrementSize decorated
  if condition = 1 then m.repeatLoop stop nodeId body dropped
  else if condition = 0 then
    let finalized ← m.finalizeClockCycle stop (some (.finishLoop nodeId false)) dropped
    m.finishLoopNode stop false nodeId body finalized
  else .error (.failed (.notBinaryValueLoop condition))

/-- The callee's context: a fresh one, or the kernel's for a system call. -/
def enterCallee (isSyscall : Bool) (calleeHash : Word) (execution : Execution π ω) :
    Flow π ω ε (Execution π ω) :=
  if isSyscall then
    if m.kernelContainsProc calleeHash then
      .ok { execution with processor := m.enterKernel execution.processor }
    else .error (.failed (.syscallTargetNotInKernel calleeHash))
  else onProcessor (m.enterContext calleeHash) execution

def startCallNode (nodeId callee : MastNodeId) (isSyscall : Bool) (execution : Execution π ω) :
    Flow π ω ε (Execution π ω) := do
  let decorated ← decorate (m.executeBeforeEnterDecorators nodeId) execution
  let saved ← onProcessor m.saveContextAndTruncateStack decorated
  match execution.forest.getNodeById callee with
  | none => .error (.failed .panic)
  | some calleeNode =>
      let entered ← m.enterCallee isSyscall calleeNode.digest saved
      m.finalizeClockCycle stop none (entered.push [.startNode callee, .finishCall nodeId])

def finishCallNode (nodeId : MastNodeId) (execution : Execution π ω) :
    Flow π ω ε (Execution π ω) := do
  let restored ← onProcessor m.restoreContext execution
  m.finishNode stop nodeId restored

/-- The context of a dynamic call; `dynexec` stays in its own. -/
def enterDyn (isDyncall : Bool) (calleeHash : Word) (execution : Execution π ω) :
    Flow π ω ε (Execution π ω) :=
  if isDyncall then do
    let saved ← onProcessor m.saveContextAndTruncateStack execution
    onProcessor (m.enterContext calleeHash) saved
  else .ok execution

def startDynNode (nodeId : MastNodeId) (isDyncall : Bool) (execution : Execution π ω) :
    Flow π ω ε (Execution π ω) := do
  let decorated ← decorate (m.executeBeforeEnterDecorators nodeId) execution
  let calleeHash ← attempt (m.readCalleeHash decorated.processor)
  let dropped ← onProcessor m.decrementSize decorated
  let entered ← m.enterDyn isDyncall calleeHash dropped
  let finishing := entered.push [.finishDyn nodeId]
  match execution.forest.findProcedureRoot calleeHash with
  | some calleeId => m.finalizeClockCycle stop none (finishing.push [.startNode calleeId])
  | none => .error (.loadFromDyn calleeHash finishing)

def finishDynNode (nodeId : MastNodeId) (isDyncall : Bool) (execution : Execution π ω) :
    Flow π ω ε (Execution π ω) :=
  if isDyncall then m.finishCallNode stop nodeId execution
  else m.finishNode stop nodeId execution

def executeExternalNode (nodeId : MastNodeId) (digest : Word) (execution : Execution π ω) :
    Flow π ω ε (Execution π ω) := do
  let decorated ← decorate (m.executeBeforeEnterDecorators nodeId) execution
  .error (.loadFromExternal nodeId digest decorated)

/-! ### The loop -/

def startNode (nodeId : MastNodeId) (execution : Execution π ω) :
    Flow π ω ε (Execution π ω) :=
  match execution.forest.getNodeById nodeId with
  | none => .error (.failed .panic)
  | some node =>
      match node.kind with
      | .block firstBatch otherBatches =>
          m.executeBasicBlockFromStart stop nodeId (firstBatch :: otherBatches) execution
      | .join first second => m.startJoinNode stop nodeId first second execution
      | .split onTrue onFalse => m.startSplitNode stop nodeId onTrue onFalse execution
      | .loop body => m.startLoopNode stop nodeId body execution
      | .call callee isSyscall => m.startCallNode stop nodeId callee isSyscall execution
      | .dyn isDyncall => m.startDynNode stop nodeId isDyncall execution
      | .external => m.executeExternalNode nodeId node.digest execution

/-- Continue with the batches of a node that has to be a basic block. -/
def withBasicBlock (nodeId : MastNodeId) (execution : Execution π ω)
    (resume : List (List ω) → Execution π ω → Flow π ω ε (Execution π ω)) :
    Flow π ω ε (Execution π ω) :=
  match (execution.forest.getNodeById nodeId).map MastNode.kind with
  | some (.block firstBatch otherBatches) => resume (firstBatch :: otherBatches) execution
  | _ => .error (.failed .panic)

/-- One iteration of `execute_impl`, for a continuation already popped. -/
def executeContinuation (execution : Execution π ω) :
    Continuation ω → Flow π ω ε (Execution π ω)
  | .startNode nodeId => m.startNode stop nodeId execution
  | .finishJoin nodeId => m.finishNode stop nodeId execution
  | .finishSplit nodeId => m.finishNode stop nodeId execution
  | .finishLoop nodeId wasEntered =>
      match (execution.forest.getNodeById nodeId).map MastNode.kind with
      | some (.loop body) => m.finishLoopNode stop wasEntered nodeId body execution
      | _ => .error (.failed .panic)
  | .finishCall nodeId => m.finishCallNode stop nodeId execution
  | .finishDyn nodeId =>
      match (execution.forest.getNodeById nodeId).map MastNode.kind with
      | some (.dyn isDyncall) => m.finishDynNode stop nodeId isDyncall execution
      | _ => .error (.failed .panic)
  | .finishExternal nodeId => decorate (m.executeAfterExitDecorators nodeId) execution
  | .resumeBasicBlock nodeId batchIndex opIdxInBatch =>
      withBasicBlock nodeId execution fun batches =>
        m.executeBasicBlockFromOpIdx stop nodeId batches batchIndex opIdxInBatch
  | .respan nodeId batchIndex =>
      withBasicBlock nodeId execution fun batches =>
        m.executeBasicBlockFromBatch stop nodeId batches batchIndex
  | .finishBasicBlock nodeId =>
      withBasicBlock nodeId execution fun batches => m.finishBasicBlock stop nodeId batches
  | .enterForest previousForest => .ok { execution with forest := previousForest }
  | .afterExitDecorators nodeId => decorate (m.executeAfterExitDecorators nodeId) execution
  | .afterExitDecoratorsBasicBlock nodeId =>
      withBasicBlock nodeId execution fun batches => m.leaveBasicBlock nodeId batches

/-- `op_emit` and `finish_emit_op_execution`. -/
def finishEmit (operation : ω) (continuation : Continuation ω) (execution : Execution π ω) :
    Flow π ω ε (Execution π ω) := do
  let emitted ← onProcessor (m.executeOp operation) execution
  let finalized ← m.finalizeClockCycle stop (some continuation) emitted
  return finalized.push [continuation]

/-- `load_mast_forest` and `finish_load_mast_forest_from_dyn_start`. -/
def finishLoadFromDyn (calleeHash : Word) (execution : Execution π ω) :
    Flow π ω ε (Execution π ω) := do
  let (forest, rootId, processor) ← attempt (m.loadMastForest calleeHash execution.processor)
  m.finalizeClockCycle stop none
    { Execution.push ⟨processor, execution.continuations, execution.forest⟩
        [.startNode rootId, .enterForest execution.forest] with forest }

/-- `load_mast_forest` and `finish_load_mast_forest_from_external`. -/
def finishLoadFromExternal (nodeId : MastNodeId) (procedureHash : Word)
    (execution : Execution π ω) : Flow π ω ε (Execution π ω) := do
  let (forest, rootId, processor) ← attempt (m.loadMastForest procedureHash execution.processor)
  match (forest.getNodeById rootId).map MastNode.kind with
  | none => .error (.failed .panic)
  | some .external => .error (.failed (.circularExternalNode procedureHash))
  | some _ =>
      return { Execution.push ⟨processor, execution.continuations, execution.forest⟩
        [.startNode rootId, .enterForest execution.forest, .finishExternal nodeId] with forest }

/-- The outer loop around `execute_impl`: breaks for the host are handled here. -/
def handleBreak : Flow π ω ε (Execution π ω) → Flow π ω ε (Execution π ω)
  | .error (.emit operation continuation execution) =>
      m.finishEmit stop operation continuation execution
  | .error (.loadFromDyn calleeHash execution) => m.finishLoadFromDyn stop calleeHash execution
  | .error (.loadFromExternal nodeId procedureHash execution) =>
      m.finishLoadFromExternal nodeId procedureHash execution
  | flow => flow

variable {m stop} in
/-- The end of a cycle breaks only for the caller of the loop. -/
theorem handleBreak_finalizeClockCycle (handler : Stopper π ω)
    (continuationAfterStop : Option (Continuation ω)) (execution : Execution π ω) :
    m.handleBreak handler (m.finalizeClockCycle stop continuationAfterStop execution) =
      m.finalizeClockCycle stop continuationAfterStop execution := by
  simp only [finalizeClockCycle]
  split
  · rfl
  · split <;> rfl

/-- What the caller of the loop does with its outcome. A stopped run gives a context to
resume from, with the continuation pushed, and the caller enters the loop again. -/
def settle : Flow π ω ε (Execution π ω) → Except (Except (LoopError ε) π) (Execution π ω)
  | .ok execution => .ok execution
  | .error (.failed error) => .error (.error error)
  | .error (.stopped continuationAfterStop execution) =>
      .ok (execution.push continuationAfterStop.toList)
  -- `handleBreak` has taken every other break.
  | .error _ => .error (.error .panic)

/-- One turn of the loops; the run ends when no continuation is left. -/
def advance (execution : Execution π ω) : Except (Except (LoopError ε) π) (Execution π ω) :=
  match execution.continuations with
  | [] => .error (.ok execution.processor)
  | continuation :: rest =>
      settle (m.handleBreak stop
        (m.executeContinuation stop { execution with continuations := rest } continuation))

/-- The program in `forest` with entry point `entrypoint`, run under a stopper and resumed
whenever it stops, ends with the given result. -/
def Runs (forest : MastForest ω) (entrypoint : MastNodeId) (processor : π)
    (result : Except (LoopError ε) π) : Prop :=
  Library.Halting.Halts (m.advance stop) ⟨processor, [.startNode entrypoint], forest⟩ result

/-! ### Around the loop -/

/-- `StackOutputs::new` at the end of the loop. -/
def stackOutputs (processor : π) : Except (LoopError ε) (List Felt) :=
  let elements := m.stackElements processor
  if elements.length > minStackDepth then
    .error (.outputStackOverflow (elements.length - minStackDepth))
  else .ok (elements ++ List.replicate (minStackDepth - elements.length) 0)

/-- From a resume context, a run that is stopped and resumed ends with the processor and the
outputs, or with an error. -/
def Executes (context : Execution π ω) (result : Except (LoopError ε) (π × List Felt)) : Prop :=
  ∃ final, Library.Halting.Halts (m.advance stop) context final ∧ result = do
    let processor ← final
    let outputs ← m.stackOutputs processor
    return (processor, outputs)

def getInitialResumeContext (program : Program ω) (processor : π) : Except ε (Execution π ω) := do
  let extended ← m.extendAdviceMap program.forest processor
  return ⟨extended, [.startNode program.entrypoint], program.forest⟩

/-- `execute_sync`. -/
def ExecuteSync (program : Program ω) (processor : π)
    (result : Except (LoopError ε) (π × List Felt)) : Prop :=
  match m.getInitialResumeContext program processor with
  | .error failure => result = .error (.operation failure)
  | .ok context => m.Executes neverStopper context result

/-- `execute_by_step_sync`, which unwraps the initial context. It takes the outputs a second time
from the stack, which the last step has found to be short enough. -/
def ExecuteByStepSync (program : Program ω) (processor : π)
    (result : Except (LoopError ε) (π × List Felt)) : Prop :=
  match m.getInitialResumeContext program processor with
  | .error _ => result = .error .panic
  | .ok context => m.Executes stepStopper context result

/-! ### Resuming inside a basic block -/

section Resume

variable {m stop}

/-- The node is the basic block with the given batches. -/
def IsBlock (forest : MastForest ω) (nodeId : MastNodeId) (batches : List (List ω)) : Prop :=
  ∃ firstBatch otherBatches, batches = firstBatch :: otherBatches ∧
    (forest.getNodeById nodeId).map MastNode.kind = some (.block firstBatch otherBatches)

theorem withBasicBlock_eq {forest : MastForest ω} {nodeId : MastNodeId}
    {batches : List (List ω)} (isBlock : IsBlock forest nodeId batches)
    (execution : Execution π ω) (inForest : execution.forest = forest)
    (resume : List (List ω) → Execution π ω → Flow π ω ε (Execution π ω)) :
    withBasicBlock nodeId execution resume = resume batches execution := by
  obtain ⟨firstBatch, otherBatches, rfl, found⟩ := isBlock
  simp only [withBasicBlock, inForest, found]

theorem executeContinuation_resumeBasicBlock {forest : MastForest ω} {nodeId : MastNodeId}
    {batches : List (List ω)} (isBlock : IsBlock forest nodeId batches)
    (execution : Execution π ω) (inForest : execution.forest = forest)
    (batchIndex opIdx : Nat) :
    m.executeContinuation stop execution (.resumeBasicBlock nodeId batchIndex opIdx) =
      m.executeBasicBlockFromOpIdx stop nodeId batches batchIndex opIdx execution := by
  rw [executeContinuation, withBasicBlock_eq isBlock execution inForest]

/-- Resuming after an operation runs the rest of its batch and then the later batches. -/
theorem executeContinuation_continuationAfter {forest : MastForest ω} {nodeId : MastNodeId}
    {batches : List (List ω)} {batchIndex opIdx : Nat} {batch rest : List ω} {operation : ω}
    (isBlock : IsBlock forest nodeId batches) (execution : Execution π ω)
    (inForest : execution.forest = forest)
    (inBlock : batches[batchIndex]? = some batch)
    (inBatch : batch.drop opIdx = operation :: rest) :
    m.executeContinuation stop execution (continuationAfter nodeId batches batchIndex opIdx) =
      m.executeOps stop nodeId batches batchIndex (opIdx + 1) rest execution >>=
        m.executeBasicBlockFromBatch stop nodeId batches (batchIndex + 1) := by
  have behind : batch.drop (opIdx + 1) = rest := by
    rw [← List.drop_drop, inBatch]
    rfl
  have length : batch.length - opIdx = rest.length + 1 := by
    rw [← List.length_drop, inBatch, List.length_cons]
  have batchLength : (batches.getD batchIndex []).length = batch.length := by
    rw [List.getD_eq_getElem?_getD, inBlock, Option.getD_some]
  have bounded : batchIndex < batches.length := (List.getElem?_eq_some_iff.mp inBlock).1
  cases rest with
  | cons later others =>
      rw [continuationAfter, if_pos (by rw [batchLength]; simp at length; omega)]
      simp only [executeContinuation, withBasicBlock_eq isBlock execution inForest,
        executeBasicBlockFromOpIdx, executeOpBatch, inBlock, behind]
  | nil =>
      rw [continuationAfter, if_neg (by rw [batchLength]; simp at length; omega)]
      simp only [executeOps]
      by_cases more : batchIndex < batches.length - 1
      · rw [if_pos more]
        simp only [executeContinuation, withBasicBlock_eq isBlock execution inForest]
        rfl
      · have none : batches.drop (batchIndex + 1) = [] := List.drop_eq_nil_of_le (by omega)
        rw [if_neg more]
        simp only [executeContinuation, withBasicBlock_eq isBlock execution inForest]
        show _ = m.executeBasicBlockFromBatch stop nodeId batches (batchIndex + 1) execution
        rw [executeBasicBlockFromBatch, none, executeBatches]

end Resume

end Processor

end MidenWorkspace.Vm
