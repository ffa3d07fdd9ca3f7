import MidenWorkspace.Vm.ExecutionLoop

/-!
Contract: the meaning of a MAST node, and the execution loop against it.

`evaluate` is the recursion that the processor avoids: a node is evaluated by
evaluating its children, and no continuation is kept. Since the limits are checked
against the number of continuations, the recursion carries how many there would be.

Owns the evaluator and its equivalence with the loop. The two are followed together,
node by node and over any continuations (`Follows`): the loop reaches what the
evaluation gives, and outlasts an evaluation that has run out of fuel.
-/

namespace MidenWorkspace.Vm.Processor

open MidenWorkspace.Library.Halting

variable {π ω ε : Type} (m : Processor π ω ε)

/-- What is evaluated: a node from its start, or a loop after one turn of its body. -/
inductive Task where
  | node (nodeId : MastNodeId)
  | again (nodeId : MastNodeId)
deriving DecidableEq, Repr

def Task.continuation : Task → Continuation ω
  | .node nodeId => .startNode nodeId
  | .again nodeId => .finishLoop nodeId true

/-! ### The evaluator -/

/-- The end of a clock cycle over `depth` continuations. -/
def tick (depth : Nat) (processor : π) : Except (LoopError ε) π :=
  match m.checkLimits (m.incrementClock processor) depth with
  | .error failure => .error (.operation failure)
  | .ok () => .ok (m.incrementClock processor)

/-- The END of a node. -/
def evaluateEnd (depth : Nat) (nodeId : MastNodeId) (forest : MastForest ω) (processor : π) :
    Except (LoopError ε) π := do
  let ticked ← m.tick depth processor
  m.executeAfterExitDecorators nodeId forest ticked

/-- Operations of a block, the first of which has the given index in the block. -/
def evaluateOps (depth : Nat) (nodeId : MastNodeId) (forest : MastForest ω) :
    Nat → List ω → π → Except (LoopError ε) π
  | _, [], processor => .ok processor
  | opIdxInBlock, operation :: rest, processor => do
      let decorated ← m.executeDecoratorsForOp nodeId opIdxInBlock forest processor
      let executed ← perform (m.executeOp operation decorated)
      let ticked ← m.tick depth executed
      evaluateOps depth nodeId forest (opIdxInBlock + 1) rest ticked

/-- A batch after its SPAN or RESPAN, and the batches after it. -/
def evaluateBatches (depth : Nat) (nodeId : MastNodeId) (forest : MastForest ω) :
    Nat → List (List ω) → π → Except (LoopError ε) π
  | _, [], processor => .ok processor
  | offset, batch :: rest, processor => do
      let ticked ← m.tick depth processor
      let executed ← m.evaluateOps depth nodeId forest offset batch ticked
      evaluateBatches depth nodeId forest (offset + batch.length) rest executed

/-- The END of a block. -/
def evaluateBlockEnd (depth : Nat) (nodeId : MastNodeId) (forest : MastForest ω)
    (batches : List (List ω)) (processor : π) : Except (LoopError ε) π := do
  let ticked ← m.tick depth processor
  let decorated ← m.executeEndOfBlockDecorators nodeId batches forest ticked
  m.executeAfterExitDecorators nodeId forest decorated

def evaluateBlock (depth : Nat) (nodeId : MastNodeId) (forest : MastForest ω)
    (batches : List (List ω)) (processor : π) : Except (LoopError ε) π := do
  let decorated ← m.executeBeforeEnterDecorators nodeId forest processor
  let executed ← m.evaluateBatches depth nodeId forest 0 batches decorated
  m.evaluateBlockEnd depth nodeId forest batches executed

/-- Evaluation that may run out of fuel. -/
abbrev Partial (ε : Type) := ExceptT (LoopError ε) Option

def now {α : Type} (result : Except (LoopError ε) α) : Partial ε α := ExceptT.mk (some result)

/-- The evaluation of a task in a forest, over a number of continuations. -/
abbrev Evaluator (π ω ε : Type) := Nat → MastForest ω → Task → π → Partial ε π

section Node

variable (recurse : Evaluator π ω ε) (depth : Nat) (forest : MastForest ω) (nodeId : MastNodeId)

/-- The body of a loop whose condition was one, and what comes after it. -/
def evaluateTurn (body : MastNodeId) (processor : π) : Partial ε π := do
  let started ← now (m.tick (depth + 2) processor)
  let ended ← recurse (depth + 1) forest (.node body) started
  recurse depth forest (.again nodeId) ended

def evaluateJoin (first second : MastNodeId) (processor : π) : Partial ε π := do
  let decorated ← now (m.executeBeforeEnterDecorators nodeId forest processor)
  let started ← now (m.tick (depth + 3) decorated)
  let middle ← recurse (depth + 2) forest (.node first) started
  let ended ← recurse (depth + 1) forest (.node second) middle
  now (m.evaluateEnd depth nodeId forest ended)

/-- The branch of a split whose condition has been dropped. -/
def evaluateBranch (branch : MastNodeId) (processor : π) : Partial ε π := do
  let started ← now (m.tick (depth + 2) processor)
  let ended ← recurse (depth + 1) forest (.node branch) started
  now (m.evaluateEnd depth nodeId forest ended)

def evaluateSplit (onTrue onFalse : MastNodeId) (processor : π) : Partial ε π := do
  let decorated ← now (m.executeBeforeEnterDecorators nodeId forest processor)
  let condition ← now (perform (m.stackTop decorated))
  let dropped ← now (perform (m.decrementSize decorated))
  if condition = 1 then m.evaluateBranch recurse depth forest nodeId onTrue dropped
  else if condition = 0 then m.evaluateBranch recurse depth forest nodeId onFalse dropped
  else now (.error (.notBinaryValueIf condition))

def evaluateLoop (body : MastNodeId) (processor : π) : Partial ε π := do
  let decorated ← now (m.executeBeforeEnterDecorators nodeId forest processor)
  let condition ← now (perform (m.stackTop decorated))
  let dropped ← now (perform (m.decrementSize decorated))
  if condition = 1 then m.evaluateTurn recurse depth forest nodeId body dropped
  else if condition = 0 then
    let started ← now (m.tick depth dropped)
    now (m.evaluateEnd depth nodeId forest started)
  else now (.error (.notBinaryValueLoop condition))

def evaluateAgain (body : MastNodeId) (processor : π) : Partial ε π := do
  let condition ← now (perform (m.stackTop processor))
  if condition = 1 then
    let dropped ← now (perform (m.decrementSize processor))
    m.evaluateTurn recurse depth forest nodeId body dropped
  else if condition = 0 then
    let dropped ← now (perform (m.decrementSize processor))
    now (m.evaluateEnd depth nodeId forest dropped)
  else now (.error (.notBinaryValueLoop condition))

def calleeContext (isSyscall : Bool) (calleeHash : Word) (processor : π) :
    Except (LoopError ε) π :=
  if isSyscall then
    if m.kernelContainsProc calleeHash then .ok (m.enterKernel processor)
    else .error (.syscallTargetNotInKernel calleeHash)
  else perform (m.enterContext calleeHash processor)

/-- The return from another context. -/
def evaluateReturn (processor : π) : Partial ε π := do
  let restored ← now (perform (m.restoreContext processor))
  now (m.evaluateEnd depth nodeId forest restored)

def evaluateCall (callee : MastNodeId) (isSyscall : Bool) (processor : π) : Partial ε π := do
  let decorated ← now (m.executeBeforeEnterDecorators nodeId forest processor)
  let saved ← now (perform (m.saveContextAndTruncateStack decorated))
  match forest.getNodeById callee with
  | none => now (.error .panic)
  | some calleeNode =>
      let entered ← now (m.calleeContext isSyscall calleeNode.digest saved)
      let started ← now (m.tick (depth + 2) entered)
      let ended ← recurse (depth + 1) forest (.node callee) started
      m.evaluateReturn depth forest nodeId ended

def dynContext (isDyncall : Bool) (calleeHash : Word) (processor : π) :
    Except (LoopError ε) π :=
  if isDyncall then do
    let saved ← perform (m.saveContextAndTruncateStack processor)
    perform (m.enterContext calleeHash saved)
  else .ok processor

/-- The callee of a dynamic node, from this forest or from one that the host provides. -/
def evaluateDynCallee (calleeHash : Word) (processor : π) : Partial ε π :=
  match forest.findProcedureRoot calleeHash with
  | some calleeId => do
      let started ← now (m.tick (depth + 2) processor)
      recurse (depth + 1) forest (.node calleeId) started
  | none => do
      let (other, rootId, loaded) ← now (perform (m.loadMastForest calleeHash processor))
      let started ← now (m.tick (depth + 3) loaded)
      recurse (depth + 2) other (.node rootId) started

def evaluateDyn (isDyncall : Bool) (processor : π) : Partial ε π := do
  let decorated ← now (m.executeBeforeEnterDecorators nodeId forest processor)
  let calleeHash ← now (perform (m.readCalleeHash decorated))
  let dropped ← now (perform (m.decrementSize decorated))
  let entered ← now (m.dynContext isDyncall calleeHash dropped)
  let ended ← m.evaluateDynCallee recurse depth forest calleeHash entered
  if isDyncall then m.evaluateReturn depth forest nodeId ended
  else now (m.evaluateEnd depth nodeId forest ended)

/-- An external node takes no cycle of its own; its decorators are those of this forest. -/
def evaluateExternal (digest : Word) (processor : π) : Partial ε π := do
  let decorated ← now (m.executeBeforeEnterDecorators nodeId forest processor)
  let (other, rootId, loaded) ← now (perform (m.loadMastForest digest decorated))
  match (other.getNodeById rootId).map MastNode.kind with
  | none => now (.error .panic)
  | some .external => now (.error (.circularExternalNode digest))
  | some _ =>
      let ended ← recurse (depth + 2) other (.node rootId) loaded
      now (m.executeAfterExitDecorators nodeId forest ended)

omit nodeId in
def evaluateTask : Task → π → Partial ε π
  | .node nodeId, processor =>
      match forest.getNodeById nodeId with
      | none => now (.error .panic)
      | some node =>
          match node.kind with
          | .block firstBatch otherBatches =>
              now (m.evaluateBlock depth nodeId forest (firstBatch :: otherBatches) processor)
          | .join first second => m.evaluateJoin recurse depth forest nodeId first second processor
          | .split onTrue onFalse =>
              m.evaluateSplit recurse depth forest nodeId onTrue onFalse processor
          | .loop body => m.evaluateLoop recurse depth forest nodeId body processor
          | .call callee isSyscall =>
              m.evaluateCall recurse depth forest nodeId callee isSyscall processor
          | .dyn isDyncall => m.evaluateDyn recurse depth forest nodeId isDyncall processor
          | .external => m.evaluateExternal recurse depth forest nodeId node.digest processor
  | .again nodeId, processor =>
      match (forest.getNodeById nodeId).map MastNode.kind with
      | some (.loop body) => m.evaluateAgain recurse depth forest nodeId body processor
      | _ => now (.error .panic)

end Node

/-- Evaluation to a bounded depth of the recursion. -/
def evaluate : Nat → Evaluator π ω ε
  | 0, _, _, _, _ => ExceptT.mk none
  | fuel + 1, depth, forest, task, processor =>
      m.evaluateTask (evaluate fuel) depth forest task processor

/-! ### The loop against the evaluator -/

section Equivalence

variable {m}

theorem now_bind {α β : Type} (first : Except (LoopError ε) α)
    (next : α → Except (LoopError ε) β) :
    now (first >>= next) = now first >>= fun value => now (next value) := by
  cases first <;> rfl

/-- Where the loop stands once a task has been evaluated over the given continuations. -/
def arrival (continuations : List (Continuation ω)) (forest : MastForest ω) :
    Except (LoopError ε) π → Except (Except (LoopError ε) π) (Execution π ω)
  | .ok processor => .ok ⟨processor, continuations, forest⟩
  | .error error => .error (.error error)

/-- The uninterrupted loop gets from one outcome to another. -/
def Leads (m : Processor π ω ε)
    (outcome final : Except (Except (LoopError ε) π) (Execution π ω)) : Prop :=
  ∃ count, LeadsTo (m.advance neverStopper) count outcome final

/-- From `outcome` the loop reaches what the evaluation gives. If the evaluation has run out
of fuel, the loop does not end within the limit. -/
inductive Follows (m : Processor π ω ε) (limit : Nat)
    (outcome : Except (Except (LoopError ε) π) (Execution π ω))
    (continuations : List (Continuation ω)) (forest : MastForest ω) : Partial ε π → Prop where
  | ends (result : Except (LoopError ε) π)
      (leads : Leads m outcome (arrival continuations forest result)) :
      Follows m limit outcome continuations forest (now result)
  | unfinished (goesOn : ¬ HaltsWithin (m.advance neverStopper) limit outcome) :
      Follows m limit outcome continuations forest (ExceptT.mk none)

/-- `Follows` from the end of an iteration. -/
def Completes (m : Processor π ω ε) (limit : Nat) (flow : Flow π ω ε (Execution π ω))
    (continuations : List (Continuation ω)) (forest : MastForest ω)
    (evaluation : Partial ε π) : Prop :=
  Follows m limit (settle (m.handleBreak neverStopper flow)) continuations forest evaluation

section Rules

variable {limit : Nat} {outcome middle : Except (Except (LoopError ε) π) (Execution π ω)}
  {continuations : List (Continuation ω)} {forest : MastForest ω} {evaluation : Partial ε π}
  {execution : Execution π ω} {continuationAfterStop : Option (Continuation ω)}

theorem Follows.of_leads (leads : Leads m outcome middle)
    (follows : Follows m limit middle continuations forest evaluation) :
    Follows m limit outcome continuations forest evaluation := by
  obtain ⟨count, led⟩ := leads
  cases follows with
  | ends result leads =>
      obtain ⟨more, further⟩ := leads
      exact .ends result ⟨count + more, led.trans further⟩
  | unfinished goesOn => exact .unfinished fun within => goesOn (led.haltsWithin within)

/-- The next continuation is popped and executed. -/
theorem Follows.pop_succ {processor : π} {continuation : Continuation ω}
    {rest : List (Continuation ω)} {inner : MastForest ω}
    (executed : Completes m limit
      (m.executeContinuation neverStopper ⟨processor, rest, inner⟩ continuation)
      continuations forest evaluation) :
    Follows m (limit + 1) (.ok ⟨processor, continuation :: rest, inner⟩) continuations forest
      evaluation := by
  cases executed with
  | ends result leads =>
      obtain ⟨count, led⟩ := leads
      exact .ends result ⟨count + 1, .step led⟩
  | unfinished goesOn => exact .unfinished fun within => goesOn (haltsWithin_succ.mp within)

theorem Follows.pop {processor : π} {continuation : Continuation ω}
    {rest : List (Continuation ω)} {inner : MastForest ω}
    (executed : Completes m limit
      (m.executeContinuation neverStopper ⟨processor, rest, inner⟩ continuation)
      continuations forest evaluation) :
    Follows m limit (.ok ⟨processor, continuation :: rest, inner⟩) continuations forest
      evaluation :=
  .of_leads ⟨1, .step (.refl _)⟩ executed

theorem Completes.failed (error : LoopError ε) :
    Completes m limit (.error (.failed error)) continuations forest (now (.error error)) :=
  .ends (.error error) ⟨0, .refl _⟩

theorem Completes.attempt_bind {α : Type} {answer : Except ε α} {rest : α → Partial ε π}
    {next : α → Flow π ω ε (Execution π ω)}
    (later : ∀ value, Completes m limit (next value) continuations forest (rest value)) :
    Completes m limit (attempt answer >>= next) continuations forest
      (now (perform answer) >>= rest) := by
  cases answer with
  | error failure => exact .failed _
  | ok value => exact later value

/-- An attempt of the outer loop. -/
theorem Follows.attempt_bind {α : Type} {answer : Except ε α} {rest : α → Partial ε π}
    {next : α → Flow π ω ε (Execution π ω)}
    (later : ∀ value, Follows m limit (settle (next value)) continuations forest (rest value)) :
    Follows m limit (settle (attempt answer >>= next)) continuations forest
      (now (perform answer) >>= rest) := by
  cases answer with
  | error failure => exact .ends (.error _) ⟨0, .refl _⟩
  | ok value => exact later value

theorem Completes.decorate_bind {action : Decorating π ω ε} {rest : π → Partial ε π}
    {next : Execution π ω → Flow π ω ε (Execution π ω)}
    (later : ∀ processor, Completes m limit (next { execution with processor }) continuations
      forest (rest processor)) :
    Completes m limit (decorate action execution >>= next) continuations forest
      (now (action execution.forest execution.processor) >>= rest) := by
  unfold decorate
  cases action execution.forest execution.processor with
  | error error => exact .failed error
  | ok processor => exact later processor

/-- The decorators that end a task. -/
theorem Completes.decorate (action : Decorating π ω ε) (execution : Execution π ω) :
    Completes m limit (decorate action execution) execution.continuations execution.forest
      (now (action execution.forest execution.processor)) := by
  rw [← bind_pure (Processor.decorate action execution),
    ← bind_pure (now (action execution.forest execution.processor))]
  exact .decorate_bind fun processor => .ends (.ok processor) ⟨0, .refl _⟩

theorem Completes.onProcessor_bind {action : π → Except ε π} {rest : π → Partial ε π}
    {next : Execution π ω → Flow π ω ε (Execution π ω)}
    (later : ∀ processor, Completes m limit (next { execution with processor }) continuations
      forest (rest processor)) :
    Completes m limit (onProcessor action execution >>= next) continuations forest
      (now (perform (action execution.processor)) >>= rest) := by
  unfold onProcessor
  cases action execution.processor with
  | error failure => exact .failed _
  | ok processor => exact later processor

theorem Completes.finalize_bind {rest : π → Partial ε π}
    {next : Execution π ω → Flow π ω ε (Execution π ω)}
    (later : ∀ processor, Completes m limit (next { execution with processor }) continuations
      forest (rest processor)) :
    Completes m limit (m.finalizeClockCycle neverStopper continuationAfterStop execution >>= next)
      continuations forest
      (now (m.tick execution.continuations.length execution.processor) >>= rest) := by
  cases limits : m.checkLimits (m.incrementClock execution.processor)
      execution.continuations.length with
  | error failure =>
      simp only [tick, limits]
      rw [finalizeClockCycle_of_limit _ limits]
      exact .failed _
  | ok _ =>
      simp only [tick, limits]
      rw [finalizeClockCycle_of_go _ limits rfl]
      exact later _

/-- A cycle that ends its iteration and leaves continuations to go on with. -/
theorem Completes.finalize_then {rest : π → Partial ε π}
    (later : ∀ processor, Follows m limit (.ok { execution with processor }) continuations
      forest (rest processor)) :
    Completes m limit (m.finalizeClockCycle neverStopper continuationAfterStop execution)
      continuations forest
      (now (m.tick execution.continuations.length execution.processor) >>= rest) := by
  rw [← bind_pure (m.finalizeClockCycle neverStopper continuationAfterStop execution)]
  exact .finalize_bind later

/-- The END of a node ends a task. -/
theorem Completes.finishNode (nodeId : MastNodeId) (execution : Execution π ω) :
    Completes m limit (m.finishNode neverStopper nodeId execution)
      execution.continuations execution.forest
      (now (m.evaluateEnd execution.continuations.length nodeId execution.forest
        execution.processor)) := by
  simp only [evaluateEnd, now_bind]
  apply Completes.finalize_bind
  exact fun processor => .decorate _ { execution with processor }

end Rules

/-- The loop follows an evaluator, over any continuations. -/
def Recursion (m : Processor π ω ε) (limit : Nat) (recurse : Evaluator π ω ε) : Prop :=
  ∀ (continuations : List (Continuation ω)) (forest : MastForest ω) (task : Task)
    (processor : π), Follows m limit (.ok ⟨processor, task.continuation :: continuations, forest⟩)
      continuations forest (recurse continuations.length forest task processor)

section Node

variable {limit : Nat} {recurse : Evaluator π ω ε} (recursion : Recursion m limit recurse)
  (nodeId : MastNodeId) (execution : Execution π ω) {continuations : List (Continuation ω)}
  {forest : MastForest ω}

include recursion

/-- A task inside another: the loop runs it and goes on below it. -/
theorem Follows.recurse_bind (task : Task) (below : List (Continuation ω))
    {inner : MastForest ω} {processor : π} {rest : π → Partial ε π}
    (later : ∀ ended, Follows m limit (.ok ⟨ended, below, inner⟩) continuations forest
      (rest ended)) :
    Follows m limit (.ok ⟨processor, task.continuation :: below, inner⟩) continuations forest
      (recurse below.length inner task processor >>= rest) := by
  have inside := recursion below inner task processor
  generalize recurse below.length inner task processor = evaluation at inside
  cases inside with
  | unfinished goesOn => exact .unfinished goesOn
  | ends result leads =>
      cases result with
      | error error => exact .ends (.error error) leads
      | ok ended => exact .of_leads leads (later ended)

theorem Completes.startJoinNode (first second : MastNodeId) :
    Completes m limit (m.startJoinNode neverStopper nodeId first second execution)
      execution.continuations execution.forest
      (m.evaluateJoin recurse execution.continuations.length execution.forest nodeId first
        second execution.processor) := by
  apply Completes.decorate_bind
  intro decorated
  apply Completes.finalize_then
  intro started
  apply Follows.recurse_bind recursion (.node first)
    (.startNode second :: .finishJoin nodeId :: execution.continuations)
  intro middle
  apply Follows.recurse_bind recursion (.node second)
    (.finishJoin nodeId :: execution.continuations)
  intro ended
  exact .pop (.finishNode nodeId ⟨ended, execution.continuations, execution.forest⟩)

theorem Completes.startSplitNode (onTrue onFalse : MastNodeId) :
    Completes m limit (m.startSplitNode neverStopper nodeId onTrue onFalse execution)
      execution.continuations execution.forest
      (m.evaluateSplit recurse execution.continuations.length execution.forest nodeId onTrue
        onFalse execution.processor) := by
  -- Both branches run in the same way.
  have branch (chosen : MastNodeId) (dropped : π) :
      Completes m limit (m.finalizeClockCycle neverStopper none
          (Execution.push { execution with processor := dropped }
            [.startNode chosen, .finishSplit nodeId]))
        execution.continuations execution.forest
        (m.evaluateBranch recurse execution.continuations.length execution.forest nodeId chosen
          dropped) := by
    apply Completes.finalize_then
    intro started
    apply Follows.recurse_bind recursion (.node chosen)
      (.finishSplit nodeId :: execution.continuations)
    intro ended
    exact .pop (.finishNode nodeId ⟨ended, execution.continuations, execution.forest⟩)
  apply Completes.decorate_bind
  intro decorated
  apply Completes.attempt_bind
  intro condition
  apply Completes.onProcessor_bind
  intro dropped
  by_cases one : condition = 1
  · rw [if_pos one, if_pos one]
    exact branch onTrue dropped
  · rw [if_neg one, if_neg one]
    by_cases zero : condition = 0
    · rw [if_pos zero, if_pos zero]
      exact branch onFalse dropped
    · rw [if_neg zero, if_neg zero]
      exact .failed _

theorem Completes.repeatLoop (body : MastNodeId) (dropped : π) :
    Completes m limit (m.repeatLoop neverStopper nodeId body { execution with processor := dropped })
      execution.continuations execution.forest
      (m.evaluateTurn recurse execution.continuations.length execution.forest nodeId body
        dropped) := by
  apply Completes.finalize_then
  intro started
  apply Follows.recurse_bind recursion (.node body)
    (.finishLoop nodeId true :: execution.continuations)
  intro ended
  exact recursion execution.continuations execution.forest (.again nodeId) ended

theorem Completes.startLoopNode (body : MastNodeId) :
    Completes m limit (m.startLoopNode neverStopper nodeId body execution)
      execution.continuations execution.forest
      (m.evaluateLoop recurse execution.continuations.length execution.forest nodeId body
        execution.processor) := by
  apply Completes.decorate_bind
  intro decorated
  apply Completes.attempt_bind
  intro condition
  apply Completes.onProcessor_bind
  intro dropped
  by_cases one : condition = 1
  · rw [if_pos one, if_pos one]
    exact .repeatLoop recursion nodeId execution body dropped
  · rw [if_neg one, if_neg one]
    by_cases zero : condition = 0
    · rw [if_pos zero, if_pos zero]
      apply Completes.finalize_bind
      intro started
      exact .finishNode nodeId ⟨started, execution.continuations, execution.forest⟩
    · rw [if_neg zero, if_neg zero]
      exact .failed _

theorem Completes.finishLoopNode (body : MastNodeId) :
    Completes m limit (m.finishLoopNode neverStopper true nodeId body execution)
      execution.continuations execution.forest
      (m.evaluateAgain recurse execution.continuations.length execution.forest nodeId body
        execution.processor) := by
  apply Completes.attempt_bind
  intro condition
  by_cases one : condition = 1
  · rw [if_pos one, if_pos one]
    apply Completes.onProcessor_bind
    intro dropped
    exact .repeatLoop recursion nodeId execution body dropped
  · rw [if_neg one, if_neg one]
    by_cases zero : condition = 0
    · rw [if_pos zero, if_pos zero]
      apply Completes.onProcessor_bind
      intro dropped
      exact .finishNode nodeId ⟨dropped, execution.continuations, execution.forest⟩
    · rw [if_neg zero, if_neg zero]
      exact .failed _

omit recursion in
theorem Completes.finishCallNode :
    Completes m limit (m.finishCallNode neverStopper nodeId execution)
      execution.continuations execution.forest
      (m.evaluateReturn execution.continuations.length execution.forest nodeId
        execution.processor) := by
  apply Completes.onProcessor_bind
  intro restored
  exact .finishNode nodeId ⟨restored, execution.continuations, execution.forest⟩

omit recursion in
theorem Completes.enterCallee_bind {isSyscall : Bool} {calleeHash : Word}
    {rest : π → Partial ε π} {next : Execution π ω → Flow π ω ε (Execution π ω)}
    (later : ∀ processor, Completes m limit (next { execution with processor }) continuations
      forest (rest processor)) :
    Completes m limit (m.enterCallee isSyscall calleeHash execution >>= next) continuations forest
      (now (m.calleeContext isSyscall calleeHash execution.processor) >>= rest) := by
  cases isSyscall with
  | false => exact .onProcessor_bind later
  | true =>
      simp only [calleeContext, enterCallee, if_true]
      by_cases inKernel : m.kernelContainsProc calleeHash
      · rw [if_pos inKernel, if_pos inKernel]
        exact later _
      · rw [if_neg inKernel, if_neg inKernel]
        exact .failed _

theorem Completes.startCallNode (callee : MastNodeId) (isSyscall : Bool) :
    Completes m limit (m.startCallNode neverStopper nodeId callee isSyscall execution)
      execution.continuations execution.forest
      (m.evaluateCall recurse execution.continuations.length execution.forest nodeId callee
        isSyscall execution.processor) := by
  apply Completes.decorate_bind
  intro decorated
  apply Completes.onProcessor_bind
  intro saved
  cases execution.forest.getNodeById callee with
  | none => exact .failed _
  | some calleeNode =>
      apply Completes.enterCallee_bind
      intro entered
      apply Completes.finalize_then
      intro started
      apply Follows.recurse_bind recursion (.node callee)
        (.finishCall nodeId :: execution.continuations)
      intro ended
      exact .pop (.finishCallNode nodeId ⟨ended, execution.continuations, execution.forest⟩)

omit recursion in
theorem Completes.enterDyn_bind {isDyncall : Bool} {calleeHash : Word}
    {rest : π → Partial ε π} {next : Execution π ω → Flow π ω ε (Execution π ω)}
    (later : ∀ processor, Completes m limit (next { execution with processor }) continuations
      forest (rest processor)) :
    Completes m limit (m.enterDyn isDyncall calleeHash execution >>= next) continuations forest
      (now (m.dynContext isDyncall calleeHash execution.processor) >>= rest) := by
  cases isDyncall with
  | false => exact later _
  | true =>
      simp only [dynContext, enterDyn, if_true, now_bind, bind_assoc]
      apply Completes.onProcessor_bind
      intro saved
      exact .onProcessor_bind later

omit recursion in
/-- The END of a dynamic node. -/
theorem Follows.finishDyn {isDyncall : Bool} (ended : π)
    (isDyn : (execution.forest.getNodeById nodeId).map MastNode.kind = some (.dyn isDyncall)) :
    Follows m limit (.ok ⟨ended, .finishDyn nodeId :: execution.continuations, execution.forest⟩)
      execution.continuations execution.forest
      (if isDyncall then
        m.evaluateReturn execution.continuations.length execution.forest nodeId ended
      else now (m.evaluateEnd execution.continuations.length nodeId execution.forest ended)) := by
  apply Follows.pop
  simp only [executeContinuation, isDyn]
  cases isDyncall with
  | false => exact .finishNode nodeId ⟨ended, execution.continuations, execution.forest⟩
  | true => exact .finishCallNode nodeId ⟨ended, execution.continuations, execution.forest⟩

theorem Completes.startDynNode {isDyncall : Bool}
    (isDyn : (execution.forest.getNodeById nodeId).map MastNode.kind = some (.dyn isDyncall)) :
    Completes m limit (m.startDynNode neverStopper nodeId isDyncall execution)
      execution.continuations execution.forest
      (m.evaluateDyn recurse execution.continuations.length execution.forest nodeId isDyncall
        execution.processor) := by
  apply Completes.decorate_bind
  intro decorated
  apply Completes.attempt_bind
  intro calleeHash
  apply Completes.onProcessor_bind
  intro dropped
  apply Completes.enterDyn_bind
  intro entered
  simp only [evaluateDynCallee]
  cases execution.forest.findProcedureRoot calleeHash with
  | some calleeId =>
      simp only [bind_assoc]
      apply Completes.finalize_then
      intro started
      apply Follows.recurse_bind recursion (.node calleeId)
        (.finishDyn nodeId :: execution.continuations)
      exact fun ended => .finishDyn nodeId execution ended isDyn
  | none =>
      simp only [bind_assoc]
      apply Follows.attempt_bind
      rintro ⟨other, rootId, loaded⟩
      dsimp only
      rw [← handleBreak_finalizeClockCycle neverStopper]
      apply Completes.finalize_then
      intro started
      apply Follows.recurse_bind recursion (.node rootId)
        (.enterForest execution.forest :: .finishDyn nodeId :: execution.continuations)
      intro ended
      exact .pop (Follows.finishDyn nodeId execution ended isDyn)

theorem Completes.executeExternalNode (digest : Word) :
    Completes m limit (m.executeExternalNode nodeId digest execution)
      execution.continuations execution.forest
      (m.evaluateExternal recurse execution.continuations.length execution.forest nodeId digest
        execution.processor) := by
  apply Completes.decorate_bind
  intro decorated
  apply Follows.attempt_bind
  rintro ⟨other, rootId, loaded⟩
  dsimp only
  generalize (other.getNodeById rootId).map MastNode.kind = found
  rcases found with _ | kind
  · exact Completes.failed _
  · cases kind
    case external => exact Completes.failed _
    all_goals
      apply Follows.recurse_bind recursion (.node rootId)
        (.enterForest execution.forest :: .finishExternal nodeId :: execution.continuations)
      intro ended
      exact .pop (Follows.pop (Completes.decorate _ { execution with processor := ended }))

end Node

section Block

variable {limit : Nat} {forest : MastForest ω} {nodeId : MastNodeId} {batches : List (List ω)}
  {batchIndex : Nat}

theorem handleBreak_finishEmit (operation : ω) (continuation : Continuation ω)
    (execution : Execution π ω) :
    m.handleBreak neverStopper (m.finishEmit neverStopper operation continuation execution) =
      m.finishEmit neverStopper operation continuation execution := by
  unfold finishEmit onProcessor
  cases m.executeOp operation execution.processor with
  | error failure => rfl
  | ok processor =>
      show m.handleBreak neverStopper (m.finalizeClockCycle neverStopper (some continuation)
        { execution with processor } >>= _) = m.finalizeClockCycle neverStopper (some continuation)
          { execution with processor } >>= _
      cases limits : m.checkLimits (m.incrementClock processor) execution.continuations.length with
      | error failure =>
          rw [finalizeClockCycle_of_limit _ limits]
          rfl
      | ok _ =>
          rw [finalizeClockCycle_of_go _ limits rfl]
          rfl

theorem Completes.executeOps {batch ops : List ω} {opIdx : Nat} {rest : π → Partial ε π}
    (isBlock : IsBlock forest nodeId batches) (execution : Execution π ω)
    (inForest : execution.forest = forest) (inBlock : batches[batchIndex]? = some batch)
    (inBatch : batch.drop opIdx = ops)
    (later : ∀ processor, Completes m limit
      (m.executeBasicBlockFromBatch neverStopper nodeId batches (batchIndex + 1)
        { execution with processor })
      execution.continuations execution.forest (rest processor)) :
    Completes m limit
      (m.executeOps neverStopper nodeId batches batchIndex opIdx ops execution >>=
        m.executeBasicBlockFromBatch neverStopper nodeId batches (batchIndex + 1))
      execution.continuations execution.forest
      (now (m.evaluateOps execution.continuations.length nodeId execution.forest
        (batchOffset batches batchIndex + opIdx) ops execution.processor) >>= rest) := by
  induction ops generalizing opIdx execution with
  | nil => exact later execution.processor
  | cons operation others inductionHypothesis =>
      have behind : batch.drop (opIdx + 1) = others := by
        rw [← List.drop_drop, inBatch]
        rfl
      simp only [evaluateOps, Processor.executeOps, now_bind, bind_assoc]
      apply Completes.decorate_bind
      intro decorated
      by_cases emits : m.isEmit operation
      · -- The operation is executed outside and the loop resumes behind it.
        rw [if_pos emits]
        show Follows m limit (settle (m.finishEmit neverStopper _ _ _)) _ _ _
        rw [← handleBreak_finishEmit]
        apply Completes.onProcessor_bind
        intro executed
        apply Completes.finalize_bind
        intro ticked
        apply Follows.pop
        show Completes m limit
          (m.executeContinuation neverStopper { execution with processor := ticked } _) _ _ _
        rw [executeContinuation_continuationAfter isBlock { execution with processor := ticked }
          inForest inBlock inBatch]
        exact inductionHypothesis { execution with processor := ticked } inForest behind later
      · rw [if_neg emits]
        simp only [bind_assoc]
        apply Completes.onProcessor_bind
        intro executed
        apply Completes.finalize_bind
        intro ticked
        exact inductionHypothesis { execution with processor := ticked } inForest behind later

theorem Completes.finishBasicBlock (execution : Execution π ω) :
    Completes m limit (m.finishBasicBlock neverStopper nodeId batches execution)
      execution.continuations execution.forest
      (now (m.evaluateBlockEnd execution.continuations.length nodeId execution.forest batches
        execution.processor)) := by
  simp only [evaluateBlockEnd, now_bind]
  apply Completes.finalize_bind
  intro ticked
  apply Completes.decorate_bind
  exact fun processor => .decorate _ { execution with processor }

theorem batchOffset_succ {batch : List ω} (inBlock : batches[batchIndex]? = some batch) :
    batchOffset batches (batchIndex + 1) = batchOffset batches batchIndex + batch.length := by
  rw [batchOffset, List.take_add_one, inBlock, List.map_append, List.sum_append]
  rfl

theorem Completes.executeBasicBlockFromBatch (isBlock : IsBlock forest nodeId batches)
    (execution : Execution π ω) (inForest : execution.forest = forest) (batchIndex : Nat) :
    Completes m limit (m.executeBasicBlockFromBatch neverStopper nodeId batches batchIndex execution)
      execution.continuations execution.forest
      (now (m.evaluateBatches execution.continuations.length nodeId execution.forest
        (batchOffset batches batchIndex) (batches.drop batchIndex) execution.processor >>=
          m.evaluateBlockEnd execution.continuations.length nodeId execution.forest batches)) := by
  -- The induction is on the batches that are left.
  generalize remaining : batches.drop batchIndex = rest
  induction rest generalizing batchIndex execution with
  | nil =>
      simp only [Processor.executeBasicBlockFromBatch, remaining, executeBatches]
      exact .finishBasicBlock execution
  | cons batch others inductionHypothesis =>
      have inBlock : batches[batchIndex]? = some batch := by
        rw [← List.head?_drop, remaining]
        rfl
      have behind : batches.drop (batchIndex + 1) = others := by
        rw [← List.drop_drop, remaining]
        rfl
      simp only [Processor.executeBasicBlockFromBatch, remaining, executeBatches, evaluateBatches,
        bind_assoc, now_bind]
      apply Completes.finalize_bind
      intro ticked
      simp only [executeOpBatch, inBlock]
      rw [← behind, ← batchOffset_succ inBlock]
      apply Completes.executeOps isBlock { execution with processor := ticked } inForest inBlock rfl
      intro executed
      rw [behind, ← now_bind]
      exact inductionHypothesis { execution with processor := executed } inForest _ behind

/-- The first SPAN does what a RESPAN of batch zero does. -/
theorem Completes.executeBasicBlockFromStart (isBlock : IsBlock forest nodeId batches)
    (execution : Execution π ω) (inForest : execution.forest = forest) :
    Completes m limit (m.executeBasicBlockFromStart neverStopper nodeId batches execution)
      execution.continuations execution.forest
      (now (m.evaluateBlock execution.continuations.length nodeId execution.forest batches
        execution.processor)) := by
  simp only [evaluateBlock, now_bind]
  apply Completes.decorate_bind
  intro decorated
  rw [← now_bind]
  have notEmpty := isBlock
  obtain ⟨firstBatch, otherBatches, rfl, _⟩ := notEmpty
  exact .executeBasicBlockFromBatch isBlock { execution with processor := decorated } inForest 0

end Block

section Node

variable {limit : Nat} {recurse : Evaluator π ω ε} (recursion : Recursion m limit recurse)

include recursion

theorem Completes.startNode (nodeId : MastNodeId) (execution : Execution π ω) :
    Completes m limit (m.startNode neverStopper nodeId execution)
      execution.continuations execution.forest
      (m.evaluateTask recurse execution.continuations.length execution.forest (.node nodeId)
        execution.processor) := by
  simp only [Processor.startNode, evaluateTask]
  cases found : execution.forest.getNodeById nodeId with
  | none => exact .failed _
  | some node =>
      obtain ⟨kind, digest, _, _, _⟩ := node
      cases kind with
      | block firstBatch otherBatches =>
          exact .executeBasicBlockFromStart
            ⟨firstBatch, otherBatches, rfl, by rw [found]; rfl⟩ execution rfl
      | join first second => exact .startJoinNode recursion nodeId execution first second
      | split onTrue onFalse => exact .startSplitNode recursion nodeId execution onTrue onFalse
      | loop body => exact .startLoopNode recursion nodeId execution body
      | call callee isSyscall => exact .startCallNode recursion nodeId execution callee isSyscall
      | dyn isDyncall => exact .startDynNode recursion nodeId execution (by rw [found]; rfl)
      | external => exact .executeExternalNode recursion nodeId execution digest

/-- One more level of the recursion, and one more iteration of the loop. -/
theorem Recursion.evaluateTask : Recursion m (limit + 1) (m.evaluateTask recurse) := by
  intro continuations forest task processor
  apply Follows.pop_succ
  cases task with
  | node nodeId => exact .startNode recursion nodeId ⟨processor, continuations, forest⟩
  | again nodeId =>
      simp only [Processor.evaluateTask, Task.continuation, executeContinuation]
      generalize (forest.getNodeById nodeId).map MastNode.kind = found
      rcases found with _ | kind
      · exact .failed _
      · cases kind
        case loop body =>
          exact .finishLoopNode recursion nodeId ⟨processor, continuations, forest⟩ body
        all_goals exact .failed _

end Node

theorem recursion_evaluate (fuel : Nat) : Recursion m fuel (m.evaluate fuel) := by
  induction fuel with
  | zero => exact fun _ _ _ _ => .unfinished haltsWithin_zero
  | succ fuel inductionHypothesis => exact inductionHypothesis.evaluateTask

/-- A run over no continuations ends with the result of its task. -/
theorem Leads.halts {forest : MastForest ω} {execution : Execution π ω}
    {result : Except (LoopError ε) π}
    (leads : Leads m (.ok execution) (arrival [] forest result)) :
    Halts (m.advance neverStopper) execution result := by
  obtain ⟨count, led⟩ := leads
  cases result with
  | error error => exact led.halts
  | ok processor => exact LeadsTo.halts (led.trans (.step (.refl _)))

end Equivalence

/-- The loop over continuations computes the recursion over the nodes: a program runs to a
result exactly if evaluating its entry point, to some depth, gives that result. This covers
errors and the limits on cycles and continuations, and a run that never ends is one that no
depth evaluates. -/
theorem runs_iff_evaluates (forest : MastForest ω) (entrypoint : MastNodeId) (processor : π)
    (result : Except (LoopError ε) π) :
    m.Runs neverStopper forest entrypoint processor result ↔
      ∃ fuel, m.evaluate fuel 0 forest (.node entrypoint) processor = now result := by
  constructor
  · rintro ⟨fuel, ran⟩
    refine ⟨fuel, ?_⟩
    have follows := recursion_evaluate (m := m) fuel [] forest (.node entrypoint) processor
    generalize m.evaluate fuel 0 forest (.node entrypoint) processor = evaluation at follows
    cases follows with
    | ends answer leads => rw [leads.halts.unique ⟨fuel, ran⟩]
    | unfinished goesOn =>
        exact absurd (Option.isSome_iff_exists.mpr ⟨result, ran⟩) goesOn
  · rintro ⟨fuel, evaluated⟩
    have follows := recursion_evaluate (m := m) fuel [] forest (.node entrypoint) processor
    rw [List.length_nil, evaluated] at follows
    cases follows with
    | ends _ leads => exact leads.halts

end MidenWorkspace.Vm.Processor
