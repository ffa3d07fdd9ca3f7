import MidenWorkspace.Vm.ExecutionLoop

/-!
Contract: stopping and resuming the execution loop.

A stopper may break the loop after any clock cycle. The break hands back the
continuation that is missing from the stack, if one is, and the next entry into the
loop starts from there. The results of a run do not depend on where it was stopped.

The argument is one lemma about the end of a clock cycle: what follows it in the
same iteration is what the handed-back continuation does in the next one.
-/

namespace MidenWorkspace.Vm.Processor

open MidenWorkspace.Library.Halting

variable {π ω ε : Type} {m : Processor π ω ε} {stop : Stopper π ω}

/-- From `flow`, which may have stopped, the resumed run catches up with `whole`, which
ran the iteration to its end. -/
def CatchesUp (m : Processor π ω ε) (stop : Stopper π ω)
    (flow whole : Flow π ω ε (Execution π ω)) : Prop :=
  ∃ count, LeadsTo (m.advance stop) count (settle (m.handleBreak stop flow))
    (settle (m.handleBreak neverStopper whole))

theorem CatchesUp.failed (error : LoopError ε) :
    CatchesUp m stop (.error (.failed error)) (.error (.failed error)) :=
  ⟨0, .refl _⟩

theorem CatchesUp.ok (execution : Execution π ω) :
    CatchesUp m stop (.ok execution) (.ok execution) :=
  ⟨0, .refl _⟩

/-- Both runs make the same attempt. -/
theorem CatchesUp.attempt_bind {α : Type} {result : Except ε α}
    {next whole : α → Flow π ω ε (Execution π ω)}
    (rest : ∀ value, CatchesUp m stop (next value) (whole value)) :
    CatchesUp m stop (attempt result >>= next) (attempt result >>= whole) := by
  cases result with
  | error failure => exact .failed _
  | ok value => exact rest value

/-- Both runs execute the same decorators. -/
theorem CatchesUp.decorate_bind {action : Decorating π ω ε} {execution : Execution π ω}
    {next whole : Execution π ω → Flow π ω ε (Execution π ω)}
    (rest : ∀ processor, CatchesUp m stop (next { execution with processor })
      (whole { execution with processor })) :
    CatchesUp m stop (decorate action execution >>= next)
      (decorate action execution >>= whole) := by
  unfold decorate
  cases action execution.forest execution.processor with
  | error error => exact .failed error
  | ok processor => exact rest processor

theorem CatchesUp.decorate (action : Decorating π ω ε) (execution : Execution π ω) :
    CatchesUp m stop (decorate action execution) (decorate action execution) := by
  rw [← bind_pure (Processor.decorate action execution)]
  exact .decorate_bind fun _ => .ok _

theorem CatchesUp.onProcessor_bind {action : π → Except ε π} {execution : Execution π ω}
    {next whole : Execution π ω → Flow π ω ε (Execution π ω)}
    (rest : ∀ processor, CatchesUp m stop (next { execution with processor })
      (whole { execution with processor })) :
    CatchesUp m stop (onProcessor action execution >>= next)
      (onProcessor action execution >>= whole) := by
  unfold onProcessor
  cases action execution.processor with
  | error failure => exact .failed _
  | ok processor => exact rest processor

/-- The end of a clock cycle: either both runs go on, or one is stopped and the
continuation it resumes from does what follows. -/
theorem CatchesUp.finalize_bind {continuation : Continuation ω} {execution : Execution π ω}
    {next whole : Execution π ω → Flow π ω ε (Execution π ω)}
    (resumes : ∀ processor,
      m.executeContinuation stop { execution with processor } continuation =
        next { execution with processor })
    (rest : ∀ processor, CatchesUp m stop (next { execution with processor })
      (whole { execution with processor })) :
    CatchesUp m stop (m.finalizeClockCycle stop (some continuation) execution >>= next)
      (m.finalizeClockCycle neverStopper (some continuation) execution >>= whole) := by
  cases limits : m.checkLimits (m.incrementClock execution.processor)
      execution.continuations.length with
  | error failure =>
      rw [finalizeClockCycle_of_limit _ limits, finalizeClockCycle_of_limit _ limits]
      exact .failed _
  | ok _ =>
      obtain ⟨count, led⟩ := rest (m.incrementClock execution.processor)
      have goes : neverStopper (m.incrementClock execution.processor) execution.continuations =
        false := rfl
      rw [finalizeClockCycle_of_go _ limits goes]
      by_cases stops : stop (m.incrementClock execution.processor) execution.continuations
      · rw [finalizeClockCycle_of_stop _ limits stops]
        rw [← resumes] at led
        exact ⟨count + 1, .step led⟩
      · rw [finalizeClockCycle_of_go _ limits (Bool.eq_false_iff.mpr stops)]
        exact ⟨count, led⟩

/-- A cycle that ends its iteration with nothing left out of the stack. -/
theorem settle_finalize_none (execution : Execution π ω) :
    settle (m.finalizeClockCycle stop none execution) =
      settle (m.finalizeClockCycle neverStopper none execution) := by
  cases limits : m.checkLimits (m.incrementClock execution.processor)
      execution.continuations.length with
  | error failure =>
      rw [finalizeClockCycle_of_limit _ limits, finalizeClockCycle_of_limit _ limits]
  | ok _ =>
      by_cases stops : stop (m.incrementClock execution.processor) execution.continuations
      · rw [finalizeClockCycle_of_stop _ limits stops, finalizeClockCycle_of_go _ limits rfl]
        rfl
      · rw [finalizeClockCycle_of_go _ limits (Bool.eq_false_iff.mpr stops),
          finalizeClockCycle_of_go _ limits rfl]

theorem CatchesUp.finalize_none (execution : Execution π ω) :
    CatchesUp m stop (m.finalizeClockCycle stop none execution)
      (m.finalizeClockCycle neverStopper none execution) := by
  refine ⟨0, ?_⟩
  rw [handleBreak_finalizeClockCycle, handleBreak_finalizeClockCycle, settle_finalize_none]
  exact .refl _

theorem CatchesUp.finishNode (nodeId : MastNodeId) (execution : Execution π ω) :
    CatchesUp m stop (m.finishNode stop nodeId execution)
      (m.finishNode neverStopper nodeId execution) :=
  .finalize_bind (fun _ => rfl) fun _ => .decorate _ _

/-! ### Basic blocks -/

/-- Emitting inside a run that stops afterwards pushes the continuation once, as the loop
itself does when it goes on. -/
theorem settle_finishEmit (operation : ω) (continuation : Continuation ω)
    (execution : Execution π ω) :
    settle (m.finishEmit stop operation continuation execution) =
      settle (m.finishEmit neverStopper operation continuation execution) := by
  unfold finishEmit onProcessor
  cases m.executeOp operation execution.processor with
  | error failure => rfl
  | ok processor =>
      show settle (m.finalizeClockCycle stop (some continuation) { execution with processor } >>= _)
        = settle (m.finalizeClockCycle neverStopper (some continuation)
          { execution with processor } >>= _)
      cases limits : m.checkLimits (m.incrementClock processor) execution.continuations.length with
      | error failure =>
          rw [finalizeClockCycle_of_limit _ limits, finalizeClockCycle_of_limit _ limits]
      | ok _ =>
          by_cases stops : stop (m.incrementClock processor) execution.continuations
          · rw [finalizeClockCycle_of_stop _ limits stops, finalizeClockCycle_of_go _ limits rfl]
            rfl
          · rw [finalizeClockCycle_of_go _ limits (Bool.eq_false_iff.mpr stops),
              finalizeClockCycle_of_go _ limits rfl]

section Block

variable {forest : MastForest ω} {nodeId : MastNodeId} {batches : List (List ω)}
  {batchIndex : Nat}

theorem CatchesUp.executeOps {batch ops : List ω} {opIdx : Nat}
    (isBlock : IsBlock forest nodeId batches) (execution : Execution π ω)
    (inForest : execution.forest = forest) (inBlock : batches[batchIndex]? = some batch)
    (inBatch : batch.drop opIdx = ops)
    (later : ∀ processor, CatchesUp m stop
      (m.executeBasicBlockFromBatch stop nodeId batches (batchIndex + 1)
        { execution with processor })
      (m.executeBasicBlockFromBatch neverStopper nodeId batches (batchIndex + 1)
        { execution with processor })) :
    CatchesUp m stop
      (m.executeOps stop nodeId batches batchIndex opIdx ops execution >>=
        m.executeBasicBlockFromBatch stop nodeId batches (batchIndex + 1))
      (m.executeOps neverStopper nodeId batches batchIndex opIdx ops execution >>=
        m.executeBasicBlockFromBatch neverStopper nodeId batches (batchIndex + 1)) := by
  induction ops generalizing opIdx execution with
  | nil => exact later execution.processor
  | cons operation rest inductionHypothesis =>
      have behind : batch.drop (opIdx + 1) = rest := by
        rw [← List.drop_drop, inBatch]
        rfl
      simp only [Processor.executeOps, bind_assoc]
      apply CatchesUp.decorate_bind
      intro decorated
      by_cases emits : m.isEmit operation
      · rw [if_pos emits, if_pos emits]
        refine ⟨0, ?_⟩
        show LeadsTo _ 0 (settle (m.finishEmit stop _ _ _)) (settle (m.finishEmit neverStopper _ _ _))
        rw [settle_finishEmit]
        exact .refl _
      · rw [if_neg emits, if_neg emits]
        simp only [bind_assoc]
        apply CatchesUp.onProcessor_bind
        intro executed
        apply CatchesUp.finalize_bind
        · exact fun processor => executeContinuation_continuationAfter isBlock
            { execution with processor } inForest inBlock inBatch
        · exact fun processor =>
            inductionHypothesis { execution with processor } inForest behind later

theorem CatchesUp.executeOpBatch {batch : List ω} (isBlock : IsBlock forest nodeId batches)
    (execution : Execution π ω) (inForest : execution.forest = forest)
    (inBlock : batches[batchIndex]? = some batch) (startOpIdx : Nat)
    (later : ∀ processor, CatchesUp m stop
      (m.executeBasicBlockFromBatch stop nodeId batches (batchIndex + 1)
        { execution with processor })
      (m.executeBasicBlockFromBatch neverStopper nodeId batches (batchIndex + 1)
        { execution with processor })) :
    CatchesUp m stop
      (m.executeBasicBlockFromOpIdx stop nodeId batches batchIndex startOpIdx execution)
      (m.executeBasicBlockFromOpIdx neverStopper nodeId batches batchIndex startOpIdx execution) := by
  simp only [executeBasicBlockFromOpIdx, Processor.executeOpBatch, inBlock]
  exact .executeOps isBlock execution inForest inBlock rfl later

theorem CatchesUp.leaveBasicBlock (execution : Execution π ω) :
    CatchesUp m stop (m.leaveBasicBlock nodeId batches execution)
      (m.leaveBasicBlock nodeId batches execution) :=
  .decorate_bind fun _ => .decorate _ _

theorem CatchesUp.finishBasicBlock (isBlock : IsBlock forest nodeId batches)
    (execution : Execution π ω) (inForest : execution.forest = forest) :
    CatchesUp m stop (m.finishBasicBlock stop nodeId batches execution)
      (m.finishBasicBlock neverStopper nodeId batches execution) := by
  apply CatchesUp.finalize_bind
  · intro processor
    rw [executeContinuation, withBasicBlock_eq isBlock { execution with processor } inForest]
  · exact fun _ => .leaveBasicBlock _

theorem CatchesUp.executeBasicBlockFromBatch (isBlock : IsBlock forest nodeId batches)
    (execution : Execution π ω) (inForest : execution.forest = forest) :
    CatchesUp m stop (m.executeBasicBlockFromBatch stop nodeId batches batchIndex execution)
      (m.executeBasicBlockFromBatch neverStopper nodeId batches batchIndex execution) := by
  -- The induction is on the batches that are left.
  generalize remaining : batches.drop batchIndex = rest
  induction rest generalizing batchIndex execution with
  | nil =>
      simp only [Processor.executeBasicBlockFromBatch, remaining, executeBatches]
      exact .finishBasicBlock isBlock execution inForest
  | cons batch others inductionHypothesis =>
      have inBlock : batches[batchIndex]? = some batch := by
        rw [← List.head?_drop, remaining]
        rfl
      have behind : batches.drop (batchIndex + 1) = others := by
        rw [← List.drop_drop, remaining]
        rfl
      have unfolds (decide : Stopper π ω) (started : Execution π ω) :
          m.executeBasicBlockFromBatch decide nodeId batches batchIndex started =
            m.finalizeClockCycle decide (some (.resumeBasicBlock nodeId batchIndex 0)) started >>=
              m.executeBasicBlockFromOpIdx decide nodeId batches batchIndex 0 := by
        simp only [Processor.executeBasicBlockFromBatch, executeBatches, remaining]
        congr 1
        funext finalized
        simp only [Processor.executeBasicBlockFromOpIdx, Processor.executeBasicBlockFromBatch,
          behind]
      rw [unfolds, unfolds]
      apply CatchesUp.finalize_bind
      · exact fun processor => executeContinuation_resumeBasicBlock isBlock
          { execution with processor } inForest batchIndex 0
      · exact fun processor =>
          .executeOpBatch isBlock { execution with processor } inForest inBlock 0 fun processor =>
            inductionHypothesis { execution with processor } inForest behind

theorem CatchesUp.executeBasicBlockFromOpIdx (isBlock : IsBlock forest nodeId batches)
    (execution : Execution π ω) (inForest : execution.forest = forest) (startOpIdx : Nat) :
    CatchesUp m stop
      (m.executeBasicBlockFromOpIdx stop nodeId batches batchIndex startOpIdx execution)
      (m.executeBasicBlockFromOpIdx neverStopper nodeId batches batchIndex startOpIdx execution) := by
  cases inBlock : batches[batchIndex]? with
  | none =>
      simp only [Processor.executeBasicBlockFromOpIdx, Processor.executeOpBatch, inBlock]
      exact .failed _
  | some batch =>
      exact .executeOpBatch isBlock execution inForest inBlock startOpIdx fun processor =>
        .executeBasicBlockFromBatch isBlock { execution with processor } inForest

theorem CatchesUp.executeBasicBlockFromStart (isBlock : IsBlock forest nodeId batches)
    (execution : Execution π ω) (inForest : execution.forest = forest) :
    CatchesUp m stop (m.executeBasicBlockFromStart stop nodeId batches execution)
      (m.executeBasicBlockFromStart neverStopper nodeId batches execution) := by
  apply CatchesUp.decorate_bind
  intro decorated
  apply CatchesUp.finalize_bind
  · exact fun processor => executeContinuation_resumeBasicBlock isBlock
      { execution with processor } inForest 0 0
  · exact fun processor =>
      .executeBasicBlockFromOpIdx isBlock { execution with processor } inForest 0

end Block

/-! ### Control flow -/

section ControlFlow

variable (nodeId : MastNodeId) (execution : Execution π ω)

theorem CatchesUp.startJoinNode (first second : MastNodeId) :
    CatchesUp m stop (m.startJoinNode stop nodeId first second execution)
      (m.startJoinNode neverStopper nodeId first second execution) :=
  .decorate_bind fun _ => .finalize_none _

theorem CatchesUp.startSplitNode (onTrue onFalse : MastNodeId) :
    CatchesUp m stop (m.startSplitNode stop nodeId onTrue onFalse execution)
      (m.startSplitNode neverStopper nodeId onTrue onFalse execution) := by
  apply CatchesUp.decorate_bind
  intro decorated
  apply CatchesUp.attempt_bind
  intro condition
  apply CatchesUp.onProcessor_bind
  intro dropped
  split
  · exact .finalize_none _
  · split
    · exact .finalize_none _
    · exact .failed _

theorem CatchesUp.finishLoopNode (wasEntered : Bool) (body : MastNodeId) :
    CatchesUp m stop (m.finishLoopNode stop wasEntered nodeId body execution)
      (m.finishLoopNode neverStopper wasEntered nodeId body execution) := by
  cases wasEntered with
  | false => exact .finishNode nodeId execution
  | true =>
      apply CatchesUp.attempt_bind
      intro condition
      split
      · apply CatchesUp.onProcessor_bind
        exact fun _ => .finalize_none _
      · split
        · apply CatchesUp.onProcessor_bind
          exact fun _ => .finishNode nodeId _
        · exact .failed _

theorem CatchesUp.startLoopNode {body : MastNodeId}
    (isLoop : (execution.forest.getNodeById nodeId).map MastNode.kind = some (.loop body)) :
    CatchesUp m stop (m.startLoopNode stop nodeId body execution)
      (m.startLoopNode neverStopper nodeId body execution) := by
  apply CatchesUp.decorate_bind
  intro decorated
  apply CatchesUp.attempt_bind
  intro condition
  apply CatchesUp.onProcessor_bind
  intro dropped
  split
  · exact .finalize_none _
  · split
    · apply CatchesUp.finalize_bind
      · intro finalized
        simp only [executeContinuation, isLoop]
      · exact fun _ => .finishLoopNode nodeId _ false body
    · exact .failed _

theorem CatchesUp.startCallNode (callee : MastNodeId) (isSyscall : Bool) :
    CatchesUp m stop (m.startCallNode stop nodeId callee isSyscall execution)
      (m.startCallNode neverStopper nodeId callee isSyscall execution) := by
  apply CatchesUp.decorate_bind
  intro decorated
  apply CatchesUp.onProcessor_bind
  intro saved
  cases execution.forest.getNodeById callee with
  | none => exact .failed _
  | some calleeNode =>
      cases isSyscall with
      | false =>
          apply CatchesUp.onProcessor_bind
          exact fun _ => .finalize_none _
      | true =>
          simp only [enterCallee, if_true]
          split
          · exact .finalize_none _
          · exact .failed _

theorem CatchesUp.finishCallNode :
    CatchesUp m stop (m.finishCallNode stop nodeId execution)
      (m.finishCallNode neverStopper nodeId execution) := by
  apply CatchesUp.onProcessor_bind
  exact fun _ => .finishNode nodeId _

/-- Loading a forest ends its cycle with nothing left out of the stack. -/
theorem CatchesUp.loadFromDyn (calleeHash : Word) :
    CatchesUp m stop (.error (.loadFromDyn calleeHash execution))
      (.error (.loadFromDyn calleeHash execution)) := by
  refine ⟨0, ?_⟩
  simp only [handleBreak, finishLoadFromDyn]
  cases m.loadMastForest calleeHash execution.processor with
  | error failure => exact .refl _
  | ok loaded =>
      simp only [attempt, bind, Except.bind]
      rw [settle_finalize_none]
      exact .refl _

theorem CatchesUp.startDynNode (isDyncall : Bool) :
    CatchesUp m stop (m.startDynNode stop nodeId isDyncall execution)
      (m.startDynNode neverStopper nodeId isDyncall execution) := by
  apply CatchesUp.decorate_bind
  intro decorated
  apply CatchesUp.attempt_bind
  intro calleeHash
  apply CatchesUp.onProcessor_bind
  intro dropped
  cases isDyncall with
  | false =>
      simp only [enterDyn]
      cases execution.forest.findProcedureRoot calleeHash with
      | none => exact .loadFromDyn _ calleeHash
      | some calleeId => exact .finalize_none _
  | true =>
      simp only [enterDyn, if_true, bind_assoc]
      apply CatchesUp.onProcessor_bind
      intro saved
      apply CatchesUp.onProcessor_bind
      intro entered
      cases execution.forest.findProcedureRoot calleeHash with
      | none => exact .loadFromDyn _ calleeHash
      | some calleeId => exact .finalize_none _

end ControlFlow

theorem CatchesUp.startNode (nodeId : MastNodeId) (execution : Execution π ω) :
    CatchesUp m stop (m.startNode stop nodeId execution)
      (m.startNode neverStopper nodeId execution) := by
  unfold Processor.startNode
  cases found : execution.forest.getNodeById nodeId with
  | none => exact .failed _
  | some node =>
      obtain ⟨kind, digest, _, _, _⟩ := node
      cases kind with
      | block firstBatch otherBatches =>
          apply CatchesUp.executeBasicBlockFromStart _ execution rfl
          exact ⟨firstBatch, otherBatches, rfl, by rw [found]; rfl⟩
      | join first second => exact .startJoinNode nodeId execution first second
      | split onTrue onFalse => exact .startSplitNode nodeId execution onTrue onFalse
      | loop body => exact .startLoopNode nodeId execution (by rw [found]; rfl)
      | call callee isSyscall => exact .startCallNode nodeId execution callee isSyscall
      | dyn isDyncall => exact .startDynNode nodeId execution isDyncall
      | external => exact .decorate_bind fun _ => ⟨0, .refl _⟩

theorem CatchesUp.withBasicBlock {nodeId : MastNodeId} {execution : Execution π ω}
    {resume whole : List (List ω) → Execution π ω → Flow π ω ε (Execution π ω)}
    (resumes : ∀ batches, IsBlock execution.forest nodeId batches →
      CatchesUp m stop (resume batches execution) (whole batches execution)) :
    CatchesUp m stop (withBasicBlock nodeId execution resume)
      (withBasicBlock nodeId execution whole) := by
  unfold Processor.withBasicBlock
  split
  · next firstBatch otherBatches found =>
      exact resumes _ ⟨firstBatch, otherBatches, rfl, found⟩
  · exact .failed _

/-- One iteration: whatever the stopper does, the resumed run reaches what the loop
reaches without stopping. -/
theorem CatchesUp.executeContinuation (execution : Execution π ω)
    (continuation : Continuation ω) :
    CatchesUp m stop (m.executeContinuation stop execution continuation)
      (m.executeContinuation neverStopper execution continuation) := by
  cases continuation with
  | startNode nodeId => exact .startNode nodeId execution
  | finishJoin nodeId => exact .finishNode nodeId execution
  | finishSplit nodeId => exact .finishNode nodeId execution
  | finishLoop nodeId wasEntered =>
      simp only [Processor.executeContinuation]
      split
      · exact .finishLoopNode nodeId execution wasEntered _
      · exact .failed _
  | finishCall nodeId => exact .finishCallNode nodeId execution
  | finishDyn nodeId =>
      simp only [Processor.executeContinuation]
      split
      · next isDyncall _ =>
          cases isDyncall with
          | false => exact .finishNode nodeId execution
          | true => exact .finishCallNode nodeId execution
      · exact .failed _
  | finishExternal nodeId => exact .decorate _ execution
  | resumeBasicBlock nodeId batchIndex opIdxInBatch =>
      simp only [Processor.executeContinuation]
      apply CatchesUp.withBasicBlock
      exact fun _ isBlock => .executeBasicBlockFromOpIdx isBlock execution rfl opIdxInBatch
  | respan nodeId batchIndex =>
      simp only [Processor.executeContinuation]
      apply CatchesUp.withBasicBlock
      exact fun _ isBlock => .executeBasicBlockFromBatch isBlock execution rfl
  | finishBasicBlock nodeId =>
      simp only [Processor.executeContinuation]
      apply CatchesUp.withBasicBlock
      exact fun _ isBlock => .finishBasicBlock isBlock execution rfl
  | enterForest forest => exact .ok _
  | afterExitDecorators nodeId => exact .decorate _ execution
  | afterExitDecoratorsBasicBlock nodeId =>
      simp only [Processor.executeContinuation]
      apply CatchesUp.withBasicBlock
      exact fun _ _ => .leaveBasicBlock execution

/-- From any resume context, a run that is stopped after any clock cycles, and resumed each time
from the context that the break hands back, ends with a result exactly if the uninterrupted run
ends with it. -/
theorem halts_stopped_iff (m : Processor π ω ε) (stop : Stopper π ω) (context : Execution π ω)
    (final : Except (LoopError ε) π) :
    Halts (m.advance stop) context final ↔ Halts (m.advance neverStopper) context final := by
  apply (halts_iff_of_smaller_steps _ _ _).symm
  intro execution
  cases remaining : execution.continuations with
  | nil =>
      simp only [advance, remaining]
      exact ⟨0, .refl _⟩
  | cons continuation rest =>
      simp only [advance, remaining]
      exact CatchesUp.executeContinuation _ continuation

/-- Stopping does not change the results: from any context, after any clock cycles, with the
same final processor and outputs, the same error, or no end at all. So executing a program step
by step gives what executing it at once gives, where it starts at all. Where the advice map of
the program clashes with that of the processor, one panics and the other returns the error. -/
theorem stopped_run_agrees (m : Processor π ω ε) (program : Program ω) (processor : π) :
    (∀ stop context result,
      m.Executes stop context result ↔ m.Executes neverStopper context result) ∧
    (∀ context, m.getInitialResumeContext program processor = .ok context → ∀ result,
      m.ExecuteByStepSync program processor result ↔ m.ExecuteSync program processor result) ∧
    ∀ failure, m.getInitialResumeContext program processor = .error failure → ∀ result,
      (m.ExecuteByStepSync program processor result ↔ result = .error .panic) ∧
        (m.ExecuteSync program processor result ↔ result = .error (.operation failure)) := by
  have anywhere (stop : Stopper π ω) (context : Execution π ω)
      (result : Except (LoopError ε) (π × List Felt)) :
      m.Executes stop context result ↔ m.Executes neverStopper context result := by
    simp only [Executes, halts_stopped_iff m stop]
  refine ⟨anywhere, fun context started result => ?_, fun failure failed result => ?_⟩
  · rw [ExecuteByStepSync, ExecuteSync, started]
    exact anywhere stepStopper context result
  · rw [ExecuteByStepSync, ExecuteSync, failed]
    exact ⟨Iff.rfl, Iff.rfl⟩

end MidenWorkspace.Vm.Processor
