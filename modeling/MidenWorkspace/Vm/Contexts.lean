import MidenWorkspace.Vm.StackBuffer

/-!
Contract: the contexts that the stack buffer represents.

`Contexts` says what the buffer is for: an operand stack over a list of suspended
callers, with no array and no limit. `Represents` ties it to the buffer. Every
primitive keeps it, so the buffer follows the contexts along every run, and fails
on its own only where a push finds no cell of the array left. The bottom index never
lies above its first place by more than the suspended cells, which bounds when that
can happen.
-/

namespace MidenWorkspace.Vm

open MidenWorkspace.Library.Simulation

/-! ### What the buffer is for -/

/-- A suspended caller, with the cells below its top sixteen, top first. -/
structure Caller where
  overflow : List Felt
  ctx : Nat
  fnHash : Word
deriving DecidableEq, Repr

/-- The operand stack of the running context and the callers it will return to. -/
structure Contexts where
  stack : OperandStack
  ctx : Nat
  callerHash : Word
  callers : List Caller

/-- The stack primitives, with the positions that their callers may pass. -/
inductive StackStep where
  | push (element : Felt)
  | drop
  | set (idx : Fin minStackDepth) (element : Felt)
  | setWord (startIdx : Fin (minStackDepth - wordSize + 1)) (word : Word)
  | swap (idx1 idx2 : Fin minStackDepth)
  /-- Word `n + 1`, counted from the top word. -/
  | swapwNth (n : Fin 3)
  /-- The top `n + 1` cells. -/
  | rotateLeft (n : Fin minStackDepth)
  | rotateRight (n : Fin minStackDepth)
  | setCtx (ctx : Nat)
  | setCallerHash (hash : Word)
  | saveContext
  | restoreContext
deriving DecidableEq, Repr

def FastProcessor.step (processor : FastProcessor) : StackStep → Except StackFault FastProcessor
  | .push element => processor.push element
  | .drop => processor.decrementSize
  | .set idx element => processor.stackWrite idx element
  | .setWord startIdx word => processor.stackWriteWord startIdx word
  | .swap idx1 idx2 => processor.stackSwap idx1 idx2
  | .swapwNth n => processor.swapwNth (n + 1)
  | .rotateLeft n => processor.rotateLeft (n + 1)
  | .rotateRight n => processor.rotateRight (n + 1)
  | .setCtx ctx => .ok { processor with ctx }
  | .setCallerHash callerHash => .ok { processor with callerHash }
  | .saveContext => processor.saveContextAndTruncateStack
  | .restoreContext => processor.restoreContext

namespace Contexts

def new (inputs : FastProcessor.StackInputs) : Contexts where
  stack := ⟨inputs.elements, Nat.le_of_eq inputs.length_eq.symm⟩
  ctx := 0
  callerHash := Word.empty
  callers := []

/-- The callee sees the top sixteen cells. -/
def enter (contexts : Contexts) : Contexts :=
  { contexts with
    stack := contexts.stack.truncate
    callers := ⟨contexts.stack.cells.drop minStackDepth, contexts.ctx, contexts.callerHash⟩ ::
      contexts.callers }

/-- The callee has to return with sixteen cells, which replace those it was given. -/
def leave (contexts : Contexts) : Except StackFault Contexts :=
  if minStackDepth < contexts.stack.depth then
    .error (.invalidStackDepthOnReturn contexts.stack.depth)
  else
    match contexts.callers with
    | [] => .error .panic
    | caller :: rest => .ok ⟨contexts.stack.extend caller.overflow, caller.ctx, caller.fnHash, rest⟩

/-- Word `n + 1` starts below the top word. -/
theorem word_below_top (n : Fin 3) : 4 ≤ (n.val + 1) * 4 := by
  omega

/-- Word `n + 1` ends within the cells that are always there. -/
theorem word_within_minStackDepth (n : Fin 3) : (n.val + 1) * 4 + 4 ≤ minStackDepth := by
  simp only [minStackDepth]
  omega

def step (contexts : Contexts) : StackStep → Except StackFault Contexts
  | .push element => .ok { contexts with stack := contexts.stack.push element }
  | .drop => .ok { contexts with stack := contexts.stack.drop }
  | .set idx element => .ok { contexts with stack := contexts.stack.set idx element }
  | .setWord startIdx word => .ok { contexts with stack := contexts.stack.setWord startIdx word }
  | .swap idx1 idx2 => .ok { contexts with stack := contexts.stack.swap idx1 idx2 }
  | .swapwNth n =>
      .ok { contexts with
        stack := contexts.stack.swapCells 4 ((n + 1) * 4) (word_below_top n)
          (word_within_minStackDepth n) }
  | .rotateLeft n => .ok { contexts with stack := contexts.stack.movUp n }
  | .rotateRight n => .ok { contexts with stack := contexts.stack.movDn n }
  | .setCtx ctx => .ok { contexts with ctx }
  | .setCallerHash callerHash => .ok { contexts with callerHash }
  | .saveContext => .ok contexts.enter
  | .restoreContext => contexts.leave

/-- The cells of the suspended callers. -/
def suspended (contexts : Contexts) : Nat :=
  (contexts.callers.map fun caller => caller.overflow.length).sum

/-- The cells of all live contexts. -/
def depth (contexts : Contexts) : Nat :=
  contexts.stack.depth + contexts.suspended

end Contexts

/-- Whether a primitive makes the stack deeper. -/
def StackStep.grows : StackStep → Bool
  | .push _ => true
  | _ => false

/-- The cells that the live contexts may hold together before a push can find the
buffer full. -/
def stackCapacity : Nat := stackBufferSize - 1 - (initialStackTopIdx - minStackDepth)

/-! ### Representation -/

/-- The entry that the call stack holds for a caller. -/
def Caller.info (caller : Caller) : ExecutionContextInfo :=
  ⟨caller.overflow.reverse, caller.ctx, caller.fnHash⟩

structure Represents (processor : FastProcessor) (contexts : Contexts) : Prop where
  laid : processor.Lays contexts.stack
  ctx : processor.ctx = contexts.ctx
  callerHash : processor.callerHash = contexts.callerHash
  callStack : processor.callStack = contexts.callers.map Caller.info
  fits : ∀ caller ∈ contexts.callers, caller.overflow.length + minStackDepth < stackBufferSize
  botIdx : processor.stackBotIdx ≤ initialStackTopIdx - minStackDepth + contexts.suspended

/-- The buffer answers every read as the contexts do. -/
structure Observes (processor : FastProcessor) (contexts : Contexts) : Prop where
  size : processor.stackSize = .ok contexts.stack.depth
  get : ∀ idx < contexts.stack.depth, processor.stackGet idx = .ok (contexts.stack.get idx)
  getWord : ∀ startIdx, startIdx + wordSize ≤ contexts.stack.depth →
    processor.stackGetWord startIdx = .ok (contexts.stack.getWord startIdx)
  ctx : processor.ctx = contexts.ctx
  callerHash : processor.callerHash = contexts.callerHash

/-- A push for which the array has no cell left, since the live contexts fill the capacity. -/
structure FindsFull (processor : FastProcessor) (contexts : Contexts) (input : StackStep) :
    Prop where
  grows : input.grows
  observes : Observes processor contexts
  topIdx : processor.stackTopIdx = stackBufferSize - 1
  depth : stackCapacity ≤ contexts.depth

namespace Represents

variable {processor : FastProcessor} {contexts : Contexts}

/-- The top of the buffer is bounded by the cells of all live contexts. -/
theorem topIdx_le (represented : Represents processor contexts) :
    processor.stackTopIdx ≤ initialStackTopIdx - minStackDepth + contexts.depth := by
  have whole := represented.laid.depth
  have bottom := represented.botIdx
  simp only [Contexts.depth]
  omega

/-- A primitive inside one context keeps the callers. -/
theorem of_becomes {Exhausted : StackFault → Prop} (represented : Represents processor contexts)
    {stack : OperandStack} {result : Except StackFault FastProcessor}
    (becomes : FastProcessor.Becomes processor stack result) :
    Matches Eq Exhausted Represents result
      (.ok { contexts with stack }) := by
  obtain ⟨after, rfl, laid, same⟩ := becomes
  have bottom := represented.botIdx
  have moved := same.botIdx
  refine .ok ⟨laid, ?_, ?_, ?_, represented.fits, ?_⟩
  · exact same.ctx.trans represented.ctx
  · exact same.callerHash.trans represented.callerHash
  · exact same.callStack.trans represented.callStack
  · change _ ≤ _ + contexts.suspended
    omega

theorem saveContext {Exhausted : StackFault → Prop} (represented : Represents processor contexts) :
    Matches Eq Exhausted Represents
      processor.saveContextAndTruncateStack (.ok contexts.enter) := by
  obtain ⟨after, saved, laid, topIdx, ctx, callerHash, callStack⟩ := represented.laid.saveContext_ok
  have whole := represented.laid.depth
  have bounded := represented.laid.top_lt
  have bottom := represented.botIdx
  have wholeAfter := laid.depth
  have floor : minStackDepth ≤ contexts.stack.depth := contexts.stack.depth_ge
  have overflow : (contexts.stack.cells.drop minStackDepth).length =
      contexts.stack.depth - minStackDepth := List.length_drop
  rw [OperandStack.depth_truncate] at wholeAfter
  rw [saved]
  refine .ok ⟨laid, ctx.trans represented.ctx, callerHash.trans represented.callerHash, ?_, ?_, ?_⟩
  · rw [callStack, represented.callStack, represented.ctx, represented.callerHash]
    rfl
  · intro caller member
    rcases List.mem_cons.mp member with rfl | earlier
    · dsimp only
      omega
    · exact represented.fits caller earlier
  · have grown : contexts.enter.suspended =
        contexts.stack.depth - minStackDepth + contexts.suspended := by
      simp [Contexts.enter, Contexts.suspended, overflow]
    omega

theorem restoreContext {Exhausted : StackFault → Prop}
    (represented : Represents processor contexts) :
    Matches Eq Exhausted Represents processor.restoreContext
      contexts.leave := by
  have whole := represented.laid.depth
  have floor : minStackDepth ≤ contexts.stack.depth := contexts.stack.depth_ge
  have size : processor.stackTopIdx - processor.stackBotIdx = contexts.stack.depth := by omega
  rw [FastProcessor.restoreContext, FastProcessor.stackSize, usizeSub_ok (by omega), ok_bind, size,
    Contexts.leave]
  by_cases deep : minStackDepth < contexts.stack.depth
  · rw [if_pos deep, if_pos deep]
    exact .error rfl
  · rw [if_neg deep, if_neg deep]
    have minimal : contexts.stack.depth = minStackDepth := by omega
    have bottom := represented.botIdx
    cases calls : contexts.callers with
    | nil =>
        rw [represented.callStack, calls]
        exact .error rfl
    | cons caller rest =>
        have fits := represented.fits
        rw [calls] at fits
        have suspended : contexts.suspended =
            caller.overflow.length + (rest.map fun caller => caller.overflow.length).sum := by
          simp [Contexts.suspended, calls]
        -- Dropping the entry from the call stack moves no cell.
        have laid : FastProcessor.Lays { processor with callStack := rest.map Caller.info }
            contexts.stack := { represented.laid with }
        obtain ⟨after, restored, laidAfter, callStack, botIdx⟩ :=
          laid.restoreOverflowStack_ok minimal
            (rfl : caller.info.overflowStack = caller.overflow.reverse)
            (fits caller List.mem_cons_self)
        rw [represented.callStack, calls, List.map_cons]
        dsimp only
        rw [restored, ok_bind]
        refine .ok ⟨{ laidAfter with }, rfl, rfl, callStack, ?_, ?_⟩
        · exact fun earlier member => fits earlier (List.mem_cons_of_mem _ member)
        · simp only [Contexts.suspended] at *
          omega

/-- A step that finds room follows the contexts exactly. -/
theorem step_of_room {Exhausted : StackFault → Prop} (represented : Represents processor contexts)
    (input : StackStep)
    (room : input.grows → processor.stackTopIdx < stackBufferSize - 1) :
    Matches Eq Exhausted Represents (processor.step input) (contexts.step input) := by
  have floor : minStackDepth ≤ contexts.stack.depth := contexts.stack.depth_ge
  have laid := represented.laid
  cases input with
  | push element => exact represented.of_becomes (laid.push_becomes (room rfl) element)
  | drop => exact represented.of_becomes laid.decrementSize_becomes
  | set idx element =>
      exact represented.of_becomes (laid.stackWrite_becomes (idx.isLt.trans_le floor) element)
  | setWord startIdx word =>
      have reach : startIdx.val + wordSize ≤ minStackDepth := by
        have bound := startIdx.isLt
        have small : wordSize ≤ minStackDepth := by decide
        omega
      exact represented.of_becomes (laid.stackWriteWord_becomes (reach.trans floor) word)
  | swap idx1 idx2 =>
      exact represented.of_becomes
        (laid.stackSwap_becomes (idx1.isLt.trans_le floor) (idx2.isLt.trans_le floor))
  | swapwNth n =>
      exact represented.of_becomes (laid.swapwNth_becomes (Nat.succ_pos n) n.isLt)
  | rotateLeft n =>
      exact represented.of_becomes (laid.rotateLeft_becomes (n.isLt.trans_le floor))
  | rotateRight n =>
      exact represented.of_becomes (laid.rotateRight_becomes (n.isLt.trans_le floor))
  | setCtx ctx => exact .ok { represented with laid := { laid with }, ctx := rfl }
  | setCallerHash hash => exact .ok { represented with laid := { laid with }, callerHash := rfl }
  | saveContext => exact represented.saveContext
  | restoreContext => exact represented.restoreContext

/-- What the operation handlers can see of the stack and the system registers. -/
theorem observes (represented : Represents processor contexts) : Observes processor contexts where
  size := by
    have whole := represented.laid.depth
    rw [FastProcessor.stackSize, usizeSub_ok (by omega)]
    congr 1
    omega
  get := fun _ inside => represented.laid.stackGet_ok inside
  getWord := fun _ inside => represented.laid.stackGetWord_ok inside
  ctx := represented.ctx
  callerHash := represented.callerHash

theorem full (represented : Represents processor contexts) {input : StackStep}
    (grows : input.grows) (full : ¬processor.stackTopIdx < stackBufferSize - 1) :
    FindsFull processor contexts input where
  grows := grows
  observes := represented.observes
  topIdx := by
    have bounded := represented.laid.top_lt
    omega
  depth := by
    have bound := represented.topIdx_le
    simp only [stackCapacity]
    omega

theorem step (represented : Represents processor contexts) (input : StackStep) :
    Matches Eq (fun fault => fault = .stackOverflow ∧ FindsFull processor contexts input)
      Represents (processor.step input) (contexts.step input) := by
  by_cases room : processor.stackTopIdx < stackBufferSize - 1
  · exact represented.step_of_room input fun _ => room
  · cases input with
    | push element =>
        rw [FastProcessor.step, FastProcessor.Lays.push_overflow room]
        exact .exhausted ⟨rfl, represented.full rfl room⟩ _
    | _ => exact represented.step_of_room _ nofun

end Represents

/-- The input loop writes downwards from `next`. -/
theorem FastProcessor.writeInputs_apply (stack : Nat → Felt) {next : Nat} {inputs : List Felt}
    (room : inputs.length ≤ next + 1) (index : Nat) :
    writeInputs stack next inputs index =
      if index ≤ next ∧ next < index + inputs.length then inputs.getD (next - index) 0
      else stack index := by
  induction inputs generalizing stack next with
  | nil => rw [if_neg (by simp), writeInputs]
  | cons input rest inductionHypothesis =>
      rw [List.length_cons] at room ⊢
      rw [writeInputs, inductionHypothesis _ (by omega), Function.update_apply]
      by_cases here : index = next
      · subst here
        rw [if_neg (by omega), if_pos rfl, if_pos (by omega), Nat.sub_self, List.getD_cons_zero]
      · rw [if_neg here]
        by_cases inside : index ≤ next ∧ next < index + (rest.length + 1)
        · obtain ⟨offset, same⟩ : ∃ offset, next - index = offset + 1 :=
            ⟨next - index - 1, by omega⟩
          rw [if_pos (by omega), if_pos inside, same, List.getD_cons_succ]
          congr 1
          omega
        · rw [if_neg (by omega), if_neg inside]

theorem represents_new (inputs : FastProcessor.StackInputs) :
    Represents (.new inputs) (.new inputs) where
  laid := by
    have length := inputs.length_eq
    have lowest : minStackDepth < initialStackTopIdx := by decide
    have depth : (Contexts.new inputs).stack.depth = minStackDepth := length
    refine ⟨?_, ?_, ?_, show initialStackTopIdx < stackBufferSize by decide⟩
    · rw [depth]
      exact Nat.sub_add_cancel (Nat.le_of_lt lowest)
    · intro index inside
      rw [depth] at inside
      change FastProcessor.writeInputs _ _ _ (initialStackTopIdx - 1 - index) = _
      rw [FastProcessor.writeInputs_apply _ (by omega), if_pos (by omega), Nat.sub_sub_self (by omega)]
      rfl
    · intro index inside
      change index < initialStackTopIdx - minStackDepth at inside
      change FastProcessor.writeInputs _ _ _ index = 0
      rw [FastProcessor.writeInputs_apply _ (by omega), if_neg (by omega)]
  ctx := rfl
  callerHash := rfl
  callStack := rfl
  fits := nofun
  botIdx := Nat.le_add_right _ _

theorem represents_run (inputs : FastProcessor.StackInputs) (steps : List StackStep) :
    Matches Eq
      (fun fault => fault = .stackOverflow ∧
        RunsInto FastProcessor.step Contexts.step FindsFull (.new inputs) (.new inputs) steps)
      Represents (steps.foldlM FastProcessor.step (.new inputs))
      (steps.foldlM Contexts.step (.new inputs)) :=
  Matches.foldlM steps (fun _ _ input represented => represented.step input)
    (represents_new inputs)

/-- Along every run of stack primitives the buffer shows the operation handlers exactly the
cells and registers of the contexts, or fails as they do, or reports a stack overflow; and
that only where a push of the run finds the last cell of the array taken. -/
theorem processor_follows_contexts (inputs : FastProcessor.StackInputs) (steps : List StackStep) :
    Matches Eq
      (fun fault => fault = .stackOverflow ∧
        RunsInto FastProcessor.step Contexts.step FindsFull (.new inputs) (.new inputs) steps)
      Observes (steps.foldlM FastProcessor.step (.new inputs))
      (steps.foldlM Contexts.step (.new inputs)) :=
  (represents_run inputs steps).imp (fun _ => id) fun _ _ represented => represented.observes

theorem pushes_ok_iff {processor : FastProcessor} (positive : 0 < processor.stackTopIdx)
    (bounded : processor.stackTopIdx < stackBufferSize) (element : Felt) (count : Nat) :
    (∃ after, (List.replicate count (.push element)).foldlM FastProcessor.step processor =
      .ok after) ↔ processor.stackTopIdx + count < stackBufferSize := by
  induction count generalizing processor with
  | zero =>
      simp only [List.replicate_zero, List.foldlM_nil, Nat.add_zero, bounded, iff_true]
      exact ⟨processor, rfl⟩
  | succ count inductionHypothesis =>
      rw [List.replicate_succ, List.foldlM_cons, FastProcessor.step]
      by_cases room : processor.stackTopIdx < stackBufferSize - 1
      · have grown : processor.stackTopIdx + 1 < stackBufferSize := by omega
        rw [FastProcessor.push, FastProcessor.incrementSize, if_pos room, ok_bind,
          FastProcessor.Lays.stackWrite_zero_ok _ (Nat.succ_pos _) grown, ok_bind]
        refine (inductionHypothesis (Nat.succ_pos _) grown).trans ?_
        dsimp only
        omega
      · rw [FastProcessor.Lays.push_overflow room]
        constructor
        · rintro ⟨after, ran⟩
          cases ran
        · omega

/-- While the live contexts hold fewer cells than the capacity before every push, the
buffer never overflows and follows the contexts exactly, wherever its stack has moved
to; and the initial stack can grow up to the capacity and no further. -/
theorem processor_exact_within_capacity (inputs : FastProcessor.StackInputs)
    (steps : List StackStep)
    (shallow : ∀ done element, done ++ [.push element] <+: steps →
      ∀ reached, done.foldlM Contexts.step (.new inputs) = .ok reached →
        reached.depth < stackCapacity) :
    Matches Eq (fun _ => False) Observes (steps.foldlM FastProcessor.step (.new inputs))
        (steps.foldlM Contexts.step (.new inputs)) ∧
      ∀ element count,
        (∃ after, (List.replicate count (.push element)).foldlM FastProcessor.step (.new inputs) =
          .ok after) ↔ minStackDepth + count ≤ stackCapacity := by
  constructor
  · refine (represents_run inputs steps).imp (fun fault ranOut => ?_)
      fun _ _ represented => represented.observes
    obtain ⟨done, input, processor, reached, within, -, ran, full⟩ := ranOut.2
    cases input with
    | push element => exact Nat.not_le_of_lt (shallow done element within reached ran) full.depth
    | _ => exact nomatch full.grows
  · intro element count
    rw [pushes_ok_iff (show 0 < initialStackTopIdx by decide)
      (show initialStackTopIdx < stackBufferSize by decide)]
    change initialStackTopIdx + count < stackBufferSize ↔ _
    have lowest : minStackDepth < initialStackTopIdx := by decide
    have highest : initialStackTopIdx < stackBufferSize := by decide
    simp only [stackCapacity]
    omega

theorem processor_exact_two_steps :
    Matches Eq (fun _ => False) Observes
        ([StackStep.push 7, .saveContext].foldlM FastProcessor.step
          (.new ⟨List.replicate minStackDepth 0, by decide⟩))
        ([StackStep.push 7, .saveContext].foldlM Contexts.step
          (.new ⟨List.replicate minStackDepth 0, by decide⟩)) ∧
      ∀ element count,
        (∃ after, (List.replicate count (.push element)).foldlM FastProcessor.step
          (.new ⟨List.replicate minStackDepth 0, by decide⟩) = .ok after) ↔
            minStackDepth + count ≤ stackCapacity := by
  apply processor_exact_within_capacity
  intro done element within reached ran
  match done with
  | [] =>
      obtain rfl := Except.ok.inj ran
      decide
  | [_] => simp at within
  | _ :: _ :: _ => simp at within

end MidenWorkspace.Vm
