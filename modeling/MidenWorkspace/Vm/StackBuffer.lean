import Mathlib.Data.List.GetD
import Mathlib.Data.List.InsertIdx
import Mathlib.Logic.Function.Basic
import MidenWorkspace.Library.Simulation
import MidenWorkspace.Vm.Stack

/-!
Contract: the stack buffer of `FastProcessor` and the contexts it keeps.

The processor lays the operand stack into an array of fixed size, moves two
indices over it, and relies on zeros below the bottom index. `call` truncates the
stack and keeps the cells below as the overflow of the suspended context;
returning puts them back, and moves the whole stack when there is no room.

Owns:
- every stack primitive of the buffer, with array bounds and `usize` subtraction
  checked where Rust checks them;
- the operand stack by its cells, as the laws of the primitives need it;
- `Lays`, a stack that lies in the buffer, and what each primitive does to it.

Does not own: the suspended contexts as a whole, which have a module of their own.
-/

namespace MidenWorkspace.Vm

open MidenWorkspace.Library.Simulation

/-! ### The operand stack by its cells -/

namespace OperandStack

variable (stack : OperandStack)

@[simp] theorem depth_set (index : Nat) (value : Felt) :
    (stack.set index value).depth = stack.depth :=
  List.length_set

theorem get_set {index : Nat} (valid : index < stack.depth) (value : Felt) (other : Nat) :
    (stack.set index value).get other = if other = index then value else stack.get other := by
  by_cases same : other = index
  · subst same
    simp [get, set, List.getD_eq_getElem?_getD, List.getElem?_set_self valid]
  · simp [get, set, List.getD_eq_getElem?_getD, List.getElem?_set_ne (Ne.symm same), same]

@[simp] theorem depth_push (value : Felt) : (stack.push value).depth = stack.depth + 1 :=
  List.length_cons

@[simp] theorem get_push_zero (value : Felt) : (stack.push value).get 0 = value := rfl

@[simp] theorem get_push_succ (value : Felt) (index : Nat) :
    (stack.push value).get (index + 1) = stack.get index := rfl

/-- At the floor the cell that comes in is the zero that `get` reads below the stack. -/
theorem get_drop (index : Nat) : stack.drop.get index = stack.get (index + 1) := by
  unfold drop get
  by_cases deep : minStackDepth < stack.cells.length
  · rw [dif_pos deep]
    simp [List.getD_eq_getElem?_getD]
  · rw [dif_neg deep]
    simp only [List.getD_eq_getElem?_getD, List.getElem?_append, List.length_tail,
      List.getElem?_tail]
    by_cases inside : index < stack.cells.length - 1
    · rw [if_pos inside]
    · rw [if_neg inside, List.getElem?_eq_none (by omega : stack.cells.length ≤ index + 1)]
      by_cases last : index = stack.cells.length - 1
      · simp [last]
      · rw [List.getElem?_eq_none]
        simp only [List.length_singleton]
        omega

theorem get_of_depth_le {index : Nat} (beyond : stack.depth ≤ index) : stack.get index = 0 := by
  rw [get, List.getD_eq_default _ _ beyond]

@[simp] theorem depth_movUp (n : Nat) : (stack.movUp n).depth = stack.depth :=
  liftCell_length n stack.cells

@[simp] theorem depth_movDn (n : Nat) : (stack.movDn n).depth = stack.depth :=
  sinkCell_length n stack.cells

end OperandStack

theorem liftCell_eq_eraseIdx {n : Nat} {cells : List Felt} (valid : n < cells.length) :
    liftCell n cells = cells.getD n 0 :: cells.eraseIdx n := by
  induction n generalizing cells with
  | zero =>
      match cells, valid with
      | _ :: _, _ => rfl
  | succ n inductionHypothesis =>
      match cells, valid with
      | cell :: rest, valid =>
          have inRest : n < rest.length := by simpa using valid
          simp [liftCell, inductionHypothesis inRest]

theorem sinkCell_eq_insertIdx {n : Nat} {cell : Felt} {rest : List Felt} (valid : n ≤ rest.length) :
    sinkCell n (cell :: rest) = rest.insertIdx n cell := by
  induction n generalizing rest with
  | zero => rfl
  | succ n inductionHypothesis =>
      match rest, valid with
      | next :: others, valid =>
          simp [sinkCell, inductionHypothesis (by simpa using valid : n ≤ others.length)]

namespace OperandStack

variable (stack : OperandStack)

theorem get_movUp {n : Nat} (valid : n < stack.depth) (index : Nat) :
    (stack.movUp n).get index =
      if index = 0 then stack.get n
      else if index ≤ n then stack.get (index - 1)
      else stack.get index := by
  rw [get, cells_movUp, liftCell_eq_eraseIdx valid]
  match index with
  | 0 => rfl
  | index + 1 =>
      simp only [Nat.add_one_ne_zero, if_false, Nat.add_sub_cancel, get,
        List.getD_eq_getElem?_getD, List.getElem?_cons_succ, List.getElem?_eraseIdx, Nat.succ_le_iff]
      split <;> rfl

theorem get_movDn {n : Nat} (valid : n < stack.depth) (index : Nat) :
    (stack.movDn n).get index =
      if index < n then stack.get (index + 1)
      else if index = n then stack.get 0
      else stack.get index := by
  match stack, valid with
  | ⟨cell :: rest, floor⟩, valid =>
      have inRest : n ≤ rest.length := by simpa [depth, Nat.lt_succ_iff] using valid
      simp only [movDn, get, sinkCell_eq_insertIdx inRest, List.getD_eq_getElem?_getD,
        List.getElem?_insertIdx]
      by_cases before : index < n
      · rw [if_pos before, if_pos before, List.getElem?_cons_succ]
      · rw [if_neg before, if_neg before]
        by_cases here : index = n
        · rw [if_pos here, if_pos here, if_pos (here ▸ inRest)]
          rfl
        · obtain ⟨earlier, rfl⟩ : ∃ earlier, index = earlier + 1 := ⟨index - 1, by omega⟩
          rw [if_neg here, if_neg here, List.getElem?_cons_succ, Nat.add_sub_cancel]

theorem depth_swapCells {count position : Nat} (apart : count ≤ position)
    (inReach : position + count ≤ minStackDepth) :
    (stack.swapCells count position apart inReach).depth = stack.depth := by
  have floor := stack.depth_ge
  simp only [swapCells, depth, List.length_append, List.length_take, List.length_drop]
  omega

theorem get_swapCells {count position : Nat} (apart : count ≤ position)
    (inReach : position + count ≤ minStackDepth) (index : Nat) :
    (stack.swapCells count position apart inReach).get index =
      if index < count then stack.get (position + index)
      else if position ≤ index ∧ index < position + count then stack.get (index - position)
      else stack.get index := by
  have floor := stack.depth_ge
  simp only [swapCells, get, List.getD_eq_getElem?_getD, List.getElem?_append,
    List.length_append, List.length_take, List.length_drop, List.getElem?_take, List.getElem?_drop]
  rw [Nat.min_eq_left (by omega), Nat.min_eq_left (by omega), Nat.min_eq_left (by omega),
    Nat.add_sub_cancel' apart]
  by_cases top : index < count
  · rw [if_pos (by omega : index < position), if_pos (by omega), if_pos top, if_pos top,
      if_pos (by omega)]
  · rw [if_neg top]
    by_cases middle : index < position
    · rw [if_pos middle, if_neg top, if_pos (by omega), if_pos (by omega), if_neg (by omega),
        Nat.add_sub_cancel' (by omega)]
    · rw [if_neg middle]
      by_cases swapped : index < position + count
      · rw [if_pos (by omega), if_pos (by omega), if_neg top, if_pos (by omega)]
      · rw [if_neg (by omega), if_neg top, if_neg (by omega)]
        congr 2
        omega

/-- The top sixteen cells. -/
def truncate (stack : OperandStack) : OperandStack :=
  ⟨stack.cells.take minStackDepth, by
    rw [List.length_take]
    exact Nat.le_min.mpr ⟨Nat.le_refl _, stack.depth_ge⟩⟩

/-- Cells put below the stack. -/
def extend (stack : OperandStack) (overflow : List Felt) : OperandStack :=
  ⟨stack.cells ++ overflow, by
    rw [List.length_append]
    exact Nat.le_add_right_of_le stack.depth_ge⟩

theorem depth_truncate (stack : OperandStack) : stack.truncate.depth = minStackDepth := by
  have floor := stack.depth_ge
  simp only [truncate, depth, List.length_take]
  omega

theorem get_truncate (stack : OperandStack) {index : Nat} (inside : index < minStackDepth) :
    stack.truncate.get index = stack.get index := by
  simp [truncate, get, List.getD_eq_getElem?_getD, inside]

@[simp] theorem depth_extend (stack : OperandStack) (overflow : List Felt) :
    (stack.extend overflow).depth = stack.depth + overflow.length :=
  List.length_append

theorem get_extend (stack : OperandStack) (overflow : List Felt) (index : Nat) :
    (stack.extend overflow).get index =
      if index < stack.depth then stack.get index else overflow.getD (index - stack.depth) 0 := by
  simp only [extend, get, depth, List.getD_eq_getElem?_getD, List.getElem?_append]
  split <;> rfl

end OperandStack

/-- `STACK_BUFFER_SIZE`. -/
def stackBufferSize : Nat := 6850

/-- `INITIAL_STACK_TOP_IDX`. -/
def initialStackTopIdx : Nat := 250

/-- `WORD_SIZE`. -/
def wordSize : Nat := 4

/-- How a stack primitive fails. -/
inductive StackFault where
  /-- An index outside the array, a `usize` below zero, or a failed `expect`. -/
  | panic
  /-- `ExecutionError::Internal("stack overflow")`. -/
  | stackOverflow
  | invalidStackDepthOnReturn (depth : Nat)
deriving DecidableEq, Repr

/-- A suspended context. The overflow is kept as it lies in the buffer, bottom first. -/
structure ExecutionContextInfo where
  overflowStack : List Felt
  ctx : Nat
  fnHash : Word
deriving DecidableEq, Repr

/-- The fields of `FastProcessor` behind the stack and the contexts. The innermost
suspended context comes first in `callStack`. -/
structure FastProcessor where
  stack : Nat → Felt
  stackTopIdx : Nat
  stackBotIdx : Nat
  ctx : Nat
  callerHash : Word
  callStack : List ExecutionContextInfo

/-- Subtraction on `usize`. -/
def usizeSub (left right : Nat) : Except StackFault Nat :=
  if right ≤ left then .ok (left - right) else .error .panic

namespace FastProcessor

/-! ### Access to the array -/

def readAt (processor : FastProcessor) (index : Nat) : Except StackFault Felt :=
  if index < stackBufferSize then .ok (processor.stack index) else .error .panic

def writeAt (processor : FastProcessor) (index : Nat) (element : Felt) :
    Except StackFault FastProcessor :=
  if index < stackBufferSize then
    .ok { processor with stack := Function.update processor.stack index element }
  else .error .panic

/-- `stack[start..stop]`, as a vector. -/
def slice (processor : FastProcessor) (start stop : Nat) : Except StackFault (List Felt) :=
  if start ≤ stop ∧ stop ≤ stackBufferSize then
    .ok ((List.range (stop - start)).map fun offset => processor.stack (start + offset))
  else .error .panic

/-- `stack[start..stop].fill(ZERO)`. -/
def fillZero (processor : FastProcessor) (start stop : Nat) : Except StackFault FastProcessor :=
  if start ≤ stop ∧ stop ≤ stackBufferSize then
    .ok { processor with
      stack := fun index => if start ≤ index ∧ index < stop then 0 else processor.stack index }
  else .error .panic

/-- `stack.copy_within(start..stop, target)`. -/
def copyWithin (processor : FastProcessor) (start stop target : Nat) :
    Except StackFault FastProcessor :=
  if start ≤ stop ∧ stop ≤ stackBufferSize ∧ target + (stop - start) ≤ stackBufferSize then
    .ok { processor with
      stack := fun index =>
        if target ≤ index ∧ index < target + (stop - start) then
          processor.stack (start + (index - target))
        else processor.stack index }
  else .error .panic

/-- `stack[start..start + elements.len()].copy_from_slice(elements)`. -/
def copyFromSlice (processor : FastProcessor) (start : Nat) (elements : List Felt) :
    Except StackFault FastProcessor :=
  if start + elements.length ≤ stackBufferSize then
    .ok { processor with
      stack := fun index =>
        if start ≤ index ∧ index < start + elements.length then elements.getD (index - start) 0
        else processor.stack index }
  else .error .panic

/-! ### Construction -/

/-- The initial operand stack, top first. -/
structure StackInputs where
  elements : List Felt
  length_eq : elements.length = minStackDepth

/-- The input loop of `new_with_options`: inputs go down from `next`. -/
def writeInputs : (Nat → Felt) → Nat → List Felt → Nat → Felt
  | stack, _, [] => stack
  | stack, next, input :: rest => writeInputs (Function.update stack next input) (next - 1) rest

/-- `FastProcessor::new`. -/
def new (inputs : StackInputs) : FastProcessor where
  stack := writeInputs (fun _ => 0) (initialStackTopIdx - 1) inputs.elements
  stackTopIdx := initialStackTopIdx
  stackBotIdx := initialStackTopIdx - minStackDepth
  ctx := 0
  callerHash := Word.empty
  callStack := []

/-! ### Cells by their position from the top -/

def stackSize (processor : FastProcessor) : Except StackFault Nat :=
  usizeSub processor.stackTopIdx processor.stackBotIdx

/-- The array index of a stack position. -/
def position (processor : FastProcessor) (idx : Nat) : Except StackFault Nat := do
  usizeSub (← usizeSub processor.stackTopIdx idx) 1

def stackGet (processor : FastProcessor) (idx : Nat) : Except StackFault Felt := do
  processor.readAt (← processor.position idx)

def stackWrite (processor : FastProcessor) (idx : Nat) (element : Felt) :
    Except StackFault FastProcessor := do
  processor.writeAt (← processor.position idx) element

/-- The four cells are read upwards and reversed. -/
def stackGetWord (processor : FastProcessor) (startIdx : Nat) : Except StackFault Word := do
  let wordStart ← usizeSub (← usizeSub processor.stackTopIdx startIdx) wordSize
  let e3 ← processor.readAt wordStart
  let e2 ← processor.readAt (wordStart + 1)
  let e1 ← processor.readAt (wordStart + 2)
  let e0 ← processor.readAt (wordStart + 3)
  return ⟨e0, e1, e2, e3⟩

def stackWriteWord (processor : FastProcessor) (startIdx : Nat) (word : Word) :
    Except StackFault FastProcessor := do
  let wordStart ← usizeSub (← usizeSub processor.stackTopIdx startIdx) 4
  processor.copyFromSlice wordStart word.toList.reverse

def stackSwap (processor : FastProcessor) (idx1 idx2 : Nat) :
    Except StackFault FastProcessor := do
  let a ← processor.stackGet idx1
  let b ← processor.stackGet idx2
  let written ← processor.stackWrite idx1 b
  written.stackWrite idx2 a

/-- `swapw_nth`: the top word trades places with the word `n` words below it. -/
def swapwNth (processor : FastProcessor) (n : Nat) : Except StackFault FastProcessor := do
  let topWord ← usizeSub processor.stackTopIdx wordSize
  let nthWord ← usizeSub topWord (n * wordSize)
  if wordSize ≤ n * wordSize ∧ topWord + wordSize ≤ stackBufferSize then
    return { processor with
      stack := fun index =>
        if nthWord ≤ index ∧ index < nthWord + wordSize then
          processor.stack (topWord + (index - nthWord))
        else if topWord ≤ index ∧ index < topWord + wordSize then
          processor.stack (nthWord + (index - topWord))
        else processor.stack index }
  else throw .panic

/-- `rotate_left`: the loop runs from the bottom of the rotation upwards. -/
def rotateLeft (processor : FastProcessor) (n : Nat) : Except StackFault FastProcessor := do
  let rotationBot ← usizeSub processor.stackTopIdx n
  let newTop ← processor.readAt rotationBot
  let count ← usizeSub n 1
  let shifted ← (List.range count).foldlM
    (fun current i => do
      current.writeAt (rotationBot + i) (← current.readAt (rotationBot + i + 1)))
    processor
  shifted.stackWrite 0 newTop

/-- `rotate_right`: the loop `1..n` runs from the top downwards. -/
def rotateRight (processor : FastProcessor) (n : Nat) : Except StackFault FastProcessor := do
  let rotationBot ← usizeSub processor.stackTopIdx n
  let newBot ← processor.readAt (← usizeSub processor.stackTopIdx 1)
  let shifted ← (List.range' 1 (n - 1)).foldlM
    (fun current i => do
      let target ← usizeSub current.stackTopIdx i
      current.writeAt target (← current.readAt (← usizeSub target 1)))
    processor
  shifted.writeAt rotationBot newBot

/-! ### Size of the stack -/

/-- `increment_size`. The new top cell holds whatever the array held there. -/
def incrementSize (processor : FastProcessor) : Except StackFault FastProcessor :=
  if processor.stackTopIdx < stackBufferSize - 1 then
    .ok { processor with stackTopIdx := processor.stackTopIdx + 1 }
  else .error .stackOverflow

/-- `op_push`. Every operation that grows the stack writes the new cell next. -/
def push (processor : FastProcessor) (element : Felt) : Except StackFault FastProcessor := do
  (← processor.incrementSize).stackWrite 0 element

def resetStackInBuffer (processor : FastProcessor) (newStackTopIdx : Nat) :
    Except StackFault FastProcessor := do
  let newStackBotIdx ← usizeSub newStackTopIdx minStackDepth
  let copied ← processor.copyWithin processor.stackBotIdx processor.stackTopIdx newStackBotIdx
  let cleared ← copied.fillZero 0 newStackBotIdx
  return { cleared with stackBotIdx := newStackBotIdx, stackTopIdx := newStackTopIdx }

/-- The first branch of `decrement_stack_size`: no room is left below the stack. -/
def roomToDecrement (processor : FastProcessor) : Except StackFault FastProcessor :=
  if processor.stackTopIdx = minStackDepth then processor.resetStackInBuffer initialStackTopIdx
  else .ok processor

/-- `decrement_stack_size`. -/
def decrementSize (processor : FastProcessor) : Except StackFault FastProcessor := do
  let roomy ← processor.roomToDecrement
  let topIdx ← usizeSub roomy.stackTopIdx 1
  let floor ← usizeSub topIdx minStackDepth
  return { roomy with stackTopIdx := topIdx, stackBotIdx := min roomy.stackBotIdx floor }

/-! ### Contexts -/

/-- The overflow to save, and the buffer with those cells zeroed. -/
def takeOverflow (processor : FastProcessor) (floor : Nat) :
    Except StackFault (List Felt × FastProcessor) := do
  let overflowStack ← processor.slice processor.stackBotIdx floor
  let cleared ← processor.fillZero processor.stackBotIdx floor
  return (overflowStack, cleared)

def saveContextAndTruncateStack (processor : FastProcessor) :
    Except StackFault FastProcessor := do
  let size ← processor.stackSize
  let floor ← usizeSub processor.stackTopIdx minStackDepth
  let (overflowStack, cleared) ←
    if minStackDepth < size then processor.takeOverflow floor else .ok ([], processor)
  return { cleared with
    stackBotIdx := floor
    callStack := ⟨overflowStack, processor.ctx, processor.callerHash⟩ :: processor.callStack }

/-- The first branch of `restore_overflow_stack`: the overflow does not fit below the
stack, which then moves so that its new bottom comes to the initial place. -/
def roomToRestore (processor : FastProcessor) (target : Nat) : Except StackFault FastProcessor :=
  if processor.stackBotIdx < target then
    processor.resetStackInBuffer (min (initialStackTopIdx + target) (stackBufferSize - 1))
  else .ok processor

def restoreOverflowStack (processor : FastProcessor) (info : ExecutionContextInfo) :
    Except StackFault FastProcessor := do
  let target := info.overflowStack.length
  let roomy ← processor.roomToRestore target
  let botIdx ← usizeSub roomy.stackBotIdx target
  let restored ← roomy.copyFromSlice botIdx info.overflowStack
  return { restored with stackBotIdx := botIdx }

def restoreContext (processor : FastProcessor) : Except StackFault FastProcessor := do
  let size ← processor.stackSize
  if minStackDepth < size then .error (.invalidStackDepthOnReturn size)
  else
    match processor.callStack with
    | [] => .error .panic
    | info :: rest => do
        let restored ← { processor with callStack := rest }.restoreOverflowStack info
        return { restored with ctx := info.ctx, callerHash := info.fnHash }

end FastProcessor

/-! ### The stack laid into the buffer -/

theorem usizeSub_ok {left right : Nat} (le : right ≤ left) :
    usizeSub left right = .ok (left - right) :=
  if_pos le

namespace FastProcessor

/-- The buffer holds `stack` between its two indices, and zeros below them. -/
structure Lays (processor : FastProcessor) (stack : OperandStack) : Prop where
  depth : processor.stackBotIdx + stack.depth = processor.stackTopIdx
  cell : ∀ index < stack.depth,
    processor.stack (processor.stackTopIdx - 1 - index) = stack.get index
  below : ∀ index < processor.stackBotIdx, processor.stack index = 0
  top_lt : processor.stackTopIdx < stackBufferSize

/-- What a primitive inside one context leaves alone. The bottom index rises only
when the stack returns to its initial place. -/
structure SameContexts (before after : FastProcessor) : Prop where
  ctx : after.ctx = before.ctx
  callerHash : after.callerHash = before.callerHash
  callStack : after.callStack = before.callStack
  botIdx : after.stackBotIdx ≤ max before.stackBotIdx (initialStackTopIdx - minStackDepth)

theorem SameContexts.refl (processor : FastProcessor) : SameContexts processor processor where
  ctx := rfl
  callerHash := rfl
  callStack := rfl
  botIdx := Nat.le_max_left _ _

theorem SameContexts.trans {first second third : FastProcessor}
    (before : SameContexts first second) (after : SameContexts second third) :
    SameContexts first third where
  ctx := after.ctx.trans before.ctx
  callerHash := after.callerHash.trans before.callerHash
  callStack := after.callStack.trans before.callStack
  botIdx := by
    have low := before.botIdx
    have high := after.botIdx
    omega

/-- A primitive started in `before` succeeds and leaves `stack` in the buffer. -/
def Becomes (before : FastProcessor) (stack : OperandStack)
    (result : Except StackFault FastProcessor) : Prop :=
  ∃ after, result = .ok after ∧ after.Lays stack ∧ SameContexts before after

theorem Becomes.bind {before : FastProcessor} {middle stack : OperandStack}
    {result : Except StackFault FastProcessor}
    {next : FastProcessor → Except StackFault FastProcessor}
    (first : Becomes before middle result)
    (second : ∀ processor : FastProcessor, processor.Lays middle →
      Becomes processor stack (next processor)) :
    Becomes before stack (result >>= next) := by
  obtain ⟨between, rfl, laid, same⟩ := first
  obtain ⟨after, reached, laidAfter, sameAfter⟩ := second between laid
  exact ⟨after, reached, laidAfter, same.trans sameAfter⟩

section Primitives

variable {processor : FastProcessor} {stack : OperandStack}

namespace Lays

theorem depth_le (laid : processor.Lays stack) : stack.depth ≤ processor.stackTopIdx := by
  have whole := laid.depth
  omega

/-- New contents for the cells of the stack, with nothing changed below them. -/
theorem rewrite (laid : processor.Lays stack) {cells : Nat → Felt} {written : OperandStack}
    (depths : written.depth = stack.depth)
    (cell : ∀ index < stack.depth, cells (processor.stackTopIdx - 1 - index) = written.get index)
    (below : ∀ index < processor.stackBotIdx, cells index = processor.stack index) :
    Becomes processor written (.ok { processor with stack := cells }) := by
  refine ⟨_, rfl, ?_, ?_⟩
  · refine ⟨?_, ?_, ?_, laid.top_lt⟩
    · rw [depths]
      exact laid.depth
    · rw [depths]
      exact cell
    · intro index inside
      exact (below index inside).trans (laid.below index inside)
  · exact { SameContexts.refl processor with }

theorem position_ok (laid : processor.Lays stack) {idx : Nat} (valid : idx < stack.depth) :
    processor.position idx = .ok (processor.stackTopIdx - 1 - idx) := by
  have whole := laid.depth
  rw [position, usizeSub_ok (by omega)]
  show usizeSub _ 1 = _
  rw [usizeSub_ok (by omega), Nat.sub_right_comm]

theorem stackGet_ok (laid : processor.Lays stack) {idx : Nat} (valid : idx < stack.depth) :
    processor.stackGet idx = .ok (stack.get idx) := by
  have bounded := laid.top_lt
  rw [stackGet, laid.position_ok valid]
  show processor.readAt _ = _
  rw [readAt, if_pos (by omega), laid.cell idx valid]

theorem stackWrite_becomes (laid : processor.Lays stack) {idx : Nat} (valid : idx < stack.depth)
    (element : Felt) :
    Becomes processor (stack.set idx element) (processor.stackWrite idx element) := by
  have bounded := laid.top_lt
  have whole := laid.depth
  rw [stackWrite, laid.position_ok valid]
  show Becomes _ _ (processor.writeAt _ element)
  rw [writeAt, if_pos (by omega)]
  apply laid.rewrite (stack.depth_set idx element)
  · intro index inside
    rw [OperandStack.get_set stack valid, Function.update_apply]
    by_cases same : index = idx
    · rw [if_pos same, if_pos (by rw [same])]
    · rw [if_neg same, if_neg (by omega), laid.cell index inside]
  · intro index inside
    rw [Function.update_apply, if_neg (by omega)]

theorem stackSwap_becomes (laid : processor.Lays stack) {idx1 idx2 : Nat}
    (valid1 : idx1 < stack.depth) (valid2 : idx2 < stack.depth) :
    Becomes processor (stack.swap idx1 idx2) (processor.stackSwap idx1 idx2) := by
  rw [stackSwap, laid.stackGet_ok valid1, laid.stackGet_ok valid2]
  apply (laid.stackWrite_becomes valid1 (stack.get idx2)).bind
  intro written laidWritten
  apply laidWritten.stackWrite_becomes
  rwa [OperandStack.depth_set]

theorem readAt_ok (laid : processor.Lays stack) {index : Nat} (low : processor.stackBotIdx ≤ index)
    (high : index < processor.stackTopIdx) :
    processor.readAt index = .ok (stack.get (processor.stackTopIdx - 1 - index)) := by
  have bounded := laid.top_lt
  have whole := laid.depth
  rw [readAt, if_pos (by omega), ← laid.cell _ (by omega)]
  congr 2
  omega

theorem stackGetWord_ok (laid : processor.Lays stack) {idx : Nat}
    (valid : idx + wordSize ≤ stack.depth) :
    processor.stackGetWord idx = .ok (stack.getWord idx) := by
  have whole := laid.depth
  have size : wordSize = 4 := rfl
  rw [stackGetWord, usizeSub_ok (by omega)]
  show (usizeSub _ wordSize >>= _) = _
  rw [usizeSub_ok (by omega)]
  simp only [bind, Except.bind, size]
  rw [laid.readAt_ok (by omega) (by omega), laid.readAt_ok (by omega) (by omega),
    laid.readAt_ok (by omega) (by omega), laid.readAt_ok (by omega) (by omega)]
  simp only [OperandStack.getWord]
  congr 2 <;> congr 1 <;> omega

theorem stackWriteWord_becomes (laid : processor.Lays stack) {idx : Nat}
    (valid : idx + wordSize ≤ stack.depth) (word : Word) :
    Becomes processor (stack.setWord idx word) (processor.stackWriteWord idx word) := by
  have whole := laid.depth
  have bounded := laid.top_lt
  have size : wordSize = 4 := rfl
  rw [stackWriteWord, usizeSub_ok (by omega)]
  show Becomes _ _ (usizeSub _ 4 >>= _)
  rw [usizeSub_ok (by omega)]
  show Becomes _ _ (processor.copyFromSlice _ _)
  have length : word.toList.reverse.length = 4 := rfl
  rw [copyFromSlice, if_pos (by omega)]
  apply laid.rewrite
  · simp [OperandStack.setWord]
  · intro index inside
    rw [length, OperandStack.setWord]
    rw [OperandStack.get_set _ (by simp; omega), OperandStack.get_set _ (by simp; omega),
      OperandStack.get_set _ (by simp; omega), OperandStack.get_set _ (by omega)]
    by_cases inWord : idx ≤ index ∧ index < idx + 4
    · rw [if_pos (by omega)]
      obtain ⟨offset, rfl⟩ : ∃ offset, index = idx + offset := ⟨index - idx, by omega⟩
      have small : offset < 4 := by omega
      have mirrored : processor.stackTopIdx - 1 - (idx + offset) -
          (processor.stackTopIdx - idx - 4) = 3 - offset := by omega
      rw [mirrored]
      match offset, small with
      | 0, _ => simp [Word.toList]
      | 1, _ => simp [Word.toList]
      | 2, _ => simp [Word.toList]
      | 3, _ => simp [Word.toList]
    · rw [if_neg (by omega), if_neg (by omega), if_neg (by omega), if_neg (by omega),
        if_neg (by omega), laid.cell index inside]
  · intro index inside
    rw [if_neg (by omega)]

theorem swapwNth_becomes (laid : processor.Lays stack) {n : Nat} (positive : 0 < n)
    (valid : n ≤ 3) :
    Becomes processor (stack.swapCells 4 (n * 4) (by omega)
      (by have whole : minStackDepth = 16 := rfl; omega)) (processor.swapwNth n) := by
  have whole := laid.depth
  have bounded := laid.top_lt
  have floor : 16 ≤ stack.depth := stack.depth_ge
  have size : wordSize = 4 := rfl
  rw [swapwNth, usizeSub_ok (by omega)]
  show Becomes _ _ (usizeSub _ (n * 4) >>= _)
  rw [usizeSub_ok (by omega)]
  simp only [bind, Except.bind, size]
  rw [if_pos (by omega)]
  apply laid.rewrite (OperandStack.depth_swapCells _ _ _)
  · intro index inside
    rw [OperandStack.get_swapCells]
    by_cases top : index < 4
    · rw [if_neg (by omega), if_pos (by omega), if_pos top, ← laid.cell _ (by omega)]
      congr 1
      omega
    · rw [if_neg top]
      by_cases nth : n * 4 ≤ index ∧ index < n * 4 + 4
      · rw [if_pos (by omega), if_pos nth, ← laid.cell _ (by omega)]
        congr 1
        omega
      · rw [if_neg (by omega), if_neg (by omega), if_neg nth, laid.cell index inside]
  · intro index inside
    rw [if_neg (by omega), if_neg (by omega)]

/-- One turn of a rotation: a cell is copied to another place. -/
theorem moveCell_ok (processor : FastProcessor) {source target : Nat}
    (sourceIn : source < stackBufferSize) (targetIn : target < stackBufferSize) :
    processor.readAt source >>= processor.writeAt target =
      .ok { processor with
        stack := Function.update processor.stack target (processor.stack source) } := by
  rw [readAt, if_pos sourceIn]
  exact if_pos targetIn

/-- After `count` turns of the loop the cells above `start` have moved down by one. -/
theorem shiftDown_ok (processor : FastProcessor) (start : Nat) {count : Nat}
    (inside : start + count < stackBufferSize) :
    (List.range count).foldlM
        (fun (current : FastProcessor) i => do
          current.writeAt (start + i) (← current.readAt (start + i + 1))) processor =
      Except.ok { processor with
        stack := fun index =>
          if start ≤ index ∧ index < start + count then processor.stack (index + 1)
          else processor.stack index } := by
  induction count with
  | zero =>
      have unchanged : ∀ index, ¬(start ≤ index ∧ index < start + 0) := by omega
      simp only [List.range_zero, List.foldlM_nil, if_neg (unchanged _)]
      rfl
  | succ count inductionHypothesis =>
      rw [List.range_succ, List.foldlM_append, inductionHypothesis (by omega)]
      simp only [List.foldlM_cons, List.foldlM_nil, bind_pure]
      refine (moveCell_ok _ (by omega) (by omega)).trans ?_
      congr 2
      funext index
      simp only [Function.update_apply]
      by_cases last : index = start + count
      · rw [if_pos last, if_neg (by omega), if_pos (by omega), last]
      · rw [if_neg last]
        exact if_congr (by omega) rfl rfl

/-- After `count` turns of the loop the cells below the top have moved up by one. -/
theorem shiftUp_ok (processor : FastProcessor) {count : Nat}
    (deep : count < processor.stackTopIdx) (bounded : processor.stackTopIdx < stackBufferSize) :
    (List.range' 1 count).foldlM
        (fun (current : FastProcessor) i => do
          let target ← usizeSub current.stackTopIdx i
          current.writeAt target (← current.readAt (← usizeSub target 1))) processor =
      Except.ok { processor with
        stack := fun index =>
          if processor.stackTopIdx - count ≤ index ∧ index < processor.stackTopIdx then
            processor.stack (index - 1)
          else processor.stack index } := by
  induction count with
  | zero =>
      have unchanged : ∀ index,
          ¬(processor.stackTopIdx - 0 ≤ index ∧ index < processor.stackTopIdx) := by omega
      simp only [List.range'_zero, List.foldlM_nil, if_neg (unchanged _)]
      rfl
  | succ count inductionHypothesis =>
      rw [List.range'_concat, List.foldlM_append, inductionHypothesis (by omega)]
      simp only [List.foldlM_cons, List.foldlM_nil, bind_pure]
      show (usizeSub processor.stackTopIdx _ >>= _) = _
      rw [usizeSub_ok (by omega)]
      show (usizeSub _ 1 >>= _) = _
      rw [usizeSub_ok (by omega)]
      refine (moveCell_ok _ (by omega) (by omega)).trans ?_
      congr 2
      funext index
      simp only [Function.update_apply]
      by_cases last : index = processor.stackTopIdx - (1 + 1 * count)
      · rw [if_pos last, if_neg (by omega), if_pos (by omega), last]
      · rw [if_neg last]
        exact if_congr (by omega) rfl rfl

theorem stackWrite_zero_ok (processor : FastProcessor) (positive : 0 < processor.stackTopIdx)
    (bounded : processor.stackTopIdx < stackBufferSize) (element : Felt) :
    processor.stackWrite 0 element =
      .ok { processor with
        stack := Function.update processor.stack (processor.stackTopIdx - 1) element } := by
  rw [stackWrite, position, usizeSub_ok (Nat.zero_le _), ok_bind, Nat.sub_zero,
    usizeSub_ok (by omega), ok_bind]
  exact if_pos (by omega)

theorem rotateLeft_becomes (laid : processor.Lays stack) {n : Nat} (valid : n < stack.depth) :
    Becomes processor (stack.movUp n) (processor.rotateLeft (n + 1)) := by
  have whole := laid.depth
  have bounded := laid.top_lt
  rw [rotateLeft, usizeSub_ok (by omega), ok_bind, laid.readAt_ok (by omega) (by omega), ok_bind,
    usizeSub_ok (by omega), ok_bind, Nat.add_sub_cancel, shiftDown_ok _ _ (by omega), ok_bind,
    stackWrite_zero_ok]
  · apply laid.rewrite (stack.depth_movUp n)
    · intro index inside
      simp only [Function.update_apply]
      rw [OperandStack.get_movUp _ valid]
      by_cases top : index = 0
      · rw [if_pos (by omega), if_pos top]
        congr 1
        omega
      · rw [if_neg (by omega), if_neg top]
        by_cases moved : index ≤ n
        · rw [if_pos (by omega), if_pos moved, ← laid.cell _ (by omega)]
          congr 1
          omega
        · rw [if_neg (by omega), if_neg moved, laid.cell index inside]
    · intro index inside
      simp only [Function.update_apply]
      rw [if_neg (by omega), if_neg (by omega)]
  · exact Nat.zero_lt_of_lt (laid.depth_le.trans_lt' valid)
  · exact bounded

theorem rotateRight_becomes (laid : processor.Lays stack) {n : Nat} (valid : n < stack.depth) :
    Becomes processor (stack.movDn n) (processor.rotateRight (n + 1)) := by
  have whole := laid.depth
  have bounded := laid.top_lt
  rw [rotateRight, usizeSub_ok (by omega), ok_bind, usizeSub_ok (by omega), ok_bind,
    laid.readAt_ok (by omega) (by omega), ok_bind, Nat.add_sub_cancel,
    shiftUp_ok _ (by omega) bounded, ok_bind, writeAt, if_pos (by omega)]
  apply laid.rewrite (stack.depth_movDn n)
  · intro index inside
    simp only [Function.update_apply]
    rw [OperandStack.get_movDn _ valid]
    by_cases moved : index < n
    · rw [if_neg (by omega), if_pos (by omega), if_pos moved, ← laid.cell _ (by omega)]
      congr 1
    · rw [if_neg moved]
      by_cases bottom : index = n
      · rw [if_pos (by omega), if_pos bottom, Nat.sub_self]
      · rw [if_neg (by omega), if_neg (by omega), if_neg bottom, laid.cell index inside]
  · intro index inside
    simp only [Function.update_apply]
    rw [if_neg (by omega), if_neg (by omega)]

/-- A push fails only where the top index has reached the end of the array. -/
theorem push_becomes (laid : processor.Lays stack)
    (room : processor.stackTopIdx < stackBufferSize - 1) (element : Felt) :
    Becomes processor (stack.push element) (processor.push element) := by
  have whole := laid.depth
  rw [push, incrementSize, if_pos room, ok_bind,
    stackWrite_zero_ok _ (Nat.succ_pos _) (Nat.add_lt_of_lt_sub room)]
  refine ⟨_, rfl, ⟨?_, ?_, ?_, ?_⟩, { SameContexts.refl processor with }⟩
  · rw [OperandStack.depth_push]
    exact congrArg (· + 1) whole
  · intro index inside
    simp only [Function.update_apply]
    match index with
    | 0 => simp
    | index + 1 =>
        rw [OperandStack.depth_push] at inside
        rw [if_neg (by omega), OperandStack.get_push_succ, ← laid.cell index (by omega)]
        congr 1
        omega
  · intro index inside
    simp only [Function.update_apply]
    rw [if_neg (by simp at inside; omega), laid.below index inside]
  · simp only
    omega

theorem push_overflow (full : ¬processor.stackTopIdx < stackBufferSize - 1) (element : Felt) :
    processor.push element = .error .stackOverflow := by
  rw [push, incrementSize, if_neg full]
  rfl

/-- A stack of minimal depth can be moved to any place of the array. -/
theorem resetStackInBuffer_ok (laid : processor.Lays stack) (minimal : stack.depth = minStackDepth)
    {newTop : Nat} (low : minStackDepth ≤ newTop) (high : newTop < stackBufferSize) :
    ∃ cells, processor.resetStackInBuffer newTop =
        .ok { processor with
          stack := cells, stackBotIdx := newTop - minStackDepth, stackTopIdx := newTop } ∧
      Lays { processor with
          stack := cells, stackBotIdx := newTop - minStackDepth, stackTopIdx := newTop } stack := by
  have whole := laid.depth
  have bounded := laid.top_lt
  rw [resetStackInBuffer, usizeSub_ok low, ok_bind, copyWithin, if_pos (by omega), ok_bind,
    fillZero, if_pos (by omega), ok_bind]
  refine ⟨_, rfl, ?_, ?_, ?_, high⟩
  · simp only
    omega
  · intro index inside
    simp only
    rw [if_neg (by omega), if_pos (by omega), ← laid.cell index inside]
    congr 1
    omega
  · intro index inside
    simp only at inside ⊢
    rw [if_pos (by omega)]

/-- Where the depth is minimal, the zero below the bottom becomes the last cell. -/
theorem lower (laid : processor.Lays stack) (room : minStackDepth < processor.stackTopIdx) :
    Lays { processor with
      stackTopIdx := processor.stackTopIdx - 1
      stackBotIdx := min processor.stackBotIdx (processor.stackTopIdx - 1 - minStackDepth) }
      stack.drop := by
  have whole := laid.depth
  have floor : minStackDepth ≤ stack.depth := stack.depth_ge
  have depths := stack.drop_depth
  refine ⟨?_, ?_, ?_, ?_⟩
  · simp only
    omega
  · intro index inside
    simp only
    rw [OperandStack.get_drop]
    by_cases kept : index + 1 < stack.depth
    · rw [← laid.cell (index + 1) kept]
      congr 1
      omega
    · rw [OperandStack.get_of_depth_le _ (by omega)]
      exact laid.below _ (by omega)
  · intro index inside
    exact laid.below index (lt_of_lt_of_le inside (Nat.min_le_left _ _))
  · have bounded := laid.top_lt
    simp only
    omega

theorem decrementSize_becomes (laid : processor.Lays stack) :
    Becomes processor stack.drop processor.decrementSize := by
  have whole := laid.depth
  have floor : minStackDepth ≤ stack.depth := stack.depth_ge
  have initial : minStackDepth < initialStackTopIdx := by decide
  rw [decrementSize, roomToDecrement]
  by_cases low : processor.stackTopIdx = minStackDepth
  · -- The stack lies at the very start of the array and goes back to its first place.
    obtain ⟨cells, moved, laidMoved⟩ := laid.resetStackInBuffer_ok (by omega)
      (Nat.le_of_lt initial) (by decide : initialStackTopIdx < stackBufferSize)
    rw [if_pos low, moved, ok_bind]
    dsimp only
    rw [usizeSub_ok (by decide), ok_bind, usizeSub_ok (by decide), ok_bind]
    refine ⟨_, rfl, laidMoved.lower initial, rfl, rfl, rfl, ?_⟩
    exact (Nat.min_le_left _ _).trans (Nat.le_max_right _ _)
  · rw [if_neg low, ok_bind, usizeSub_ok (by omega), ok_bind, usizeSub_ok (by omega), ok_bind]
    refine ⟨_, rfl, laid.lower (by omega), rfl, rfl, rfl, ?_⟩
    exact (Nat.min_le_left _ _).trans (Nat.le_max_left _ _)

/-- The cells below the top sixteen, as they lie in the array. -/
theorem slice_overflow_ok (laid : processor.Lays stack) :
    processor.slice processor.stackBotIdx (processor.stackTopIdx - minStackDepth) =
      .ok (stack.cells.drop minStackDepth).reverse := by
  have whole := laid.depth
  have bounded := laid.top_lt
  have floor : minStackDepth ≤ stack.depth := stack.depth_ge
  rw [slice, if_pos (by omega)]
  congr 1
  apply List.ext_getElem
  · simp only [List.length_map, List.length_range, List.length_reverse, List.length_drop]
    change _ = stack.depth - _
    omega
  · intro index inLeft inRight
    simp only [List.length_reverse, List.length_drop] at inRight
    change index < stack.depth - _ at inRight
    have mirrored := laid.cell (stack.depth - 1 - index) (by omega)
    rw [OperandStack.get, List.getD_eq_getElem _ _ (by change _ < stack.depth; omega)] at mirrored
    simp only [List.getElem_map, List.getElem_range, List.getElem_reverse, List.getElem_drop,
      List.length_drop]
    rw [← show processor.stackTopIdx - 1 - (stack.depth - 1 - index) =
      processor.stackBotIdx + index by omega, mirrored]
    congr 1
    change _ = _ + (stack.depth - _ - _ - _)
    omega

/-- The top sixteen cells stay where they are, and the cells below them are handed over. -/
theorem saveContext_ok (laid : processor.Lays stack) :
    ∃ after, processor.saveContextAndTruncateStack = .ok after ∧ after.Lays stack.truncate ∧
      after.stackTopIdx = processor.stackTopIdx ∧
      after.ctx = processor.ctx ∧ after.callerHash = processor.callerHash ∧
      after.callStack = ⟨(stack.cells.drop minStackDepth).reverse, processor.ctx,
        processor.callerHash⟩ :: processor.callStack := by
  have whole := laid.depth
  have bounded := laid.top_lt
  have floor : minStackDepth ≤ stack.depth := stack.depth_ge
  have depths := stack.depth_truncate
  rw [saveContextAndTruncateStack, stackSize, usizeSub_ok (by omega), ok_bind,
    usizeSub_ok (by omega), ok_bind]
  by_cases deep : minStackDepth < processor.stackTopIdx - processor.stackBotIdx
  · rw [if_pos deep, takeOverflow, laid.slice_overflow_ok, ok_bind, fillZero, if_pos (by omega)]
    refine ⟨_, rfl, ⟨?_, ?_, ?_, bounded⟩, rfl, rfl, rfl, rfl⟩
    · simp only
      omega
    · intro index inside
      rw [depths] at inside
      simp only
      rw [if_neg (by omega), OperandStack.get_truncate _ inside, laid.cell index (by omega)]
    · intro index inside
      simp only at inside ⊢
      by_cases cleared : processor.stackBotIdx ≤ index
      · rw [if_pos ⟨cleared, inside⟩]
      · rw [if_neg (by omega), laid.below index (by omega)]
  · have short : stack.cells.drop minStackDepth = [] :=
      List.drop_eq_nil_of_le (by change stack.depth ≤ _; omega)
    rw [if_neg deep, short]
    refine ⟨_, rfl, ⟨?_, ?_, ?_, bounded⟩, rfl, rfl, rfl, rfl⟩
    · simp only
      omega
    · intro index inside
      rw [depths] at inside
      rw [OperandStack.get_truncate _ inside, ← laid.cell index (by omega)]
    · intro index inside
      exact laid.below index (by simp only at inside; omega)

/-- Cells that fit below the stack are put back there. -/
theorem restoreInPlace (laid : processor.Lays stack) {overflow : List Felt}
    (room : overflow.length ≤ processor.stackBotIdx) :
    ∃ cells, processor.copyFromSlice (processor.stackBotIdx - overflow.length) overflow.reverse =
        .ok { processor with stack := cells } ∧
      Lays { processor with
        stack := cells, stackBotIdx := processor.stackBotIdx - overflow.length }
        (stack.extend overflow) := by
  have whole := laid.depth
  have bounded := laid.top_lt
  rw [copyFromSlice, if_pos (by rw [List.length_reverse]; omega)]
  refine ⟨_, rfl, ?_, ?_, ?_, bounded⟩
  · rw [OperandStack.depth_extend]
    simp only
    omega
  · intro index inside
    rw [OperandStack.depth_extend] at inside
    rw [OperandStack.get_extend]
    simp only [List.length_reverse]
    by_cases kept : index < stack.depth
    · rw [if_neg (by omega), if_pos kept, laid.cell index kept]
    · rw [if_pos (by omega), if_neg kept, List.getD_eq_getElem _ _ (by rw [List.length_reverse]; omega),
        List.getD_eq_getElem _ _ (by omega), List.getElem_reverse]
      congr 1
      omega
  · intro index inside
    simp only [List.length_reverse] at inside ⊢
    rw [if_neg (by omega), laid.below index (by omega)]

theorem restoreOverflowStack_ok (laid : processor.Lays stack)
    (minimal : stack.depth = minStackDepth) {info : ExecutionContextInfo} {overflow : List Felt}
    (saved : info.overflowStack = overflow.reverse)
    (fits : overflow.length + minStackDepth < stackBufferSize) :
    ∃ after, processor.restoreOverflowStack info = .ok after ∧
      after.Lays (stack.extend overflow) ∧ after.callStack = processor.callStack ∧
      after.stackBotIdx ≤
        max (processor.stackBotIdx - overflow.length) (initialStackTopIdx - minStackDepth) := by
  rw [restoreOverflowStack, saved, List.length_reverse, roomToRestore]
  by_cases short : processor.stackBotIdx < overflow.length
  · have initial : minStackDepth < initialStackTopIdx := by decide
    obtain ⟨moved, reached, laidMoved⟩ := laid.resetStackInBuffer_ok minimal
      (show minStackDepth ≤ min (initialStackTopIdx + overflow.length) (stackBufferSize - 1) by omega)
      (by omega)
    obtain ⟨cells, copied, laidAfter⟩ := laidMoved.restoreInPlace
      (show overflow.length ≤
        min (initialStackTopIdx + overflow.length) (stackBufferSize - 1) - minStackDepth by omega)
    rw [if_pos short, reached, ok_bind]
    dsimp only at copied ⊢
    rw [usizeSub_ok (by omega), ok_bind, copied, ok_bind]
    refine ⟨_, rfl, laidAfter, rfl, ?_⟩
    dsimp only
    omega
  · obtain ⟨cells, copied, laidAfter⟩ := laid.restoreInPlace (Nat.le_of_not_lt short)
    rw [if_neg short, ok_bind, usizeSub_ok (by omega), ok_bind, copied, ok_bind]
    exact ⟨_, rfl, laidAfter, rfl, Nat.le_max_left _ _⟩

end Lays

end Primitives

end FastProcessor

end MidenWorkspace.Vm
