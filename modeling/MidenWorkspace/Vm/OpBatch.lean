import Mathlib.Data.Nat.Log
import MidenWorkspace.Library.Positional
import MidenWorkspace.Vm.CoreOperation

/-!
Contract: the batching of the operations of a basic block.

A block is cut into batches of eight slots. A slot is a group of up to nine
operations, packed into one field element, or the immediate value of a `push`. The
accumulator fills a batch operation by operation: an immediate takes the next free
slot at once, and where the slots of immediates lie among the operations is only
known when the group that holds their `push` is closed.

Owns the accumulator and `batch_ops`, with every array index checked (`none` stands for
a panic), the reading of a batch without its padding, and the validation of a block.
-/

namespace MidenWorkspace.Vm

open MidenWorkspace.Library.Positional

/-- `GROUP_SIZE`: operations in a group. -/
def groupSize : Nat := 9

/-- `BATCH_SIZE`: groups in a batch. -/
def batchSize : Nat := 8

/-- `OpBatch`. Only the first `numGroups` entries of `padding` and `groups` mean
something; `indptr` ends with the number of operations. -/
structure OpBatch where
  ops : List CoreOperation
  indptr : Vector Nat (batchSize + 1)
  padding : Vector Bool batchSize
  groups : Vector Felt batchSize
  numGroups : Nat
deriving DecidableEq, Repr

/-- Writing to an array; `none` is a panic. -/
def writeAt {α : Type} {size : Nat} (array : Vector α size) (index : Nat) (value : α) :
    Option (Vector α size) :=
  if bounded : index < size then some (array.set index value bounded) else none

/-- `ops[start..end]`. -/
def slice {α : Type} (items : List α) (first last : Nat) : List α :=
  (items.drop first).take (last - first)

/-- The value that commits to the operations of a group: one opcode every seven bits, in
the loop that validation and decoding share. -/
def groupValueFrom : Nat → Nat → List CoreOperation → Nat
  | _, groupValue, [] => groupValue
  | localOpIdx, groupValue, operation :: rest =>
      groupValueFrom (localOpIdx + 1)
        (groupValue ||| operation.opCode <<< (CoreOperation.opBits * localOpIdx)) rest

def groupValue (ops : List CoreOperation) : Nat := groupValueFrom 0 0 ops

/-! ### The accumulator -/

structure OpBatchAccumulator where
  ops : List CoreOperation
  indptr : Vector Nat (batchSize + 1)
  padding : Vector Bool batchSize
  groups : Vector Felt batchSize
  /-- The value of the open group. -/
  group : Nat
  opIdx : Nat
  groupIdx : Nat
  nextGroupIdx : Nat
deriving DecidableEq, Repr

namespace OpBatchAccumulator

/-- `INVALID_IDX`: marks the start of an immediate's slot until its group is closed. -/
def invalidIdx : Nat := batchSize * groupSize + 1

def new : OpBatchAccumulator where
  ops := []
  indptr := .replicate _ 0
  padding := .replicate _ false
  groups := .replicate _ 0
  group := 0
  opIdx := 0
  groupIdx := 0
  nextGroupIdx := 1

def isEmpty (accumulator : OpBatchAccumulator) : Bool := accumulator.ops.isEmpty

def canAcceptOp (accumulator : OpBatchAccumulator) (operation : CoreOperation) : Bool :=
  if operation.immValue.isSome then
    -- A `push` cannot come last in a group, so it may need two free slots.
    if accumulator.opIdx < groupSize - 1 then accumulator.nextGroupIdx < batchSize
    else accumulator.nextGroupIdx + 1 < batchSize
  else accumulator.opIdx < groupSize || accumulator.nextGroupIdx < batchSize

def pushOp (operation : CoreOperation) (accumulator : OpBatchAccumulator) : OpBatchAccumulator :=
  { accumulator with
    group := accumulator.group |||
      operation.opCode <<< (CoreOperation.opBits * accumulator.opIdx)
    ops := accumulator.ops ++ [operation]
    opIdx := accumulator.opIdx + 1 }

/-- A group may be neither empty nor end in an operation with an immediate. -/
def needsPadding (accumulator : OpBatchAccumulator) : Bool :=
  accumulator.opIdx = 0 || accumulator.ops.getLast?.any (·.immValue.isSome)

def padIfNeeded (accumulator : OpBatchAccumulator) : Option OpBatchAccumulator :=
  if accumulator.needsPadding then do
    let padding ← writeAt accumulator.padding accumulator.groupIdx true
    return { accumulator.pushOp .noop with padding }
  else some accumulator

/-- The loop of `finalize_indptr`, downwards from `uninitGroupIdx`. -/
def correctIndptr (groupIdx opsLength : Nat) :
    Nat → Vector Nat (batchSize + 1) → Option (Vector Nat (batchSize + 1))
  | uninitGroupIdx, indptr => do
      let start ← indptr[uninitGroupIdx]?
      if uninitGroupIdx ≥ groupIdx ∧ start = invalidIdx then
        let corrected ← writeAt indptr uninitGroupIdx opsLength
        match uninitGroupIdx with
        | 0 => none
        | lower + 1 => correctIndptr groupIdx opsLength lower corrected
      else return indptr

/-- The start of the coming group, and of the slots that this group's immediates took. -/
def finalizeIndptr (accumulator : OpBatchAccumulator) : Option OpBatchAccumulator := do
  let started ← writeAt accumulator.indptr accumulator.nextGroupIdx accumulator.ops.length
  let indptr ← correctIndptr accumulator.groupIdx accumulator.ops.length
    (accumulator.nextGroupIdx - 1) started
  return { accumulator with indptr }

def finalizeOpGroup (accumulator : OpBatchAccumulator) : Option OpBatchAccumulator := do
  let padded ← accumulator.padIfNeeded
  let groups ← writeAt padded.groups padded.groupIdx (Felt.new padded.group)
  let finalized ← finalizeIndptr { padded with groups }
  return { finalized with
    groupIdx := finalized.nextGroupIdx
    nextGroupIdx := finalized.nextGroupIdx + 1
    opIdx := 0
    group := 0 }

/-- An immediate goes to the next free slot. -/
def placeImmediate (immediate : Felt) (accumulator : OpBatchAccumulator) :
    Option OpBatchAccumulator := do
  let groups ← writeAt accumulator.groups accumulator.nextGroupIdx immediate
  let indptr ← writeAt accumulator.indptr accumulator.nextGroupIdx invalidIdx
  return { accumulator with groups, indptr, nextGroupIdx := accumulator.nextGroupIdx + 1 }

def finalizeIf (full : Bool) (accumulator : OpBatchAccumulator) : Option OpBatchAccumulator :=
  if full then accumulator.finalizeOpGroup else some accumulator

def addOp (operation : CoreOperation) (accumulator : OpBatchAccumulator) :
    Option OpBatchAccumulator := do
  let opened ← accumulator.finalizeIf (accumulator.opIdx = groupSize)
  match operation.immValue with
  | none => return opened.pushOp operation
  | some immediate =>
      let ready ← opened.finalizeIf (opened.opIdx = groupSize - 1)
      let placed ← ready.placeImmediate immediate
      return placed.pushOp operation

/-- `usize::next_power_of_two`. -/
def nextPowerOfTwo (count : Nat) : Nat := 2 ^ Nat.clog 2 count

/-- A number of groups are closed one after the other. -/
def finalizeTimes : Nat → OpBatchAccumulator → Option OpBatchAccumulator
  | 0, accumulator => some accumulator
  | count + 1, accumulator => do
      let finalized ← accumulator.finalizeOpGroup
      finalizeTimes count finalized

/-- The value of the last group, unless nothing was put into it. -/
def commitOpenGroup (accumulator : OpBatchAccumulator) : Option OpBatchAccumulator :=
  if accumulator.group ≠ 0 ∨ accumulator.opIdx ≠ 0 then do
    let groups ← writeAt accumulator.groups accumulator.groupIdx (Felt.new accumulator.group)
    return { accumulator with groups }
  else some accumulator

/-- The unused end of `indptr`, from the entry `index` on. -/
def fillIndptr (opsLength : Nat) (first : Nat) (indptr : Vector Nat (batchSize + 1)) :
    Vector Nat (batchSize + 1) :=
  indptr.mapIdx fun index start => if first ≤ index then opsLength else start

def intoBatch (accumulator : OpBatchAccumulator) : Option OpBatch := do
  let numGroups := accumulator.nextGroupIdx
  let filled ← finalizeTimes (nextPowerOfTwo numGroups - numGroups) accumulator
  let committed ← filled.commitOpenGroup
  let padded ← committed.padIfNeeded
  let finalized ← padded.finalizeIndptr
  return {
    ops := finalized.ops
    indptr := fillIndptr finalized.ops.length finalized.nextGroupIdx finalized.indptr
    padding := finalized.padding
    groups := finalized.groups
    numGroups := finalized.nextGroupIdx }

end OpBatchAccumulator

open OpBatchAccumulator in
/-- The loop of `batch_ops`. -/
def batchOpsFrom (accumulator : OpBatchAccumulator) (batches : List OpBatch) :
    List CoreOperation → Option (List OpBatch)
  | [] =>
      if accumulator.isEmpty then some batches
      else do
        let batch ← accumulator.intoBatch
        return batches ++ [batch]
  | operation :: rest =>
      if accumulator.canAcceptOp operation then do
        let added ← accumulator.addOp operation
        batchOpsFrom added batches rest
      else do
        let batch ← accumulator.intoBatch
        let added ← new.addOp operation
        batchOpsFrom added (batches ++ [batch]) rest

def batchOps : List CoreOperation → Option (List OpBatch) := batchOpsFrom .new []

namespace OpBatch

/-- `indptr[index]`; what reads it has checked the number of groups. -/
def start (batch : OpBatch) (index : Nat) : Nat := batch.indptr.toList.getD index 0

def isPaddedAt (batch : OpBatch) (groupIdx : Nat) : Bool :=
  batch.padding.toList.getD groupIdx false

def committed (batch : OpBatch) (groupIdx : Nat) : Felt := batch.groups.toList.getD groupIdx 0

/-- `ops[indptr[group_idx]..indptr[group_idx + 1]]`. -/
def groupOps (batch : OpBatch) (groupIdx : Nat) : List CoreOperation :=
  slice batch.ops (batch.start groupIdx) (batch.start (groupIdx + 1))

/-- `raw_ops`: the operations without the padding. -/
def rawOps (batch : OpBatch) : List CoreOperation :=
  (List.range batch.numGroups).flatMap fun groupIdx =>
    slice batch.ops (batch.start groupIdx)
      (batch.start (groupIdx + 1) - (batch.isPaddedAt groupIdx).toNat)

end OpBatch

/-! ### Validation -/

/-- The loop of `collect_immediate_placements` over the operations of a group. -/
def collectPlacements (indptr : Nat → Nat) (maxGroups : Nat) (numGroups : Option Nat) :
    List CoreOperation → List (Nat × Felt) → Nat → Except String (List (Nat × Felt) × Nat)
  | [], placements, nextGroupIdx => .ok (placements, nextGroupIdx)
  | operation :: rest, placements, nextGroupIdx =>
      match operation.immValue with
      | none => collectPlacements indptr maxGroups numGroups rest placements nextGroupIdx
      | some immediate =>
          if nextGroupIdx ≥ maxGroups then .error "push immediate exceeds group slots"
          else if numGroups.any (nextGroupIdx ≥ ·) then
            .error s!"push immediate index {nextGroupIdx} exceeds num_groups {numGroups.getD 0}"
          else if indptr nextGroupIdx ≠ indptr (nextGroupIdx + 1) then
            .error s!"push immediate overlaps operation group at index {nextGroupIdx}"
          else collectPlacements indptr maxGroups numGroups rest
            (placements ++ [(nextGroupIdx, immediate)]) (nextGroupIdx + 1)

/-- `collect_immediate_placements`: where the immediates of a group lie, and the next slot. -/
def collectImmediatePlacements (ops : List CoreOperation) (indptr : Nat → Nat)
    (groupIdx maxGroups : Nat) (numGroups : Option Nat) :
    Except String (List (Nat × Felt) × Nat) :=
  collectPlacements indptr maxGroups numGroups
    (slice ops (indptr groupIdx) (indptr (groupIdx + 1))) [] (groupIdx + 1)

def require (condition : Prop) [Decidable condition] (message : String) : Except String Unit :=
  if condition then .ok () else .error message

/-- `map_err` with the number of the batch. -/
def inBatch {α : Type} (batchIdx : Nat) : Except String α → Except String α
  | .ok value => .ok value
  | .error message => .error s!"Batch {batchIdx}: {message}"

def isPowerOfTwo (count : Nat) : Bool := OpBatchAccumulator.nextPowerOfTwo count = count

/-- One round of the loop of each of the checks that follow, over the batches. -/
def eachBatch (check : OpBatch → Nat → Except String Unit) (batches : List OpBatch) :
    Except String Unit :=
  batches.zipIdx.forM fun (batch, batchIdx) => check batch batchIdx

def validatePowerOfTwoGroups (batches : List OpBatch) : Except String Unit :=
  batches |> eachBatch fun batch batchIdx =>
    let numGroups := batch.numGroups
    if batchIdx + 1 < batches.length then
      require (numGroups = batchSize)
        s!"Batch {batchIdx}: {numGroups} groups is not full batch size {batchSize}"
    else require (isPowerOfTwo numGroups)
      s!"Batch {batchIdx}: {numGroups} groups is not power of two"

def validateBatchStructure : List OpBatch → Except String Unit :=
  eachBatch fun batch batchIdx => do
    let numGroups := batch.numGroups
    require (numGroups ≤ batchSize)
      s!"Batch {batchIdx}: num_groups {numGroups} exceeds maximum {batchSize}"
    (List.range batchSize).forM fun i =>
      let first := batch.start i
      let second := batch.start (i + 1)
      require (first ≤ second)
        (s!"Batch {batchIdx}: indptr[{i}] {first} > indptr[{i + 1}] {second} - " ++
          "full array not monotonic (required for serialization)")
    let last := batch.start batchSize
    let opsLen := batch.ops.length
    require (last = opsLen)
      s!"Batch {batchIdx}: final indptr value {last} doesn't match ops.len() {opsLen}"
    (List.range numGroups).forM fun groupIdx =>
      let size := batch.start (groupIdx + 1) - batch.start groupIdx
      require (size ≤ groupSize)
        (s!"Batch {batchIdx}, group {groupIdx}: contains {size} operations, " ++
          s!"exceeds maximum {groupSize}")

def validateNoImmediateEndings : List OpBatch → Except String Unit :=
  eachBatch fun batch batchIdx =>
    (List.range batch.numGroups).forM fun groupIdx =>
      if batch.start groupIdx = batch.start (groupIdx + 1) then .ok ()
      else if groupIdx = batch.numGroups - 1 then
        (batch.groupOps groupIdx).zipIdx.forM fun (operation, opIdx) =>
          require (operation.immValue.isNone)
            (s!"Batch {batchIdx}, group {groupIdx}: operation at index {opIdx} " ++
              "requires immediate value, but this is the last group in batch")
      else
        require ((batch.groupOps groupIdx).getLast?.all (·.immValue.isNone))
          s!"Batch {batchIdx}, group {groupIdx}: ends with operation requiring immediate value"

/-- The loop of `validate_immediate_commitment` over the groups of a batch; it collects the
slots of the immediates. -/
def checkCommitments (batch : OpBatch) (batchIdx : Nat) :
    List Nat → List Nat → Except String (List Nat)
  | [], immediateSlots => .ok immediateSlots
  | groupIdx :: rest, immediateSlots =>
      if batch.start groupIdx = batch.start (groupIdx + 1) then
        checkCommitments batch batchIdx rest immediateSlots
      else do
        require (batch.committed groupIdx = Felt.new (groupValue (batch.groupOps groupIdx)))
          s!"Batch {batchIdx}, group {groupIdx}: committed opcode group does not match operations"
        let (placements, _) ← inBatch batchIdx (collectImmediatePlacements batch.ops batch.start
          groupIdx batchSize (some batch.numGroups))
        placements.forM fun (immGroupIdx, immediate) =>
          require (batch.committed immGroupIdx = immediate)
            s!"Batch {batchIdx}: push immediate value mismatch at index {immGroupIdx}"
        checkCommitments batch batchIdx rest (immediateSlots ++ placements.map Prod.fst)

def validateImmediateCommitment : List OpBatch → Except String Unit :=
  eachBatch fun batch batchIdx => do
    let immediateSlots ← checkCommitments batch batchIdx (List.range batch.numGroups) []
    (List.range batch.numGroups).forM fun groupIdx =>
      require (batch.start groupIdx ≠ batch.start (groupIdx + 1) ∨ groupIdx ∈ immediateSlots ∨
        batch.committed groupIdx = 0)
        s!"Batch {batchIdx}, group {groupIdx}: empty group must be zero"

/-- `OpBatch::validate_padding_semantics`. -/
def OpBatch.validatePaddingSemantics (batch : OpBatch) : Except String Unit := do
  let numGroups := batch.numGroups
  require (numGroups ≤ batchSize)
    s!"invalid batch metadata: num_groups {numGroups} exceeds BATCH_SIZE {batchSize}"
  (List.range numGroups).forM fun groupIdx =>
    if batch.isPaddedAt groupIdx then do
      let groupStart := batch.start groupIdx
      let groupEnd := batch.start (groupIdx + 1)
      require (groupStart ≠ groupEnd) s!"group {groupIdx}: empty group cannot be marked as padded"
      require (groupStart ≤ groupEnd) s!"group {groupIdx}: invalid group bounds"
      match batch.ops[groupEnd - 1]? with
      | none => .error s!"group {groupIdx}: invalid group bounds"
      | some lastOp =>
          require (lastOp = .noop) s!"group {groupIdx}: padded group must end with NOOP"
    else .ok ()

def validatePaddingSemantics : List OpBatch → Except String Unit :=
  eachBatch fun batch batchIdx => inBatch batchIdx batch.validatePaddingSemantics

/-- `validate_batch_invariants`. -/
def validateBatchInvariants (batches : List OpBatch) : Except String Unit := do
  validatePowerOfTwoGroups batches
  validateBatchStructure batches
  validateNoImmediateEndings batches
  validateImmediateCommitment batches
  validatePaddingSemantics batches

end MidenWorkspace.Vm
