import MidenWorkspace.Library.Codec
import MidenWorkspace.Library.Simulation
import MidenWorkspace.Vm.BatchValidation
import Mathlib.Tactic.IntervalCases

/-!
Contract: basic blocks as bytes.

Owns the encoding of the batches of a block into the data section of a forest, the
decoder, which rebuilds the slots from the operations and where the groups begin, and
that operations and the metadata of a batch are read back.

Does not own how numbers and field elements are written: any `Wire` does.
-/

namespace MidenWorkspace.Vm

open MidenWorkspace.Library MidenWorkspace.Library.Structured
open MidenWorkspace.Library.Simulation OpBatchAccumulator

inductive DeserializationError
  | invalidValue (message : String)
  | unexpectedEof
deriving DecidableEq, Repr

/-- How numbers and field elements are written. The immediate of a `push` is written as the
number that represents it and read as a field element. -/
structure Wire where
  usize : Codec DeserializationError UInt8 Nat
  u32 : Codec DeserializationError UInt8 Nat
  felt : Codec DeserializationError UInt8 Felt
  writeU64 : Nat → List UInt8
  usize_admissible : ∀ value < 2 ^ 64, usize.Admissible value
  u32_admissible : ∀ value < 2 ^ 32, u32.Admissible value
  felt_admissible : ∀ value, felt.Admissible value
  felt_read_u64 : ∀ (value : Felt) rest, felt.read (writeU64 value.val ++ rest) = .ok (value, rest)

def readU8 : Reader DeserializationError UInt8 UInt8 := readByte .unexpectedEof

namespace CoreOperation

variable (wire : Wire)

/-- What follows the opcode. -/
def payload : CoreOperation → List UInt8
  | .assert errCode | .mpVerify errCode | .u32assert2 errCode => wire.felt.write errCode
  | .push value => wire.writeU64 value.val
  | _ => []

def writeInto (operation : CoreOperation) : List UInt8 :=
  UInt8.ofNat operation.opCode :: operation.payload wire

def readFrom : Reader DeserializationError UInt8 CoreOperation := fun bytes => do
  let (opCode, rest) ← readU8 bytes
  match ofOpCode opCode.toNat with
  | none => .error (.invalidValue s!"Invalid opcode '{opCode.toNat}'")
  | some (.inl operation) => return (operation, rest)
  | some (.inr build) =>
      let (value, rest) ← wire.felt.read rest
      return (build value, rest)

end CoreOperation

/-! ### Metadata of a batch -/

/-- The entry of an array at an index within its bounds. -/
def entryAt {α : Type} {count : Nat} (default : α) (entries : Vector α count) (index : Nat) : α :=
  entries.toList.getD index default

/-- `pack_indptr_deltas`: eight differences of at most nine, in four bits each. -/
def packIndptrDeltas (indptr : Vector Nat (batchSize + 1)) : List UInt8 :=
  (List.range batchSize).foldl (fun packed i =>
    let delta := entryAt 0 indptr (i + 1) - entryAt 0 indptr i
    packed.modify (i / 2) (· ||| UInt8.ofNat delta <<< UInt8.ofNat (i % 2 * 4)))
    (.replicate 4 0)

def unpackDelta (packed : List UInt8) (i : Nat) : Nat :=
  ((packed.getD (i / 2) 0 >>> UInt8.ofNat (i % 2 * 4)) &&& 0x0f).toNat

/-- The loop of `unpack_indptr_deltas`. -/
def unpackFrom (packed : List UInt8) : List Nat → Vector Nat (batchSize + 1) →
    Except DeserializationError (Vector Nat (batchSize + 1))
  | [], indptr => .ok indptr
  | i :: rest, indptr =>
      let delta := unpackDelta packed i
      if delta > groupSize then
        .error (.invalidValue
          (s!"indptr delta {delta} exceeds maximum of {groupSize} at position {i} " ++
            s!"(operation groups comprise at most {groupSize} ops)"))
      else unpackFrom packed rest (indptr.setIfInBounds (i + 1) (entryAt 0 indptr i + delta))

def unpackIndptrDeltas (packed : List UInt8) :
    Except DeserializationError (Vector Nat (batchSize + 1)) :=
  unpackFrom packed (List.range batchSize) (.replicate _ 0)

def packPadding (padding : Vector Bool batchSize) : UInt8 :=
  padding.toList.zipIdx.foldl (fun packed (isPadded, i) =>
    if isPadded then packed ||| 1 <<< UInt8.ofNat i else packed) 0

def unpackPadding (packed : UInt8) : Vector Bool batchSize :=
  .ofFn fun i => packed &&& 1 <<< UInt8.ofNat i != 0

/-! ### Blocks -/

section Blocks

variable (wire : Wire)

/-- `encode_basic_block`: the data with the block behind it, and where the block begins. The
two casts to `u32` cut off. -/
def encodeBasicBlock (nodeData : List UInt8) (batches : List OpBatch) : List UInt8 × Nat :=
  let operations := batches.flatMap OpBatch.ops
  (nodeData ++ (wire.usize.write operations.length ++
    operations.flatMap (CoreOperation.writeInto wire)) ++
    wire.u32.write (batches.length % 2 ^ 32) ++
    batches.flatMap (fun batch => packIndptrDeltas batch.indptr) ++
    batches.map fun batch => packPadding batch.padding,
    nodeData.length % 2 ^ 32)

/-- The blocks of a forest, one after the other. -/
def encodeBlocks : List (List OpBatch) → List UInt8 → List UInt8 × List Nat
  | [], nodeData => (nodeData, [])
  | batches :: rest, nodeData =>
      let (extended, opsOffset) := encodeBasicBlock wire nodeData batches
      let (final, offsets) := encodeBlocks rest extended
      (final, opsOffset :: offsets)

def readOperations : Reader DeserializationError UInt8 (List CoreOperation) := fun bytes => do
  let (count, rest) ← wire.usize.read bytes
  readMany (CoreOperation.readFrom wire) count rest

def readIndptr : Reader DeserializationError UInt8 (Vector Nat (batchSize + 1)) := fun bytes => do
  let (packed, rest) ← readMany readU8 4 bytes
  let indptr ← unpackIndptrDeltas packed
  return (indptr, rest)

def readPadding : Reader DeserializationError UInt8 (Vector Bool batchSize) := fun bytes => do
  let (packed, rest) ← readU8 bytes
  return (unpackPadding packed, rest)

/-- `(1..=8).rev().find(..).unwrap_or(1)`, searched from `index` down. -/
def highestOpGroup (indptr : Nat → Nat) : Nat → Nat
  | 0 => 1
  | index + 1 =>
      if indptr (index + 1) > indptr index then index + 1 else highestOpGroup indptr index

def placeImmediates (placements : List (Nat × Felt)) (groups : Vector Felt batchSize) :
    Vector Felt batchSize :=
  placements.foldl (fun groups placement => groups.setIfInBounds placement.1 placement.2) groups

/-- The loop over the groups of a batch; the indices are all within the arrays. -/
def rebuildGroups (ops : List CoreOperation) (indptr : Nat → Nat) :
    List Nat → Vector Felt batchSize → Nat →
      Except DeserializationError (Vector Felt batchSize × Nat)
  | [], groups, nextGroupIdx => .ok (groups, nextGroupIdx)
  | arrayIdx :: rest, groups, nextGroupIdx =>
      if indptr arrayIdx < indptr (arrayIdx + 1) then
        let value := Felt.new (groupValue (slice ops (indptr arrayIdx) (indptr (arrayIdx + 1))))
        match collectImmediatePlacements ops indptr arrayIdx batchSize none with
        | .error message => .error (.invalidValue message)
        | .ok (placements, nextGroupIdxAfter) =>
            rebuildGroups ops indptr rest
              (placeImmediates placements (groups.setIfInBounds arrayIdx value)) nextGroupIdxAfter
      else rebuildGroups ops indptr rest groups nextGroupIdx

def batchNumOps (indptr : Vector Nat (batchSize + 1)) : Nat :=
  entryAt 0 indptr (highestOpGroup (entryAt 0 indptr) batchSize)

/-- One round of the loop that rebuilds the batches. -/
def decodeBatch (operations : List CoreOperation) (globalOpOffset batchIdx : Nat)
    (indptr : Vector Nat (batchSize + 1)) (padding : Vector Bool batchSize) :
    Except DeserializationError OpBatch :=
  let batchOpsEnd := globalOpOffset + batchNumOps indptr
  if batchOpsEnd > operations.length then
    .error (.invalidValue
      s!"batch_op_end {batchOpsEnd} exceeds operations length {operations.length}")
  else do
    let ops := slice operations globalOpOffset batchOpsEnd
    let (groups, numGroups) ← rebuildGroups ops (entryAt 0 indptr)
      (List.range (highestOpGroup (entryAt 0 indptr) batchSize)) (.replicate _ 0) 0
    let batch : OpBatch := { ops, indptr, padding, groups, numGroups }
    match batch.validatePaddingSemantics with
    | .error message => .error (.invalidValue s!"batch {batchIdx}: {message}")
    | .ok () => return batch

def decodeBatches (operations : List CoreOperation) :
    List (Vector Nat (batchSize + 1) × Vector Bool batchSize) → Nat → Nat →
      Except DeserializationError (List OpBatch)
  | [], _, _ => .ok []
  | (indptr, padding) :: rest, batchIdx, globalOpOffset => do
      let batch ← decodeBatch operations globalOpOffset batchIdx indptr padding
      let batches ← decodeBatches operations rest (batchIdx + 1)
        (globalOpOffset + batchNumOps indptr)
      return batch :: batches

def batchMetadataBytesPerBatch : Nat := 4 + 1

/-- `decode_operations`. -/
def decodeOperations (nodeData : List UInt8) (opsOffset : Nat) :
    Except DeserializationError (List OpBatch) :=
  if opsOffset > nodeData.length then
    .error (.invalidValue
      s!"ops_offset {opsOffset} exceeds basic_block_data length {nodeData.length}")
  else do
    let (operations, bytes) ← readOperations wire (nodeData.drop opsOffset)
    let (numBatches, bytes) ← wire.u32.read bytes
    let maxBatches := bytes.length / batchMetadataBytesPerBatch
    if numBatches > maxBatches then
      .error (.invalidValue
        s!"batch count {numBatches} exceeds remaining data capacity {maxBatches}")
    else do
      let (indptrs, bytes) ← readMany readIndptr numBatches bytes
      let (paddings, _) ← readMany readPadding numBatches bytes
      decodeBatches operations (indptrs.zip paddings) 0 0

end Blocks

/-- Field elements in eight bytes, which must hold a canonical representative. -/
def feltFixedWidth : Codec DeserializationError UInt8 Felt where
  Admissible _ := True
  write value := (littleEndian 8 DeserializationError.unexpectedEof).write value.val
  read bytes := do
    let (value, rest) ← (littleEndian 8 DeserializationError.unexpectedEof).read bytes
    if value < modulus then return (Felt.new value, rest)
    else .error (.invalidValue s!"value {value} is not a valid field element")
  read_write value _ rest := by
    have number := (littleEndian 8 DeserializationError.unexpectedEof).read_write value.val
      (Nat.lt_trans value.isLt (by decide)) rest
    have same : Felt.new value.val = value := Fin.ext (Felt.new_val_of_lt value.isLt)
    rw [number, ok_bind]
    dsimp only
    rw [if_pos value.isLt, same]
    rfl

/-- What the serialisation library does: a `usize` has a variable length, every other number a
fixed one with the least significant byte first. -/
def Wire.standard : Wire where
  usize := variableLength .unexpectedEof
  u32 := littleEndian 4 .unexpectedEof
  felt := feltFixedWidth
  writeU64 := (littleEndian 8 DeserializationError.unexpectedEof).write
  usize_admissible _ small := small
  u32_admissible _ small := small
  felt_admissible _ := trivial
  felt_read_u64 value := feltFixedWidth.read_write value trivial

/-! ### Operations -/

section Operations

variable (wire : Wire)

theorem CoreOperation.readFrom_built {opCode : UInt8} {build : Felt → CoreOperation} {value : Felt}
    {bytes rest : List UInt8} (known : ofOpCode opCode.toNat = some (.inr build))
    (read : wire.felt.read bytes = .ok (value, rest)) :
    CoreOperation.readFrom wire (opCode :: bytes) = .ok (build value, rest) := by
  simp only [readFrom, readU8, readByte, known, read, bind, Except.bind]
  rfl

theorem CoreOperation.readFrom_writeInto (operation : CoreOperation) (rest : List UInt8) :
    CoreOperation.readFrom wire (operation.writeInto wire ++ rest) = .ok (operation, rest) := by
  have errorCode (value : Felt) := wire.felt.read_write value (wire.felt_admissible value) rest
  cases operation
  case assert value => exact readFrom_built wire rfl (errorCode value)
  case mpVerify value => exact readFrom_built wire rfl (errorCode value)
  case u32assert2 value => exact readFrom_built wire rfl (errorCode value)
  case push value => exact readFrom_built wire rfl (wire.felt_read_u64 value rest)
  all_goals rfl

theorem readOperations_write {operations : List CoreOperation}
    (few : operations.length < 2 ^ 64) (rest : List UInt8) :
    readOperations wire (wire.usize.write operations.length ++
      operations.flatMap (CoreOperation.writeInto wire) ++ rest) = .ok (operations, rest) := by
  rw [readOperations, List.append_assoc,
    wire.usize.read_write _ (wire.usize_admissible _ few)]
  exact readMany_write (fun operation _ => operation.readFrom_writeInto wire) rest

end Operations

/-! ### Metadata -/

theorem entryAt_set {α : Type} {count : Nat} (default : α) (entries : Vector α count)
    {index : Nat} (inside : index < count) (value : α) (other : Nat) :
    entryAt default (entries.setIfInBounds index value) other =
      if other = index then value else entryAt default entries other := by
  unfold entryAt
  rw [List.getD_eq_getElem?_getD, List.getD_eq_getElem?_getD, Vector.toList_setIfInBounds,
    List.getElem?_set]
  by_cases same : index = other
  · rw [if_pos same, if_pos same.symm, if_pos (by simpa using inside)]
    rfl
  · rw [if_neg same, if_neg (Ne.symm same)]

theorem entryAt_eq {α : Type} {count : Nat} (default : α) (entries : Vector α count) {index : Nat}
    (inside : index < count) : entryAt default entries index = entries[index] := by
  rw [entryAt, List.getD_eq_getElem?_getD, List.getElem?_eq_getElem (by simpa using inside)]
  simp

/-- Where the groups begin, as the decoder reads it. -/
structure Unpacked (indptr : Vector Nat (batchSize + 1)) : Prop where
  zero : entryAt 0 indptr 0 = 0
  monotone : ∀ index < batchSize, entryAt 0 indptr index ≤ entryAt 0 indptr (index + 1)
  size : ∀ index < batchSize,
    entryAt 0 indptr (index + 1) - entryAt 0 indptr index ≤ groupSize

/-- The first `index` differences together. -/
def sumBefore (delta : Nat → Nat) (index : Nat) : Nat := ((List.range index).map delta).sum

theorem sumBefore_succ (delta : Nat → Nat) (index : Nat) :
    sumBefore delta (index + 1) = sumBefore delta index + delta index := by
  simp [sumBefore, List.range_succ]

theorem unpackFrom_spec (packed : List UInt8) (count start : Nat)
    (indptr : Vector Nat (batchSize + 1)) (inside : start + count ≤ batchSize)
    (reads : ∀ index ≤ start, entryAt 0 indptr index = sumBefore (unpackDelta packed) index) :
    (∀ result, unpackFrom packed (List.range' start count) indptr = .ok result →
      (∀ index, start ≤ index → index < start + count → unpackDelta packed index ≤ groupSize) ∧
      ∀ index ≤ start + count, entryAt 0 result index = sumBefore (unpackDelta packed) index) ∧
    ((∀ index < start + count, unpackDelta packed index ≤ groupSize) →
      ∃ result, unpackFrom packed (List.range' start count) indptr = .ok result) := by
  induction count generalizing start indptr with
  | zero =>
      refine ⟨fun result isOk => ?_, fun _ => ⟨indptr, rfl⟩⟩
      obtain rfl := Except.ok.inj isOk
      exact ⟨fun index lower below => absurd below (by omega), reads⟩
  | succ count inductionHypothesis =>
      have next := inductionHypothesis (start + 1)
        (indptr.setIfInBounds (start + 1) (entryAt 0 indptr start + unpackDelta packed start))
        (by omega) (by
          intro index below
          rw [entryAt_set 0 indptr (by omega)]
          split
          · next isNew => rw [isNew, sumBefore_succ, reads start (Nat.le_refl _)]
          · exact reads index (by omega))
      rw [show start + 1 + count = start + (count + 1) by omega] at next
      rw [List.range'_succ, unpackFrom]
      by_cases small : unpackDelta packed start ≤ groupSize
      · rw [if_neg (by omega)]
        refine ⟨fun result isOk => ?_, next.2⟩
        obtain ⟨sizes, values⟩ := next.1 result isOk
        refine ⟨fun index lower below => ?_, values⟩
        rcases Nat.eq_or_lt_of_le lower with rfl | later
        · exact small
        · exact sizes index later below
      · rw [if_pos (by omega)]
        exact ⟨fun result => nofun, fun all => absurd (all start (by omega)) small⟩

theorem unpacked_of_unpackIndptrDeltas {packed : List UInt8} {indptr : Vector Nat (batchSize + 1)}
    (result : unpackIndptrDeltas packed = .ok indptr) : Unpacked indptr := by
  rw [unpackIndptrDeltas, List.range_eq_range'] at result
  obtain ⟨sizes, values⟩ := (unpackFrom_spec packed batchSize 0 (.replicate _ 0) (by omega) (by
    intro index below
    obtain rfl := Nat.le_zero.mp below
    rfl)).1 indptr result
  rw [Nat.zero_add] at values sizes
  refine ⟨values 0 (Nat.zero_le _), fun index inside => ?_, fun index inside => ?_⟩
  · rw [values index (by omega), values (index + 1) (by omega), sumBefore_succ]
    omega
  · have := sizes index (Nat.zero_le _) inside
    rw [values index (by omega), values (index + 1) (by omega), sumBefore_succ]
    omega

theorem unpackIndptrDeltas_eq {packed : List UInt8} {indptr : Vector Nat (batchSize + 1)}
    (unpacked : Unpacked indptr)
    (deltas : ∀ index < batchSize, unpackDelta packed index =
      entryAt 0 indptr (index + 1) - entryAt 0 indptr index) :
    unpackIndptrDeltas packed = .ok indptr := by
  have spec := unpackFrom_spec packed batchSize 0 (.replicate _ 0) (by omega) (by
    intro index below
    obtain rfl := Nat.le_zero.mp below
    rfl)
  rw [Nat.zero_add] at spec
  obtain ⟨result, isOk⟩ := spec.2 fun index inside => by
    rw [deltas index inside]
    exact unpacked.size index inside
  obtain ⟨_, values⟩ := spec.1 result isOk
  have sums : ∀ index ≤ batchSize, sumBefore (unpackDelta packed) index =
      entryAt 0 indptr index := by
    intro index inside
    induction index with
    | zero => exact unpacked.zero.symm
    | succ index inductionHypothesis =>
        have := unpacked.monotone index inside
        rw [sumBefore_succ, inductionHypothesis (by omega), deltas index inside]
        omega
  have same : result = indptr := by
    apply Vector.ext
    intro index inside
    rw [← entryAt_eq 0 result inside, ← entryAt_eq 0 indptr inside, values index (by omega),
      sums index (by omega)]
  rw [unpackIndptrDeltas, List.range_eq_range', isOk, same]

/-- Two differences in a byte. -/
def nibbles (low high : Nat) : UInt8 :=
  ((0 : UInt8) ||| UInt8.ofNat low <<< 0) ||| UInt8.ofNat high <<< 4

theorem nibbles_eq {low high : Nat} (lowSmall : low ≤ groupSize) (highSmall : high ≤ groupSize) :
    ((nibbles low high >>> 0) &&& 0x0f).toNat = low ∧
      ((nibbles low high >>> 4) &&& 0x0f).toNat = high := by
  have all : ∀ low high : Fin (groupSize + 1),
      ((nibbles low high >>> 0) &&& 0x0f).toNat = low ∧
        ((nibbles low high >>> 4) &&& 0x0f).toNat = high := by decide
  exact all ⟨low, by omega⟩ ⟨high, by omega⟩

theorem unpackDelta_pack {indptr : Vector Nat (batchSize + 1)} (unpacked : Unpacked indptr)
    {index : Nat} (inside : index < batchSize) :
    unpackDelta (packIndptrDeltas indptr) index =
      entryAt 0 indptr (index + 1) - entryAt 0 indptr index := by
  have pair (index : Nat) (inside : index + 1 < batchSize) :=
    nibbles_eq (unpacked.size index (by omega)) (unpacked.size (index + 1) inside)
  have bounded : index < 8 := inside
  interval_cases index
  · exact (pair 0 (by decide)).1
  · exact (pair 0 (by decide)).2
  · exact (pair 2 (by decide)).1
  · exact (pair 2 (by decide)).2
  · exact (pair 4 (by decide)).1
  · exact (pair 4 (by decide)).2
  · exact (pair 6 (by decide)).1
  · exact (pair 6 (by decide)).2

theorem length_packIndptrDeltas (indptr : Vector Nat (batchSize + 1)) :
    (packIndptrDeltas indptr).length = 4 := rfl

theorem readIndptr_pack {indptr : Vector Nat (batchSize + 1)} (unpacked : Unpacked indptr)
    (rest : List UInt8) : readIndptr (packIndptrDeltas indptr ++ rest) = .ok (indptr, rest) := by
  have bytes : readMany readU8 (packIndptrDeltas indptr).length
      ((packIndptrDeltas indptr).flatMap (fun byte => [byte]) ++ rest) = _ :=
    readMany_write (fun _ _ _ => rfl) rest
  rw [List.flatMap_singleton', length_packIndptrDeltas] at bytes
  rw [readIndptr, bytes]
  show (unpackIndptrDeltas (packIndptrDeltas indptr) >>= _) = _
  rw [unpackIndptrDeltas_eq unpacked fun _ inside => unpackDelta_pack unpacked inside]
  rfl

theorem readPadding_pack (padding : Vector Bool batchSize) (rest : List UInt8) :
    readPadding (packPadding padding :: rest) = .ok (padding, rest) := by
  have all : ∀ b0 b1 b2 b3 b4 b5 b6 b7 : Bool,
      (unpackPadding (packPadding #v[b0, b1, b2, b3, b4, b5, b6, b7])).toList =
        [b0, b1, b2, b3, b4, b5, b6, b7] := by decide
  have entries : padding = #v[padding[0], padding[1], padding[2], padding[3], padding[4],
      padding[5], padding[6], padding[7]] := by
    apply Vector.ext
    intro index inside
    have bounded : index < 8 := inside
    interval_cases index <;> rfl
  have back : unpackPadding (packPadding padding) = padding := by
    rw [entries]
    exact Vector.toList_inj.mp (all ..)
  show Except.ok (unpackPadding (packPadding padding), rest) = _
  rw [back]

end MidenWorkspace.Vm
