import MidenWorkspace.Vm.BatchValidation

/-!
Contract: what the digest of a basic block commits to.

The digest is the hash of the slots of all batches, eight for each. Owns the reading of
operations from slots, and that two blocks with the same slots have the same operations
up to `noop` and the error codes of assertions, which no slot holds.
-/

namespace MidenWorkspace.Vm

open OpBatchAccumulator MidenWorkspace.Library.Positional

/-- `op_groups` of `batch_and_hash_ops`: what is hashed. -/
def opGroups (batches : List OpBatch) : List Felt :=
  batches.flatMap fun batch => batch.groups.toList

/-- `batch_and_hash_ops`, for a hash function. -/
def batchAndHashOps (hashElements : List Felt → Word) (ops : List CoreOperation) :
    Option (List OpBatch × Word) := do
  let batches ← batchOps ops
  return (batches, hashElements (opGroups batches))

namespace CoreOperation

/-- The operation as far as its opcode and its immediate tell. -/
def withoutErrorCode : CoreOperation → CoreOperation
  | .assert _ => .assert 0
  | .u32assert2 _ => .u32assert2 0
  | .mpVerify _ => .mpVerify 0
  | operation => operation

end CoreOperation

/-- The operations of a block that have an effect. -/
def visible (ops : List CoreOperation) : List CoreOperation :=
  (ops.filter (· ≠ .noop)).map CoreOperation.withoutErrorCode

/-! ### Reading slots -/

def pushCode : Nat := (CoreOperation.push 0).opCode

/-- The operations with the given opcodes; each `push` takes the next slot. -/
def readCodes : List Nat → List Felt → List CoreOperation × List Felt
  | [], slots => ([], slots)
  | code :: rest, slots =>
      if code = 0 then readCodes rest slots
      else if code = pushCode then
        let (ops, left) := readCodes rest slots.tail
        (.push (slots.headD 0) :: ops, left)
      else
        let (ops, left) := readCodes rest slots
        (((CoreOperation.ofOpCode code).map (Sum.elim id (· 0))).toList ++ ops, left)

/-- The operations of a batch with the given slots. -/
def readSlots : Nat → List Felt → List CoreOperation
  | 0, _ => []
  | _, [] => []
  | fuel + 1, value :: slots =>
      let (ops, left) := readCodes (digits 128 groupSize value.val) slots
      ops ++ readSlots fuel left

theorem code_cases (operation : CoreOperation) :
    operation = .noop ∨ (∃ value, operation = .push value) ∨
      operation ≠ .noop ∧ operation.immValue = none ∧ operation.opCode ≠ 0 ∧
        operation.opCode ≠ pushCode ∧
        (CoreOperation.ofOpCode operation.opCode).map (Sum.elim id (· 0)) =
          some operation.withoutErrorCode := by
  cases operation
  case noop => exact .inl rfl
  case push value => exact .inr (.inl ⟨value, rfl⟩)
  all_goals exact .inr (.inr ⟨nofun, rfl, Nat.ne_of_beq_eq_false rfl, Nat.ne_of_beq_eq_false rfl, rfl⟩)

theorem readCodes_eq (raw : List CoreOperation) (padding : Nat) (slots : List Felt) :
    readCodes (raw.map CoreOperation.opCode ++ .replicate padding 0) (immediates raw ++ slots) =
      (visible raw, slots) := by
  induction raw with
  | nil =>
      induction padding with
      | zero => rfl
      | succ padding inductionHypothesis =>
          rw [List.replicate_succ]
          exact inductionHypothesis
  | cons operation rest inductionHypothesis =>
      rcases code_cases operation with rfl | ⟨value, rfl⟩ | ⟨notNoop, plain, notZero, notPush, read⟩
      · exact inductionHypothesis
      · have immediate : immediates (.push value :: rest) = value :: immediates rest := rfl
        rw [List.map_cons, List.cons_append, immediate, readCodes,
          if_neg (Nat.ne_of_beq_eq_false rfl), if_pos (Nat.eq_of_beq_eq_true rfl), List.cons_append,
          List.tail_cons, inductionHypothesis]
        rfl
      · have immediate : immediates (operation :: rest) = immediates rest := by
          simp [immediates, plain]
        rw [List.map_cons, List.cons_append, immediate, readCodes, if_neg notZero, if_neg notPush,
          inductionHypothesis, read]
        simp [visible, notNoop]

theorem opCode_lt (operation : CoreOperation) : operation.opCode < 128 := by
  cases operation <;> exact Nat.le_of_ble_eq_true rfl

theorem groupValueFrom_eq (ops : List CoreOperation) (index value : Nat)
    (small : value < 2 ^ (CoreOperation.opBits * index)) :
    groupValueFrom index value ops =
      value + 2 ^ (CoreOperation.opBits * index) * Nat.ofDigits 128 (ops.map CoreOperation.opCode) := by
  induction ops generalizing index value with
  | nil => rfl
  | cons operation rest inductionHypothesis =>
      have code := opCode_lt operation
      have next : 2 ^ (CoreOperation.opBits * (index + 1)) =
          2 ^ (CoreOperation.opBits * index) * 128 := by
        rw [Nat.mul_add, Nat.pow_add]
        rfl
      have joined : value ||| operation.opCode <<< (CoreOperation.opBits * index) =
          2 ^ (CoreOperation.opBits * index) * operation.opCode + value := by
        rw [Nat.shiftLeft_eq, Nat.or_comm, Nat.mul_comm, Nat.two_pow_add_eq_or_of_lt small]
      have within : 2 ^ (CoreOperation.opBits * index) * operation.opCode + value <
          2 ^ (CoreOperation.opBits * (index + 1)) := by
        rw [next]
        calc 2 ^ (CoreOperation.opBits * index) * operation.opCode + value
            < 2 ^ (CoreOperation.opBits * index) * operation.opCode +
                2 ^ (CoreOperation.opBits * index) := by omega
          _ = 2 ^ (CoreOperation.opBits * index) * (operation.opCode + 1) := by rw [Nat.mul_succ]
          _ ≤ 2 ^ (CoreOperation.opBits * index) * 128 := Nat.mul_le_mul_left _ code
      have digit : Nat.ofDigits 128 ((operation :: rest).map CoreOperation.opCode) =
        operation.opCode + 128 * Nat.ofDigits 128 (rest.map CoreOperation.opCode) := rfl
      rw [groupValueFrom, joined, inductionHypothesis _ _ within, next, digit, Nat.mul_add,
        Nat.mul_assoc]
      omega

/-- The opcodes of a group are the digits of its value. -/
theorem groupValue_eq (ops : List CoreOperation) :
    groupValue ops = Nat.ofDigits 128 (ops.map CoreOperation.opCode) := by
  rw [groupValue, groupValueFrom_eq ops 0 0 (by decide), Nat.mul_zero, Nat.pow_zero, Nat.one_mul,
    Nat.zero_add]

theorem digits_groupValue (group : OpGroup) :
    digits 128 groupSize (Felt.new (groupValue group.raw)).val =
      group.raw.map CoreOperation.opCode ++ .replicate (groupSize - group.raw.length) 0 := by
  have short : group.raw.length ≤ groupSize := by
    have fits := group.fits
    omega
  have small : ∀ digit ∈ group.raw.map CoreOperation.opCode, digit < 128 := by
    intro digit member
    obtain ⟨operation, _, rfl⟩ := List.mem_map.mp member
    exact opCode_lt operation
  have canonical : groupValue group.raw < modulus := by
    have bound := Nat.ofDigits_lt_base_pow_length (by decide) small
    rw [← groupValue_eq, List.length_map] at bound
    calc groupValue group.raw < 128 ^ group.raw.length := bound
      _ ≤ 128 ^ groupSize := Nat.pow_le_pow_right (by decide) short
      _ < modulus := by decide
  have value : (Felt.new (groupValue group.raw)).val = groupValue group.raw :=
    Nat.mod_eq_of_lt canonical
  rw [value, groupValue_eq, digits_ofDigits small (by rwa [List.length_map]), List.length_map]

theorem visible_append (first second : List CoreOperation) :
    visible (first ++ second) = visible first ++ visible second := by
  simp [visible]

theorem readSlots_zeros (padding fuel : Nat) : readSlots fuel (.replicate padding 0) = [] := by
  induction fuel generalizing padding with
  | zero => rfl
  | succ fuel inductionHypothesis =>
      cases padding with
      | zero => rfl
      | succ padding =>
          have nothing : readCodes (digits 128 groupSize 0) (.replicate padding 0) =
              ([], .replicate padding 0) := rfl
          rw [List.replicate_succ, readSlots]
          show (readCodes (digits 128 groupSize 0) (.replicate padding 0)).1 ++ _ = []
          rw [nothing]
          exact inductionHypothesis padding

/-- Reading undoes the laying out of groups. -/
theorem readSlots_groups (groups : List OpGroup) (padding fuel : Nat)
    (enough : groups.length ≤ fuel) :
    readSlots fuel ((slotsOf groups).map Slot.value ++ .replicate padding 0) =
      visible (groups.flatMap OpGroup.raw) := by
  induction groups generalizing fuel with
  | nil => exact readSlots_zeros padding fuel
  | cons group rest inductionHypothesis =>
      obtain ⟨fewer, rfl⟩ : ∃ fewer, fuel = fewer + 1 :=
        ⟨fuel - 1, by rw [List.length_cons] at enough; omega⟩
      have values : (slotsOf (group :: rest)).map Slot.value =
          Felt.new (groupValue group.raw) ::
            (immediates group.raw ++ (slotsOf rest).map Slot.value) := by
        simp [slotsOf, OpGroup.slots, Slot.immediate, Function.comp_def]
      rw [values, List.cons_append, readSlots, digits_groupValue, List.append_assoc, readCodes_eq]
      dsimp only
      rw [inductionHypothesis fewer (by rw [List.length_cons] at enough; omega),
        List.flatMap_cons, visible_append]

theorem groups_layout {groups : List OpGroup} (fits : (slotsOf groups).length ≤ batchSize) :
    (OpBatch.layout groups).groups.toList = (slotsOf groups).map Slot.value ++
      .replicate (batchSize - (slotsOf groups).length) 0 := by
  apply List.ext_getElem
  · rw [Vector.length_toList, List.length_append, List.length_map, List.length_replicate]
    omega
  · intro index inBatch _
    have bounded : index < batchSize := by rwa [Vector.length_toList] at inBatch
    have value : (OpBatch.layout groups).groups[index] = valueAt (slotsOf groups) index :=
      Vector.getElem_ofFn bounded
    rw [Vector.getElem_toList, value, valueAt, List.getElem_append]
    by_cases filled : index < (slotsOf groups).length
    · rw [dif_pos (by rwa [List.length_map]), List.getElem?_eq_getElem filled, List.getElem_map]
      rfl
    · rw [dif_neg (by rwa [List.length_map]), List.getElem?_eq_none (by omega),
        List.getElem_replicate]
      rfl

theorem readSlots_layout {groups : List OpGroup} (fits : (slotsOf groups).length ≤ batchSize) :
    readSlots batchSize (OpBatch.layout groups).groups.toList =
      visible (groups.flatMap OpGroup.raw) := by
  rw [groups_layout fits]
  exact readSlots_groups groups _ _ (Nat.le_trans (length_le_slotsOf groups) fits)

/-- The slots of all batches, split into batches again. -/
theorem groups_eq_of_opGroups_eq {first second : List OpBatch}
    (same : opGroups first = opGroups second) :
    first.map (fun batch => batch.groups.toList) = second.map fun batch => batch.groups.toList := by
  have sizes (batches : List OpBatch) :
      (batches.map fun batch => batch.groups.toList).map List.length =
        .replicate batches.length batchSize := by
    rw [List.map_map, ← List.map_const']
    exact List.map_congr_left fun batch _ => Vector.length_toList
  have total (batches : List OpBatch) : (opGroups batches).length = batches.length * batchSize := by
    rw [opGroups, List.flatMap_def, List.length_flatten, sizes, List.sum_replicate_nat]
  have count : first.length = second.length := by
    have lengths := congrArg List.length same
    rw [total, total] at lengths
    exact Nat.eq_of_mul_eq_mul_right (by decide) lengths
  refine (List.eq_iff_flatten_eq ..).mpr ⟨?_, by rw [sizes, sizes, count]⟩
  rwa [opGroups, opGroups, List.flatMap_def, List.flatMap_def] at same

theorem readSlots_batches {ops : List CoreOperation} {batches : List OpBatch}
    (batched : batchOps ops = some batches) :
    (batches.map fun batch => batch.groups.toList).flatMap (readSlots batchSize) = visible ops := by
  obtain ⟨packing, found, raw, full⟩ := batchOps_eq ops
  obtain rfl := Option.some.inj (batched.symm.trans found)
  rw [← raw]
  have fits := full.fits
  clear raw full found batched
  induction packing with
  | nil => rfl
  | cons groups rest inductionHypothesis =>
      rw [List.map_cons, List.map_cons, List.flatMap_cons,
        readSlots_layout (fits groups List.mem_cons_self),
        inductionHypothesis fun others inside => fits others (List.mem_cons_of_mem _ inside),
        List.flatten_cons, List.flatMap_append, visible_append]

/-- Two blocks with one digest have the same operations, up to `noop` and error codes, unless
the digest is a collision of the hash between their slots. -/
theorem same_digest_same_operations {hashElements : List Felt → Word}
    {first second : List CoreOperation} {firstBatches secondBatches : List OpBatch} {digest : Word}
    (firstHashed : batchAndHashOps hashElements first = some (firstBatches, digest))
    (secondHashed : batchAndHashOps hashElements second = some (secondBatches, digest)) :
    visible first = visible second ∨
      (opGroups firstBatches ≠ opGroups secondBatches ∧
        hashElements (opGroups firstBatches) = hashElements (opGroups secondBatches)) := by
  obtain ⟨firstBatches, firstBatched, found⟩ := Option.bind_eq_some_iff.mp firstHashed
  obtain ⟨rfl, rfl⟩ := Prod.mk.inj (Option.some.inj found)
  obtain ⟨secondBatches, secondBatched, found⟩ := Option.bind_eq_some_iff.mp secondHashed
  obtain ⟨rfl, collides⟩ := Prod.mk.inj (Option.some.inj found)
  by_cases same : opGroups firstBatches = opGroups secondBatches
  · left
    rw [← readSlots_batches firstBatched, groups_eq_of_opGroups_eq same,
      readSlots_batches secondBatched]
  · exact .inr ⟨same, collides.symm⟩

/-- A trailing `noop` and an error code leave no mark on the digest. -/
theorem same_digest_assertions :
    visible [.push 5, .assert 1] = visible [.push 5, .assert 2, .noop] := by
  have hashed : batchAndHashOps (fun slots => ⟨slots.headD 0, slots.tail.headD 0, 0, 0⟩)
      [.push 5, .assert 1] = some (_, _) := rfl
  have same := same_digest_same_operations hashed
    (rfl : batchAndHashOps _ [.push 5, .assert 2, .noop] = some (_, _))
  exact same.resolve_right fun collision => collision.1 rfl

end MidenWorkspace.Vm
