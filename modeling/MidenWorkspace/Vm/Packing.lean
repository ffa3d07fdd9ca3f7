import MidenWorkspace.Vm.OpBatch

/-!
Contract: what the accumulator packs.

A closed batch is a list of groups. Each group takes one slot for its operations and
one for each of its immediates, and all arrays of the batch are read off the slots
(`OpBatch.layout`).

Owns that view, `Holds`, which says what an accumulator has closed and what it still
holds open, one lemma for each of its functions, and the result that `batch_ops`
never panics and packs the operations in their order.
-/

namespace MidenWorkspace.Vm

open MidenWorkspace.Library.Positional

/-! ### Groups and slots -/

theorem groupValueFrom_append (operation : CoreOperation) (ops : List CoreOperation)
    (index value : Nat) :
    groupValueFrom index value (ops ++ [operation]) =
      groupValueFrom index value ops |||
        operation.opCode <<< (CoreOperation.opBits * (index + ops.length)) := by
  induction ops generalizing index value with
  | nil => rfl
  | cons first rest inductionHypothesis =>
      rw [List.cons_append, groupValueFrom, groupValueFrom, inductionHypothesis, List.length_cons,
        Nat.add_assoc, Nat.add_comm 1]

theorem groupValue_append (ops : List CoreOperation) (operation : CoreOperation) :
    groupValue (ops ++ [operation]) =
      groupValue ops ||| operation.opCode <<< (CoreOperation.opBits * ops.length) := by
  rw [groupValue, groupValueFrom_append, Nat.zero_add]
  rfl

theorem groupValue_append_noop (ops : List CoreOperation) :
    groupValue (ops ++ [.noop]) = groupValue ops := by
  rw [groupValue_append, CoreOperation.opCode, Nat.zero_shiftLeft, Nat.or_zero]

/-- The immediates of a group, in the order of their slots. -/
def immediates (ops : List CoreOperation) : List Felt := ops.filterMap CoreOperation.immValue

/-- Whether a group with these operations is closed with a `noop`. -/
def isPadded (raw : List CoreOperation) : Bool :=
  raw.isEmpty || raw.getLast?.any (·.immValue.isSome)

/-- The operations of a group that fit into it together with their padding. -/
structure OpGroup where
  raw : List CoreOperation
  fits : raw.length + (isPadded raw).toNat ≤ groupSize

/-- What one entry of the arrays of a batch stands for. -/
structure Slot where
  ops : List CoreOperation
  value : Felt
  padded : Bool

def Slot.immediate (value : Felt) : Slot := ⟨[], value, false⟩

theorem Slot.flatMap_ops_immediate (values : List Felt) :
    (values.map Slot.immediate).flatMap Slot.ops = [] := by
  rw [List.flatMap_map, List.flatMap_eq_nil_iff]
  exact fun value _ => rfl

namespace OpGroup

def empty : OpGroup := ⟨[], by decide⟩

/-- The group with one more operation. -/
def snoc (group : OpGroup) (operation : CoreOperation)
    (fits : group.raw.length + 1 + operation.immValue.isSome.toNat ≤ groupSize) : OpGroup where
  raw := group.raw ++ [operation]
  fits := by
    have padded : isPadded (group.raw ++ [operation]) = operation.immValue.isSome := by
      simp [isPadded]
    rwa [padded, List.length_append]

def ops (group : OpGroup) : List CoreOperation :=
  if isPadded group.raw then group.raw ++ [.noop] else group.raw

def slots (group : OpGroup) : List Slot :=
  ⟨group.ops, Felt.new (groupValue group.raw), isPadded group.raw⟩ ::
    (immediates group.raw).map Slot.immediate

/-- The slots of a group that is still open. -/
def openSlots (group : OpGroup) : List Slot :=
  .immediate 0 :: (immediates group.raw).map Slot.immediate

variable (group : OpGroup)

theorem ops_length : group.ops.length = group.raw.length + (isPadded group.raw).toNat := by
  unfold ops
  cases isPadded group.raw <;> simp

theorem ops_ne_nil : group.ops ≠ [] := by
  intro empty
  have length := group.ops_length
  rw [empty] at length
  have noRaw : group.raw = [] := List.eq_nil_of_length_eq_zero (by simp at length; omega)
  rw [noRaw] at length
  exact absurd length (by decide)

@[simp] theorem length_slots : group.slots.length = (immediates group.raw).length + 1 := by
  simp [slots]

@[simp] theorem length_openSlots : group.openSlots.length = (immediates group.raw).length + 1 := by
  simp [openSlots]

@[simp] theorem flatMap_ops_slots : group.slots.flatMap Slot.ops = group.ops := by
  rw [slots, List.flatMap_cons, Slot.flatMap_ops_immediate, List.append_nil]

end OpGroup

/-- The number of operations before a slot. -/
def opsBefore (slots : List Slot) (index : Nat) : Nat :=
  ((slots.take index).flatMap Slot.ops).length

def valueAt (slots : List Slot) (index : Nat) : Felt := (slots[index]?.map Slot.value).getD 0

def paddedAt (slots : List Slot) (index : Nat) : Bool := (slots[index]?.map Slot.padded).getD false

/-- The batch with the given slots. -/
def OpBatch.ofSlots (slots : List Slot) : OpBatch where
  ops := slots.flatMap Slot.ops
  indptr := .ofFn fun index => opsBefore slots index
  padding := .ofFn fun index => paddedAt slots index
  groups := .ofFn fun index => valueAt slots index
  numGroups := slots.length

def slotsOf (groups : List OpGroup) : List Slot := groups.flatMap OpGroup.slots

@[simp] theorem slotsOf_append (first second : List OpGroup) :
    slotsOf (first ++ second) = slotsOf first ++ slotsOf second := List.flatMap_append

@[simp] theorem slotsOf_singleton (group : OpGroup) : slotsOf [group] = group.slots := by
  simp [slotsOf]

def OpBatch.layout (groups : List OpGroup) : OpBatch := .ofSlots (slotsOf groups)

/-! ### What the accumulator holds -/

/-- The accumulator holds the closed groups and, still open, the last one. -/
structure OpBatchAccumulator.Holds (accumulator : OpBatchAccumulator) (closed : List OpGroup)
    (last : OpGroup) : Prop where
  ops : accumulator.ops = (slotsOf closed).flatMap Slot.ops ++ last.raw
  opIdx : accumulator.opIdx = last.raw.length
  groupIdx : accumulator.groupIdx = (slotsOf closed).length
  nextGroupIdx : accumulator.nextGroupIdx =
    (slotsOf closed).length + (immediates last.raw).length + 1
  group : accumulator.group = groupValue last.raw
  indptr : ∀ index (bounded : index < batchSize + 1), accumulator.indptr[index] =
    if index ≤ accumulator.groupIdx then opsBefore (slotsOf closed) index
    else if index < accumulator.nextGroupIdx then invalidIdx else 0
  padding : ∀ index (bounded : index < batchSize),
    accumulator.padding[index] = paddedAt (slotsOf closed) index
  groups : ∀ index (bounded : index < batchSize),
    accumulator.groups[index] = valueAt (slotsOf closed ++ last.openSlots) index
  room : accumulator.nextGroupIdx ≤ batchSize

namespace OpBatchAccumulator

theorem writeAt_eq {α : Type} {size index : Nat} {array : Vector α size} {value : α}
    (bounded : index < size) : writeAt array index value = some (array.set index value bounded) :=
  dif_pos bounded

theorem holds_new : new.Holds [] .empty where
  ops := rfl
  opIdx := rfl
  groupIdx := rfl
  nextGroupIdx := rfl
  group := rfl
  indptr := by decide
  padding := by decide
  groups := by decide
  room := by decide

theorem slotsOf_short (groups : List OpGroup) :
    ((slotsOf groups).flatMap Slot.ops).length ≤ groupSize * groups.length := by
  induction groups with
  | nil => rfl
  | cons group rest inductionHypothesis =>
      have fits := group.fits
      rw [← OpGroup.ops_length] at fits
      simp only [slotsOf, List.flatMap_cons, List.flatMap_append, List.length_append,
        OpGroup.flatMap_ops_slots, List.length_cons] at inductionHypothesis ⊢
      rw [Nat.mul_succ]
      omega

theorem length_le_slotsOf (groups : List OpGroup) : groups.length ≤ (slotsOf groups).length := by
  induction groups with
  | nil => exact Nat.zero_le _
  | cons group rest inductionHypothesis =>
      simp only [slotsOf, List.flatMap_cons, List.length_append, OpGroup.length_slots,
        List.length_cons] at inductionHypothesis ⊢
      omega

theorem opsBefore_eq_of_le {slots : List Slot} {index : Nat} (le : slots.length ≤ index) :
    opsBefore slots index = (slots.flatMap Slot.ops).length := by
  rw [opsBefore, List.take_of_length_le le]

theorem opsBefore_append_of_le {slots others : List Slot} {index : Nat}
    (le : index ≤ slots.length) : opsBefore (slots ++ others) index = opsBefore slots index := by
  rw [opsBefore, List.take_append_of_le_length le, opsBefore]

/-- Behind the first slot of a group lie only immediates. -/
theorem opsBefore_append_slots {slots : List Slot} {group : OpGroup} {index : Nat}
    (inside : slots.length < index) :
    opsBefore (slots ++ group.slots) index = (slots.flatMap Slot.ops ++ group.ops).length := by
  obtain ⟨offset, rfl⟩ := Nat.exists_eq_add_of_lt inside
  rw [opsBefore, Nat.add_assoc, List.take_length_add_append, OpGroup.slots, List.take_succ_cons,
    ← List.map_take, List.flatMap_append, List.flatMap_cons, Slot.flatMap_ops_immediate,
    List.append_nil]

theorem paddedAt_append_slots (slots : List Slot) (group : OpGroup) (index : Nat) :
    paddedAt (slots ++ group.slots) index =
      if slots.length = index then isPadded group.raw else paddedAt slots index := by
  unfold paddedAt
  rcases Nat.lt_trichotomy index slots.length with inside | rfl | behind
  · rw [List.getElem?_append_left inside, if_neg (by omega)]
  · rw [List.getElem?_append_right (Nat.le_refl _), Nat.sub_self, if_pos rfl]
    rfl
  · obtain ⟨offset, rfl⟩ := Nat.exists_eq_add_of_lt behind
    have unused : slots[slots.length + offset + 1]? = none := List.getElem?_eq_none (by omega)
    rw [if_neg (by omega), unused, List.getElem?_append_right (by omega),
      show slots.length + offset + 1 - slots.length = offset + 1 by omega, OpGroup.slots,
      List.getElem?_cons_succ, List.getElem?_map]
    cases (immediates group.raw)[offset]? <;> rfl

/-- Closing a group changes the value of its first slot only. -/
theorem valueAt_append_slots (slots : List Slot) (group : OpGroup) (index : Nat) :
    valueAt (slots ++ group.slots) index =
      if slots.length = index then Felt.new (groupValue group.raw)
      else valueAt (slots ++ group.openSlots) index := by
  unfold valueAt
  rcases Nat.lt_trichotomy index slots.length with inside | rfl | behind
  · rw [List.getElem?_append_left inside, List.getElem?_append_left inside, if_neg (by omega)]
  · rw [List.getElem?_append_right (Nat.le_refl _), Nat.sub_self, if_pos rfl]
    rfl
  · obtain ⟨offset, rfl⟩ := Nat.exists_eq_add_of_lt behind
    rw [if_neg (by omega), List.getElem?_append_right (by omega),
      List.getElem?_append_right (by omega),
      show slots.length + offset + 1 - slots.length = offset + 1 by omega]
    rfl

theorem valueAt_append_immediate (slots : List Slot) (value : Felt) (index : Nat) :
    valueAt (slots ++ [.immediate value]) index =
      if slots.length = index then value else valueAt slots index := by
  unfold valueAt
  rcases Nat.lt_trichotomy index slots.length with inside | rfl | behind
  · rw [List.getElem?_append_left inside, if_neg (by omega)]
  · rw [List.getElem?_append_right (Nat.le_refl _), Nat.sub_self, if_pos rfl]
    rfl
  · have few : (slots ++ [Slot.immediate value]).length ≤ index := by
      rw [List.length_append]
      exact behind
    rw [if_neg (by omega), List.getElem?_eq_none few, List.getElem?_eq_none (by omega)]

/-- An open group without operations has not been written to yet. -/
theorem valueAt_append_empty (slots : List Slot) (index : Nat) :
    valueAt (slots ++ OpGroup.empty.openSlots) index = valueAt slots index := by
  unfold valueAt
  rcases Nat.lt_or_ge index slots.length with inside | behind
  · rw [List.getElem?_append_left inside]
  · rw [List.getElem?_append_right behind, List.getElem?_eq_none behind]
    cases index - slots.length <;> rfl

theorem correctIndptr_eq (groupIdx opsLength last : Nat) (indptr : Vector Nat (batchSize + 1))
    (bounded : last < batchSize + 1) (le : groupIdx ≤ last)
    (pending : ∀ index (inside : index < batchSize + 1), groupIdx < index → index ≤ last →
      indptr[index] = invalidIdx)
    (started : indptr[groupIdx] ≠ invalidIdx) :
    ∃ corrected, correctIndptr groupIdx opsLength last indptr = some corrected ∧
      ∀ index (inside : index < batchSize + 1), corrected[index] =
        if groupIdx < index ∧ index ≤ last then opsLength else indptr[index] := by
  induction last generalizing indptr with
  | zero =>
      obtain rfl : groupIdx = 0 := by omega
      refine ⟨indptr, ?_, fun index inside => (if_neg (by omega)).symm⟩
      rw [correctIndptr, Vector.getElem?_eq_getElem bounded]
      exact if_neg fun both => started both.2
  | succ last inductionHypothesis =>
      rw [correctIndptr, Vector.getElem?_eq_getElem bounded]
      by_cases atStart : groupIdx = last + 1
      · subst atStart
        refine ⟨indptr, if_neg fun both => started both.2, fun index inside => ?_⟩
        exact (if_neg (by omega)).symm
      · have invalid := pending (last + 1) bounded (by omega) (Nat.le_refl _)
        obtain ⟨corrected, found, cells⟩ :=
          inductionHypothesis (indptr.set (last + 1) opsLength bounded) (by omega)
            (by omega)
            (fun index inside after before => by
              rw [Vector.getElem_set_ne _ _ (by omega)]
              exact pending index inside after (by omega))
            (by rwa [Vector.getElem_set_ne _ _ (by omega)])
        refine ⟨corrected, ?_, fun index inside => ?_⟩
        · simp only [Option.bind_eq_bind, Option.bind_some]
          rw [if_pos ⟨le, invalid⟩, writeAt_eq bounded]
          exact found
        · rw [cells, Vector.getElem_set]
          grind

variable {accumulator : OpBatchAccumulator} {closed : List OpGroup} {last : OpGroup}

namespace Holds

theorem needsPadding (holds : accumulator.Holds closed last) :
    accumulator.needsPadding = isPadded last.raw := by
  rw [OpBatchAccumulator.needsPadding, isPadded, holds.opIdx, holds.ops]
  cases raw : last.raw with
  | nil => rfl
  | cons first rest => simp [List.getLast?_eq_some_getLast]

theorem inGroups (holds : accumulator.Holds closed last) :
    accumulator.groupIdx < batchSize := by
  have groupIdx := holds.groupIdx
  have nextGroupIdx := holds.nextGroupIdx
  have room := holds.room
  omega

/-- Padding changes only the operations and the flag of the open group. -/
theorem padIfNeeded (holds : accumulator.Holds closed last) (groups : Vector Felt batchSize) :
    ∃ padding, OpBatchAccumulator.padIfNeeded { accumulator with groups } = some { accumulator with
        ops := (slotsOf closed).flatMap Slot.ops ++ last.ops
        opIdx := last.ops.length
        padding
        groups } ∧
      ∀ index (bounded : index < batchSize),
        padding[index] = paddedAt (slotsOf closed ++ last.slots) index := by
  have needs : OpBatchAccumulator.needsPadding { accumulator with groups } = isPadded last.raw :=
    holds.needsPadding
  rw [OpBatchAccumulator.padIfNeeded, needs]
  by_cases padded : isPadded last.raw
  · rw [if_pos padded, writeAt_eq holds.inGroups]
    refine ⟨accumulator.padding.set accumulator.groupIdx true holds.inGroups, ?_,
      fun index bounded => ?_⟩
    · simp [pushOp, holds.ops, holds.opIdx, OpGroup.ops, padded, CoreOperation.opCode]
    · rw [paddedAt_append_slots, Vector.getElem_set, holds.padding, holds.groupIdx, padded]
  · rw [if_neg padded]
    refine ⟨accumulator.padding, ?_, fun index bounded => ?_⟩
    · rw [OpGroup.ops, if_neg padded, ← holds.ops, ← holds.opIdx]
    · rw [paddedAt_append_slots, holds.padding]
      split
      · next first =>
          rw [paddedAt, List.getElem?_eq_none (by omega), Bool.eq_false_iff.mpr padded]
          rfl
      · rfl

/-- The starts of the slots up to the coming group, once the group is closed. -/
theorem finalizeIndptr (holds : accumulator.Holds closed last) (opIdx : Nat)
    (padding : Vector Bool batchSize) (groups : Vector Felt batchSize) :
    ∃ indptr, OpBatchAccumulator.finalizeIndptr { accumulator with
        ops := (slotsOf closed).flatMap Slot.ops ++ last.ops, opIdx, padding, groups } =
        some { accumulator with
          ops := (slotsOf closed).flatMap Slot.ops ++ last.ops, opIdx, padding, groups, indptr } ∧
      ∀ index (bounded : index < batchSize + 1), indptr[index] =
        if index ≤ accumulator.nextGroupIdx then opsBefore (slotsOf closed ++ last.slots) index
        else 0 := by
  have groupIdx := holds.groupIdx
  have next := holds.nextGroupIdx
  have room := holds.room
  have inIndptr : accumulator.nextGroupIdx < batchSize + 1 := by omega
  generalize counted : ((slotsOf closed).flatMap Slot.ops ++ last.ops).length = opsLength
  have short : opsBefore (slotsOf closed) accumulator.groupIdx ≠ invalidIdx := by
    have few := length_le_slotsOf closed
    have bound := slotsOf_short closed
    rw [opsBefore_eq_of_le (by omega)]
    simp only [invalidIdx, batchSize, groupSize] at *
    omega
  have written (index : Nat) (bounded : index < batchSize + 1) :
      (accumulator.indptr.set accumulator.nextGroupIdx opsLength inIndptr)[index] =
        if accumulator.nextGroupIdx = index then opsLength else accumulator.indptr[index] :=
    Vector.getElem_set ..
  obtain ⟨started, corrected, cells⟩ := correctIndptr_eq accumulator.groupIdx opsLength
    (accumulator.nextGroupIdx - 1)
    (accumulator.indptr.set accumulator.nextGroupIdx opsLength inIndptr) (by omega) (by omega)
    (fun index inside after before => by
      rw [written, if_neg (by omega), holds.indptr, if_neg (by omega), if_pos (by omega)])
    (by
      rw [written, if_neg (by omega), holds.indptr, if_pos (by omega)]
      exact short)
  refine ⟨started, ?_, fun index bounded => ?_⟩
  · simp only [OpBatchAccumulator.finalizeIndptr, counted, writeAt_eq inIndptr,
      Option.bind_eq_bind, Option.bind_some, corrected]
    rfl
  · rw [cells, written, holds.indptr]
    by_cases before : index ≤ (slotsOf closed).length
    · rw [if_neg (by omega), if_neg (by omega), if_pos (by omega), if_pos (by omega),
        opsBefore_append_of_le before]
    · rw [opsBefore_append_slots (by omega), counted]
      grind

theorem finalizeOpGroup (holds : accumulator.Holds closed last)
    (free : accumulator.nextGroupIdx < batchSize) :
    ∃ finalized, accumulator.finalizeOpGroup = some finalized ∧
      finalized.nextGroupIdx = accumulator.nextGroupIdx + 1 ∧
      finalized.Holds (closed ++ [last]) .empty := by
  obtain ⟨padding, padded, flags⟩ := holds.padIfNeeded accumulator.groups
  obtain ⟨indptr, started, cells⟩ := holds.finalizeIndptr last.ops.length padding
    (accumulator.groups.set accumulator.groupIdx (Felt.new accumulator.group) holds.inGroups)
  have slots : slotsOf (closed ++ [last]) = slotsOf closed ++ last.slots := by simp
  have length : (slotsOf (closed ++ [last])).length = accumulator.nextGroupIdx := by
    rw [slots, List.length_append, OpGroup.length_slots, holds.nextGroupIdx]
    omega
  refine ⟨⟨(slotsOf closed).flatMap Slot.ops ++ last.ops, indptr, padding,
    accumulator.groups.set accumulator.groupIdx (Felt.new accumulator.group) holds.inGroups, 0, 0,
    accumulator.nextGroupIdx, accumulator.nextGroupIdx + 1⟩, ?_, rfl, ?_⟩
  · simp only [OpBatchAccumulator.finalizeOpGroup, padded, Option.bind_eq_bind, Option.bind_some,
      writeAt_eq holds.inGroups, started]
    rfl
  · refine ⟨?_, rfl, length.symm, ?_, rfl, fun index bounded => ?_, fun index bounded => ?_,
      fun index bounded => ?_, free⟩
    · simp [slots, OpGroup.empty]
    · rw [length]
      rfl
    · rw [cells, slots]
      dsimp only
      split
      · rfl
      · exact (if_neg (by omega)).symm
    · rw [slots]
      exact flags index bounded
    · rw [valueAt_append_empty, slots, valueAt_append_slots, Vector.getElem_set, holds.groups,
        holds.group, ← holds.groupIdx]

/-- An operation without an immediate joins the open group. -/
theorem pushOp (holds : accumulator.Holds closed last) {operation : CoreOperation}
    (plain : operation.immValue = none) {extended : OpGroup}
    (raw : extended.raw = last.raw ++ [operation]) :
    (accumulator.pushOp operation).Holds closed extended := by
  have same : immediates extended.raw = immediates last.raw := by
    simp [immediates, raw, plain]
  have slots : extended.openSlots = last.openSlots := by
    rw [OpGroup.openSlots, same, OpGroup.openSlots]
  refine ⟨?_, ?_, holds.groupIdx, ?_, ?_, holds.indptr, holds.padding, ?_, holds.room⟩
  · simp [OpBatchAccumulator.pushOp, holds.ops, raw]
  · simp [OpBatchAccumulator.pushOp, holds.opIdx, raw]
  · rw [same]
    exact holds.nextGroupIdx
  · rw [raw, groupValue_append, ← holds.group, ← holds.opIdx]
    rfl
  · rw [slots]
    exact holds.groups

/-- A `push` joins the open group and its immediate takes a slot. -/
theorem placeImmediate (holds : accumulator.Holds closed last) {operation : CoreOperation}
    {immediate : Felt} (carries : operation.immValue = some immediate)
    (free : accumulator.nextGroupIdx < batchSize) {extended : OpGroup}
    (raw : extended.raw = last.raw ++ [operation]) :
    ∃ placed, accumulator.placeImmediate immediate = some placed ∧
      (placed.pushOp operation).Holds closed extended := by
  have more : immediates extended.raw = immediates last.raw ++ [immediate] := by
    simp [immediates, raw, carries]
  have inIndptr : accumulator.nextGroupIdx < batchSize + 1 := by omega
  refine ⟨{ accumulator with
    groups := accumulator.groups.set accumulator.nextGroupIdx immediate free
    indptr := accumulator.indptr.set accumulator.nextGroupIdx invalidIdx inIndptr
    nextGroupIdx := accumulator.nextGroupIdx + 1 }, ?_, ?_⟩
  · simp only [OpBatchAccumulator.placeImmediate, writeAt_eq free, writeAt_eq inIndptr,
      Option.bind_eq_bind, Option.bind_some]
    rfl
  · have groupIdx := holds.groupIdx
    have next := holds.nextGroupIdx
    refine ⟨?_, ?_, holds.groupIdx, ?_, ?_, fun index bounded => ?_, holds.padding,
      fun index bounded => ?_, free⟩
    · simp [OpBatchAccumulator.pushOp, holds.ops, raw]
    · simp [OpBatchAccumulator.pushOp, holds.opIdx, raw]
    · rw [more, List.length_append]
      simp only [OpBatchAccumulator.pushOp, List.length_singleton]
      omega
    · rw [raw, groupValue_append, ← holds.group, ← holds.opIdx]
      rfl
    · simp only [OpBatchAccumulator.pushOp]
      rw [Vector.getElem_set, holds.indptr]
      grind
    · simp only [OpBatchAccumulator.pushOp]
      have slots : extended.openSlots = last.openSlots ++ [.immediate immediate] := by
        simp [OpGroup.openSlots, more]
      have length : (slotsOf closed ++ last.openSlots).length = accumulator.nextGroupIdx := by
        rw [List.length_append, OpGroup.length_openSlots]
        omega
      rw [Vector.getElem_set, holds.groups, slots, ← List.append_assoc, valueAt_append_immediate,
        length]

end Holds

theorem flatMap_raw_snoc (closed : List OpGroup) (group : OpGroup) (operation : CoreOperation)
    (fits : group.raw.length + 1 + operation.immValue.isSome.toNat ≤ groupSize) :
    (closed ++ [group.snoc operation fits]).flatMap OpGroup.raw =
      (closed ++ [group]).flatMap OpGroup.raw ++ [operation] := by
  simp [OpGroup.snoc]

theorem flatMap_raw_empty (closed : List OpGroup) :
    (closed ++ [OpGroup.empty]).flatMap OpGroup.raw = closed.flatMap OpGroup.raw := by
  simp [OpGroup.empty]

/-- An accepted operation goes behind those that are there. -/
theorem Holds.addOp (holds : accumulator.Holds closed last) {operation : CoreOperation}
    (accepted : accumulator.canAcceptOp operation) :
    ∃ added closed' last', accumulator.addOp operation = some added ∧
      added.Holds closed' last' ∧
      (closed' ++ [last']).flatMap OpGroup.raw =
        (closed ++ [last]).flatMap OpGroup.raw ++ [operation] := by
  have opIdx := holds.opIdx
  have fits := last.fits
  cases carries : operation.immValue with
  | none =>
      have room : accumulator.opIdx < groupSize ∨ accumulator.nextGroupIdx < batchSize := by
        simpa [canAcceptOp, carries] using accepted
      by_cases full : accumulator.opIdx = groupSize
      · obtain ⟨finalized, found, _, holds'⟩ := holds.finalizeOpGroup (by omega)
        refine ⟨finalized.pushOp operation, closed ++ [last],
          OpGroup.empty.snoc operation (by rw [carries]; decide), ?_, holds'.pushOp carries rfl, ?_⟩
        · simp [OpBatchAccumulator.addOp, finalizeIf, full, found, carries]
        · rw [flatMap_raw_snoc, flatMap_raw_empty]
      · refine ⟨accumulator.pushOp operation, closed,
          last.snoc operation (by rw [carries]; simp; omega), ?_, holds.pushOp carries rfl,
          flatMap_raw_snoc ..⟩
        simp [OpBatchAccumulator.addOp, finalizeIf, full, carries]
  | some immediate =>
      have room : accumulator.opIdx < groupSize - 1 ∧ accumulator.nextGroupIdx < batchSize ∨
          groupSize - 1 ≤ accumulator.opIdx ∧ accumulator.nextGroupIdx + 1 < batchSize := by
        simp only [canAcceptOp, carries, Option.isSome_some, if_true] at accepted
        split at accepted
        · next few => exact .inl ⟨few, by simpa using accepted⟩
        · next many => exact .inr ⟨by omega, by simpa using accepted⟩
      rcases room with ⟨few, free⟩ | ⟨many, free⟩
      · have notFull : accumulator.opIdx ≠ groupSize := by omega
        have notLast : accumulator.opIdx ≠ groupSize - 1 := by omega
        obtain ⟨placed, found, holds'⟩ := holds.placeImmediate carries free
          (rfl : (last.snoc operation (by rw [carries]; simp; omega)).raw = _)
        refine ⟨placed.pushOp operation, closed, _, ?_, holds', flatMap_raw_snoc ..⟩
        simp [OpBatchAccumulator.addOp, finalizeIf, notFull, notLast, carries, found]
      · -- Full, or with only the last place left: the group is closed in both cases.
        obtain ⟨finalized, found, next, holds'⟩ := holds.finalizeOpGroup (by omega)
        have alone : OpGroup.empty.raw.length + 1 + operation.immValue.isSome.toNat ≤ groupSize := by
          rw [carries]
          show 0 + 1 + 1 ≤ 9
          omega
        obtain ⟨placed, found', holds''⟩ := holds'.placeImmediate carries (by omega)
          (rfl : (OpGroup.empty.snoc operation alone).raw = _)
        refine ⟨placed.pushOp operation, closed ++ [last], _, ?_, holds'', ?_⟩
        · have cleared : finalized.opIdx = 0 := holds'.opIdx
          by_cases full : accumulator.opIdx = groupSize
          · simp [OpBatchAccumulator.addOp, finalizeIf, full, carries, found, cleared, found',
              groupSize]
          · have atLast : accumulator.opIdx = groupSize - 1 := by omega
            simp [OpBatchAccumulator.addOp, finalizeIf, atLast, carries, found, found', groupSize]
        · rw [flatMap_raw_snoc, flatMap_raw_empty]

theorem nextPowerOfTwo_le {count : Nat} (le : count ≤ batchSize) :
    nextPowerOfTwo count ≤ batchSize :=
  Nat.pow_le_pow_right (by decide) (Nat.clog_le_of_le_pow le : Nat.clog 2 count ≤ 3)

/-- Closing groups one after the other adds groups that got no operation. -/
theorem Holds.finalizeTimes (count : Nat) (holds : accumulator.Holds closed last)
    (free : accumulator.nextGroupIdx + count ≤ batchSize) :
    ∃ finalized closed' last', accumulator.finalizeTimes count = some finalized ∧
      finalized.Holds closed' last' ∧ closed' ++ [last'] = closed ++ last :: .replicate count .empty ∧
      finalized.nextGroupIdx = accumulator.nextGroupIdx + count := by
  induction count generalizing accumulator closed last with
  | zero => exact ⟨accumulator, closed, last, rfl, holds, rfl, rfl⟩
  | succ count inductionHypothesis =>
      obtain ⟨finalized, found, next, holds'⟩ := holds.finalizeOpGroup (by omega)
      obtain ⟨again, closed', last', found', holds'', groups, next'⟩ :=
        inductionHypothesis holds' (by omega)
      refine ⟨again, closed', last', ?_, holds'', ?_, by omega⟩
      · simp only [OpBatchAccumulator.finalizeTimes, found, Option.bind_eq_bind, Option.bind_some,
          found']
      · rw [groups, List.append_assoc, List.replicate_succ]
        rfl

/-- The value of the last group is in place. -/
theorem Holds.commitOpenGroup (holds : accumulator.Holds closed last) :
    ∃ groups, accumulator.commitOpenGroup = some { accumulator with groups } ∧
      ∀ index (bounded : index < batchSize),
        groups[index] = valueAt (slotsOf closed ++ last.slots) index := by
  unfold OpBatchAccumulator.commitOpenGroup
  split
  · refine ⟨accumulator.groups.set accumulator.groupIdx (Felt.new accumulator.group) holds.inGroups,
      ?_, fun index bounded => ?_⟩
    · rw [writeAt_eq holds.inGroups]
      rfl
    · rw [valueAt_append_slots, Vector.getElem_set, holds.groups, holds.group, holds.groupIdx]
  · next untouched =>
      -- Nothing was written, and zero is the value of a group without operations.
      refine ⟨accumulator.groups, rfl, fun index bounded => ?_⟩
      have noValue : groupValue last.raw = 0 := by
        rw [← holds.group]
        omega
      rw [valueAt_append_slots, holds.groups, noValue]
      split
      · next first =>
          rw [valueAt, ← first, List.getElem?_append_right (Nat.le_refl _), Nat.sub_self]
          rfl
      · rfl

/-- The end of a batch whose groups are complete. -/
theorem Holds.batch (holds : accumulator.Holds closed last) :
    (do
      let committed ← accumulator.commitOpenGroup
      let padded ← committed.padIfNeeded
      let finalized ← padded.finalizeIndptr
      return ({
        ops := finalized.ops
        indptr := fillIndptr finalized.ops.length finalized.nextGroupIdx finalized.indptr
        padding := finalized.padding
        groups := finalized.groups
        numGroups := finalized.nextGroupIdx } : OpBatch)) = some (.layout (closed ++ [last])) := by
  have slots : slotsOf (closed ++ [last]) = slotsOf closed ++ last.slots := by simp
  have length : (slotsOf closed ++ last.slots).length = accumulator.nextGroupIdx := by
    rw [List.length_append, OpGroup.length_slots, holds.nextGroupIdx]
    omega
  obtain ⟨groups, committed, values⟩ := holds.commitOpenGroup
  obtain ⟨padding, padded, flags⟩ := holds.padIfNeeded groups
  obtain ⟨indptr, started, cells⟩ := holds.finalizeIndptr last.ops.length padding groups
  simp only [committed, padded, started, Option.bind_eq_bind, Option.bind_some, Option.pure_def,
    Option.some.injEq]
  rw [OpBatch.layout, slots, OpBatch.ofSlots, OpBatch.mk.injEq]
  refine ⟨by simp, ?_, ?_, ?_, length.symm⟩
  · apply Vector.ext
    intro index bounded
    rw [fillIndptr, Vector.getElem_mapIdx, Vector.getElem_ofFn, cells]
    dsimp only
    split
    · rw [opsBefore_eq_of_le (by omega), List.flatMap_append, OpGroup.flatMap_ops_slots]
    · rw [if_pos (by omega)]
  · apply Vector.ext
    intro index bounded
    rw [Vector.getElem_ofFn, flags]
  · apply Vector.ext
    intro index bounded
    rw [Vector.getElem_ofFn, values]

theorem Holds.intoBatch (holds : accumulator.Holds closed last) :
    accumulator.intoBatch = some (.layout (closed ++ last ::
      .replicate (nextPowerOfTwo accumulator.nextGroupIdx - accumulator.nextGroupIdx) .empty)) := by
  have room := holds.room
  have few := nextPowerOfTwo_le room
  obtain ⟨finalized, closed', last', found, holds', groups, _⟩ := holds.finalizeTimes
    (nextPowerOfTwo accumulator.nextGroupIdx - accumulator.nextGroupIdx) (by omega)
  rw [← groups, ← holds'.batch, OpBatchAccumulator.intoBatch]
  simp only [found, Option.bind_eq_bind, Option.bind_some]

end OpBatchAccumulator

open OpBatchAccumulator

/-- The groups of the batches of a block: every batch but the last is full, and the last has
a power of two of slots. -/
structure FullBatches (packing : List (List OpGroup)) : Prop where
  full : ∀ groups ∈ packing.dropLast, (slotsOf groups).length = batchSize
  powerOfTwo : ∀ groups ∈ packing.getLast?, ∃ exponent ≤ 3, (slotsOf groups).length = 2 ^ exponent

theorem fullBatches_of_full {packing : List (List OpGroup)}
    (full : ∀ groups ∈ packing, (slotsOf groups).length = batchSize) : FullBatches packing where
  full groups inside := full groups (List.mem_of_mem_dropLast inside)
  powerOfTwo groups isLast := ⟨3, by decide, full groups (List.mem_of_getLast? isLast)⟩

theorem slotsOf_replicate_empty (count : Nat) :
    (slotsOf (.replicate count .empty)).length = count := by
  induction count with
  | zero => rfl
  | succ count inductionHypothesis =>
      rw [List.replicate_succ, slotsOf, List.flatMap_cons, List.length_append, ← slotsOf,
        inductionHypothesis]
      simp [OpGroup.empty, immediates]
      omega

section Batches

variable {accumulator : OpBatchAccumulator} {closed : List OpGroup} {last : OpGroup}

/-- What a closed batch consists of. -/
theorem OpBatchAccumulator.Holds.batched (holds : accumulator.Holds closed last) :
    ∃ groups, accumulator.intoBatch = some (.layout groups) ∧
      groups.flatMap OpGroup.raw = (closed ++ [last]).flatMap OpGroup.raw ∧
      (slotsOf groups).length = nextPowerOfTwo accumulator.nextGroupIdx := by
  refine ⟨_, holds.intoBatch, ?_, ?_⟩
  · simp [OpGroup.empty]
  · have enough : accumulator.nextGroupIdx ≤ nextPowerOfTwo accumulator.nextGroupIdx :=
      Nat.le_pow_clog (by decide) _
    have next := holds.nextGroupIdx
    rw [slotsOf_append, List.length_append, ← List.singleton_append, slotsOf_append,
      List.length_append, slotsOf_replicate_empty, slotsOf_singleton, OpGroup.length_slots]
    omega

/-- A batch is closed early only when it is full. -/
theorem OpBatchAccumulator.Holds.full_of_not_accepted (holds : accumulator.Holds closed last)
    {operation : CoreOperation} (refused : ¬ accumulator.canAcceptOp operation) :
    nextPowerOfTwo accumulator.nextGroupIdx = batchSize := by
  have room := holds.room
  have many : accumulator.nextGroupIdx = 7 ∨ accumulator.nextGroupIdx = 8 := by
    by_contra few
    apply refused
    unfold canAcceptOp batchSize at *
    grind
  rcases many with seven | eight
  · rw [seven]
    decide +kernel
  · rw [eight]
    decide +kernel

theorem canAcceptOp_new (operation : CoreOperation) : new.canAcceptOp operation := by
  unfold canAcceptOp
  cases operation.immValue with
  | none => decide
  | some immediate => rfl

theorem OpBatchAccumulator.Holds.raw_eq_nil (holds : accumulator.Holds closed last)
    (noOps : accumulator.isEmpty) : (closed ++ [last]).flatMap OpGroup.raw = [] := by
  have nothing : (slotsOf closed).flatMap Slot.ops ++ last.raw = [] := by
    rw [← holds.ops]
    exact List.isEmpty_iff.mp noOps
  obtain ⟨closedNil, lastNil⟩ := List.append_eq_nil_iff.mp nothing
  cases closed with
  | nil => simpa using lastNil
  | cons group rest =>
      rw [slotsOf, List.flatMap_cons, List.flatMap_append, OpGroup.flatMap_ops_slots] at closedNil
      exact absurd (List.append_eq_nil_iff.mp closedNil).1 group.ops_ne_nil

theorem batchOpsFrom_eq (holds : accumulator.Holds closed last) (before : List (List OpGroup))
    (full : ∀ groups ∈ before, (slotsOf groups).length = batchSize) (ops : List CoreOperation) :
    ∃ packing, batchOpsFrom accumulator (before.map OpBatch.layout) ops =
        some (packing.map OpBatch.layout) ∧
      packing.flatten.flatMap OpGroup.raw =
        before.flatten.flatMap OpGroup.raw ++ (closed ++ [last]).flatMap OpGroup.raw ++ ops ∧
      FullBatches packing := by
  induction ops generalizing accumulator closed last before with
  | nil =>
      rw [batchOpsFrom]
      split
      · next noOps =>
          refine ⟨before, rfl, ?_, fullBatches_of_full full⟩
          rw [holds.raw_eq_nil noOps, List.append_nil, List.append_nil]
      · obtain ⟨groups, found, raw, length⟩ := holds.batched
        refine ⟨before ++ [groups], ?_, ?_, ?_, ?_⟩
        · rw [found, List.map_append]
          rfl
        · rw [List.flatten_concat, List.flatMap_append, raw, List.append_nil]
        · rw [List.dropLast_concat]
          exact full
        · rw [List.getLast?_concat]
          rintro _ ⟨⟩
          exact ⟨Nat.clog 2 accumulator.nextGroupIdx, Nat.clog_le_of_le_pow holds.room, length⟩
  | cons operation rest inductionHypothesis =>
      rw [batchOpsFrom]
      by_cases accepted : accumulator.canAcceptOp operation
      · obtain ⟨added, closed', last', found, holds', raw⟩ := holds.addOp accepted
        obtain ⟨packing, batched, ops, sizes⟩ := inductionHypothesis holds' before full
        refine ⟨packing, ?_, ?_, sizes⟩
        · rw [if_pos accepted, found]
          exact batched
        · rw [ops, raw]
          simp
      · obtain ⟨groups, closedBatch, closedRaw, length⟩ := holds.batched
        obtain ⟨added, closed', last', found, holds', raw⟩ :=
          holds_new.addOp (canAcceptOp_new operation)
        have fullToo : ∀ other ∈ before ++ [groups], (slotsOf other).length = batchSize := by
          intro other inside
          rcases List.mem_append.mp inside with earlier | now
          · exact full other earlier
          · rw [List.mem_singleton.mp now, length, holds.full_of_not_accepted accepted]
        obtain ⟨packing, batched, ops, sizes⟩ :=
          inductionHypothesis holds' (before ++ [groups]) fullToo
        refine ⟨packing, ?_, ?_, sizes⟩
        · rw [if_neg accepted, closedBatch, found]
          simpa using batched
        · rw [ops, raw, List.flatten_concat, List.flatMap_append, closedRaw]
          simp [OpGroup.empty]

end Batches

/-- `batch_ops` never panics: it packs the operations, in their order, into groups. -/
theorem batchOps_eq (ops : List CoreOperation) :
    ∃ packing, batchOps ops = some (packing.map OpBatch.layout) ∧
      packing.flatten.flatMap OpGroup.raw = ops ∧ FullBatches packing := by
  obtain ⟨packing, batched, raw, sizes⟩ := batchOpsFrom_eq holds_new [] (by simp) ops
  exact ⟨packing, batched, by simpa [OpGroup.empty] using raw, sizes⟩

end MidenWorkspace.Vm
