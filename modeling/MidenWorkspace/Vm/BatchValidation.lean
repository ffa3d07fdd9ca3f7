import MidenWorkspace.Vm.WellFormedBatch

/-!
Contract: the batches of a block against their validation.

Owns how the arrays of a batch read in terms of its slots, that the operations without
the padding are the block, that every batch `batch_ops` builds is well formed, and that
the block passes all the checks of `validate_batch_invariants`.

Each slot is the first of a group or one of its immediates (`slot_cases`), and what is
said of a slot is proved for the two kinds.
-/

namespace MidenWorkspace.Vm

open OpBatchAccumulator

/-! ### Reading a batch -/

section Slots

variable {slots : List Slot} {index : Nat} {slot : Slot}

theorem opsBefore_succ (found : slots[index]? = some slot) :
    opsBefore slots (index + 1) = opsBefore slots index + slot.ops.length := by
  obtain ⟨inside, rfl⟩ := List.getElem?_eq_some_iff.mp found
  rw [opsBefore, List.take_succ_eq_append_getElem inside, List.flatMap_append, List.length_append,
    ← opsBefore]
  simp

theorem opsBefore_le_succ (slots : List Slot) (index : Nat) :
    opsBefore slots index ≤ opsBefore slots (index + 1) := by
  cases found : slots[index]? with
  | some slot =>
      rw [opsBefore_succ found]
      omega
  | none =>
      have behind := List.getElem?_eq_none_iff.mp found
      rw [opsBefore_eq_of_le behind, opsBefore_eq_of_le (by omega)]

theorem start_ofSlots (bounded : index ≤ batchSize) :
    (OpBatch.ofSlots slots).start index = opsBefore slots index := by
  rw [OpBatch.start, OpBatch.ofSlots, List.getD_eq_getElem?_getD,
    List.getElem?_eq_getElem (by simp; omega)]
  simp

theorem committed_ofSlots (bounded : index < batchSize) (found : slots[index]? = some slot) :
    (OpBatch.ofSlots slots).committed index = slot.value := by
  rw [OpBatch.committed, OpBatch.ofSlots, List.getD_eq_getElem?_getD,
    List.getElem?_eq_getElem (by simpa using bounded)]
  simp [valueAt, found]

theorem isPaddedAt_ofSlots (bounded : index < batchSize) (found : slots[index]? = some slot) :
    (OpBatch.ofSlots slots).isPaddedAt index = slot.padded := by
  rw [OpBatch.isPaddedAt, OpBatch.ofSlots, List.getD_eq_getElem?_getD,
    List.getElem?_eq_getElem (by simpa using bounded)]
  simp [paddedAt, found]

theorem slice_ops (found : slots[index]? = some slot) (short : Nat) :
    slice (slots.flatMap Slot.ops) (opsBefore slots index) (opsBefore slots (index + 1) - short) =
      slot.ops.take (slot.ops.length - short) := by
  obtain ⟨inside, rfl⟩ := List.getElem?_eq_some_iff.mp found
  have split : slots.flatMap Slot.ops = (slots.take index).flatMap Slot.ops ++
      (slots[index].ops ++ (slots.drop (index + 1)).flatMap Slot.ops) := by
    rw [← List.flatMap_cons, List.cons_getElem_drop_succ, ← List.flatMap_append,
      List.take_append_drop]
  rw [slice, opsBefore_succ found, split, opsBefore, List.drop_left,
    List.take_append_of_le_length (by omega)]
  congr 1
  omega

theorem groupOps_ofSlots (bounded : index < batchSize) (found : slots[index]? = some slot) :
    (OpBatch.ofSlots slots).groupOps index = slot.ops := by
  rw [OpBatch.groupOps, start_ofSlots (by omega), start_ofSlots (by omega)]
  exact (slice_ops found 0).trans (List.take_length ..)

theorem getElem?_last_op {front : List CoreOperation} {operation : CoreOperation}
    (found : slots[index]? = some slot) (ends : slot.ops = front ++ [operation]) :
    (slots.flatMap Slot.ops)[opsBefore slots (index + 1) - 1]? = some operation := by
  have inSlice := slice_ops found 0
  rw [slice, Nat.sub_zero, opsBefore_succ found, Nat.add_sub_cancel_left, Nat.sub_zero,
    List.take_length, ends] at inSlice
  have place := congrArg (fun ops : List CoreOperation => ops[front.length]?) inSlice
  rw [opsBefore_succ found, ends]
  simpa [List.getElem?_take, Nat.add_sub_assoc] using place

end Slots

/-- The operations of a slot without its padding. -/
def Slot.raw (slot : Slot) : List CoreOperation :=
  slot.ops.take (slot.ops.length - slot.padded.toNat)

theorem flatMap_raw_slots (group : OpGroup) : group.slots.flatMap Slot.raw = group.raw := by
  have first : Slot.raw ⟨group.ops, Felt.new (groupValue group.raw), isPadded group.raw⟩ =
      group.raw := by
    unfold Slot.raw OpGroup.ops
    cases isPadded group.raw <;> simp
  have none : ((immediates group.raw).map Slot.immediate).flatMap Slot.raw = [] := by
    simp [Slot.raw, Slot.immediate]
  rw [OpGroup.slots, List.flatMap_cons, first, none, List.append_nil]

theorem rawOps_ofSlots {slots : List Slot} (few : slots.length ≤ batchSize) :
    (OpBatch.ofSlots slots).rawOps = slots.flatMap Slot.raw := by
  have entries : (List.range slots.length).map (fun index =>
      slice (slots.flatMap Slot.ops) ((OpBatch.ofSlots slots).start index)
        ((OpBatch.ofSlots slots).start (index + 1) -
          ((OpBatch.ofSlots slots).isPaddedAt index).toNat)) = slots.map Slot.raw := by
    apply List.ext_getElem (by simp)
    intro index _ inside
    rw [List.length_map] at inside
    have found := List.getElem?_eq_getElem inside
    rw [List.getElem_map, List.getElem_map, List.getElem_range, start_ofSlots (by omega),
      start_ofSlots (by omega), isPaddedAt_ofSlots (by omega) found, slice_ops found]
    rfl
  rw [OpBatch.rawOps, List.flatMap_def, List.flatMap_def, ← entries]
  rfl

theorem rawOps_layout {groups : List OpGroup} (few : (slotsOf groups).length ≤ batchSize) :
    (OpBatch.layout groups).rawOps = groups.flatMap OpGroup.raw := by
  rw [OpBatch.layout, rawOps_ofSlots few, slotsOf, List.flatMap_assoc]
  simp only [flatMap_raw_slots]

/-! ### Where the groups of a batch lie -/

theorem length_ops_le {groups : List OpGroup} {slot : Slot} (inside : slot ∈ slotsOf groups) :
    slot.ops.length ≤ groupSize := by
  obtain ⟨group, _, inGroup⟩ := List.mem_flatMap.mp inside
  rcases List.mem_cons.mp inGroup with rfl | immediate
  · rw [group.ops_length]
    exact group.fits
  · obtain ⟨value, _, rfl⟩ := List.mem_map.mp immediate
    exact Nat.zero_le _

theorem immediates_ops (group : OpGroup) : immediates group.ops = immediates group.raw := by
  unfold OpGroup.ops
  split <;> simp [immediates, CoreOperation.immValue]

theorem groupValue_ops (group : OpGroup) : groupValue group.ops = groupValue group.raw := by
  unfold OpGroup.ops
  split
  · exact groupValue_append_noop group.raw
  · rfl

section Group

variable (before : List OpGroup) (group : OpGroup) (after : List OpGroup)

theorem getElem?_slots {offset : Nat} (inside : offset < group.slots.length) :
    (slotsOf (before ++ group :: after))[(slotsOf before).length + offset]? =
      group.slots[offset]? := by
  rw [slotsOf_append, List.getElem?_append_right (by omega), Nat.add_sub_cancel_left, slotsOf,
    List.flatMap_cons, List.getElem?_append_left inside]

/-- The slot of a group's operations. -/
theorem getElem?_first :
    (slotsOf (before ++ group :: after))[(slotsOf before).length]? =
      some ⟨group.ops, Felt.new (groupValue group.raw), isPadded group.raw⟩ :=
  getElem?_slots before group after (by rw [OpGroup.length_slots]; exact Nat.succ_pos _)

/-- The slot of one of its immediates. -/
theorem getElem?_immediate {offset : Nat} {value : Felt}
    (found : (immediates group.raw)[offset]? = some value) :
    (slotsOf (before ++ group :: after))[(slotsOf before).length + 1 + offset]? =
      some (.immediate value) := by
  have inside := (List.getElem?_eq_some_iff.mp found).1
  have slot : (slotsOf (before ++ group :: after))[(slotsOf before).length + (offset + 1)]? =
      group.slots[offset + 1]? :=
    getElem?_slots before group after (by rw [OpGroup.length_slots]; omega)
  rw [Nat.add_right_comm, Nat.add_assoc, slot, OpGroup.slots, List.getElem?_cons_succ,
    List.getElem?_map, found]
  rfl

theorem length_slots_le : (slotsOf before).length + group.slots.length ≤
    (slotsOf (before ++ group :: after)).length := by
  rw [slotsOf_append, List.length_append, slotsOf, slotsOf, List.flatMap_cons, List.length_append]
  omega

theorem immediate_lt {offset : Nat} {value : Felt}
    (found : (immediates group.raw)[offset]? = some value) :
    (slotsOf before).length + 1 + offset < (slotsOf (before ++ group :: after)).length := by
  have length := length_slots_le before group after
  have inside := (List.getElem?_eq_some_iff.mp found).1
  rw [OpGroup.length_slots] at length
  omega

end Group

/-- Every slot of a batch holds the operations of a group or one of its immediates. -/
theorem slot_cases {groups : List OpGroup} {index : Nat}
    (inside : index < (slotsOf groups).length) :
    (∃ before group after, groups = before ++ group :: after ∧
      index = (slotsOf before).length) ∨
    ∃ before group after offset value, groups = before ++ group :: after ∧
      (immediates group.raw)[offset]? = some value ∧
      index = (slotsOf before).length + 1 + offset := by
  induction groups generalizing index with
  | nil => exact absurd inside (Nat.not_lt_zero _)
  | cons group rest inductionHypothesis =>
      rw [slotsOf, List.flatMap_cons, List.length_append, ← slotsOf, OpGroup.length_slots] at inside
      rcases Nat.eq_zero_or_pos index with rfl | positive
      · exact .inl ⟨[], group, rest, rfl, rfl⟩
      · by_cases own : index - 1 < (immediates group.raw).length
        · refine .inr ⟨[], group, rest, index - 1, _, rfl, List.getElem?_eq_getElem own, ?_⟩
          show index = 0 + 1 + (index - 1)
          omega
        · have length (before : List OpGroup) : (slotsOf (group :: before)).length =
              (immediates group.raw).length + 1 + (slotsOf before).length := by
            rw [slotsOf, List.flatMap_cons, List.length_append, OpGroup.length_slots, ← slotsOf]
          have later : index - ((immediates group.raw).length + 1) < (slotsOf rest).length := by
            omega
          rcases inductionHypothesis later with ⟨before, found, after, rfl, place⟩ |
            ⟨before, found, after, offset, value, rfl, isValue, place⟩
          · refine .inl ⟨group :: before, found, after, rfl, ?_⟩
            rw [length]
            omega
          · refine .inr ⟨group :: before, found, after, offset, value, rfl, isValue, ?_⟩
            rw [length]
            omega

/-! ### The batches of a block are well formed -/

/-- A batch is checked slot by slot: the slots of immediates pass, and so do those of
operations. -/
theorem forM_slots_eq_ok {groups : List OpGroup} {check : Nat → Except String Unit}
    (operations : ∀ before group after, groups = before ++ group :: after →
      check (slotsOf before).length = .ok ())
    (immediate : ∀ before group after offset value, groups = before ++ group :: after →
      (immediates group.raw)[offset]? = some value →
      check ((slotsOf before).length + 1 + offset) = .ok ()) :
    (List.range (slotsOf groups).length).forM check = .ok () := by
  apply forM_eq_ok
  intro index inside
  rcases slot_cases (List.mem_range.mp inside) with ⟨before, group, after, split, rfl⟩ |
    ⟨before, group, after, offset, value, split, found, rfl⟩
  · exact operations before group after split
  · exact immediate before group after offset value split found

section InBatch

variable {before : List OpGroup} {group : OpGroup} {after : List OpGroup}
  (few : (slotsOf (before ++ group :: after)).length ≤ batchSize)

include few

theorem first_lt : (slotsOf before).length < batchSize := by
  have length := length_slots_le before group after
  rw [OpGroup.length_slots] at length
  omega

/-- The slot of a group's operations is not empty. -/
theorem occupied_first :
    Occupied (OpBatch.layout (before ++ group :: after)).start (slotsOf before).length := by
  have inside := first_lt few
  have positive := List.length_pos_iff.mpr group.ops_ne_nil
  rw [Occupied, OpBatch.layout, start_ofSlots (by omega), start_ofSlots (by omega),
    opsBefore_succ (getElem?_first before group after)]
  dsimp only
  omega

theorem start_first_ne :
    (OpBatch.layout (before ++ group :: after)).start (slotsOf before).length ≠
      (OpBatch.layout (before ++ group :: after)).start ((slotsOf before).length + 1) :=
  Nat.ne_of_lt (occupied_first few)

/-- The slot of an immediate is empty. -/
theorem start_immediate_eq {offset : Nat} {value : Felt}
    (found : (immediates group.raw)[offset]? = some value) :
    (OpBatch.layout (before ++ group :: after)).start ((slotsOf before).length + 1 + offset) =
      (OpBatch.layout (before ++ group :: after)).start
        ((slotsOf before).length + 1 + offset + 1) := by
  have length := length_slots_le before group after
  have inside := (List.getElem?_eq_some_iff.mp found).1
  rw [OpGroup.length_slots] at length
  rw [OpBatch.layout, start_ofSlots (by omega), start_ofSlots (by omega),
    opsBefore_succ (getElem?_immediate before group after found)]
  rfl

theorem groupOps_first :
    (OpBatch.layout (before ++ group :: after)).groupOps (slotsOf before).length = group.ops :=
  groupOps_ofSlots (first_lt few) (getElem?_first before group after)

theorem opsAt_first : opsAt (OpBatch.layout (before ++ group :: after)).ops
    (OpBatch.layout (before ++ group :: after)).start (slotsOf before).length = group.ops :=
  groupOps_first few

theorem immediatesAt_first : immediatesAt (OpBatch.layout (before ++ group :: after)).ops
    (OpBatch.layout (before ++ group :: after)).start (slotsOf before).length =
      immediates group.raw := by
  rw [immediatesAt, opsAt_first few, immediates_ops]

theorem committed_first :
    (OpBatch.layout (before ++ group :: after)).committed (slotsOf before).length =
      Felt.new (groupValue group.raw) :=
  committed_ofSlots (first_lt few) (getElem?_first before group after)

theorem committed_immediate {offset : Nat} {value : Felt}
    (found : (immediates group.raw)[offset]? = some value) :
    (OpBatch.layout (before ++ group :: after)).committed ((slotsOf before).length + 1 + offset) =
      value := by
  have inside := immediate_lt before group after found
  exact committed_ofSlots (by omega) (getElem?_immediate before group after found)

end InBatch

theorem committed_behind {slots : List Slot} {index : Nat} (behind : slots.length ≤ index) :
    (OpBatch.ofSlots slots).committed index = 0 := by
  rw [OpBatch.committed, OpBatch.ofSlots, List.getD_eq_getElem?_getD]
  by_cases bounded : index < batchSize
  · rw [List.getElem?_eq_getElem (by simpa using bounded)]
    simp [valueAt, List.getElem?_eq_none behind]
  · rw [List.getElem?_eq_none (by simpa using Nat.le_of_not_lt bounded)]
    rfl

theorem layout_monotone (groups : List OpGroup) (index : Nat) (inside : index < batchSize) :
    (OpBatch.layout groups).start index ≤ (OpBatch.layout groups).start (index + 1) := by
  rw [OpBatch.layout, start_ofSlots (by omega), start_ofSlots (by omega)]
  exact opsBefore_le_succ _ _

theorem layout_size (groups : List OpGroup) (index : Nat) (inside : index < batchSize) :
    (OpBatch.layout groups).start (index + 1) - (OpBatch.layout groups).start index ≤
      groupSize := by
  rw [OpBatch.layout, start_ofSlots (by omega), start_ofSlots (by omega)]
  by_cases filled : index < (slotsOf groups).length
  · have slot := List.getElem?_eq_getElem filled
    have short := length_ops_le (List.mem_of_getElem? slot)
    rw [opsBefore_succ slot]
    omega
  · rw [opsBefore_eq_of_le (by omega), opsBefore_eq_of_le (by omega), Nat.sub_self]
    exact Nat.zero_le _

section Layout

variable {groups : List OpGroup} (few : (slotsOf groups).length ≤ batchSize)

include few

theorem occupied_cases {index : Nat} (inside : index < batchSize)
    (occupied : Occupied (OpBatch.layout groups).start index) :
    ∃ before group after, groups = before ++ group :: after ∧
      index = (slotsOf before).length := by
  by_cases filled : index < (slotsOf groups).length
  · rcases slot_cases filled with first | ⟨before, group, after, offset, value, rfl, found, rfl⟩
    · exact first
    · exact absurd (start_immediate_eq few found) (Nat.ne_of_lt occupied)
  · rw [Occupied, OpBatch.layout, start_ofSlots (by omega), start_ofSlots (by omega),
      opsBefore_eq_of_le (by omega), opsBefore_eq_of_le (by omega)] at occupied
    exact absurd occupied (Nat.lt_irrefl _)

theorem layout_commits :
    Commits (OpBatch.layout groups).ops (OpBatch.layout groups).start batchSize
      (OpBatch.layout groups).committed (OpBatch.layout groups).numGroups where
  free := by
    intro index inside occupied offset bounded
    obtain ⟨before, group, after, rfl, rfl⟩ := occupied_cases few inside occupied
    rw [immediatesAt_first few] at bounded
    have found := List.getElem?_eq_getElem bounded
    have behind := immediate_lt before group after found
    exact ⟨by omega, start_immediate_eq few found⟩
  group := by
    intro index inside occupied
    obtain ⟨before, group, after, rfl, rfl⟩ := occupied_cases few inside occupied
    rw [committed_first few, opsAt_first few, groupValue_ops]
  immediate := by
    intro index inside occupied offset value found
    obtain ⟨before, group, after, rfl, rfl⟩ := occupied_cases few inside occupied
    rw [immediatesAt_first few] at found
    exact committed_immediate few found
  zero := by
    intro slot noGroup noImmediate
    by_cases filled : slot < (slotsOf groups).length
    · rcases slot_cases filled with ⟨before, group, after, rfl, rfl⟩ |
        ⟨before, group, after, offset, value, rfl, found, rfl⟩
      · exact absurd (occupied_first few) (noGroup (by omega))
      · have bounded := (List.getElem?_eq_some_iff.mp found).1
        rw [← immediatesAt_first few] at bounded
        exact absurd rfl (noImmediate _ (first_lt few) (occupied_first few) offset bounded)
    · exact committed_behind (Nat.le_of_not_lt filled)
  last := by
    rcases List.eq_nil_or_concat groups with rfl | ⟨before, group, rfl⟩
    · refine .inl ⟨rfl, fun index inside occupied => ?_⟩
      obtain ⟨before, group, after, split, _⟩ := occupied_cases few inside occupied
      simp at split
    · rw [List.concat_eq_append] at *
      have length : (OpBatch.layout (before ++ [group])).numGroups =
          (slotsOf before).length + group.slots.length := by
        show (slotsOf (before ++ [group])).length = _
        rw [slotsOf_append, List.length_append, slotsOf_singleton]
      refine .inr ⟨(slotsOf before).length, first_lt few, occupied_first few, ?_, ?_⟩
      · intro later inside behind occupied
        by_cases filled : later < (OpBatch.layout (before ++ [group])).numGroups
        · rw [length, OpGroup.length_slots] at filled
          have found : (immediates group.raw)[later - ((slotsOf before).length + 1)]? = some _ :=
            List.getElem?_eq_getElem (by omega)
          have isEmpty := start_immediate_eq few found
          rw [show (slotsOf before).length + 1 + (later - ((slotsOf before).length + 1)) = later by
            omega] at isEmpty
          exact absurd isEmpty (Nat.ne_of_lt occupied)
        · obtain ⟨earlier, found, after, split, rfl⟩ := occupied_cases few inside occupied
          have within := length_slots_le earlier found after
          rw [← split, OpGroup.length_slots] at within
          exact filled (Nat.lt_of_lt_of_le (by omega) within)
      · rw [length, immediatesAt_first few, OpGroup.length_slots]
        omega

theorem layout_validatePaddingSemantics :
    (OpBatch.layout groups).validatePaddingSemantics = .ok () := by
  have numGroups : (OpBatch.layout groups).numGroups = (slotsOf groups).length := rfl
  simp only [OpBatch.validatePaddingSemantics, numGroups]
  rw [require_eq_ok few]
  apply forM_slots_eq_ok
  · rintro before group after rfl
    have inside := first_lt few
    have first := getElem?_first before group after
    have flag : (OpBatch.layout (before ++ group :: after)).isPaddedAt (slotsOf before).length =
      isPadded group.raw := isPaddedAt_ofSlots inside first
    by_cases padded : isPadded group.raw
    · have last : (OpBatch.layout (before ++ group :: after)).ops[
          (OpBatch.layout (before ++ group :: after)).start ((slotsOf before).length + 1) - 1]? =
            some .noop := by
        rw [OpBatch.layout, start_ofSlots (by omega)]
        exact getElem?_last_op first (if_pos padded)
      rw [flag, if_pos padded, require_eq_ok (start_first_ne few), require_eq_ok, last]
      · rfl
      · rw [OpBatch.layout, start_ofSlots (by omega), start_ofSlots (by omega)]
        exact opsBefore_le_succ _ _
    · rw [flag, if_neg padded]
  · rintro before group after offset value rfl isValue
    have length := length_slots_le before group after
    have inside := (List.getElem?_eq_some_iff.mp isValue).1
    rw [OpGroup.length_slots] at length
    have flag : (OpBatch.layout (before ++ group :: after)).isPaddedAt
        ((slotsOf before).length + 1 + offset) = false :=
      isPaddedAt_ofSlots (by omega) (getElem?_immediate before group after isValue)
    rw [flag]
    rfl

theorem layout_wellFormed : (OpBatch.layout groups).WellFormed where
  zero := start_ofSlots (Nat.zero_le _)
  monotone := layout_monotone groups
  size := layout_size groups
  total := by
    rw [OpBatch.layout, start_ofSlots (Nat.le_refl _), opsBefore_eq_of_le few]
    rfl
  commits := layout_commits few
  padding := layout_validatePaddingSemantics few

end Layout

/-- The batches of a block, all within the arrays. -/
def Fits (packing : List (List OpGroup)) : Prop :=
  ∀ groups ∈ packing, (slotsOf groups).length ≤ batchSize

theorem Fits.wellFormed {packing : List (List OpGroup)} (fits : Fits packing) :
    ∀ batch ∈ packing.map OpBatch.layout, batch.WellFormed := by
  intro batch inside
  obtain ⟨groups, member, rfl⟩ := List.mem_map.mp inside
  exact layout_wellFormed (fits groups member)

/-! ### The checks on the whole block -/

theorem eachBatch_layout {packing : List (List OpGroup)}
    {check : OpBatch → Nat → Except String Unit}
    (passes : ∀ groups batchIdx, packing[batchIdx]? = some groups →
      check (.layout groups) batchIdx = .ok ()) :
    eachBatch check (packing.map OpBatch.layout) = .ok () := by
  apply eachBatch_eq_ok
  intro batch batchIdx found
  rw [List.getElem?_map] at found
  obtain ⟨groups, isGroups, rfl⟩ := Option.map_eq_some_iff.mp found
  exact passes groups batchIdx isGroups

theorem validatePowerOfTwoGroups_eq_ok {packing : List (List OpGroup)}
    (full : FullBatches packing) :
    validatePowerOfTwoGroups (packing.map OpBatch.layout) = .ok () := by
  apply eachBatch_layout
  intro groups batchIdx found
  dsimp only
  split
  · next notLast =>
      rw [List.length_map] at notLast
      apply require_eq_ok
      apply full.full
      rw [List.mem_iff_getElem?]
      refine ⟨batchIdx, ?_⟩
      rw [List.getElem?_dropLast, if_pos (by omega), found]
  · next isLast =>
      rw [List.length_map] at isLast
      have inside := (List.getElem?_eq_some_iff.mp found).1
      have last : packing.getLast? = some groups := by
        rw [List.getLast?_eq_getElem?, ← found]
        congr 1
        omega
      obtain ⟨exponent, _, length⟩ := full.powerOfTwo groups last
      apply require_eq_ok
      show isPowerOfTwo (slotsOf groups).length
      rw [length]
      simp [isPowerOfTwo, nextPowerOfTwo, Nat.clog_pow]

/-- A group never ends in an operation with an immediate. -/
theorem getLast?_ops_plain (group : OpGroup) :
    group.ops.getLast?.all (·.immValue.isNone) := by
  unfold OpGroup.ops
  split
  · simp [CoreOperation.immValue]
  · next plain =>
      rw [isPadded, Bool.or_eq_true, not_or] at plain
      cases last : group.raw.getLast? with
      | none => rfl
      | some operation =>
          rw [last] at plain
          simpa using plain.2

theorem validateNoImmediateEndings_eq_ok {packing : List (List OpGroup)} (fits : Fits packing) :
    validateNoImmediateEndings (packing.map OpBatch.layout) = .ok () := by
  apply eachBatch_layout
  intro groups batchIdx found
  have few := fits groups (List.mem_of_getElem? found)
  apply forM_slots_eq_ok
  · rintro before group after rfl
    rw [if_neg (start_first_ne few)]
    split
    · next isLast =>
        -- There is no slot left for an immediate of the last group.
        have length := length_slots_le before group after
        have none : immediates group.ops = [] := by
          have last : (slotsOf before).length =
            (slotsOf (before ++ group :: after)).length - 1 := isLast
          rw [OpGroup.length_slots] at length
          rw [immediates_ops]
          exact List.eq_nil_of_length_eq_zero (by omega)
        apply forM_eq_ok
        rintro ⟨operation, opIdx⟩ inside
        apply require_eq_ok
        rw [groupOps_first few] at inside
        have member := List.mem_of_getElem? (List.mk_mem_zipIdx_iff_getElem?.mp inside)
        exact Option.isNone_iff_eq_none.mpr (List.filterMap_eq_nil_iff.mp none operation member)
    · apply require_eq_ok
      rw [groupOps_first few]
      exact getLast?_ops_plain group
  · rintro before group after offset value rfl isValue
    rw [if_pos (start_immediate_eq few isValue)]

theorem FullBatches.fits {packing : List (List OpGroup)} (full : FullBatches packing) :
    Fits packing := by
  intro groups inside
  rcases List.eq_nil_or_concat packing with rfl | ⟨others, last, rfl⟩
  · exact absurd inside List.not_mem_nil
  · rw [List.concat_eq_append] at *
    rcases List.mem_append.mp inside with earlier | final
    · have length := full.full groups (by rwa [List.dropLast_concat])
      omega
    · obtain rfl := List.mem_singleton.mp final
      obtain ⟨exponent, le, length⟩ := full.powerOfTwo groups (List.getLast?_concat ..)
      rw [length]
      exact Nat.pow_le_pow_right (by decide) le

theorem rawOps_packing {packing : List (List OpGroup)} (fits : Fits packing) :
    (packing.map OpBatch.layout).flatMap OpBatch.rawOps = packing.flatten.flatMap OpGroup.raw := by
  induction packing with
  | nil => rfl
  | cons groups rest inductionHypothesis =>
      rw [List.map_cons, List.flatMap_cons, rawOps_layout (fits groups List.mem_cons_self),
        inductionHypothesis fun other inside => fits other (List.mem_cons_of_mem _ inside),
        List.flatten_cons, List.flatMap_append]

/-- Batching a block loses nothing and invents nothing: `batch_ops` never panics, the
operations of its batches without their padding are the block, and the validation that
deserialized blocks have to pass accepts them. -/
theorem batchOps_sound (ops : List CoreOperation) :
    ∃ batches, batchOps ops = some batches ∧ batches.flatMap OpBatch.rawOps = ops ∧
      validateBatchInvariants batches = .ok () := by
  obtain ⟨packing, batched, raw, full⟩ := batchOps_eq ops
  refine ⟨_, batched, ?_, ?_⟩
  · rw [← raw, rawOps_packing full.fits]
  · rw [validateBatchInvariants, validatePowerOfTwoGroups_eq_ok full,
      validateBatchStructure_eq_ok full.fits.wellFormed, validateNoImmediateEndings_eq_ok full.fits,
      validateImmediateCommitment_eq_ok full.fits.wellFormed,
      validatePaddingSemantics_eq_ok full.fits.wellFormed]
    rfl

end MidenWorkspace.Vm
