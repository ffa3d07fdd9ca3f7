import MidenWorkspace.Vm.BasicBlockData

/-!
Contract: blocks through the data section of a forest and back.

Owns that the decoder accepts well formed batches only, that it returns each block of the
data section as it was encoded, and that what it accepts passes validation as far as that
looks at single batches.
-/

namespace MidenWorkspace.Vm

open MidenWorkspace.Library MidenWorkspace.Library.Structured
open MidenWorkspace.Library.Simulation OpBatchAccumulator

/-! ### Groups -/

theorem highestOpGroup_spec (indptr : Nat → Nat) (count : Nat) :
    highestOpGroup indptr count ≤ max count 1 ∧
      ∀ index, highestOpGroup indptr count ≤ index → index < count →
        ¬ Occupied indptr index := by
  induction count with
  | zero => exact ⟨Nat.le_refl _, fun _ _ below => absurd below (Nat.not_lt_zero _)⟩
  | succ count inductionHypothesis =>
      rw [highestOpGroup]
      split
      · exact ⟨Nat.le_max_left .., fun _ lower below => absurd below (by omega)⟩
      · next isEmpty =>
          refine ⟨by omega, fun index lower below => ?_⟩
          rcases Nat.lt_succ_iff_lt_or_eq.mp below with before | rfl
          · exact inductionHypothesis.2 index lower before
          · exact isEmpty

/-- Placing values one after the other. -/
theorem entryAt_place (values : List Felt) (groups : Vector Felt batchSize) (start : Nat)
    (inside : start + values.length ≤ batchSize) (slot : Nat) :
    entryAt 0 (placeImmediates ((values.zipIdx start).map Prod.swap) groups) slot =
      if start ≤ slot ∧ slot < start + values.length then values.getD (slot - start) 0
      else entryAt 0 groups slot := by
  induction values generalizing groups start with
  | nil => rw [if_neg (by rw [List.length_nil]; omega)]; rfl
  | cons value rest inductionHypothesis =>
      rw [List.length_cons] at inside
      rw [List.zipIdx_cons, List.map_cons, placeImmediates, List.foldl_cons, ← placeImmediates,
        inductionHypothesis _ (start + 1) (by omega)]
      rw [Prod.swap_prod_mk]
      dsimp only
      rw [entryAt_set 0 groups (by omega), List.length_cons]
      by_cases here : slot = start
      · subst here
        rw [if_neg (by omega), if_pos rfl, if_pos (by omega), Nat.sub_self]
        rfl
      · by_cases later : start + 1 ≤ slot ∧ slot < start + 1 + rest.length
        · rw [if_pos later, if_pos (by omega), show slot - start = slot - (start + 1) + 1 by omega,
            List.getD_cons_succ]
        · rw [if_neg later, if_neg here, if_neg (by omega)]

theorem rebuildGroups_spec {ops : List CoreOperation} {indptr : Nat → Nat} (count start : Nat)
    {groups : Vector Felt batchSize} {next : Nat} (inside : start + count ≤ batchSize)
    (commits : Commits ops indptr start (entryAt 0 groups) next) :
    (∀ rebuilt numGroups, rebuildGroups ops indptr (List.range' start count) groups next =
      .ok (rebuilt, numGroups) →
        Commits ops indptr (start + count) (entryAt 0 rebuilt) numGroups) ∧
    ((∀ index < start + count, Occupied indptr index → Free ops indptr index) →
      ∃ rebuilt numGroups, rebuildGroups ops indptr (List.range' start count) groups next =
        .ok (rebuilt, numGroups)) := by
  induction count generalizing start groups next with
  | zero =>
      refine ⟨fun rebuilt numGroups isOk => ?_, fun _ => ⟨groups, next, rfl⟩⟩
      obtain ⟨rfl, rfl⟩ := Prod.mk.inj (Except.ok.inj isOk)
      exact commits
  | succ count inductionHypothesis =>
      rw [List.range'_succ, rebuildGroups]
      by_cases occupied : indptr start < indptr (start + 1)
      · rw [if_pos occupied]
        dsimp only
        cases collected : collectImmediatePlacements ops indptr start batchSize none with
        | error message =>
            refine ⟨fun _ _ => nofun, fun free => ?_⟩
            have placed := (free start (by omega) occupied).collect_eq fun _ _ => Option.all_none
            exact absurd (collected.symm.trans placed) nofun
        | ok placed =>
            have free : Free ops indptr start := free_of_collectPlacements collected
            have few := free.le (by omega)
            obtain rfl := Except.ok.inj
              (collected.symm.trans (free.collect_eq fun _ _ => Option.all_none))
            have after := @inductionHypothesis (start + 1)
            rw [show start + 1 + count = start + (count + 1) by omega] at after
            apply after inside
            apply commits.place occupied free
            · rw [entryAt_place _ _ _ few, if_neg (by omega), entryAt_set 0 groups (by omega),
                if_pos rfl]
              rfl
            · intro offset value found
              have bounded := (List.getElem?_eq_some_iff.mp found).1
              rw [entryAt_place _ _ _ few, if_pos (by omega), Nat.add_sub_cancel_left,
                List.getD_eq_getElem?_getD, found]
              rfl
            · intro slot notHere notImmediate
              rw [entryAt_place _ _ _ few, if_neg, entryAt_set 0 groups (by omega), if_neg notHere]
              rintro ⟨lower, below⟩
              exact notImmediate (slot - (start + 1)) (by omega) (by omega)
      · rw [if_neg occupied]
        have next := @inductionHypothesis (start + 1) groups next
        rw [show start + 1 + count = start + (count + 1) by omega] at next
        exact next inside (commits.skip occupied)

/-! ### Batches -/

theorem Unpacked.eq_of_isEmpty {indptr : Vector Nat (batchSize + 1)} (unpacked : Unpacked indptr)
    {first last : Nat} (le : first ≤ last) (inside : last ≤ batchSize)
    (isEmpty : ∀ index, first ≤ index → index < batchSize → ¬ Occupied (entryAt 0 indptr) index) :
    entryAt 0 indptr first = entryAt 0 indptr last := by
  induction last, le using Nat.le_induction with
  | base => rfl
  | succ last le inductionHypothesis =>
      have same := isEmpty last le inside
      have increases := unpacked.monotone last inside
      unfold Occupied at same
      have := inductionHypothesis (by omega)
      omega

theorem batchNumOps_eq {indptr : Vector Nat (batchSize + 1)} (unpacked : Unpacked indptr) :
    batchNumOps indptr = entryAt 0 indptr batchSize := by
  obtain ⟨le, isEmpty⟩ := highestOpGroup_spec (entryAt 0 indptr) batchSize
  exact unpacked.eq_of_isEmpty le (Nat.le_refl _) isEmpty

/-- The groups of a batch, rebuilt up to the highest one. -/
theorem rebuildGroups_batch (ops : List CoreOperation) (indptr : Vector Nat (batchSize + 1)) :
    (∀ groups numGroups, rebuildGroups ops (entryAt 0 indptr)
        (List.range (highestOpGroup (entryAt 0 indptr) batchSize)) (.replicate _ 0) 0 =
          .ok (groups, numGroups) →
      Commits ops (entryAt 0 indptr) batchSize (entryAt 0 groups) numGroups) ∧
    ((∀ index < batchSize, Occupied (entryAt 0 indptr) index → Free ops (entryAt 0 indptr) index) →
      ∃ groups numGroups, rebuildGroups ops (entryAt 0 indptr)
        (List.range (highestOpGroup (entryAt 0 indptr) batchSize)) (.replicate _ 0) 0 =
          .ok (groups, numGroups)) := by
  obtain ⟨le, isEmpty⟩ := highestOpGroup_spec (entryAt 0 indptr) batchSize
  have few : highestOpGroup (entryAt 0 indptr) batchSize ≤ batchSize := le
  have zeros : entryAt (0 : Felt) (.replicate batchSize 0) = fun _ => 0 := by
    funext index
    rw [entryAt, List.getD_eq_getElem?_getD, Vector.toList_replicate, List.getElem?_replicate]
    split <;> rfl
  have start : Commits ops (entryAt 0 indptr) 0 (entryAt 0 (.replicate batchSize 0)) 0 := by
    rw [zeros]
    exact .none
  have spec := rebuildGroups_spec (highestOpGroup (entryAt 0 indptr) batchSize) 0 (by omega) start
  rw [Nat.zero_add, ← List.range_eq_range'] at spec
  refine ⟨fun groups numGroups isOk => (spec.1 groups numGroups isOk).skipTo isEmpty few, ?_⟩
  exact fun free => spec.2 fun index inside => free index (by omega)

theorem wellFormed_of_decodeBatch {operations : List CoreOperation} {globalOpOffset batchIdx : Nat}
    {indptr : Vector Nat (batchSize + 1)} {padding : Vector Bool batchSize} {batch : OpBatch}
    (unpacked : Unpacked indptr)
    (result : decodeBatch operations globalOpOffset batchIdx indptr padding = .ok batch) :
    batch.WellFormed := by
  rw [decodeBatch] at result
  dsimp only at result
  split at result
  · cases result
  · next inside =>
      obtain ⟨⟨groups, numGroups⟩, rebuilt, result⟩ := bind_eq_ok_iff.mp result
      dsimp only at result
      split at result
      · cases result
      · next passed =>
          obtain rfl := Except.ok.inj result
          refine ⟨unpacked.zero, unpacked.monotone, unpacked.size, ?_,
            (rebuildGroups_batch _ indptr).1 _ _ rebuilt, passed⟩
          show entryAt 0 indptr batchSize = _
          rw [← batchNumOps_eq unpacked, slice, List.length_take, List.length_drop]
          omega

theorem OpBatch.WellFormed.unpacked {batch : OpBatch} (wellFormed : batch.WellFormed) :
    Unpacked batch.indptr :=
  ⟨wellFormed.zero, wellFormed.monotone, wellFormed.size⟩

theorem OpBatch.WellFormed.batchNumOps_eq {batch : OpBatch} (wellFormed : batch.WellFormed) :
    batchNumOps batch.indptr = batch.ops.length :=
  (Vm.batchNumOps_eq wellFormed.unpacked).trans wellFormed.total

theorem decodeBatch_eq {batch : OpBatch} (wellFormed : batch.WellFormed)
    (before after : List CoreOperation) (batchIdx : Nat) :
    decodeBatch (before ++ (batch.ops ++ after)) before.length batchIdx batch.indptr
      batch.padding = .ok batch := by
  have ops : slice (before ++ (batch.ops ++ after)) before.length
      (before.length + batchNumOps batch.indptr) = batch.ops := by
    rw [slice, List.drop_left, Nat.add_sub_cancel_left, wellFormed.batchNumOps_eq, List.take_left]
  obtain ⟨groups, numGroups, rebuilt⟩ := (rebuildGroups_batch batch.ops batch.indptr).2
    wellFormed.commits.free
  have same : batch = { batch with groups, numGroups } :=
    OpBatch.eq_of_commits wellFormed.commits ((rebuildGroups_batch _ _).1 _ _ rebuilt) rfl rfl rfl
  rw [decodeBatch]
  dsimp only
  rw [if_neg (by simp [wellFormed.batchNumOps_eq]), ops, rebuilt]
  rw [ok_bind]
  dsimp only
  rw [← same, wellFormed.padding]
  rfl

theorem decodeBatches_eq {batches : List OpBatch}
    (wellFormed : ∀ batch ∈ batches, batch.WellFormed) (before : List CoreOperation)
    (batchIdx : Nat) :
    decodeBatches (before ++ batches.flatMap OpBatch.ops)
      ((batches.map OpBatch.indptr).zip (batches.map OpBatch.padding)) batchIdx before.length =
        .ok batches := by
  induction batches generalizing before batchIdx with
  | nil => rfl
  | cons batch rest inductionHypothesis =>
      have formed := wellFormed batch List.mem_cons_self
      have further := inductionHypothesis
        (fun other inside => wellFormed other (List.mem_cons_of_mem _ inside))
        (before ++ batch.ops) (batchIdx + 1)
      rw [List.append_assoc, List.length_append] at further
      rw [List.map_cons, List.map_cons, List.zip_cons_cons, List.flatMap_cons, decodeBatches,
        decodeBatch_eq formed, formed.batchNumOps_eq]
      show (decodeBatches _ _ _ _ >>= _) = _
      rw [further]
      rfl

theorem wellFormed_of_decodeBatches {operations : List CoreOperation}
    {metadata : List (Vector Nat (batchSize + 1) × Vector Bool batchSize)} {batchIdx offset : Nat}
    {batches : List OpBatch} (unpacked : ∀ entry ∈ metadata, Unpacked entry.1)
    (result : decodeBatches operations metadata batchIdx offset = .ok batches) :
    ∀ batch ∈ batches, batch.WellFormed := by
  induction metadata generalizing batchIdx offset batches with
  | nil =>
      obtain rfl := Except.ok.inj result
      exact fun _ => nofun
  | cons entry rest inductionHypothesis =>
      obtain ⟨batch, first, result⟩ := bind_eq_ok_iff.mp result
      obtain ⟨others, further, result⟩ := bind_eq_ok_iff.mp result
      obtain rfl := Except.ok.inj result
      intro other member
      rcases List.mem_cons.mp member with rfl | later
      · exact wellFormed_of_decodeBatch (unpacked entry List.mem_cons_self) first
      · exact inductionHypothesis
          (fun entry inside => unpacked entry (List.mem_cons_of_mem _ inside)) further other later

/-! ### Blocks -/

section Forest

variable (wire : Wire)

/-- What is decoded is well formed. -/
theorem wellFormed_of_decodeOperations {nodeData : List UInt8} {opsOffset : Nat}
    {batches : List OpBatch} (result : decodeOperations wire nodeData opsOffset = .ok batches) :
    ∀ batch ∈ batches, batch.WellFormed := by
  rw [decodeOperations] at result
  split at result
  · cases result
  · obtain ⟨⟨operations, afterOps⟩, _, result⟩ := bind_eq_ok_iff.mp result
    obtain ⟨⟨numBatches, afterCount⟩, _, result⟩ := bind_eq_ok_iff.mp result
    dsimp only at result
    split at result
    · cases result
    · obtain ⟨⟨indptrs, afterIndptrs⟩, isIndptrs, result⟩ := bind_eq_ok_iff.mp result
      obtain ⟨⟨paddings, _⟩, _, result⟩ := bind_eq_ok_iff.mp result
      refine wellFormed_of_decodeBatches (fun entry inside => ?_) result
      refine forall_of_readMany (fun bytes indptr rest isIndptr => ?_) isIndptrs entry.1
        (List.of_mem_zip inside).1
      obtain ⟨⟨packed, _⟩, _, isIndptr⟩ := bind_eq_ok_iff.mp isIndptr
      obtain ⟨unpacked, isUnpacked, isIndptr⟩ := bind_eq_ok_iff.mp isIndptr
      obtain ⟨rfl, _⟩ := Prod.mk.inj (Except.ok.inj isIndptr)
      exact unpacked_of_unpackIndptrDeltas isUnpacked

/-- The bytes of a block. -/
def blockBytes (batches : List OpBatch) : List UInt8 := (encodeBasicBlock wire [] batches).1

theorem encodeBasicBlock_eq (nodeData : List UInt8) (batches : List OpBatch) :
    encodeBasicBlock wire nodeData batches =
      (nodeData ++ blockBytes wire batches, nodeData.length % 2 ^ 32) := by
  simp only [blockBytes, encodeBasicBlock, List.append_assoc, List.nil_append]

theorem length_le_writeInto (operations : List CoreOperation) :
    operations.length ≤ (operations.flatMap (CoreOperation.writeInto wire)).length := by
  induction operations with
  | nil => exact Nat.zero_le _
  | cons operation rest inductionHypothesis =>
      rw [List.flatMap_cons, List.length_append, List.length_cons, CoreOperation.writeInto,
        List.length_cons]
      omega

theorem length_metadata (batches : List OpBatch) :
    (batches.flatMap fun batch => packIndptrDeltas batch.indptr).length = 4 * batches.length := by
  induction batches with
  | nil => rfl
  | cons batch rest inductionHypothesis =>
      rw [List.flatMap_cons, List.length_append, inductionHypothesis, length_packIndptrDeltas,
        List.length_cons]
      omega

theorem readMany_readIndptr {batches : List OpBatch}
    (wellFormed : ∀ batch ∈ batches, batch.WellFormed) (rest : List UInt8) :
    readMany readIndptr batches.length
      (batches.flatMap (fun batch => packIndptrDeltas batch.indptr) ++ rest) =
        .ok (batches.map OpBatch.indptr, rest) := by
  have written : readMany readIndptr (batches.map OpBatch.indptr).length
      ((batches.map OpBatch.indptr).flatMap packIndptrDeltas ++ rest) = _ :=
    readMany_write (fun indptr inside rest => by
      obtain ⟨batch, member, rfl⟩ := List.mem_map.mp inside
      exact readIndptr_pack (wellFormed batch member).unpacked rest) rest
  rwa [List.length_map, List.flatMap_map] at written

theorem readMany_readPadding (batches : List OpBatch) (rest : List UInt8) :
    readMany readPadding batches.length
      ((batches.map fun batch => packPadding batch.padding) ++ rest) =
        .ok (batches.map OpBatch.padding, rest) := by
  have written : readMany readPadding (batches.map OpBatch.padding).length
      ((batches.map OpBatch.padding).flatMap (fun padding => [packPadding padding]) ++ rest) = _ :=
    readMany_write (fun padding _ => readPadding_pack padding) rest
  rwa [List.length_map, List.flatMap_map, ← List.map_eq_flatMap] at written

/-- A well formed block is read back from where it begins, whatever follows it. -/
theorem decodeOperations_eq {batches : List OpBatch}
    (wellFormed : ∀ batch ∈ batches, batch.WellFormed) (before after : List UInt8)
    (small : (blockBytes wire batches).length < 2 ^ 32) :
    decodeOperations wire (before ++ (blockBytes wire batches ++ after)) before.length =
      .ok batches := by
  have size : (wire.usize.write (batches.flatMap OpBatch.ops).length).length +
      ((batches.flatMap OpBatch.ops).flatMap (CoreOperation.writeInto wire)).length +
      (wire.u32.write (batches.length % 2 ^ 32)).length + 4 * batches.length + batches.length <
        2 ^ 32 := by
    rw [← length_metadata batches]
    simpa [blockBytes, encodeBasicBlock, Nat.add_assoc] using small
  have fewOps := length_le_writeInto wire (batches.flatMap OpBatch.ops)
  have few : batches.length < 2 ^ 32 := by omega
  have enough : batches.length ≤ ((batches.flatMap fun batch => packIndptrDeltas batch.indptr) ++
      ((batches.map fun batch => packPadding batch.padding) ++ after)).length /
        batchMetadataBytesPerBatch := by
    rw [Nat.le_div_iff_mul_le (by decide), List.length_append, List.length_append, List.length_map,
      length_metadata, batchMetadataBytesPerBatch]
    omega
  have bytes : blockBytes wire batches ++ after =
      (wire.usize.write (batches.flatMap OpBatch.ops).length ++
        (batches.flatMap OpBatch.ops).flatMap (CoreOperation.writeInto wire)) ++
      (wire.u32.write batches.length ++
      ((batches.flatMap fun batch => packIndptrDeltas batch.indptr) ++
        ((batches.map fun batch => packPadding batch.padding) ++ after))) := by
    simp only [blockBytes, encodeBasicBlock, List.append_assoc, List.nil_append,
      Nat.mod_eq_of_lt few]
  rw [decodeOperations, if_neg (by rw [List.length_append]; omega), List.drop_left, bytes,
    readOperations_write wire (by omega), ok_bind]
  dsimp only
  rw [wire.u32.read_write _ (wire.u32_admissible _ few), ok_bind]
  dsimp only
  rw [if_neg (by omega), readMany_readIndptr wellFormed, ok_bind]
  dsimp only
  rw [readMany_readPadding, ok_bind]
  exact decodeBatches_eq wellFormed [] 0

/-- The blocks that a forest holds: batched here, or decoded before. -/
def Held (batches : List OpBatch) : Prop :=
  (∃ ops, batchOps ops = some batches) ∨
    ∃ nodeData opsOffset, decodeOperations wire nodeData opsOffset = .ok batches

theorem Held.wellFormed {batches : List OpBatch} (held : Held wire batches) :
    ∀ batch ∈ batches, batch.WellFormed := by
  rcases held with ⟨ops, batched⟩ | ⟨nodeData, opsOffset, decoded⟩
  · obtain ⟨packing, found, _, full⟩ := batchOps_eq ops
    obtain rfl := Option.some.inj (batched.symm.trans found)
    exact full.fits.wellFormed
  · exact wellFormed_of_decodeOperations wire decoded

/-- The data only grows, and each block is read back from its offset. -/
theorem encodeBlocks_spec (blocks : List (List OpBatch)) (nodeData : List UInt8)
    (wellFormed : ∀ batches ∈ blocks, ∀ batch ∈ batches, batch.WellFormed)
    (small : (encodeBlocks wire blocks nodeData).1.length < 2 ^ 32) :
    nodeData <+: (encodeBlocks wire blocks nodeData).1 ∧
      (encodeBlocks wire blocks nodeData).2.map
        (decodeOperations wire (encodeBlocks wire blocks nodeData).1) = blocks.map .ok := by
  induction blocks generalizing nodeData with
  | nil => exact ⟨List.prefix_refl _, rfl⟩
  | cons batches rest inductionHypothesis =>
      have step : encodeBlocks wire (batches :: rest) nodeData =
          ((encodeBlocks wire rest (nodeData ++ blockBytes wire batches)).1,
            nodeData.length % 2 ^ 32 ::
              (encodeBlocks wire rest (nodeData ++ blockBytes wire batches)).2) := by
        rw [encodeBlocks, encodeBasicBlock_eq]
      rw [step] at small ⊢
      obtain ⟨⟨after, isExtended⟩, decoded⟩ :=
        inductionHypothesis (nodeData ++ blockBytes wire batches)
          (fun others inside => wellFormed others (List.mem_cons_of_mem _ inside)) small
      have sizes := congrArg List.length isExtended
      rw [List.length_append, List.length_append] at sizes
      refine ⟨⟨blockBytes wire batches ++ after, by rw [← List.append_assoc, isExtended]⟩, ?_⟩
      dsimp only at small ⊢
      rw [List.map_cons, List.map_cons, decoded, Nat.mod_eq_of_lt (by omega), ← isExtended,
        List.append_assoc, decodeOperations_eq wire (wellFormed batches List.mem_cons_self) _ _
          (by omega)]

end Forest

/-- Every block of the data section is decoded to what was encoded, from the offset that was
returned for it. -/
theorem blocks_round_trip (wire : Wire) {blocks : List (List OpBatch)}
    (held : ∀ batches ∈ blocks, Held wire batches)
    (small : (encodeBlocks wire blocks []).1.length < 2 ^ 32) :
    (encodeBlocks wire blocks []).2.map (decodeOperations wire (encodeBlocks wire blocks []).1) =
      blocks.map .ok :=
  (encodeBlocks_spec wire blocks [] (fun batches inside => (held batches inside).wellFormed) small).2

theorem blocks_round_trip_standard :
    ∃ first second, batchOps [.push 5, .add] = some first ∧ batchOps [.assert 3] = some second ∧
      (encodeBlocks .standard [first, second] []).2.map
        (decodeOperations .standard (encodeBlocks .standard [first, second] []).1) =
          [.ok first, .ok second] := by
  refine ⟨_, _, rfl, rfl, blocks_round_trip .standard ?_ (by decide)⟩
  intro batches inside
  rcases List.mem_cons.mp inside with rfl | inside
  · exact .inl ⟨[.push 5, .add], rfl⟩
  · obtain rfl := List.mem_singleton.mp inside
    exact .inl ⟨[.assert 3], rfl⟩

/-- Whatever the decoder accepts passes the checks that look at one batch at a time. -/
theorem decoded_passes_checks (wire : Wire) {nodeData : List UInt8} {opsOffset : Nat}
    {batches : List OpBatch} (decoded : decodeOperations wire nodeData opsOffset = .ok batches) :
    validateBatchStructure batches = .ok () ∧ validateImmediateCommitment batches = .ok () ∧
      validatePaddingSemantics batches = .ok () := by
  have wellFormed := wellFormed_of_decodeOperations wire decoded
  exact ⟨validateBatchStructure_eq_ok wellFormed, validateImmediateCommitment_eq_ok wellFormed,
    validatePaddingSemantics_eq_ok wellFormed⟩

/-- One batch with one operation. -/
theorem decoded_passes_checks_add :
    ∃ batches, decodeOperations .standard [3, 0x22, 1, 0, 0, 0, 1, 0, 0, 0, 0] 0 = .ok batches ∧
        batches.flatMap OpBatch.ops = [.add] ∧ validateImmediateCommitment batches = .ok () := by
  have decoded : decodeOperations .standard [3, 0x22, 1, 0, 0, 0, 1, 0, 0, 0, 0] 0 = .ok _ := rfl
  exact ⟨_, decoded, rfl, (decoded_passes_checks .standard decoded).2.1⟩

end MidenWorkspace.Vm
