import MidenWorkspace.Vm.Packing

/-!
Contract: what the arrays of a well formed batch say.

Owns the slots that a batch commits to, given its operations and where its groups
begin (`Commits`), that these two determine the slots, and that well formed batches pass
the checks of `validate_batch_invariants` that look at one batch at a time.
-/

namespace MidenWorkspace.Vm

open OpBatchAccumulator

/-! ### Immediates -/

theorem immediates_cons_none {operation : CoreOperation} (plain : operation.immValue = none)
    (rest : List CoreOperation) : immediates (operation :: rest) = immediates rest := by
  simp [immediates, plain]

theorem immediates_cons_some {operation : CoreOperation} {value : Felt}
    (carries : operation.immValue = some value) (rest : List CoreOperation) :
    immediates (operation :: rest) = value :: immediates rest := by
  simp [immediates, carries]

section Collect

variable {indptr : Nat → Nat} {maxGroups : Nat} {numGroups : Option Nat}

/-- Immediates that lie in empty slots are all placed, one after the other. -/
theorem collectPlacements_eq (ops : List CoreOperation) (placements : List (Nat × Felt))
    (nextGroupIdx : Nat)
    (free : ∀ offset < (immediates ops).length, nextGroupIdx + offset < maxGroups ∧
      numGroups.all (nextGroupIdx + offset < ·) ∧
      indptr (nextGroupIdx + offset) = indptr (nextGroupIdx + offset + 1)) :
    collectPlacements indptr maxGroups numGroups ops placements nextGroupIdx =
      .ok (placements ++ ((immediates ops).zipIdx nextGroupIdx).map Prod.swap,
        nextGroupIdx + (immediates ops).length) := by
  induction ops generalizing placements nextGroupIdx with
  | nil => simp [collectPlacements, immediates]
  | cons operation rest inductionHypothesis =>
      rw [collectPlacements]
      cases carries : operation.immValue with
      | none =>
          rw [immediates_cons_none carries] at free ⊢
          exact inductionHypothesis placements nextGroupIdx free
      | some value =>
          rw [immediates_cons_some carries] at free ⊢
          obtain ⟨inBatch, inGroups, isEmpty⟩ := free 0 (Nat.succ_pos _)
          rw [Nat.add_zero] at inBatch inGroups isEmpty
          have inside : ¬ numGroups.any (nextGroupIdx ≥ ·) := by
            cases numGroups with
            | none => exact Bool.false_ne_true
            | some count => simpa using inGroups
          dsimp only
          rw [if_neg (by omega), if_neg inside, if_neg (not_not.mpr isEmpty), inductionHypothesis]
          · simp only [List.zipIdx_cons, List.map_cons, Prod.swap_prod_mk, List.append_assoc,
              List.singleton_append, List.length_cons, Except.ok.injEq, Prod.mk.injEq, true_and]
            omega
          · intro offset bounded
            have later := free (offset + 1) (Nat.succ_lt_succ bounded)
            rwa [show nextGroupIdx + (offset + 1) = nextGroupIdx + 1 + offset by omega] at later

/-- Immediates are placed into empty slots only. -/
theorem free_of_collectPlacements {ops : List CoreOperation} {placements : List (Nat × Felt)}
    {nextGroupIdx : Nat} {placed : List (Nat × Felt) × Nat}
    (result : collectPlacements indptr maxGroups numGroups ops placements nextGroupIdx = .ok placed) :
    ∀ offset < (immediates ops).length, nextGroupIdx + offset < maxGroups ∧
      indptr (nextGroupIdx + offset) = indptr (nextGroupIdx + offset + 1) := by
  induction ops generalizing placements nextGroupIdx with
  | nil => exact fun offset => nofun
  | cons operation rest inductionHypothesis =>
      rw [collectPlacements] at result
      cases carries : operation.immValue with
      | none =>
          rw [carries] at result
          rw [immediates_cons_none carries]
          exact inductionHypothesis result
      | some value =>
          rw [carries] at result
          dsimp only at result
          rw [immediates_cons_some carries]
          intro offset bounded
          split at result
          · cases result
          · split at result
            · cases result
            · split at result
              · cases result
              · next inBatch _ isEmpty =>
                  cases offset with
                  | zero => exact ⟨by omega, not_not.mp isEmpty⟩
                  | succ offset =>
                      rw [show nextGroupIdx + (offset + 1) = nextGroupIdx + 1 + offset by omega]
                      exact inductionHypothesis result offset (Nat.lt_of_succ_lt_succ bounded)

end Collect

/-! ### The slots of a batch -/

section Commits

variable (ops : List CoreOperation) (indptr : Nat → Nat)

/-- The operations that begin at a slot. -/
def opsAt (index : Nat) : List CoreOperation := slice ops (indptr index) (indptr (index + 1))

/-- The values that are pushed by the operations of a slot. -/
def immediatesAt (index : Nat) : List Felt := immediates (opsAt ops indptr index)

/-- Operations begin at the slot. -/
def Occupied (index : Nat) : Prop := indptr index < indptr (index + 1)

/-- The slots after an occupied one take its immediates. -/
def Free (index : Nat) : Prop :=
  ∀ offset < (immediatesAt ops indptr index).length, index + 1 + offset < batchSize ∧
    indptr (index + 1 + offset) = indptr (index + 1 + offset + 1)

/-- The values of the slots, and the first slot behind them, for the groups that begin below
`count`. -/
structure Commits (count : Nat) (values : Nat → Felt) (next : Nat) : Prop where
  free : ∀ index < count, Occupied indptr index → Free ops indptr index
  group : ∀ index < count, Occupied indptr index →
    values index = Felt.new (groupValue (opsAt ops indptr index))
  immediate : ∀ index < count, Occupied indptr index → ∀ offset value,
    (immediatesAt ops indptr index)[offset]? = some value → values (index + 1 + offset) = value
  zero : ∀ slot, (slot < count → ¬ Occupied indptr slot) →
    (∀ index < count, Occupied indptr index →
      ∀ offset < (immediatesAt ops indptr index).length, slot ≠ index + 1 + offset) →
    values slot = 0
  last : (next = 0 ∧ ∀ index < count, ¬ Occupied indptr index) ∨
    ∃ index < count, Occupied indptr index ∧
      (∀ later < count, index < later → ¬ Occupied indptr later) ∧
      next = index + 1 + (immediatesAt ops indptr index).length

variable {ops indptr}

/-- The next occupied slot lies behind the immediates. -/
theorem Free.lt {index later : Nat} (free : Free ops indptr index)
    (occupied : Occupied indptr later) (behind : index < later) :
    index + (immediatesAt ops indptr index).length < later := by
  by_contra within
  have isEmpty := (free (later - (index + 1)) (by omega)).2
  rw [show index + 1 + (later - (index + 1)) = later by omega] at isEmpty
  exact absurd occupied (by unfold Occupied; omega)

theorem Free.le {index : Nat} (free : Free ops indptr index) (inside : index < batchSize) :
    index + 1 + (immediatesAt ops indptr index).length ≤ batchSize := by
  rcases Nat.eq_zero_or_pos (immediatesAt ops indptr index).length with none | some
  · omega
  · have := (free _ (Nat.sub_lt some Nat.one_pos)).1
    omega

/-- The placements of a group whose immediates lie in empty slots. -/
theorem Free.collect_eq {index : Nat} {numGroups : Option Nat} (free : Free ops indptr index)
    (inGroups : ∀ offset < (immediatesAt ops indptr index).length,
      numGroups.all (index + 1 + offset < ·)) :
    collectImmediatePlacements ops indptr index batchSize numGroups =
      .ok (((immediatesAt ops indptr index).zipIdx (index + 1)).map Prod.swap,
        index + 1 + (immediatesAt ops indptr index).length) :=
  collectPlacements_eq _ [] (index + 1) fun offset bounded =>
    ⟨(free offset bounded).1, inGroups offset bounded, (free offset bounded).2⟩

namespace Commits

variable {count next : Nat} {values : Nat → Felt}

theorem le_next (commits : Commits ops indptr count values next) {index : Nat}
    (inside : index < count) (occupied : Occupied indptr index) :
    index + 1 + (immediatesAt ops indptr index).length ≤ next := by
  rcases commits.last with ⟨_, none⟩ | ⟨final, _, isOccupied, isLast, rfl⟩
  · exact absurd occupied (none index inside)
  · rcases Nat.lt_trichotomy index final with before | rfl | behind
    · have := (commits.free index inside occupied).lt isOccupied before
      omega
    · exact Nat.le_refl _
    · exact absurd occupied (isLast index inside behind)

theorem next_le (commits : Commits ops indptr count values next) (few : count ≤ batchSize) :
    next ≤ batchSize := by
  rcases commits.last with ⟨rfl, _⟩ | ⟨final, inside, isOccupied, _, rfl⟩
  · exact Nat.zero_le _
  · exact (commits.free final inside isOccupied).le (by omega)

/-- The operations and where they begin determine the slots. -/
theorem unique {values' : Nat → Felt} {next' : Nat}
    (commits : Commits ops indptr count values next)
    (commits' : Commits ops indptr count values' next') : values = values' ∧ next = next' := by
  constructor
  · funext slot
    by_cases group : slot < count ∧ Occupied indptr slot
    · rw [commits.group slot group.1 group.2, commits'.group slot group.1 group.2]
    · have noGroup : slot < count → ¬ Occupied indptr slot := fun inside occupied =>
        group ⟨inside, occupied⟩
      by_cases immediate : ∃ index < count, Occupied indptr index ∧
          ∃ offset < (immediatesAt ops indptr index).length, slot = index + 1 + offset
      · obtain ⟨index, inside, occupied, offset, bounded, rfl⟩ := immediate
        have found := List.getElem?_eq_getElem bounded
        rw [commits.immediate index inside occupied offset _ found,
          commits'.immediate index inside occupied offset _ found]
      · have noImmediate : ∀ index < count, Occupied indptr index →
            ∀ offset < (immediatesAt ops indptr index).length, slot ≠ index + 1 + offset :=
          fun index inside occupied offset bounded same =>
            immediate ⟨index, inside, occupied, offset, bounded, same⟩
        rw [commits.zero slot noGroup noImmediate, commits'.zero slot noGroup noImmediate]
  · rcases commits.last with ⟨rfl, none⟩ | ⟨final, inside, occupied, isLast, rfl⟩ <;>
      rcases commits'.last with ⟨rfl, none'⟩ | ⟨final', inside', occupied', isLast', rfl⟩
    · rfl
    · exact absurd occupied' (none final' inside')
    · exact absurd occupied (none' final inside)
    · rcases Nat.lt_trichotomy final final' with before | rfl | behind
      · exact absurd occupied' (isLast final' inside' before)
      · rfl
      · exact absurd occupied (isLast' final inside behind)

theorem none : Commits ops indptr 0 (fun _ => 0) 0 where
  free _ inside := absurd inside (Nat.not_lt_zero _)
  group _ inside := absurd inside (Nat.not_lt_zero _)
  immediate _ inside := absurd inside (Nat.not_lt_zero _)
  zero _ _ _ := rfl
  last := .inl ⟨rfl, fun _ inside => absurd inside (Nat.not_lt_zero _)⟩

theorem skip (commits : Commits ops indptr count values next) (isEmpty : ¬ Occupied indptr count) :
    Commits ops indptr (count + 1) values next := by
  have below {index : Nat} (inside : index < count + 1) (occupied : Occupied indptr index) :
      index < count := by
    rcases Nat.lt_succ_iff_lt_or_eq.mp inside with before | rfl
    · exact before
    · exact absurd occupied isEmpty
  exact {
    free := fun index inside occupied => commits.free index (below inside occupied) occupied
    group := fun index inside occupied => commits.group index (below inside occupied) occupied
    immediate := fun index inside occupied =>
      commits.immediate index (below inside occupied) occupied
    zero := fun slot noGroup noImmediate =>
      commits.zero slot (fun inside => noGroup (Nat.lt_succ_of_lt inside))
        fun index inside => noImmediate index (Nat.lt_succ_of_lt inside)
    last := by
      rcases commits.last with ⟨isZero, none⟩ | ⟨final, inside, occupied, isLast, isNext⟩
      · exact .inl ⟨isZero, fun index within occupied => none index (below within occupied) occupied⟩
      · exact .inr ⟨final, Nat.lt_succ_of_lt inside, occupied, fun later within behind isOccupied =>
          isLast later (below within isOccupied) behind isOccupied, isNext⟩ }

theorem skipTo (commits : Commits ops indptr count values next) {further : Nat}
    (isEmpty : ∀ index, count ≤ index → index < further → ¬ Occupied indptr index)
    (le : count ≤ further) : Commits ops indptr further values next := by
  induction further, le using Nat.le_induction with
  | base => exact commits
  | succ further le inductionHypothesis =>
      exact (inductionHypothesis fun index lower below =>
        isEmpty index lower (Nat.lt_succ_of_lt below)).skip
          (isEmpty further le (Nat.lt_succ_self _))

theorem place {values' : Nat → Felt} (commits : Commits ops indptr count values next)
    (occupied : Occupied indptr count) (free : Free ops indptr count)
    (group : values' count = Felt.new (groupValue (opsAt ops indptr count)))
    (immediate : ∀ offset value, (immediatesAt ops indptr count)[offset]? = some value →
      values' (count + 1 + offset) = value)
    (others : ∀ slot, slot ≠ count →
      (∀ offset < (immediatesAt ops indptr count).length, slot ≠ count + 1 + offset) →
      values' slot = values slot) :
    Commits ops indptr (count + 1) values'
      (count + 1 + (immediatesAt ops indptr count).length) := by
  -- What lies below the new group is not touched.
  have keep {slot : Nat} (below : slot < count) : values' slot = values slot :=
    others slot (by omega) fun _ _ => by omega
  exact {
    free := by
      intro index inside isOccupied
      rcases Nat.lt_succ_iff_lt_or_eq.mp inside with before | rfl
      · exact commits.free index before isOccupied
      · exact free
    group := by
      intro index inside isOccupied
      rcases Nat.lt_succ_iff_lt_or_eq.mp inside with before | rfl
      · rw [keep before, commits.group index before isOccupied]
      · exact group
    immediate := by
      intro index inside isOccupied offset value found
      rcases Nat.lt_succ_iff_lt_or_eq.mp inside with before | rfl
      · have bounded := (List.getElem?_eq_some_iff.mp found).1
        have behind := (commits.free index before isOccupied).lt occupied before
        rw [keep (by omega), commits.immediate index before isOccupied offset value found]
      · exact immediate offset value found
    zero := by
      intro slot noGroup noImmediate
      have notHere : slot ≠ count := by
        rintro rfl
        exact noGroup (Nat.lt_succ_self _) occupied
      rw [others slot notHere (noImmediate count (Nat.lt_succ_self _) occupied)]
      exact commits.zero slot (fun inside => noGroup (Nat.lt_succ_of_lt inside))
        fun index inside => noImmediate index (Nat.lt_succ_of_lt inside)
    last := .inr ⟨count, Nat.lt_succ_self _, occupied,
      fun later within behind => absurd within (by omega), rfl⟩ }

end Commits

end Commits

/-! ### Well formed batches and their validation -/

theorem forM_eq_ok {α : Type} {items : List α} {check : α → Except String Unit}
    (passes : ∀ item ∈ items, check item = .ok ()) : items.forM check = .ok () := by
  induction items with
  | nil => rfl
  | cons item rest inductionHypothesis =>
      rw [List.forM, passes item List.mem_cons_self]
      exact inductionHypothesis fun other inside => passes other (List.mem_cons_of_mem _ inside)

theorem require_eq_ok {condition : Prop} [Decidable condition] (holds : condition)
    (message : String) : require condition message = .ok () := if_pos holds

theorem eachBatch_eq_ok {batches : List OpBatch} {check : OpBatch → Nat → Except String Unit}
    (passes : ∀ batch batchIdx, batches[batchIdx]? = some batch → check batch batchIdx = .ok ()) :
    eachBatch check batches = .ok () := by
  apply forM_eq_ok
  rintro ⟨batch, batchIdx⟩ inside
  exact passes batch batchIdx (List.mk_mem_zipIdx_iff_getElem?.mp inside)

/-- A batch is known by its operations, where they begin, and the padding. -/
theorem OpBatch.eq_of_commits {batch other : OpBatch}
    (commits : Commits batch.ops batch.start batchSize batch.committed batch.numGroups)
    (otherCommits : Commits other.ops other.start batchSize other.committed other.numGroups)
    (ops : batch.ops = other.ops) (indptr : batch.indptr = other.indptr)
    (padding : batch.padding = other.padding) : batch = other := by
  have starts : batch.start = other.start := by
    funext index
    rw [OpBatch.start, OpBatch.start, indptr]
  rw [ops, starts] at commits
  obtain ⟨values, numGroups⟩ := commits.unique otherCommits
  have groups : batch.groups = other.groups := by
    apply Vector.ext
    intro index inside
    have same := congrFun values index
    rw [OpBatch.committed, OpBatch.committed, List.getD_eq_getElem?_getD,
      List.getD_eq_getElem?_getD, List.getElem?_eq_getElem (by simpa using inside),
      List.getElem?_eq_getElem (by simpa using inside)] at same
    simpa using same
  cases batch
  cases other
  simp only at ops indptr padding groups numGroups
  rw [ops, indptr, padding, groups, numGroups]

structure OpBatch.WellFormed (batch : OpBatch) : Prop where
  zero : batch.start 0 = 0
  monotone : ∀ index < batchSize, batch.start index ≤ batch.start (index + 1)
  size : ∀ index < batchSize, batch.start (index + 1) - batch.start index ≤ groupSize
  total : batch.start batchSize = batch.ops.length
  commits : Commits batch.ops batch.start batchSize batch.committed batch.numGroups
  padding : batch.validatePaddingSemantics = .ok ()

namespace OpBatch.WellFormed

variable {batch : OpBatch}

theorem numGroups_le (wellFormed : batch.WellFormed) : batch.numGroups ≤ batchSize :=
  wellFormed.commits.next_le (Nat.le_refl _)

theorem start_ne_iff (wellFormed : batch.WellFormed) {index : Nat} (inside : index < batchSize) :
    batch.start index ≠ batch.start (index + 1) ↔ Occupied batch.start index := by
  have := wellFormed.monotone index inside
  unfold Occupied
  omega

theorem collect_eq (wellFormed : batch.WellFormed) {index : Nat} (inside : index < batchSize)
    (occupied : Occupied batch.start index) :
    collectImmediatePlacements batch.ops batch.start index batchSize (some batch.numGroups) =
      .ok (((immediatesAt batch.ops batch.start index).zipIdx (index + 1)).map Prod.swap,
        index + 1 + (immediatesAt batch.ops batch.start index).length) := by
  apply (wellFormed.commits.free index inside occupied).collect_eq
  intro offset bounded
  have before := wellFormed.commits.le_next inside occupied
  exact decide_eq_true (by omega)

theorem agree_immediates (wellFormed : batch.WellFormed) {index : Nat} (inside : index < batchSize)
    (occupied : Occupied batch.start index) (batchIdx : Nat) :
    (((immediatesAt batch.ops batch.start index).zipIdx (index + 1)).map Prod.swap).forM
      (fun (immGroupIdx, immediate) =>
        require (batch.committed immGroupIdx = immediate)
          s!"Batch {batchIdx}: push immediate value mismatch at index {immGroupIdx}") = .ok () := by
  apply forM_eq_ok
  rintro ⟨immGroupIdx, immediate⟩ member
  obtain ⟨⟨value, place⟩, inList, isPair⟩ := List.mem_map.mp member
  obtain ⟨rfl, rfl⟩ := Prod.mk.inj isPair
  obtain ⟨start, found⟩ := List.mk_mem_zipIdx_iff_le_and_getElem?_sub.mp inList
  apply require_eq_ok
  rw [← wellFormed.commits.immediate index inside occupied _ _ found]
  congr 1
  omega

/-- Every group agrees with its slot, and the slots of all immediates are collected. -/
theorem checkCommitments_eq (wellFormed : batch.WellFormed) (batchIdx : Nat)
    (indices immediateSlots : List Nat) (inside : ∀ index ∈ indices, index < batchSize) :
    ∃ slots, checkCommitments batch batchIdx indices immediateSlots = .ok slots ∧
      (∀ index ∈ immediateSlots, index ∈ slots) ∧
      ∀ index ∈ indices, Occupied batch.start index →
        ∀ offset < (immediatesAt batch.ops batch.start index).length,
          index + 1 + offset ∈ slots := by
  induction indices generalizing immediateSlots with
  | nil => exact ⟨immediateSlots, rfl, fun _ member => member, fun _ => nofun⟩
  | cons index rest inductionHypothesis =>
      have here := inside index List.mem_cons_self
      have insideRest : ∀ later ∈ rest, later < batchSize :=
        fun later member => inside later (List.mem_cons_of_mem _ member)
      rw [checkCommitments]
      by_cases occupied : Occupied batch.start index
      · obtain ⟨slots, passed, kept, collected⟩ := inductionHypothesis
          (immediateSlots ++
            ((immediatesAt batch.ops batch.start index).zipIdx (index + 1)).map Prod.snd) insideRest
        have names : (((immediatesAt batch.ops batch.start index).zipIdx (index + 1)).map
            Prod.swap).map Prod.fst =
              ((immediatesAt batch.ops batch.start index).zipIdx (index + 1)).map Prod.snd := by
          rw [List.map_map]
          rfl
        have value : batch.committed index = Felt.new (groupValue (batch.groupOps index)) :=
          wellFormed.commits.group index here occupied
        refine ⟨slots, ?_, fun other member => kept other (List.mem_append_left _ member), ?_⟩
        · rw [if_neg ((wellFormed.start_ne_iff here).mpr occupied), require_eq_ok value,
            wellFormed.collect_eq here occupied]
          simp only [inBatch, bind, Except.bind, wellFormed.agree_immediates here occupied, names]
          exact passed
        · intro later member isOccupied offset bounded
          rcases List.mem_cons.mp member with rfl | behind
          · apply kept
            apply List.mem_append_right
            rw [List.zipIdx_map_snd, List.mem_range'_1]
            omega
          · exact collected later behind isOccupied offset bounded
      · obtain ⟨slots, passed, kept, collected⟩ := inductionHypothesis immediateSlots insideRest
        have isEmpty : batch.start index = batch.start (index + 1) :=
          not_not.mp fun differ => occupied ((wellFormed.start_ne_iff here).mp differ)
        refine ⟨slots, by rwa [if_pos isEmpty], kept, fun later member isOccupied => ?_⟩
        rcases List.mem_cons.mp member with rfl | behind
        · exact absurd isOccupied occupied
        · exact collected later behind isOccupied

end OpBatch.WellFormed

section Validation

variable {batches : List OpBatch} (wellFormed : ∀ batch ∈ batches, batch.WellFormed)

include wellFormed

theorem validateBatchStructure_eq_ok : validateBatchStructure batches = .ok () := by
  apply eachBatch_eq_ok
  intro batch batchIdx found
  have formed := wellFormed batch (List.mem_of_getElem? found)
  have few := formed.numGroups_le
  have sizes : ∀ groupIdx ∈ List.range batch.numGroups,
      batch.start (groupIdx + 1) - batch.start groupIdx ≤ groupSize := fun groupIdx inside =>
    formed.size groupIdx (Nat.lt_of_lt_of_le (List.mem_range.mp inside) few)
  dsimp only
  rw [require_eq_ok few, forM_eq_ok fun index inside =>
    require_eq_ok (formed.monotone index (List.mem_range.mp inside)) _, require_eq_ok formed.total,
    forM_eq_ok fun groupIdx inside => require_eq_ok (sizes groupIdx inside) _]
  rfl

theorem validatePaddingSemantics_eq_ok : validatePaddingSemantics batches = .ok () := by
  apply eachBatch_eq_ok
  intro batch batchIdx found
  rw [(wellFormed batch (List.mem_of_getElem? found)).padding]
  rfl

theorem validateImmediateCommitment_eq_ok : validateImmediateCommitment batches = .ok () := by
  apply eachBatch_eq_ok
  intro batch batchIdx found
  have formed := wellFormed batch (List.mem_of_getElem? found)
  have few := formed.numGroups_le
  obtain ⟨slots, checked, _, collected⟩ := formed.checkCommitments_eq batchIdx
    (List.range batch.numGroups) []
    (fun index inside => by have := List.mem_range.mp inside; omega)
  rw [checked]
  apply forM_eq_ok
  intro groupIdx inside
  have bounded := List.mem_range.mp inside
  apply require_eq_ok
  by_cases occupied : Occupied batch.start groupIdx
  · exact .inl ((formed.start_ne_iff (by omega)).mpr occupied)
  · by_cases isImmediate : groupIdx ∈ slots
    · exact .inr (.inl isImmediate)
    · refine .inr (.inr (formed.commits.zero groupIdx (fun _ => occupied) ?_))
      rintro index within isOccupied offset behind rfl
      have before := formed.commits.le_next within isOccupied
      exact isImmediate
        (collected index (List.mem_range.mpr (by omega)) isOccupied offset behind)

end Validation

end MidenWorkspace.Vm
