import MidenWorkspace.Client.NoteTracker
import Mathlib.Data.List.Flatten
import Mathlib.Data.List.Nodup
import Mathlib.Data.List.Pairwise

/-!
Contract: in which order the transactions of an account were executed.

The node reports the transactions of a range of blocks without their order in a block. Owns the
grouping by account and block, the walk along the account states, and the positions that the
nullifiers get. Proves that the positions follow the execution, in whatever order the
transactions are reported.
-/

namespace MidenWorkspace.Client

open Vm (Word)
open Library (OrderedMap)

/-- A transaction as the node lists it, as far as its place in the execution is concerned. -/
structure RpcTransactionRecord where
  blockNum : BlockNumber
  accountId : AccountId
  initialStateCommitment : Word
  finalStateCommitment : Word
  inputNullifiers : List Nullifier
deriving DecidableEq, Repr

namespace RpcTransactionRecord

def group (record : RpcTransactionRecord) : AccountId × BlockNumber :=
  (record.accountId, record.blockNum)

end RpcTransactionRecord

instance groupOrder : Ord (AccountId × BlockNumber) := lexOrd

instance groupOrder_trans : Std.TransOrd (AccountId × BlockNumber) :=
  inferInstanceAs (@Std.TransOrd (Nat × Nat) lexOrd)

instance groupOrder_lawful : Std.LawfulEqOrd (AccountId × BlockNumber) :=
  inferInstanceAs (@Std.LawfulEqOrd (Nat × Nat) lexOrd)

abbrev Groups := OrderedMap (AccountId × BlockNumber) (List RpcTransactionRecord)

/-- `groups.entry(key).or_default().push(record)`. -/
def pushGroup (groups : Groups) (record : RpcTransactionRecord) : Groups :=
  groups.insert record.group (groups[record.group]?.getD [] ++ [record])

def groupRecords (records : List RpcTransactionRecord) : Groups :=
  records.foldl pushGroup ∅

/-- What is left of the map from initial states after a removal. -/
def removeState (state : Word) (rest : List RpcTransactionRecord) : List RpcTransactionRecord :=
  rest.filter fun record => record.initialStateCommitment ≠ state

/-- The walk along the states. The map from initial states is a list in which the record that
was entered last comes first. -/
def walkChain (rest : List RpcTransactionRecord) (state : Word) : List RpcTransactionRecord :=
  match _ : rest.find? fun record => record.initialStateCommitment = state with
  | some record => record :: walkChain (removeState state rest) record.finalStateCommitment
  | none => []
termination_by rest.length
decreasing_by
  rename_i found
  refine List.length_filter_lt_length_iff_exists.mpr ⟨record, List.mem_of_find?_eq_some found, ?_⟩
  simpa using List.find?_some found

/-- The transactions of one account in one block, from the one whose initial state no other
one leaves. -/
def executionChain (transactions : List RpcTransactionRecord) : List RpcTransactionRecord :=
  match transactions.find? fun record => !(transactions.map
      RpcTransactionRecord.finalStateCommitment).contains record.initialStateCommitment with
  | some start => walkChain transactions.reverse start.initialStateCommitment
  | none => []

def computeOrderedNullifiers (records : List RpcTransactionRecord) : List Nullifier :=
  (groupRecords records).values.flatMap fun transactions =>
    (executionChain transactions).flatMap RpcTransactionRecord.inputNullifiers

/-- The body of the loop of `derive_account_commitment_updates`. -/
def keepLatest (latest : OrderedMap AccountId RpcTransactionRecord)
    (record : RpcTransactionRecord) : OrderedMap AccountId RpcTransactionRecord :=
  match latest[record.accountId]? with
  | some existing =>
      if record.blockNum > existing.blockNum then latest.insert record.accountId record else latest
  | none => latest.insert record.accountId record

def deriveAccountCommitmentUpdates (records : List RpcTransactionRecord) :
    List (AccountId × Word) :=
  (records.foldl keepLatest ∅).toList.map fun entry => (entry.1, entry.2.finalStateCommitment)

/-! ### The walk finds the execution -/

/-- The account went through the transactions, from the state on, and never came back to a
state that it had left. -/
inductive Execution : Word → List RpcTransactionRecord → Prop
  | nil (state : Word) : Execution state []
  | cons {record : RpcTransactionRecord} {others : List RpcTransactionRecord}
      (leaves : record.initialStateCommitment ∉
        (record :: others).map RpcTransactionRecord.finalStateCommitment)
      (continues : Execution record.finalStateCommitment others) :
      Execution record.initialStateCommitment (record :: others)

section Walk

variable {state : Word} {chain rest : List RpcTransactionRecord}

/-- Every transaction but the first starts where another one ends. -/
theorem Execution.initial (execution : Execution state chain) :
    ∀ record ∈ chain, record.initialStateCommitment = state ∨
      record.initialStateCommitment ∈ chain.map RpcTransactionRecord.finalStateCommitment := by
  induction execution with
  | nil => exact fun _ member => absurd member List.not_mem_nil
  | @cons first others leaves continues inductionHypothesis =>
      intro record member
      rcases List.mem_cons.mp member with rfl | later
      · exact .inl rfl
      · rcases inductionHypothesis record later with same | among
        · exact .inr (same ▸ .head _)
        · exact .inr (.tail _ among)

theorem find?_eq_some_of_unique {α : Type} {list : List α} {predicate : α → Bool} {value : α}
    (member : value ∈ list) (holds : predicate value = true)
    (unique : ∀ other ∈ list, predicate other = true → other = value) :
    list.find? predicate = some value := by
  cases found : list.find? predicate with
  | none => exact absurd holds (List.find?_eq_none.mp found value member)
  | some other =>
      rw [unique other (List.mem_of_find?_eq_some found) (List.find?_some found)]

theorem walkChain_eq (execution : Execution state chain) (perm : rest.Perm chain) :
    walkChain rest state = chain := by
  induction execution generalizing rest with
  | nil state =>
      rw [perm.eq_nil, walkChain]
      rfl
  | @cons first others leaves continues inductionHypothesis =>
      have different : ∀ record ∈ others,
          record.initialStateCommitment ≠ first.initialStateCommitment := by
        intro record member same
        rcases continues.initial record member with here | among
        · exact leaves (same ▸ here ▸ .head _)
        · exact leaves (same ▸ .tail _ among)
      have found : rest.find? (fun record =>
          record.initialStateCommitment = first.initialStateCommitment) = some first := by
        refine find?_eq_some_of_unique (perm.mem_iff.mpr (.head _)) (decide_eq_true rfl) ?_
        intro record member same
        rcases List.mem_cons.mp (perm.mem_iff.mp member) with rfl | later
        · rfl
        · exact absurd (of_decide_eq_true same) (different record later)
      have remaining : (removeState first.initialStateCommitment rest).Perm others := by
        have filtered := perm.filter fun record : RpcTransactionRecord =>
          decide (record.initialStateCommitment ≠ first.initialStateCommitment)
        rw [List.filter_cons_of_neg (by simp), List.filter_eq_self.mpr fun record member =>
          decide_eq_true (different record member)] at filtered
        exact filtered
      rw [walkChain]
      split
      · rename_i record located
        obtain rfl := Option.some.inj (located.symm.trans found)
        rw [inductionHypothesis remaining]
      · rename_i absent
        cases absent.symm.trans found

/-- The transactions of one account in one block come out in the order of their execution. -/
theorem executionChain_eq (execution : Execution state chain) (perm : rest.Perm chain) :
    executionChain rest = chain := by
  have finals : ∀ word : Word, word ∈ rest.map RpcTransactionRecord.finalStateCommitment ↔
      word ∈ chain.map RpcTransactionRecord.finalStateCommitment := fun word =>
    (perm.map RpcTransactionRecord.finalStateCommitment).mem_iff
  cases execution with
  | nil =>
      rw [perm.eq_nil]
      rfl
  | @cons first others leaves continues =>
      have start : rest.find? (fun record => !(rest.map
          RpcTransactionRecord.finalStateCommitment).contains record.initialStateCommitment) =
          some first := by
        refine find?_eq_some_of_unique (perm.mem_iff.mpr (.head _)) ?_ ?_
        · rw [Bool.not_eq_true', ← Bool.not_eq_true, List.contains_iff_mem, finals]
          exact leaves
        · intro record member starts
          rw [Bool.not_eq_true', ← Bool.not_eq_true, List.contains_iff_mem, finals] at starts
          rcases List.mem_cons.mp (perm.mem_iff.mp member) with rfl | later
          · rfl
          · refine absurd ?_ starts
            rcases continues.initial record later with here | among
            · exact here ▸ .head _
            · exact .tail _ among
      rw [executionChain, start]
      exact walkChain_eq (.cons leaves continues) (rest.reverse_perm.trans perm)

end Walk

/-! ### Positions -/

theorem groupRecords_getElem? (records : List RpcTransactionRecord)
    (key : AccountId × BlockNumber) :
    (groupRecords records)[key]? =
      if records.filter (fun record => record.group = key) = [] then none
      else some (records.filter fun record => record.group = key) := by
  induction records using List.reverseRecOn with
  | nil => simp [groupRecords]
  | append_singleton earlier record inductionHypothesis =>
      rw [groupRecords, List.foldl_append, List.foldl_cons, List.foldl_nil, pushGroup,
        OrderedMap.getElem?_insert, List.filter_append]
      split
      · rename_i same
        subst same
        have before : ((groupRecords earlier)[record.group]?).getD [] =
            earlier.filter fun other => other.group = record.group := by
          rw [inductionHypothesis]
          split
          · rename_i empty
            exact empty.symm
          · rfl
        rw [groupRecords] at before
        rw [before]
        simp
      · rename_i different
        rw [groupRecords] at inductionHypothesis
        rw [inductionHypothesis]
        simp [different]

/-- How the reported transactions were executed. -/
structure Executed (records : List RpcTransactionRecord)
    (chains : AccountId × BlockNumber → List RpcTransactionRecord) : Prop where
  reported : ∀ key, (records.filter fun record => record.group = key).Perm (chains key)
  execution : ∀ key, ∃ state, Execution state (chains key)

/-- One transaction of an account comes before another one. -/
inductive Before (chains : AccountId × BlockNumber → List RpcTransactionRecord)
    (first second : RpcTransactionRecord) : Prop
  | sameBlock {key : AccountId × BlockNumber} (inOrder : [first, second].Sublist (chains key))
  | earlierBlock {account : AccountId} {block later : BlockNumber} (earlier : block < later)
      (inFirst : first ∈ chains (account, block)) (inSecond : second ∈ chains (account, later))

section Positions

variable {records : List RpcTransactionRecord}
  {chains : AccountId × BlockNumber → List RpcTransactionRecord}

theorem computeOrderedNullifiers_eq (executed : Executed records chains) :
    computeOrderedNullifiers records =
      ((groupRecords records).toList.map Prod.fst).flatMap fun key =>
        (chains key).flatMap RpcTransactionRecord.inputNullifiers := by
  rw [computeOrderedNullifiers, OrderedMap.values, List.flatMap_map, List.flatMap_map]
  refine List.flatMap_congr fun entry member => ?_
  obtain ⟨key, transactions⟩ := entry
  have found := Std.ExtTreeMap.mem_toList_iff_getElem?_eq_some.mp member
  rw [groupRecords_getElem?] at found
  split at found
  · cases found
  · obtain rfl := Option.some.inj found
    obtain ⟨state, execution⟩ := executed.execution key
    rw [executionChain_eq execution (executed.reported key)]

theorem mem_keys {key : AccountId × BlockNumber} (executed : Executed records chains)
    {record : RpcTransactionRecord} (member : record ∈ chains key) :
    key ∈ (groupRecords records).toList.map Prod.fst := by
  have inFilter := (executed.reported key).mem_iff.mpr member
  have found : (groupRecords records)[key]? =
      some (records.filter fun record => record.group = key) := by
    rw [groupRecords_getElem?, if_neg (List.ne_nil_of_mem inFilter)]
  exact List.mem_map.mpr
    ⟨_, Std.ExtTreeMap.mem_toList_iff_getElem?_eq_some.mpr found, rfl⟩

theorem sublist_flatMap {α β : Type} {list : List α} {images : α → List β} {first second : α}
    (inOrder : [first, second].Sublist list) {one other : β} (inFirst : one ∈ images first)
    (inSecond : other ∈ images second) : [one, other].Sublist (list.flatMap images) := by
  have pair : [one, other].Sublist ([first, second].flatMap images) := by
    simpa using (List.singleton_sublist.mpr inFirst).append (List.singleton_sublist.mpr inSecond)
  exact pair.trans (inOrder.flatMap images)

theorem pair_sublist {α : Type} (less : α → α → Prop) {list : List α} (sorted : list.Pairwise less)
    (asymmetric : ∀ first second, less first second → ¬ less second first) {first second : α}
    (inFirst : first ∈ list) (inSecond : second ∈ list) (ordered : less first second) :
    [first, second].Sublist list := by
  obtain ⟨front, back, rfl⟩ := List.append_of_mem inFirst
  obtain ⟨_, _, across⟩ := List.pairwise_append.mp sorted
  rcases List.mem_append.mp inSecond with before | after
  · exact absurd (across second before first (.head _)) (asymmetric _ _ ordered)
  · rcases List.mem_cons.mp after with rfl | behind
    · exact absurd ordered (asymmetric _ _ ordered)
    · exact ((List.singleton_sublist.mpr behind).cons_cons first).trans
        (List.sublist_append_right front _)

theorem groupOrder_lt {account : AccountId} {block later : BlockNumber} (earlier : block < later) :
    compare (account, block) (account, later) = .lt := by
  show (compare account account).then (compare block later) = .lt
  rw [Nat.compare_eq_eq.mpr rfl, Ordering.eq_then, Nat.compare_eq_lt]
  exact earlier

/-- Two transactions in order have their nullifiers in order. -/
theorem Before.sublist {first second : RpcTransactionRecord} (executed : Executed records chains)
    (before : Before chains first second) {one other : Nullifier}
    (inFirst : one ∈ first.inputNullifiers) (inSecond : other ∈ second.inputNullifiers) :
    [one, other].Sublist (computeOrderedNullifiers records) := by
  rw [computeOrderedNullifiers_eq executed]
  cases before with
  | @sameBlock key inOrder =>
      have listed := mem_keys executed (inOrder.subset (.head _))
      have inChain := sublist_flatMap inOrder inFirst inSecond
      refine inChain.trans ?_
      simpa using (List.singleton_sublist.mpr listed).flatMap fun key =>
        (chains key).flatMap RpcTransactionRecord.inputNullifiers
  | @earlierBlock account block later earlier memberFirst memberSecond =>
      have ordered : [(account, block), (account, later)].Sublist
          ((groupRecords records).toList.map Prod.fst) := by
        refine pair_sublist (fun one other => compare one other = .lt)
          (List.pairwise_map.mpr (groupRecords records).ordered_keys_toList) (fun _ _ less => ?_)
          (mem_keys executed memberFirst) (mem_keys executed memberSecond) ?_
        · rw [Std.OrientedCmp.gt_of_lt less]
          exact Ordering.noConfusion
        · exact groupOrder_lt earlier
      refine sublist_flatMap ordered ?_ ?_
      · exact List.mem_flatMap.mpr ⟨first, memberFirst, inFirst⟩
      · exact List.mem_flatMap.mpr ⟨second, memberSecond, inSecond⟩

/-- A nullifier is consumed once. -/
theorem nodup_computeOrderedNullifiers (executed : Executed records chains)
    (distinct : (records.flatMap RpcTransactionRecord.inputNullifiers).Nodup) :
    (computeOrderedNullifiers records).Nodup := by
  obtain ⟨each, disjoint⟩ := List.nodup_flatMap.mp distinct
  have reported : ∀ {key record}, record ∈ chains key → record ∈ records ∧ record.group = key := by
    intro key record member
    have inFilter := List.mem_filter.mp ((executed.reported key).mem_iff.mpr member)
    exact ⟨inFilter.1, of_decide_eq_true inFilter.2⟩
  rw [computeOrderedNullifiers_eq executed, List.nodup_flatMap]
  constructor
  · intro key _
    have perm := (executed.reported key).flatMap_right RpcTransactionRecord.inputNullifiers
    refine perm.nodup_iff.mp (distinct.sublist ?_)
    exact List.filter_sublist.flatMap _
  · refine (OrderedMap.nodup_keys (groupRecords records)).imp fun {one other} different => ?_
    intro nullifier inOne inOther
    obtain ⟨first, memberFirst, inFirst⟩ := List.mem_flatMap.mp inOne
    obtain ⟨second, memberSecond, inSecond⟩ := List.mem_flatMap.mp inOther
    obtain ⟨reportedFirst, groupFirst⟩ := reported memberFirst
    obtain ⟨reportedSecond, groupSecond⟩ := reported memberSecond
    have unlike : first ≠ second := by
      rintro rfl
      exact different (groupFirst.symm.trans groupSecond)
    have : Std.Symm (Function.onFun List.Disjoint RpcTransactionRecord.inputNullifiers) :=
      ⟨fun _ _ apart => apart.symm⟩
    exact disjoint.forall reportedFirst reportedSecond unlike inFirst inSecond

/-- A position that was given out stays. -/
theorem extendNullifiers_keeps {order : OrderedMap Nullifier Nat} {nullifiers : List Nullifier}
    {nullifier : Nullifier} {position : Nat} (known : order[nullifier]? = some position) :
    (nullifiers.foldl (fun order nullifier => order.insertIfNew nullifier order.size) order)[
      nullifier]? = some position := by
  induction nullifiers generalizing order with
  | nil => exact known
  | cons first others inductionHypothesis =>
      refine inductionHypothesis ?_
      rw [Std.ExtTreeMap.getElem?_insertIfNew, if_neg, known]
      rintro ⟨same, absent⟩
      rw [Nat.compare_eq_eq.mp same, Std.ExtTreeMap.mem_iff_isSome_getElem?, known] at absent
      exact absent rfl

/-- New nullifiers get the next positions, in their order. -/
theorem extendNullifiers_position {order : OrderedMap Nullifier Nat} {nullifiers : List Nullifier}
    (distinct : nullifiers.Nodup) (fresh : ∀ nullifier ∈ nullifiers, nullifier ∉ order)
    {index : Nat} {nullifier : Nullifier} (found : nullifiers[index]? = some nullifier) :
    (nullifiers.foldl (fun order nullifier => order.insertIfNew nullifier order.size) order)[
      nullifier]? = some (order.size + index) := by
  induction nullifiers generalizing order index with
  | nil => cases found
  | cons first others inductionHypothesis =>
      obtain ⟨unlike, distinctOthers⟩ := List.nodup_cons.mp distinct
      have absent := fresh first (.head _)
      cases index with
      | zero =>
          obtain rfl := Option.some.inj found
          rw [List.foldl_cons]
          refine extendNullifiers_keeps ?_
          rw [Std.ExtTreeMap.getElem?_insertIfNew, if_pos ⟨Std.ReflCmp.compare_self, absent⟩]
          rfl
      | succ index =>
          have freshOthers : ∀ other ∈ others, other ∉ order.insertIfNew first order.size := by
            intro other member present
            rcases Std.ExtTreeMap.mem_insertIfNew.mp present with same | old
            · exact unlike (Nat.compare_eq_eq.mp same ▸ member)
            · exact fresh other (.tail _ member) old
          rw [List.foldl_cons, inductionHypothesis distinctOthers freshOthers found,
            Std.ExtTreeMap.size_insertIfNew, if_neg absent, Nat.add_right_comm]
          rfl

theorem new_nullifierOrder {μ π : Type} (inputNotes : List (InputNoteRecord μ π))
    (outputNotes : List (OutputNoteRecord μ π)) :
    (NoteUpdateTracker.new inputNotes outputNotes).nullifierOrder = ∅ := by
  have inputs : ∀ start : NoteUpdateTracker μ π,
      (inputNotes.foldl (NoteUpdateTracker.insertInputNote .none) start).nullifierOrder =
        start.nullifierOrder := by
    induction inputNotes with
    | nil => exact fun _ => rfl
    | cons note others inductionHypothesis => exact fun start => inductionHypothesis _
  have outputs : ∀ start : NoteUpdateTracker μ π,
      (outputNotes.foldl (NoteUpdateTracker.insertOutputNote .none) start).nullifierOrder =
        start.nullifierOrder := by
    induction outputNotes with
    | nil => exact fun _ => rfl
    | cons note others inductionHypothesis => exact fun start => inductionHypothesis _
  rw [NoteUpdateTracker.new, outputs, inputs]
  rfl

/-- The recorded positions follow the execution: of two nullifiers of an account, the one of the
transaction that was executed first has the lower position, in whatever order the
transactions were reported. -/
theorem positions_follow_execution {μ π : Type} (executed : Executed records chains)
    (distinct : (records.flatMap RpcTransactionRecord.inputNullifiers).Nodup)
    (inputNotes : List (InputNoteRecord μ π)) (outputNotes : List (OutputNoteRecord μ π))
    {first second : RpcTransactionRecord} (before : Before chains first second)
    {one other : Nullifier} (inFirst : one ∈ first.inputNullifiers)
    (inSecond : other ∈ second.inputNullifiers) :
    ∃ position later, position < later ∧
      ((NoteUpdateTracker.new inputNotes outputNotes).extendNullifiers
        (computeOrderedNullifiers records)).nullifierOrder[one]? = some position ∧
      ((NoteUpdateTracker.new inputNotes outputNotes).extendNullifiers
        (computeOrderedNullifiers records)).nullifierOrder[other]? = some later := by
  have inOrder := before.sublist executed inFirst inSecond
  have nodup := nodup_computeOrderedNullifiers executed distinct
  simp only [NoteUpdateTracker.extendNullifiers, new_nullifierOrder]
  generalize computeOrderedNullifiers records = nullifiers at inOrder nodup
  have position : ∀ {index : Nat} {nullifier : Nullifier}, nullifiers[index]? = some nullifier →
      (nullifiers.foldl (fun order nullifier => order.insertIfNew nullifier order.size)
        (∅ : OrderedMap Nullifier Nat))[nullifier]? = some (0 + index) := fun found =>
    extendNullifiers_position nodup (fun _ _ => Std.ExtTreeMap.not_mem_empty) found
  obtain ⟨front, back, rfl, inFront, rest⟩ := List.cons_sublist_iff.mp inOrder
  obtain ⟨index, atIndex⟩ := List.mem_iff_getElem?.mp inFront
  obtain ⟨offset, atOffset⟩ := List.mem_iff_getElem?.mp (List.singleton_sublist.mp rest)
  have within : index < front.length := (List.getElem?_eq_some_iff.mp atIndex).1
  refine ⟨0 + index, 0 + (front.length + offset), by omega, position ?_, position ?_⟩
  · rw [List.getElem?_append_left within, atIndex]
  · rw [List.getElem?_append_right (Nat.le_add_right _ _), Nat.add_sub_cancel_left, atOffset]

/-- Two transactions of one account in one block. -/
def mintRecord : RpcTransactionRecord := ⟨3, 5, ⟨0, 0, 0, 1⟩, ⟨0, 0, 0, 2⟩, [11, 12]⟩

@[inherit_doc mintRecord]
def burnRecord : RpcTransactionRecord := ⟨3, 5, ⟨0, 0, 0, 2⟩, ⟨0, 0, 0, 3⟩, [10]⟩

def mintThenBurn (key : AccountId × BlockNumber) : List RpcTransactionRecord :=
  if key = (5, 3) then [mintRecord, burnRecord] else []

theorem executed_mintThenBurn {records : List RpcTransactionRecord}
    (perm : records.Perm [mintRecord, burnRecord]) : Executed records mintThenBurn := by
  constructor
  · intro key
    refine (perm.filter _).trans ?_
    rw [mintThenBurn]
    split
    · rename_i same
      subst same
      exact List.Perm.refl [mintRecord, burnRecord]
    · rename_i different
      simp [RpcTransactionRecord.group, burnRecord, mintRecord, Ne.symm different]
  · intro key
    rw [mintThenBurn]
    split
    · have last : Execution burnRecord.initialStateCommitment [burnRecord] :=
        .cons (by decide) (.nil _)
      have both : Execution mintRecord.initialStateCommitment [mintRecord, burnRecord] :=
        .cons (by decide) last
      exact ⟨_, both⟩
    · exact ⟨⟨0, 0, 0, 0⟩, .nil _⟩

/-- The second one is reported first. -/
theorem positions_follow_execution_swapped :
    ∃ position later, position < later ∧
      ((NoteUpdateTracker.new ([] : List (InputNoteRecord Nat Nat)) []).extendNullifiers
        (computeOrderedNullifiers [burnRecord, mintRecord])).nullifierOrder[12]? = some position ∧
      ((NoteUpdateTracker.new ([] : List (InputNoteRecord Nat Nat)) []).extendNullifiers
        (computeOrderedNullifiers [burnRecord, mintRecord])).nullifierOrder[10]? = some later :=
  positions_follow_execution (executed_mintThenBurn (.swap mintRecord burnRecord [])) (by decide)
    [] [] (@Before.sameBlock mintThenBurn mintRecord burnRecord (5, 3) (List.Sublist.refl _))
    (by decide) (by decide)

end Positions

/-! ### The derived account commitments -/

section Commitments

variable {records : List RpcTransactionRecord}
  {chains : AccountId × BlockNumber → List RpcTransactionRecord}

/-- The first of the reported records of the account in its last block. -/
structure IsLatest (records : List RpcTransactionRecord) (account : AccountId)
    (record : RpcTransactionRecord) : Prop where
  accountId : record.accountId = account
  maximal : ∀ other ∈ records, other.accountId = account → other.blockNum ≤ record.blockNum
  first : (records.filter fun other => other.group = record.group).head? = some record

theorem keepLatest_other {latest : OrderedMap AccountId RpcTransactionRecord}
    {record : RpcTransactionRecord} {account : AccountId} (different : record.accountId ≠ account) :
    (keepLatest latest record)[account]? = latest[account]? := by
  rw [keepLatest]
  split
  · split
    · rw [OrderedMap.getElem?_insert, if_neg different]
    · rfl
  · rw [OrderedMap.getElem?_insert, if_neg different]

theorem keepLatest_new {latest : OrderedMap AccountId RpcTransactionRecord}
    {record : RpcTransactionRecord} (absent : latest[record.accountId]? = none) :
    (keepLatest latest record)[record.accountId]? = some record := by
  rw [keepLatest, absent]
  dsimp only
  rw [OrderedMap.getElem?_insert, if_pos rfl]

theorem keepLatest_known {latest : OrderedMap AccountId RpcTransactionRecord}
    {record existing : RpcTransactionRecord} (known : latest[record.accountId]? = some existing) :
    (keepLatest latest record)[record.accountId]? =
      some (if record.blockNum > existing.blockNum then record else existing) := by
  rw [keepLatest, known]
  dsimp only
  split
  · rw [OrderedMap.getElem?_insert, if_pos rfl]
  · exact known

theorem head?_filter_append (earlier : List RpcTransactionRecord) (record : RpcTransactionRecord)
    (key : AccountId × BlockNumber) :
    ((earlier ++ [record]).filter fun other => other.group = key).head? =
      (earlier.filter fun other => other.group = key).head?.or
        (if record.group = key then some record else none) := by
  rw [List.filter_append, List.head?_append]
  congr 1
  by_cases same : record.group = key
  · simp [same]
  · simp [same]

theorem latest_spec (records : List RpcTransactionRecord) (account : AccountId) :
    ((records.foldl keepLatest ∅)[account]? = none ∧
        ∀ record ∈ records, record.accountId ≠ account) ∨
      ∃ record, (records.foldl keepLatest ∅)[account]? = some record ∧
        IsLatest records account record := by
  induction records using List.reverseRecOn with
  | nil => exact .inl ⟨by simp, fun _ member => absurd member List.not_mem_nil⟩
  | append_singleton earlier record inductionHypothesis =>
      rw [List.foldl_append, List.foldl_cons, List.foldl_nil]
      have members : ∀ {Holds : RpcTransactionRecord → Prop}, (∀ other ∈ earlier, Holds other) →
          Holds record → ∀ other ∈ earlier ++ [record], Holds other := by
        intro Holds inEarlier atRecord other member
        rcases List.mem_append.mp member with before | last
        · exact inEarlier other before
        · exact List.mem_singleton.mp last ▸ atRecord
      by_cases same : record.accountId = account
      · subst same
        rcases inductionHypothesis with ⟨absent, unlike⟩ | ⟨existing, known, isLatest⟩
        · refine .inr ⟨record, keepLatest_new absent, rfl,
            members (fun other before own => absurd own (unlike other before))
              fun _ => Nat.le_refl _, ?_⟩
          have none : (earlier.filter fun other => other.group = record.group) = [] :=
            List.filter_eq_nil_iff.mpr fun other before own =>
              unlike other before (congrArg Prod.fst (of_decide_eq_true own))
          rw [head?_filter_append, none, if_pos rfl]
          rfl
        · rw [keepLatest_known known]
          by_cases later : record.blockNum > existing.blockNum
          · rw [if_pos later]
            refine .inr ⟨record, rfl, rfl, members (fun other before own =>
              ((isLatest.maximal other before own).trans_lt later).le) fun _ => Nat.le_refl _, ?_⟩
            have none : (earlier.filter fun other => other.group = record.group) = [] := by
              refine List.filter_eq_nil_iff.mpr fun other before own => ?_
              have sameGroup := of_decide_eq_true own
              have bound := isLatest.maximal other before (congrArg Prod.fst sameGroup)
              have sameBlock : other.blockNum = record.blockNum := congrArg Prod.snd sameGroup
              rw [sameBlock] at bound
              exact Nat.not_le_of_lt later bound
            rw [head?_filter_append, none, if_pos rfl]
            rfl
          · rw [if_neg later]
            refine .inr ⟨existing, rfl, isLatest.accountId, members isLatest.maximal
              fun _ => Nat.le_of_not_lt later, ?_⟩
            rw [head?_filter_append, isLatest.first]
            rfl
      · rw [keepLatest_other same]
        rcases inductionHypothesis with ⟨absent, unlike⟩ | ⟨existing, known, isLatest⟩
        · exact .inl ⟨absent, members unlike same⟩
        · refine .inr ⟨existing, known, isLatest.accountId, members isLatest.maximal
            fun own => absurd own same, ?_⟩
          rw [head?_filter_append, isLatest.first]
          rfl

theorem Execution.final_ne_start {state : Word} {chain : List RpcTransactionRecord}
    (execution : Execution state chain) :
    ∀ record ∈ chain, record.finalStateCommitment ≠ state := by
  cases execution with
  | nil => exact fun _ member => absurd member List.not_mem_nil
  | cons leaves _ =>
      exact fun record member same => leaves (List.mem_map.mpr ⟨record, member, same⟩)

theorem Execution.final_injective {state : Word} {chain : List RpcTransactionRecord}
    (execution : Execution state chain) :
    ∀ record ∈ chain, ∀ other ∈ chain,
      record.finalStateCommitment = other.finalStateCommitment → record = other := by
  induction execution with
  | nil => exact fun _ member => absurd member List.not_mem_nil
  | @cons first others leaves continues inductionHypothesis =>
      -- No later transaction ends in the state that the first one has reached.
      have onward := continues.final_ne_start
      intro record member other otherMember same
      rcases List.mem_cons.mp member with rfl | later
      · rcases List.mem_cons.mp otherMember with rfl | otherLater
        · rfl
        · exact absurd same.symm (onward other otherLater)
      · rcases List.mem_cons.mp otherMember with rfl | otherLater
        · exact absurd same (onward record later)
        · exact inductionHypothesis record later other otherLater same

/-- The derived commitment of an account is the state that its last transaction has left if
and only if this transaction is the first reported one of those in the last block. -/
theorem derived_commitment_iff (executed : Executed records chains) {account : AccountId}
    {block : BlockNumber} {last : RpcTransactionRecord} {chain : List RpcTransactionRecord}
    (lastBlock : chains (account, block) = chain ++ [last])
    (noLater : ∀ record ∈ records, record.accountId = account → record.blockNum ≤ block) :
    (account, last.finalStateCommitment) ∈ deriveAccountCommitmentUpdates records ↔
      (records.filter fun record => record.group = (account, block)).head? = some last := by
  have inChain : last ∈ chains (account, block) := by
    rw [lastBlock]
    exact List.mem_append_right _ (List.mem_singleton_self _)
  have reportedLast := List.mem_filter.mp ((executed.reported (account, block)).mem_iff.mpr inChain)
  have groupLast : last.group = (account, block) := of_decide_eq_true reportedLast.2
  obtain ⟨state, execution⟩ := executed.execution (account, block)
  have derived : ∀ word, (account, word) ∈ deriveAccountCommitmentUpdates records ↔
      ∃ record, (records.foldl keepLatest ∅)[account]? = some record ∧
        record.finalStateCommitment = word := by
    intro word
    simp only [deriveAccountCommitmentUpdates, List.mem_map, Prod.mk.injEq, Prod.exists,
      Std.ExtTreeMap.mem_toList_iff_getElem?_eq_some]
    constructor
    · rintro ⟨key, record, found, rfl, same⟩
      exact ⟨record, found, same⟩
    · rintro ⟨record, found, same⟩
      exact ⟨account, record, found, rfl, same⟩
  rw [derived]
  rcases latest_spec records account with ⟨_, unlike⟩ | ⟨latest, found, isLatest⟩
  · exact absurd (congrArg Prod.fst groupLast) (unlike last reportedLast.1)
  · have memberLatest := List.mem_filter.mp (List.mem_of_head? isLatest.first)
    have sameBlock : latest.blockNum = block := by
      have upper := noLater latest memberLatest.1 isLatest.accountId
      have lower := isLatest.maximal last reportedLast.1 (congrArg Prod.fst groupLast)
      have lastIn : last.blockNum = block := congrArg Prod.snd groupLast
      rw [lastIn] at lower
      exact Nat.le_antisymm upper lower
    have groupLatest : latest.group = (account, block) :=
      Prod.ext isLatest.accountId sameBlock
    have first := isLatest.first
    rw [groupLatest] at first
    have inChainLatest : latest ∈ chains (account, block) :=
      (executed.reported (account, block)).mem_iff.mp
        (List.mem_filter.mpr ⟨memberLatest.1, decide_eq_true groupLatest⟩)
    rw [first]
    constructor
    · rintro ⟨record, foundAgain, same⟩
      obtain rfl := Option.some.inj (found.symm.trans foundAgain)
      rw [execution.final_injective latest inChainLatest last inChain same]
    · intro same
      exact ⟨latest, found, congrArg _ (Option.some.inj same)⟩

/-- Reported in the order of their execution, the two leave the client with the state between
them. -/
theorem derived_commitment_iff_in_order :
    (5, burnRecord.finalStateCommitment) ∉
      deriveAccountCommitmentUpdates [mintRecord, burnRecord] := by
  have lastBlock : mintThenBurn (5, 3) = [mintRecord] ++ [burnRecord] := rfl
  have noLater : ∀ record ∈ [mintRecord, burnRecord], record.accountId = 5 →
      record.blockNum ≤ 3 := by decide
  exact (derived_commitment_iff (executed_mintThenBurn (.refl _)) lastBlock noLater).not.mpr
    (by decide)

end Commitments

end MidenWorkspace.Client
