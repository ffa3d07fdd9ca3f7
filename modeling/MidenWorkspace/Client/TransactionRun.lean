import MidenWorkspace.Client.DiscardCascade

/-!
Contract: what holds of the followed transactions after any number of updates in any order.

Owns the updates as events, one step lemma for each kind of update, and the invariants of
whole runs: a settled transaction never changes (`Advances`), no pending transaction builds on
a discarded one (`Unchained`), and a commit was reported by the node (`Justified`).
-/

namespace MidenWorkspace.Client

open Library (OrderedMap)

inductive TransactionEvent where
  | included (inclusion : TransactionInclusion) (timestamp : Nat)
  | heightUpdated (newSyncHeight : BlockNumber) (txDiscardDelta : Option Nat)
  | noteNullified (nullifier : Nullifier)
  | accountStateInvalid (state : Vm.Word)

namespace TransactionUpdateTracker

def apply (tracker : TransactionUpdateTracker) : TransactionEvent → TransactionUpdateTracker
  | .included inclusion timestamp => tracker.applyTransactionInclusion inclusion timestamp
  | .heightUpdated newSyncHeight txDiscardDelta =>
      tracker.applySyncHeightUpdate newSyncHeight txDiscardDelta
  | .noteNullified nullifier => tracker.applyInputNoteNullified nullifier
  | .accountStateInvalid state => tracker.applyInvalidInitialAccountState state

def run (tracker : TransactionUpdateTracker) (events : List TransactionEvent) :
    TransactionUpdateTracker :=
  events.foldl apply tracker

end TransactionUpdateTracker

/-- The node reported the transaction under its own identifier, or as one of the same
account from the same state. -/
def Reports (inclusion : TransactionInclusion) (key : TransactionId)
    (transaction : TransactionRecord) : Prop :=
  inclusion.transactionId = key ∨
    TransactionUpdateTracker.sameAccountState inclusion transaction = true

/-- How one update may change the entry of a transaction. -/
inductive Moves (event : TransactionEvent) (key : TransactionId) (before : TransactionRecord) :
    TransactionRecord → Prop
  | same : Moves event key before before
  | commits {inclusion : TransactionInclusion} {timestamp : Nat}
      (reported : event = .included inclusion timestamp) (about : Reports inclusion key before)
      (pending : before.status = .pending) :
      Moves event key before { before with status := .committed inclusion.blockNum timestamp }
  | discards (cause : DiscardCause) (pending : before.status = .pending) :
      Moves event key before (before.discarded cause)

/-- One update keeps the tracked transactions and moves each of them. -/
def Advances (event : TransactionEvent) (before after : Transactions) : Prop :=
  ∀ key : TransactionId, before[key]? = none ∧ after[key]? = none ∨
    ∃ transaction moved, before[key]? = some transaction ∧ after[key]? = some moved ∧
      Moves event key transaction moved

/-- No pending transaction starts from the state that a discarded one would have left. -/
def Unchained (transactions : Transactions) : Prop :=
  ∀ (key later : TransactionId) (discarded pending : TransactionRecord),
    transactions[key]? = some discarded → discarded.isDiscarded = true →
    transactions[later]? = some pending → pending.status = .pending →
    pending.details.initAccountState ≠ discarded.details.finalAccountState

section Steps

variable {predicate : TransactionRecord → Prop} {cause : DiscardCause}
  {event : TransactionEvent} {before middle after : Transactions}

theorem Swept.advances (swept : Swept predicate cause before after) :
    Advances event before after := by
  intro key
  cases found : before[key]? with
  | none =>
      refine .inl ⟨rfl, ?_⟩
      rw [swept.spared key, found]
      intro doomed
      obtain ⟨transaction, foundSome, _⟩ := doomed.pending
      rw [found] at foundSome
      cases foundSome
  | some transaction =>
      refine .inr ⟨transaction, ?_⟩
      by_cases doomed : Doomed predicate before key
      · obtain ⟨same, foundSame, pending⟩ := doomed.pending
        rw [found] at foundSame
        obtain rfl := Option.some.inj foundSame
        obtain ⟨discarded, foundAfter, sentenced⟩ := swept.doomed key _ doomed found
        rcases sentenced with ⟨_, rfl⟩ | ⟨_, rfl⟩
        · exact ⟨_, rfl, foundAfter, .discards _ pending⟩
        · exact ⟨_, rfl, foundAfter, .discards _ pending⟩
      · exact ⟨transaction, rfl, (swept.spared key doomed).trans found, .same⟩

theorem Swept.unchained (swept : Swept predicate cause before after)
    (unchained : Unchained before) : Unchained after := by
  intro key later discarded pending foundDiscarded isDiscarded foundPending isPending chained
  obtain ⟨survives, foundBefore⟩ := swept.of_pending foundPending isPending
  by_cases doomed : Doomed predicate before key
  · obtain ⟨previous, foundPrevious, _⟩ := doomed.pending
    obtain ⟨changed, foundChanged, sentenced⟩ := swept.doomed key previous doomed foundPrevious
    rw [foundDiscarded] at foundChanged
    obtain rfl := Option.some.inj foundChanged
    have sameDetails : discarded.details = previous.details := by
      rcases sentenced with ⟨_, rfl⟩ | ⟨_, rfl⟩ <;> rfl
    rw [sameDetails] at chained
    exact survives (.follows doomed foundPrevious foundBefore isPending chained)
  · rw [swept.spared key doomed] at foundDiscarded
    exact unchained key later discarded pending foundDiscarded isDiscarded foundBefore isPending
      chained

theorem Moves.trans {key : TransactionId} {first second third : TransactionRecord}
    (earlier : Moves event key first second) (later : Moves event key second third) :
    Moves event key first third := by
  cases earlier with
  | same => exact later
  | commits reported about pending =>
      cases later with
      | same => exact .commits reported about pending
      | commits _ _ settled => cases settled
      | discards _ settled => cases settled
  | discards cause pending =>
      cases later with
      | same => exact .discards cause pending
      | commits _ _ settled => cases settled
      | discards _ settled => cases settled

theorem Advances.trans (earlier : Advances event before middle)
    (later : Advances event middle after) : Advances event before after := by
  intro key
  rcases earlier key with ⟨absent, absentMiddle⟩ | ⟨first, second, found, foundMiddle, moves⟩
  · rcases later key with ⟨_, absentAfter⟩ | ⟨_, _, foundMiddle, _, _⟩
    · exact .inl ⟨absent, absentAfter⟩
    · rw [absentMiddle] at foundMiddle
      cases foundMiddle
  · rcases later key with ⟨absentMiddle, _⟩ | ⟨same, third, foundSame, foundAfter, further⟩
    · rw [foundMiddle] at absentMiddle
      cases absentMiddle
    · rw [foundMiddle] at foundSame
      obtain rfl := Option.some.inj foundSame
      exact .inr ⟨first, third, found, foundAfter, moves.trans further⟩

end Steps

namespace TransactionUpdateTracker

theorem discardTransactionWithPredicate_swept (predicate : TransactionRecord → Bool)
    (cause : DiscardCause) (tracker : TransactionUpdateTracker) :
    Swept (predicate · = true) cause tracker.transactions
      (tracker.discardTransactionWithPredicate predicate cause).transactions := by
  obtain ⟨after, result, swept⟩ :=
    discardCascade_swept predicate cause tracker.transactions (Nat.lt_succ_self _)
  rw [discardTransactionWithPredicate, result]
  exact swept

/-- A discarding ends, nested no deeper than there are pending transactions, and reaches
exactly the doomed ones, however long their chains are. -/
theorem discard_exact (predicate : TransactionRecord → Bool) (cause : DiscardCause)
    (tracker : TransactionUpdateTracker) :
    ∃ after,
      (∀ depth, pendingCount tracker.transactions < depth →
        discardCascade depth predicate cause tracker.transactions = some after) ∧
      Swept (predicate · = true) cause tracker.transactions after ∧
      tracker.discardTransactionWithPredicate predicate cause =
        { tracker with transactions := after } := by
  obtain ⟨after, result, swept⟩ :=
    discardCascade_swept predicate cause tracker.transactions (Nat.lt_succ_self _)
  refine ⟨after, fun depth enough => ?_, swept, ?_⟩
  · obtain ⟨deeper, found, sweptDeeper⟩ :=
      discardCascade_swept predicate cause tracker.transactions enough
    rw [found, sweptDeeper.unique swept]
  · rw [discardTransactionWithPredicate, result]
    rfl

theorem locate_eq_some {inclusion : TransactionInclusion} {transactions : Transactions}
    {key : TransactionId} {transaction : TransactionRecord}
    (located : locate inclusion transactions = some (key, transaction)) :
    transactions[key]? = some transaction ∧ Reports inclusion key transaction := by
  rw [locate] at located
  cases found : transactions[inclusion.transactionId]? with
  | some own =>
      rw [found] at located
      cases located
      exact ⟨found, .inl rfl⟩
  | none =>
      rw [found] at located
      have member := List.mem_of_find?_eq_some located
      rw [Std.ExtTreeMap.mem_toList_iff_getElem?_eq_some] at member
      exact ⟨member, .inr (List.find?_eq_some_iff_append.mp located).1⟩

/-- The entry that the tracker takes an inclusion to be about, after the update. -/
theorem applyTransactionInclusion_cases (inclusion : TransactionInclusion) (timestamp : Nat)
    (tracker : TransactionUpdateTracker) :
    (tracker.applyTransactionInclusion inclusion timestamp).transactions = tracker.transactions ∨
      ∃ key transaction, tracker.transactions[key]? = some transaction ∧
        Reports inclusion key transaction ∧ transaction.status = .pending ∧
        (tracker.applyTransactionInclusion inclusion timestamp).transactions =
          tracker.transactions.insert key
            { transaction with status := .committed inclusion.blockNum timestamp } := by
  rw [applyTransactionInclusion]
  cases located : locate inclusion tracker.transactions with
  | none => exact .inl rfl
  | some entry =>
      obtain ⟨key, transaction⟩ := entry
      obtain ⟨found, reports⟩ := locate_eq_some located
      cases status : transaction.status with
      | pending =>
          refine .inr ⟨key, transaction, found, reports, status, ?_⟩
          dsimp only
          rw [TransactionRecord.commitTransaction, status]
      | _ =>
          refine .inl (Std.ExtTreeMap.ext_getElem? fun other => ?_)
          dsimp only
          rw [TransactionRecord.commitTransaction, status, OrderedMap.getElem?_insert]
          split
          · rename_i same
            exact same ▸ found.symm
          · rfl

theorem applyTransactionInclusion_advances (inclusion : TransactionInclusion) (timestamp : Nat)
    (tracker : TransactionUpdateTracker) :
    Advances (.included inclusion timestamp) tracker.transactions
      (tracker.applyTransactionInclusion inclusion timestamp).transactions := by
  intro key
  rcases applyTransactionInclusion_cases inclusion timestamp tracker with
    unchanged | ⟨located, transaction, found, reports, pending, changed⟩
  · rw [unchanged]
    cases entry : tracker.transactions[key]? with
    | none => exact .inl ⟨rfl, rfl⟩
    | some transaction => exact .inr ⟨transaction, transaction, rfl, rfl, .same⟩
  · rw [changed, OrderedMap.getElem?_insert]
    split
    · rename_i same
      subst same
      exact .inr ⟨transaction, _, found, rfl, .commits rfl reports pending⟩
    · cases entry : tracker.transactions[key]? with
      | none => exact .inl ⟨rfl, rfl⟩
      | some transaction => exact .inr ⟨transaction, transaction, rfl, rfl, .same⟩

theorem applyTransactionInclusion_unchained (inclusion : TransactionInclusion) (timestamp : Nat)
    (tracker : TransactionUpdateTracker) (unchained : Unchained tracker.transactions) :
    Unchained (tracker.applyTransactionInclusion inclusion timestamp).transactions := by
  rcases applyTransactionInclusion_cases inclusion timestamp tracker with
    unchanged | ⟨located, transaction, found, reports, pending, changed⟩
  · rwa [unchanged]
  · -- Neither the discarded nor the pending entry can be the one that is now committed.
    intro key later discarded waiting foundDiscarded isDiscarded foundWaiting isPending
    rw [changed, OrderedMap.getElem?_insert] at foundDiscarded foundWaiting
    split at foundDiscarded
    · rw [← Option.some.inj foundDiscarded] at isDiscarded
      cases isDiscarded
    · split at foundWaiting
      · rw [← Option.some.inj foundWaiting] at isPending
        cases isPending
      · exact unchained key later discarded waiting foundDiscarded isDiscarded foundWaiting
          isPending

/-- Every update other than an inclusion is one or two discardings. -/
theorem apply_step (tracker : TransactionUpdateTracker) (event : TransactionEvent) :
    Advances event tracker.transactions (tracker.apply event).transactions ∧
      (Unchained tracker.transactions → Unchained (tracker.apply event).transactions) := by
  cases event with
  | included inclusion timestamp =>
      exact ⟨applyTransactionInclusion_advances inclusion timestamp tracker,
        applyTransactionInclusion_unchained inclusion timestamp tracker⟩
  | heightUpdated newSyncHeight txDiscardDelta =>
      cases txDiscardDelta with
      | none =>
          have expired := discardTransactionWithPredicate_swept
            (fun transaction => transaction.details.expirationBlockNum ≤ newSyncHeight) .expired
            tracker
          exact ⟨expired.advances, expired.unchained⟩
      | some delta =>
          have stale := discardTransactionWithPredicate_swept
            (fun transaction => transaction.details.submissionHeight < newSyncHeight - delta)
            .stale tracker
          have expired := discardTransactionWithPredicate_swept
            (fun transaction => transaction.details.expirationBlockNum ≤ newSyncHeight) .expired
            (tracker.discardTransactionWithPredicate
              (fun transaction => transaction.details.submissionHeight < newSyncHeight - delta)
              .stale)
          exact ⟨stale.advances.trans expired.advances,
            fun unchained => expired.unchained (stale.unchained unchained)⟩
  | noteNullified nullifier =>
      have swept := discardTransactionWithPredicate_swept
        (fun transaction => transaction.details.inputNoteNullifiers.contains nullifier)
        .inputConsumed tracker
      exact ⟨swept.advances, swept.unchained⟩
  | accountStateInvalid state =>
      have swept := discardTransactionWithPredicate_swept
        (fun transaction => transaction.details.initAccountState = state)
        .discardedInitialState tracker
      exact ⟨swept.advances, swept.unchained⟩

/-! ### Whole runs -/

/-- Where the entry of a transaction stands after some updates, against its first record. -/
structure Justified (events : List TransactionEvent) (key : TransactionId)
    (original transaction : TransactionRecord) : Prop where
  unchanged : transaction = { original with status := transaction.status }
  reported : ∀ height timestamp, transaction.status = .committed height timestamp →
    ∃ inclusion : TransactionInclusion, .included inclusion timestamp ∈ events ∧
      inclusion.blockNum = height ∧ Reports inclusion key original

theorem Justified.step {events : List TransactionEvent} {event : TransactionEvent}
    {key : TransactionId} {original transaction moved : TransactionRecord}
    (justified : Justified events key original transaction)
    (moves : Moves event key transaction moved) :
    Justified (events ++ [event]) key original moved := by
  cases moves with
  | same =>
      refine ⟨justified.unchanged, fun height timestamp committed => ?_⟩
      obtain ⟨inclusion, member, about⟩ := justified.reported height timestamp committed
      exact ⟨inclusion, List.mem_append_left _ member, about⟩
  | @commits inclusion timestamp reported about pending =>
      constructor
      · rw [justified.unchanged]
      · intro height stamp committed
        obtain ⟨rfl, rfl⟩ := TransactionStatus.committed.inj committed
        rw [justified.unchanged] at about
        exact ⟨inclusion, List.mem_append_right _ (reported ▸ List.mem_singleton_self _), rfl,
          about⟩
  | discards cause pending =>
      constructor
      · rw [justified.unchanged]
        rfl
      · intro height stamp committed
        cases committed

theorem run_append (tracker : TransactionUpdateTracker) (earlier later : List TransactionEvent) :
    tracker.run (earlier ++ later) = (tracker.run earlier).run later :=
  List.foldl_append

/-- What is settled after some of the updates is the same after all of them. -/
theorem run_settled {tracker : TransactionUpdateTracker} {key : TransactionId}
    {transaction : TransactionRecord} (found : tracker.transactions[key]? = some transaction)
    (settled : transaction.status ≠ .pending) (events : List TransactionEvent) :
    (tracker.run events).transactions[key]? = some transaction := by
  induction events generalizing tracker with
  | nil => exact found
  | cons event others inductionHypothesis =>
      refine inductionHypothesis ?_
      rcases (tracker.apply_step event).1 key with
        ⟨absent, _⟩ | ⟨same, moved, foundSame, after, moves⟩
      · rw [found] at absent
        cases absent
      · rw [found] at foundSame
        obtain rfl := Option.some.inj foundSame
        cases moves with
        | same => exact after
        | commits _ _ pending => exact absurd pending settled
        | discards _ pending => exact absurd pending settled

theorem run_unchained {tracker : TransactionUpdateTracker}
    (unchained : Unchained tracker.transactions) (events : List TransactionEvent) :
    Unchained (tracker.run events).transactions := by
  induction events generalizing tracker with
  | nil => exact unchained
  | cons event others inductionHypothesis =>
      exact inductionHypothesis ((tracker.apply_step event).2 unchained)

/-- Every entry of a run goes back to the record that the tracker was created with. -/
theorem run_justified {records : List TransactionRecord} {key : TransactionId}
    {transaction : TransactionRecord}
    (allPending : ∀ record ∈ records, record.status = .pending) (events : List TransactionEvent)
    (found : ((new records).run events).transactions[key]? = some transaction) :
    ∃ original ∈ records, original.id = key ∧ Justified events key original transaction := by
  induction events using List.reverseRecOn generalizing transaction with
  | nil =>
      obtain ⟨member, sameKey⟩ := OrderedMap.getElem?_collect_key found
      refine ⟨transaction, member, sameKey, rfl, fun height timestamp committed => ?_⟩
      rw [allPending transaction member] at committed
      cases committed
  | append_singleton earlier event inductionHypothesis =>
      rw [run_append] at found
      rcases (((new records).run earlier).apply_step event).1 key with
        ⟨_, absent⟩ | ⟨previous, moved, foundPrevious, foundMoved, moves⟩
      · cases absent.symm.trans found
      · obtain rfl := Option.some.inj (foundMoved.symm.trans found)
        obtain ⟨original, member, sameKey, justified⟩ := inductionHypothesis foundPrevious
        exact ⟨original, member, sameKey, justified.step moves⟩

theorem unchained_new {records : List TransactionRecord}
    (allPending : ∀ record ∈ records, record.status = .pending) :
    Unchained (new records).transactions := by
  intro key later discarded pending found isDiscarded
  have member := (OrderedMap.getElem?_collect_key found).1
  rw [TransactionRecord.isDiscarded, allPending discarded member] at isDiscarded
  cases isDiscarded

/-- After any updates in any order: what was settled at some point stays as it was then, no
pending transaction builds on a discarded one, and a committed transaction is one of the
records at the start that the node has reported for that block. -/
theorem run_consistent (records : List TransactionRecord)
    (allPending : ∀ record ∈ records, record.status = .pending)
    (earlier later : List TransactionEvent) :
    (∀ (key : TransactionId) (transaction : TransactionRecord),
      ((new records).run earlier).transactions[key]? = some transaction →
      transaction.status ≠ .pending →
      ((new records).run (earlier ++ later)).transactions[key]? = some transaction) ∧
    Unchained ((new records).run (earlier ++ later)).transactions ∧
    ∀ (key : TransactionId) (transaction : TransactionRecord),
      ((new records).run (earlier ++ later)).transactions[key]? = some transaction →
      ∃ original ∈ records, original.id = key ∧
        Justified (earlier ++ later) key original transaction := by
  refine ⟨fun key transaction found settled => ?_, run_unchained (unchained_new allPending) _,
    fun key transaction found => run_justified allPending _ found⟩
  rw [run_append]
  exact run_settled found settled later

/-- A deposit that consumes a note, and the transfer of the same account after it. -/
def depositTransaction : TransactionRecord :=
  ⟨1, ⟨5, ⟨0, 0, 0, 1⟩, ⟨0, 0, 0, 2⟩, [7], 10, 50⟩, .pending⟩

@[inherit_doc depositTransaction]
def transferTransaction : TransactionRecord :=
  ⟨2, ⟨5, ⟨0, 0, 0, 2⟩, ⟨0, 0, 0, 3⟩, [], 11, 50⟩, .pending⟩

/-- The transfer goes with the deposit whose note others have consumed, and a later report of
it comes too late. -/
theorem run_consistent_chain :
    ((new [depositTransaction, transferTransaction]).run ([.noteNullified 7] ++
        [.included ⟨2, 12, 5, ⟨0, 0, 0, 2⟩, []⟩ 99])).transactions[2]? =
      some (transferTransaction.discarded .discardedInitialState) :=
  (run_consistent [depositTransaction, transferTransaction] (by decide) [.noteNullified 7]
    [.included ⟨2, 12, 5, ⟨0, 0, 0, 2⟩, []⟩ 99]).1 2
      (transferTransaction.discarded .discardedInitialState) (by decide) nofun

end TransactionUpdateTracker

end MidenWorkspace.Client
