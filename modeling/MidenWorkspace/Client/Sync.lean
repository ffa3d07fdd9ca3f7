import MidenWorkspace.Client.NoteStore
import MidenWorkspace.Client.TransactionRun

/-!
Contract: one synchronisation of a client with the network.

Owns the order in which the answers of the node are applied to the notes and to the
transactions, with the decisions of the note screener and the answers themselves as
parameters. Proves that a synchronisation is a run of both trackers, and that the two agree
at its end (`Consistent`, `Settled`).

Does not own the chain of block headers, the accounts, and the requests to the node.
-/

namespace MidenWorkspace.Client

open Library (OrderedMap)
open Library.Structured

/-- A transaction of the answer, with what became of the notes that it creates. -/
structure TransactionReport (μ π : Type) extends TransactionInclusion where
  outputNotes : List (CommittedNote μ π)
  erasedOutputNoteIds : List NoteId

structure NoteBlock (μ π : Type) where
  blockHeader : BlockHeader
  notes : OrderedMap NoteId (CommittedNote μ π)

/-- A public note whose content was fetched. -/
structure PublicNote (μ : Type) where
  details : NoteDetails
  metadata : μ

structure RawStateSyncData (μ π : Type) where
  chainTipHeader : BlockHeader
  noteBlocks : List (NoteBlock μ π)
  publicNotes : OrderedMap NoteId (PublicNote μ)
  nullifiers : List Nullifier
  transactions : List (TransactionReport μ π)

/-- What the requests of one synchronisation come back with. -/
structure NodeAnswers (μ π : Type) where
  /-- `fetch_sync_data`: nothing, if the client is at the tip of the chain already. -/
  syncData : Except ClientError (Option (RawStateSyncData μ π))
  /-- `account_state_sync`, which changes no note. -/
  accounts : Except ClientError Unit
  newNullifiers : Except ClientError (List NullifierUpdate)

/-- The nullifiers of the fetched notes go with their identifiers. -/
def RawStateSyncData.FetchedFit {μ π : Type} (nullifierOf : NoteId → Nullifier)
    (data : RawStateSyncData μ π) : Prop :=
  ∀ (noteId : NoteId) (note : PublicNote μ), data.publicNotes[noteId]? = some note →
    note.details.nullifier = nullifierOf note.details.id

@[inherit_doc RawStateSyncData.FetchedFit]
def NodeAnswers.FetchedFit {μ π : Type} (answers : NodeAnswers μ π)
    (nullifierOf : NoteId → Nullifier) : Prop :=
  ∀ data, answers.syncData = .ok (some data) → data.FetchedFit nullifierOf

inductive NoteUpdateAction (μ π : Type) where
  | commit (note : CommittedNote μ π)
  | insert (note : InputNoteRecord μ π)
  | discard

/-- What the client consults besides the node. -/
structure StateSync (μ π : Type) where
  scheme : NoteScheme μ π
  onNoteReceived : CommittedNote μ π → Option (InputNoteRecord μ π) →
    Except ClientError (NoteUpdateAction μ π)
  txDiscardDelta : Option Nat
  syncNullifiers : Bool

structure StateSyncUpdate (μ π : Type) where
  blockNum : BlockNumber
  noteUpdates : NoteUpdateTracker μ π
  transactionUpdates : TransactionUpdateTracker

namespace StateSync

variable {μ π : Type}

/-- The record of a fetched note, if a block of the answer has its inclusion proof. -/
def publicNoteRecord (noteBlocks : List (NoteBlock μ π)) (noteId : NoteId) (note : PublicNote μ) :
    Option (InputNoteRecord μ π) :=
  (noteBlocks.findSome? fun block => block.notes[noteId]?).map fun committed =>
    ⟨note.details, none, .unverified note.metadata committed.inclusionProof⟩

def publicNoteRecords (data : RawStateSyncData μ π) : OrderedMap NoteId (InputNoteRecord μ π) :=
  OrderedMap.collect ((data.publicNotes.toList.filterMap fun entry =>
    publicNoteRecord data.noteBlocks entry.1 entry.2).map fun record => (record.id, record))

variable [DecidableEq μ] [DecidableEq π] (sync : StateSync μ π)

/-- The body of the loop of `note_state_sync`. The flag says whether the block is relevant. -/
def screenNote (publicNotes : OrderedMap NoteId (InputNoteRecord μ π)) (header : BlockHeader)
    (state : Bool × NoteUpdateTracker μ π) (committedNote : CommittedNote μ π) :
    Except ClientError (Bool × NoteUpdateTracker μ π) := do
  let publicNote := if committedNote.isPrivate then none else publicNotes[committedNote.noteId]?
  match ← sync.onNoteReceived committedNote publicNote with
  | .commit note => do
      let (tracked, notes) ← state.2.applyCommittedNoteStateTransitions sync.scheme note header
      return (state.1 || tracked, notes)
  | .insert note => do
      let notes ← state.2.applyNewPublicNote sync.scheme note header
      return (true, notes)
  | .discard => return state

def noteStateSync (publicNotes : OrderedMap NoteId (InputNoteRecord μ π)) (block : NoteBlock μ π)
    (notes : NoteUpdateTracker μ π) : Except ClientError (Bool × NoteUpdateTracker μ π) :=
  block.notes.values.foldlM (sync.screenNote publicNotes block.blockHeader) (false, notes)

omit [DecidableEq μ] [DecidableEq π] in
def transactionStateSync (header : BlockHeader) (inclusions : List TransactionInclusion)
    (tracker : TransactionUpdateTracker) : TransactionUpdateTracker :=
  (inclusions.foldl (fun tracker inclusion =>
    tracker.applyTransactionInclusion inclusion header.timestamp) tracker).applySyncHeightUpdate
      header.blockNum sync.txDiscardDelta

omit [DecidableEq μ] [DecidableEq π] in
/-- Errors are ignored. -/
def markErasedNotesAsConsumed (report : TransactionReport μ π) (notes : NoteUpdateTracker μ π) :
    NoteUpdateTracker μ π :=
  report.erasedOutputNoteIds.foldl (fun notes noteId =>
    (notes.markErasedNoteAsConsumed sync.scheme noteId report.blockNum).2) notes

def applySyncResult (data : RawStateSyncData μ π) (update : StateSyncUpdate μ π) :
    Except ClientError (StateSyncUpdate μ π) := do
  let publicNotes := publicNoteRecords data
  let screened ← data.noteBlocks.foldlM (fun notes block => do
    let (_, after) ← sync.noteStateSync publicNotes block notes
    return after) update.noteUpdates
  let transactionUpdates := sync.transactionStateSync data.chainTipHeader
    (data.transactions.map (·.toTransactionInclusion)) update.transactionUpdates
  let noteUpdates ← data.transactions.foldlM (fun notes report => do
    let proved ← notes.applyOutputNoteInclusionProofs report.outputNotes
    return sync.markErasedNotesAsConsumed report proved)
    (screened.extendNullifiers data.nullifiers)
  return { update with noteUpdates, transactionUpdates }

omit [DecidableEq μ] [DecidableEq π] in
def applyNullifier (update : StateSyncUpdate μ π) (nullifierUpdate : NullifierUpdate) :
    Except ClientError (StateSyncUpdate μ π) := do
  let externalConsumerAccount :=
    update.transactionUpdates.externalNullifierAccount nullifierUpdate.nullifier
  let noteUpdates ← update.noteUpdates.applyNullifiersStateTransitions nullifierUpdate
    update.transactionUpdates.committedTransactions externalConsumerAccount
  return { update with
    noteUpdates
    transactionUpdates :=
      update.transactionUpdates.applyInputNoteNullified nullifierUpdate.nullifier }

omit [DecidableEq μ] [DecidableEq π] in
/-- The answer of the node may reach further than the block of the synchronisation. -/
def nullifiersStateSync (newNullifiers : List NullifierUpdate) (update : StateSyncUpdate μ π) :
    Except ClientError (StateSyncUpdate μ π) :=
  (newNullifiers.filter fun nullifierUpdate =>
    nullifierUpdate.blockNum ≤ update.blockNum).foldlM applyNullifier update

/-- The block is the one that the client has synchronised to before. -/
def syncState (blockNum : BlockNumber) (inputNotes : List (InputNoteRecord μ π))
    (outputNotes : List (OutputNoteRecord μ π)) (uncommittedTransactions : List TransactionRecord)
    (answers : NodeAnswers μ π) : Except ClientError (StateSyncUpdate μ π) := do
  let start : StateSyncUpdate μ π :=
    ⟨blockNum, .new inputNotes outputNotes, .new uncommittedTransactions⟩
  match ← answers.syncData with
  | none => return start
  | some data => do
      answers.accounts
      let applied ← sync.applySyncResult data
        { start with blockNum := data.chainTipHeader.blockNum }
      if sync.syncNullifiers then do
        let newNullifiers ← answers.newNullifiers
        nullifiersStateSync newNullifiers applied
      else return applied

/-! ### A synchronisation is a run of both trackers -/

section Runs

open NoteUpdateTracker

variable {sync} {nullifierOf : NoteId → Nullifier}
  {Committed : TransactionId → BlockNumber → Prop} {data : RawStateSyncData μ π}

/-- The screener inserts no note but the one that it was shown, as the one of the client does. -/
def InsertsShown (sync : StateSync μ π) : Prop :=
  ∀ committedNote shown note, sync.onNoteReceived committedNote shown = .ok (.insert note) →
    shown = some note

omit [DecidableEq μ] [DecidableEq π] in
theorem publicNoteRecords_fit (fetched : data.FetchedFit nullifierOf) {noteId : NoteId}
    {record : InputNoteRecord μ π} (found : (publicNoteRecords data)[noteId]? = some record) :
    Fits sync.scheme nullifierOf record ∧ record.state.locallyConsumed = none := by
  obtain ⟨member, _⟩ := OrderedMap.getElem?_collect_key found
  obtain ⟨⟨key, note⟩, inNotes, built⟩ := List.mem_filterMap.mp member
  obtain ⟨committed, _, rfl⟩ := Option.map_eq_some_iff.mp built
  have fits := fetched key note (Std.ExtTreeMap.mem_toList_iff_getElem?_eq_some.mp inNotes)
  exact ⟨⟨fits, trivial⟩, rfl⟩

theorem screenNote_reaches (inserts : sync.InsertsShown) (fetched : data.FetchedFit nullifierOf)
    {header : BlockHeader} {committedNote : CommittedNote μ π}
    {state after : Bool × NoteUpdateTracker μ π}
    (result : sync.screenNote (publicNoteRecords data) header state committedNote = .ok after) :
    Reaches sync.scheme nullifierOf Committed state.2 after.2 := by
  obtain ⟨action, received, acting⟩ := bind_eq_ok_iff.mp result
  cases action with
  | commit note =>
      obtain ⟨⟨tracked, notes⟩, applied, written⟩ := bind_eq_ok_iff.mp acting
      obtain rfl := Except.ok.inj written
      have event : state.2.apply sync.scheme (.committedNote note header) = .ok notes := by
        rw [NoteUpdateTracker.apply, applied]
        rfl
      exact .single event trivial trivial
  | insert note =>
      obtain ⟨notes, applied, written⟩ := bind_eq_ok_iff.mp acting
      obtain rfl := Except.ok.inj written
      have shown := inserts committedNote _ note received
      have found : (publicNoteRecords data)[committedNote.noteId]? = some note := by
        split at shown
        · cases shown
        · exact shown
      have event : state.2.apply sync.scheme (.newPublicNote note header) = .ok notes := applied
      exact .single event (publicNoteRecords_fit fetched found) trivial
  | discard =>
      obtain rfl := Except.ok.inj acting
      exact .refl _

theorem noteStateSync_reaches (inserts : sync.InsertsShown)
    (fetched : data.FetchedFit nullifierOf) {block : NoteBlock μ π}
    {notes : NoteUpdateTracker μ π} {after : Bool × NoteUpdateTracker μ π}
    (result : sync.noteStateSync (publicNoteRecords data) block notes = .ok after) :
    Reaches sync.scheme nullifierOf Committed notes after.2 := by
  rw [noteStateSync] at result
  exact .foldlM Prod.snd (screenNote_reaches inserts fetched) result

theorem markErasedNotesAsConsumed_reaches (report : TransactionReport μ π)
    (notes : NoteUpdateTracker μ π) :
    Reaches sync.scheme nullifierOf Committed notes
      (sync.markErasedNotesAsConsumed report notes) := by
  rw [markErasedNotesAsConsumed]
  induction report.erasedOutputNoteIds generalizing notes with
  | nil => exact .refl _
  | cons noteId others inductionHypothesis =>
      have event : notes.apply sync.scheme (.erasedNote noteId report.blockNum) =
          .ok (notes.markErasedNoteAsConsumed sync.scheme noteId report.blockNum).2 := rfl
      exact (Reaches.single event trivial trivial).trans (inductionHypothesis _)

/-- The events of the transactions in one answer. -/
def transactionEvents (sync : StateSync μ π) (data : RawStateSyncData μ π) :
    List TransactionEvent :=
  (data.transactions.map fun report =>
    .included report.toTransactionInclusion data.chainTipHeader.timestamp) ++
    [.heightUpdated data.chainTipHeader.blockNum sync.txDiscardDelta]

omit [DecidableEq μ] [DecidableEq π] in
theorem transactionStateSync_eq_run (tracker : TransactionUpdateTracker) :
    sync.transactionStateSync data.chainTipHeader
        (data.transactions.map (·.toTransactionInclusion)) tracker =
      tracker.run (transactionEvents sync data) := by
  rw [transactionStateSync, transactionEvents, TransactionUpdateTracker.run, List.foldl_append,
    List.foldl_map, List.foldl_map]
  rfl

variable (Committed) in
theorem applySyncResult_reaches (inserts : sync.InsertsShown)
    (fetched : data.FetchedFit nullifierOf) {before after : StateSyncUpdate μ π}
    (result : sync.applySyncResult data before = .ok after) :
    after.blockNum = before.blockNum ∧
      after.transactionUpdates = before.transactionUpdates.run (transactionEvents sync data) ∧
      Reaches sync.scheme nullifierOf Committed before.noteUpdates after.noteUpdates := by
  obtain ⟨screened, screening, further⟩ := bind_eq_ok_iff.mp result
  obtain ⟨notes, processing, written⟩ := bind_eq_ok_iff.mp further
  obtain rfl := Except.ok.inj written
  refine ⟨rfl, transactionStateSync_eq_run _, ?_⟩
  have blocks : Reaches sync.scheme nullifierOf Committed before.noteUpdates screened := by
    refine Reaches.foldlM id (fun {tracker block after} synced => ?_) screening
    obtain ⟨⟨relevant, notes⟩, screenedBlock, writtenBlock⟩ := bind_eq_ok_iff.mp synced
    obtain rfl := Except.ok.inj writtenBlock
    exact noteStateSync_reaches inserts fetched screenedBlock
  have ordered : screened.apply sync.scheme (.orderedNullifiers data.nullifiers) =
      .ok (screened.extendNullifiers data.nullifiers) := rfl
  have reports : Reaches sync.scheme nullifierOf Committed
      (screened.extendNullifiers data.nullifiers) notes := by
    refine Reaches.foldlM id (fun {tracker report after} applied => ?_) processing
    obtain ⟨proved, proving, writtenReport⟩ := bind_eq_ok_iff.mp applied
    obtain rfl := Except.ok.inj writtenReport
    have event : tracker.apply sync.scheme (.outputInclusionProofs report.outputNotes) =
        .ok proved := proving
    exact (Reaches.single event trivial trivial).trans
      (markErasedNotesAsConsumed_reaches report proved)
  exact (blocks.trans (.single ordered trivial trivial)).trans reports

end Runs

end StateSync

/-! ### The two trackers agree -/

/-- The transaction is known to be committed at the height. -/
def CommittedAt (transactions : Transactions) (transaction : TransactionId)
    (height : BlockNumber) : Prop :=
  ∃ record timestamp, transactions[transaction]? = some record ∧
    record.status = .committed height timestamp

/-- Every transaction is under its own identifier. -/
def OwnKeys (transactions : Transactions) : Prop :=
  ∀ (key : TransactionId) (record : TransactionRecord), transactions[key]? = some record →
    record.id = key

section Transactions

variable {tracker : TransactionUpdateTracker}

theorem OwnKeys.run (own : OwnKeys tracker.transactions) (events : List TransactionEvent) :
    OwnKeys (tracker.run events).transactions := by
  induction events generalizing tracker with
  | nil => exact own
  | cons event others inductionHypothesis =>
      refine inductionHypothesis fun key record found => ?_
      rcases (tracker.apply_step event).1 key with
        ⟨_, absent⟩ | ⟨previous, moved, foundPrevious, foundMoved, moves⟩
      · cases absent.symm.trans found
      · obtain rfl := Option.some.inj (foundMoved.symm.trans found)
        have sameId : moved.id = previous.id := by cases moves <;> rfl
        exact sameId.trans (own key previous foundPrevious)

theorem CommittedAt.run {transaction : TransactionId} {height : BlockNumber}
    (committed : CommittedAt tracker.transactions transaction height)
    (events : List TransactionEvent) :
    CommittedAt (tracker.run events).transactions transaction height := by
  obtain ⟨record, timestamp, found, status⟩ := committed
  refine ⟨record, timestamp, TransactionUpdateTracker.run_settled found ?_ events, status⟩
  rw [status]
  exact TransactionStatus.noConfusion

theorem lists_committedTransactions (own : OwnKeys tracker.transactions) :
    NoteUpdateTracker.Lists (CommittedAt tracker.transactions) tracker.committedTransactions := by
  intro record member height timestamp status
  obtain ⟨key, found⟩ := OrderedMap.mem_values.mp (List.mem_filter.mp member).1
  rw [own key record found]
  exact ⟨record, timestamp, found, status⟩

/-- No transaction that spends the nullifier is pending. -/
def NotPending (nullifier : Nullifier) (transactions : Transactions) : Prop :=
  ∀ (key : TransactionId) (record : TransactionRecord), transactions[key]? = some record →
    record.status = .pending → nullifier ∉ record.details.inputNoteNullifiers

theorem NotPending.apply {nullifier : Nullifier}
    (settled : NotPending nullifier tracker.transactions)
    (event : TransactionEvent) : NotPending nullifier (tracker.apply event).transactions := by
  intro key record found pending
  rcases (tracker.apply_step event).1 key with
    ⟨_, absent⟩ | ⟨previous, moved, foundPrevious, foundMoved, moves⟩
  · cases absent.symm.trans found
  · obtain rfl := Option.some.inj (foundMoved.symm.trans found)
    cases moves with
    | same => exact settled key _ foundPrevious pending
    | commits => cases pending
    | discards => cases pending

theorem notPending_applyInputNoteNullified (nullifier : Nullifier) :
    NotPending nullifier (tracker.applyInputNoteNullified nullifier).transactions := by
  intro key record found pending spends
  have swept := TransactionUpdateTracker.discardTransactionWithPredicate_swept
    (fun transaction => transaction.details.inputNoteNullifiers.contains nullifier)
    .inputConsumed tracker
  obtain ⟨survives, foundBefore⟩ := swept.of_pending found pending
  exact survives (.selected foundBefore pending (List.contains_iff_mem.mpr spends))

end Transactions

section Notes

variable {μ π : Type} {scheme : NoteScheme μ π} {nullifierOf : NoteId → Nullifier}
  {Committed : TransactionId → BlockNumber → Prop} {before after : NoteUpdateTracker μ π}

theorem InputNoteRecord.consumedExternally_isConsumed {note changed : InputNoteRecord μ π}
    {nullifier : Nullifier} {height : BlockNumber} {account : Option AccountId}
    (result : note.consumedExternally nullifier height account = .ok changed) :
    changed.isConsumed = true := by
  rw [InputNoteRecord.consumedExternally] at result
  split at result
  · cases result
  · obtain ⟨details, createdAt, state⟩ := note
    cases state <;>
      · obtain rfl := Except.ok.inj result
        rfl

theorem InputNoteRecord.transactionCommitted_isConsumed {note changed : InputNoteRecord μ π}
    {transaction : TransactionId} {height : BlockNumber}
    (result : note.transactionCommitted transaction height = .ok changed) :
    changed.isConsumed = true := by
  obtain ⟨details, createdAt, state⟩ := note
  rw [InputNoteRecord.transactionCommitted] at result
  cases state with
  | processingAuthenticated | processingUnauthenticated =>
      rw [InputNoteState.transactionCommitted] at result
      split at result
      · cases result
      · obtain rfl := Except.ok.inj result
        rfl
  | _ => cases result

theorem InputNoteRecord.isConsumed_setConsumedTxOrder (order : Option Nat)
    (note : InputNoteRecord μ π) :
    (note.setConsumedTxOrder order).isConsumed = note.isConsumed := by
  obtain ⟨details, createdAt, state⟩ := note
  cases state <;> rfl

theorem OutputNoteRecord.nullifierReceived_isConsumed {note changed : OutputNoteRecord μ π}
    {nullifier : Nullifier} {height : BlockNumber}
    (result : note.nullifierReceived nullifier height = .ok changed) :
    changed.isConsumed = true := by
  rw [OutputNoteRecord.nullifierReceived] at result
  split at result
  · cases result
  · obtain ⟨noteId, metadata, state, expectedHeight⟩ := note
    cases state with
    | expectedPartial | committedPartial => cases result
    | _ =>
        obtain rfl := Except.ok.inj result
        rfl

/-- A nullifier consumes the input note that it is applied to. -/
theorem consumeInputNote_isConsumed {update : NullifierUpdate} {committed : List TransactionRecord}
    {account : Option AccountId} {order : Option Nat} {note changed : InputNoteRecord μ π}
    (allCommitted : ∀ transaction ∈ committed, transaction.isCommitted = true)
    (result : NoteUpdateTracker.consumeInputNote update committed account order note =
      .ok changed) :
    changed.isConsumed = true := by
  obtain ⟨consumed, consuming, written⟩ := bind_eq_ok_iff.mp result
  obtain rfl := Except.ok.inj written
  rw [InputNoteRecord.isConsumed_setConsumedTxOrder]
  rw [NoteUpdateTracker.attributeConsumption] at consuming
  have listed := fun transaction => List.mem_of_find?_eq_some (l := committed) (a := transaction)
    (p := fun transaction => note.state.consumerTransactionId = some transaction.id)
  generalize committed.find? _ = consumer at consuming listed
  cases consumer with
  | none => exact InputNoteRecord.consumedExternally_isConsumed (liftRecord_eq_ok consuming)
  | some consumer =>
      have isCommitted := allCommitted consumer (listed consumer rfl)
      obtain ⟨transactionId, details, status⟩ := consumer
      cases status with
      | committed blockNumber timestamp =>
          exact InputNoteRecord.transactionCommitted_isConsumed (liftRecord_eq_ok consuming)
      | _ => cases isCommitted

/-- Every tracked note with the nullifier is consumed. -/
structure NoteUpdateTracker.Spent (nullifier : Nullifier) (tracker : NoteUpdateTracker μ π) :
    Prop where
  inputs : ∀ (noteId : NoteId) (entry : NoteUpdate (InputNoteRecord μ π)),
    tracker.inputNotes[noteId]? = some entry → entry.note.nullifier = nullifier →
      entry.note.isConsumed = true
  outputs : ∀ (noteId : NoteId) (entry : NoteUpdate (OutputNoteRecord μ π)),
    tracker.outputNotes[noteId]? = some entry → entry.note.nullifier = some nullifier →
      entry.note.isConsumed = true

namespace NoteUpdateTracker

theorem Spent.tracks {nullifier : Nullifier} (spent : Spent nullifier before)
    (tracks : Tracks scheme Committed before after) : Spent nullifier after := by
  constructor
  · refine tracks.inputs.forall (fun _ note => note.nullifier = nullifier → note.isConsumed = true)
      (fun keeps consumed same => ?_) spent.inputs
    have sameNullifier := congrArg NoteDetails.nullifier keeps.details
    exact keeps.isConsumed (consumed (sameNullifier.symm.trans same))
  · refine tracks.outputs.forall
      (fun _ note => note.nullifier = some nullifier → note.isConsumed = true)
      (fun keeps consumed same => ?_) spent.outputs
    have before := consumed (keeps.nullifier.symm.trans same)
    rw [keeps.consumed before]
    exact before

/-- What a change through an index does to the notes with the nullifier. -/
theorem changeByNullifier_found {ρ κ : Type} {index : OrderedMap Nullifier NoteId}
    {notes changed : Notes ρ} {nullifier : Nullifier} {change : ρ → Except ClientError ρ}
    {keyOf : ρ → κ} {key : κ}
    (listed : ∀ noteId : NoteId, index[nullifier]? = some noteId ↔
      ∃ entry, notes[noteId]? = some entry ∧ keyOf entry.note = key)
    (result : changeByNullifier index notes nullifier change = .ok changed)
    {noteId : NoteId} {entry : NoteUpdate ρ} (found : changed[noteId]? = some entry)
    (hasKey : keyOf entry.note = key) : ∃ note, change note = .ok entry.note := by
  rw [changeByNullifier] at result
  cases located : index[nullifier]? with
  | none =>
      rw [located] at result
      obtain rfl := Except.ok.inj result
      rw [(listed noteId).mpr ⟨entry, found, hasKey⟩] at located
      cases located
  | some target =>
      rw [located] at result
      rcases changeNote_eq_ok result with ⟨absent, _⟩ | ⟨previous, note, foundBefore, changing, rfl⟩
      · obtain ⟨previous, foundBefore, _⟩ := (listed target).mp located
        cases absent.symm.trans foundBefore
      · rw [OrderedMap.getElem?_insert] at found
        split at found
        · obtain rfl := Option.some.inj found
          exact ⟨previous.note, changing⟩
        · rename_i different
          have alsoLocated := (listed noteId).mpr ⟨entry, found, hasKey⟩
          exact absurd (Option.some.inj (located.symm.trans alsoLocated)) different

theorem spent_applyNullifiers (sound : Sound scheme nullifierOf before) {update : NullifierUpdate}
    {committed : List TransactionRecord} {account : Option AccountId}
    (allCommitted : ∀ transaction ∈ committed, transaction.isCommitted = true)
    (result : before.applyNullifiersStateTransitions update committed account = .ok after) :
    Spent update.nullifier after := by
  obtain ⟨inputNotes, inputs, consuming⟩ := bind_eq_ok_iff.mp result
  obtain ⟨outputNotes, outputs, written⟩ := bind_eq_ok_iff.mp consuming
  obtain rfl := Except.ok.inj written
  constructor
  · intro noteId entry found same
    obtain ⟨note, consumed⟩ := changeByNullifier_found
      (fun noteId => sound.inputIndex update.nullifier noteId) inputs found same
    exact consumeInputNote_isConsumed allCommitted consumed
  · intro noteId entry found same
    obtain ⟨note, received⟩ := changeByNullifier_found
      (fun noteId => sound.outputIndex update.nullifier noteId) outputs found same
    exact OutputNoteRecord.nullifierReceived_isConsumed (liftRecord_eq_ok received)

end NoteUpdateTracker

end Notes

namespace StateSync

open NoteUpdateTracker

variable {μ π : Type} {sync : StateSync μ π} {nullifierOf : NoteId → Nullifier}
  {before after : StateSyncUpdate μ π}

/-- What the synchronisation keeps while it processes nullifiers. -/
structure Consistent (scheme : NoteScheme μ π) (nullifierOf : NoteId → Nullifier)
    (update : StateSyncUpdate μ π) : Prop where
  sound : Sound scheme nullifierOf update.noteUpdates
  ownKeys : OwnKeys update.transactionUpdates.transactions
  agreed : Attributed (CommittedAt update.transactionUpdates.transactions) update.noteUpdates

/-- The nullifier is known to everyone. -/
structure Settled (nullifier : Nullifier) (update : StateSyncUpdate μ π) : Prop where
  notes : Spent nullifier update.noteUpdates
  transactions : NotPending nullifier update.transactionUpdates.transactions

theorem Consistent.nullifier_step {scheme : NoteScheme μ π}
    (consistent : Consistent scheme nullifierOf before) {nullifierUpdate : NullifierUpdate}
    (result : applyNullifier before nullifierUpdate = .ok after) :
    after.blockNum = before.blockNum ∧ Consistent scheme nullifierOf after ∧
      Settled nullifierUpdate.nullifier after ∧
      ∀ nullifier, Settled nullifier before → Settled nullifier after := by
  obtain ⟨notes, applied, written⟩ := bind_eq_ok_iff.mp result
  obtain rfl := Except.ok.inj written
  have tracks : Tracks scheme (CommittedAt before.transactionUpdates.transactions)
      before.noteUpdates notes :=
    applyNullifiersStateTransitions_tracks (lists_committedTransactions consistent.ownKeys) applied
  have events : before.transactionUpdates.applyInputNoteNullified nullifierUpdate.nullifier =
      before.transactionUpdates.run [.noteNullified nullifierUpdate.nullifier] := rfl
  refine ⟨rfl, ⟨consistent.sound.tracks tracks, ?_, ?_⟩, ⟨?_, ?_⟩, fun nullifier settled => ?_⟩
  · rw [events]
    exact consistent.ownKeys.run _
  · intro noteId entry found transaction height consumer
    rw [events]
    exact (consistent.agreed.tracks tracks noteId entry found transaction height consumer).run _
  · refine spent_applyNullifiers consistent.sound (fun record member => ?_) applied
    exact (List.mem_filter.mp member).2
  · exact notPending_applyInputNoteNullified _
  · exact ⟨settled.notes.tracks tracks,
      settled.transactions.apply (.noteNullified nullifierUpdate.nullifier)⟩

theorem Consistent.nullifiers_run {scheme : NoteScheme μ π} {updates : List NullifierUpdate}
    (consistent : Consistent scheme nullifierOf before)
    (result : updates.foldlM applyNullifier before = .ok after) :
    Consistent scheme nullifierOf after ∧
      (∀ nullifierUpdate ∈ updates, Settled nullifierUpdate.nullifier after) ∧
      ∀ nullifier, Settled nullifier before → Settled nullifier after := by
  induction updates generalizing before with
  | nil =>
      obtain rfl := Except.ok.inj result
      exact ⟨consistent, fun _ member => absurd member List.not_mem_nil, fun _ settled => settled⟩
  | cons first others inductionHypothesis =>
      rw [List.foldlM_cons] at result
      obtain ⟨middle, applied, rest⟩ := bind_eq_ok_iff.mp result
      obtain ⟨_, consistentMiddle, settled, kept⟩ := consistent.nullifier_step applied
      obtain ⟨consistentAfter, settledOthers, keptAfter⟩ :=
        inductionHypothesis consistentMiddle rest
      refine ⟨consistentAfter, fun nullifierUpdate member => ?_,
        fun nullifier held => keptAfter nullifier (kept nullifier held)⟩
      rcases List.mem_cons.mp member with rfl | later
      · exact keptAfter _ settled
      · exact settledOthers nullifierUpdate later

theorem mem_of_new {inputNotes : List (InputNoteRecord μ π)}
    {outputNotes : List (OutputNoteRecord μ π)} {noteId : NoteId}
    {entry : NoteUpdate (InputNoteRecord μ π)}
    (found : (NoteUpdateTracker.new inputNotes outputNotes).inputNotes[noteId]? = some entry) :
    entry.note ∈ inputNotes := by
  rw [NoteUpdateTracker.new, foldl_insertOutputNote_inputNotes] at found
  rcases found_of_insertInputNotes found with absent | ⟨_, member, _⟩
  · simp [NoteUpdateTracker.empty] at absent
  · exact member

theorem locallyConsumed_eq_none {note : InputNoteRecord μ π} (unspent : note.isConsumed = false) :
    note.state.locallyConsumed = none := by
  obtain ⟨details, createdAt, state⟩ := note
  cases state with
  | consumedAuthenticatedLocal => cases unspent
  | consumedUnauthenticatedLocal => cases unspent
  | _ => rfl

/-- What the client loads from its store before a synchronisation. -/
structure Loaded (scheme : NoteScheme μ π) (nullifierOf : NoteId → Nullifier)
    (inputNotes : List (InputNoteRecord μ π)) (outputNotes : List (OutputNoteRecord μ π)) :
    Prop where
  inputs : ∀ note ∈ inputNotes, Fits scheme nullifierOf note
  unspent : ∀ note ∈ inputNotes, note.isConsumed = false
  outputs : ∀ note ∈ outputNotes, OutputFits nullifierOf note
  distinct : (outputNotes.map OutputNoteRecord.id).Nodup

theorem consistent_new (injective : Function.Injective nullifierOf) {scheme : NoteScheme μ π}
    {inputNotes : List (InputNoteRecord μ π)} {outputNotes : List (OutputNoteRecord μ π)}
    (loaded : Loaded scheme nullifierOf inputNotes outputNotes) (blockNum : BlockNumber)
    (transactions : List TransactionRecord) :
    Consistent scheme nullifierOf
      ⟨blockNum, .new inputNotes outputNotes, .new transactions⟩ := by
  refine ⟨sound_new injective loaded.inputs loaded.outputs loaded.distinct,
    fun key record found => (OrderedMap.getElem?_collect_key found).2,
    fun noteId entry found transaction height consumer => ?_⟩
  rw [locallyConsumed_eq_none (loaded.unspent _ (mem_of_new found))] at consumer
  cases consumer

variable [DecidableEq μ] [DecidableEq π]

/-- What a synchronisation that returns has done: nothing at the tip of the chain, and otherwise
it has applied the first answer and, where it asks for them, the nullifiers. -/
theorem syncState_eq_ok {blockNum : BlockNumber} {inputNotes : List (InputNoteRecord μ π)}
    {outputNotes : List (OutputNoteRecord μ π)} {transactions : List TransactionRecord}
    {answers : NodeAnswers μ π}
    (result : sync.syncState blockNum inputNotes outputNotes transactions answers = .ok after) :
    (answers.syncData = .ok none ∧
      after = ⟨blockNum, .new inputNotes outputNotes, .new transactions⟩) ∨
    ∃ data applied, answers.syncData = .ok (some data) ∧
      sync.applySyncResult data ⟨data.chainTipHeader.blockNum, .new inputNotes outputNotes,
        .new transactions⟩ = .ok applied ∧
      ((sync.syncNullifiers = false ∧ after = applied) ∨
        ∃ newNullifiers, answers.newNullifiers = .ok newNullifiers ∧
          nullifiersStateSync newNullifiers applied = .ok after) := by
  obtain ⟨fetched, fetching, processing⟩ := bind_eq_ok_iff.mp result
  cases fetched with
  | none => exact .inl ⟨fetching, (Except.ok.inj processing).symm⟩
  | some data =>
      obtain ⟨_, _, applying⟩ := bind_eq_ok_iff.mp processing
      obtain ⟨applied, isApplied, further⟩ := bind_eq_ok_iff.mp applying
      refine .inr ⟨data, applied, fetching, isApplied, ?_⟩
      split at further
      · obtain ⟨newNullifiers, given, nullified⟩ := bind_eq_ok_iff.mp further
        exact .inr ⟨newNullifiers, given, nullified⟩
      · rename_i disabled
        exact .inl ⟨Bool.eq_false_of_not_eq_true disabled, (Except.ok.inj further).symm⟩

/-- At the end of a synchronisation the trackers agree: the indices are those of the notes and
every authenticated note was checked, a note that a local transaction has consumed is one of a
transaction that was committed in that block, and for every nullifier up to the block of the
synchronisation the notes are consumed and no local transaction waits for them. -/
theorem sync_agrees (inserts : sync.InsertsShown) (injective : Function.Injective nullifierOf)
    {blockNum : BlockNumber} {inputNotes : List (InputNoteRecord μ π)}
    {outputNotes : List (OutputNoteRecord μ π)} {transactions : List TransactionRecord}
    {answers : NodeAnswers μ π} (loaded : Loaded sync.scheme nullifierOf inputNotes outputNotes)
    (fetched : answers.FetchedFit nullifierOf)
    (result : sync.syncState blockNum inputNotes outputNotes transactions answers = .ok after) :
    Sound sync.scheme nullifierOf after.noteUpdates ∧
    Attributed (CommittedAt after.transactionUpdates.transactions) after.noteUpdates ∧
    (sync.syncNullifiers = true → ∀ data newNullifiers, answers.syncData = .ok (some data) →
      answers.newNullifiers = .ok newNullifiers → ∀ nullifierUpdate ∈ newNullifiers,
      nullifierUpdate.blockNum ≤ data.chainTipHeader.blockNum →
      Spent nullifierUpdate.nullifier after.noteUpdates ∧
        NotPending nullifierUpdate.nullifier after.transactionUpdates.transactions) := by
  rcases syncState_eq_ok result with ⟨atTip, rfl⟩ | ⟨data, applied, given, applying, further⟩
  · have start := consistent_new injective loaded blockNum transactions
    refine ⟨start.sound, start.agreed, fun _ data newNullifiers moved => ?_⟩
    rw [atTip] at moved
    cases moved
  have start := consistent_new injective loaded data.chainTipHeader.blockNum transactions
  obtain ⟨sameBlock, sameRun, reaches⟩ := applySyncResult_reaches
    (CommittedAt applied.transactionUpdates.transactions) inserts (fetched data given) applying
  have consistent : Consistent sync.scheme nullifierOf applied := by
    refine ⟨start.sound.reaches injective reaches, ?_, Attributed.reaches ?_ reaches⟩
    · rw [sameRun]
      exact start.ownKeys.run _
    · intro noteId entry found transaction height consumer
      rw [sameRun]
      exact (start.agreed noteId entry found transaction height consumer).run _
  rcases further with ⟨disabled, rfl⟩ | ⟨newNullifiers, known, nullified⟩
  · refine ⟨consistent.sound, consistent.agreed, fun enabled => ?_⟩
    rw [disabled] at enabled
    cases enabled
  · obtain ⟨final, settled, _⟩ := consistent.nullifiers_run nullified
    refine ⟨final.sound, final.agreed, fun _ own updates givenAlso knownAlso => ?_⟩
    obtain rfl := Option.some.inj (Except.ok.inj (given.symm.trans givenAlso))
    obtain rfl := Except.ok.inj (known.symm.trans knownAlso)
    intro nullifierUpdate member within
    have kept := settled nullifierUpdate
      (List.mem_filter.mpr ⟨member, decide_eq_true (sameBlock ▸ within)⟩)
    exact ⟨kept.notes, kept.transactions⟩

theorem nullifier_reaches {nullifierUpdate : NullifierUpdate} {scheme : NoteScheme μ π}
    (result : applyNullifier before nullifierUpdate = .ok after) :
    Reaches scheme nullifierOf (fun _ _ => True) before.noteUpdates after.noteUpdates := by
  obtain ⟨notes, applying, written⟩ := bind_eq_ok_iff.mp result
  obtain rfl := Except.ok.inj written
  have event : before.noteUpdates.apply scheme (.nullified nullifierUpdate
      before.transactionUpdates.committedTransactions
      (before.transactionUpdates.externalNullifierAccount nullifierUpdate.nullifier)) = .ok notes :=
    applying
  exact .single event trivial (Event.reports_any _)

theorem syncState_reaches (inserts : sync.InsertsShown) {blockNum : BlockNumber}
    {inputNotes : List (InputNoteRecord μ π)} {outputNotes : List (OutputNoteRecord μ π)}
    {transactions : List TransactionRecord} {answers : NodeAnswers μ π}
    (fetched : answers.FetchedFit nullifierOf)
    (result : sync.syncState blockNum inputNotes outputNotes transactions answers = .ok after) :
    Reaches sync.scheme nullifierOf (fun _ _ => True)
      (NoteUpdateTracker.new inputNotes outputNotes) after.noteUpdates := by
  rcases syncState_eq_ok result with ⟨_, rfl⟩ | ⟨data, applied, given, applying, further⟩
  · exact .refl _
  · obtain ⟨_, _, first⟩ :=
      applySyncResult_reaches (fun _ _ => True) inserts (fetched data given) applying
    rcases further with ⟨_, rfl⟩ | ⟨newNullifiers, _, nullified⟩
    · exact first
    · exact first.trans (.foldlM StateSyncUpdate.noteUpdates nullifier_reaches nullified)

/-- A synchronisation from notes of the store, whatever the node answers, loses nothing:
afterwards every tracked note is stored as the tracker has it, the other rows are as before,
and the store is again one that a synchronisation can start from. -/
theorem sync_stores_notes (inserts : sync.InsertsShown) {rows : NoteRows μ π}
    (wellFormed : rows.WellFormed) {blockNum : BlockNumber}
    {inputNotes : List (InputNoteRecord μ π)} {outputNotes : List (OutputNoteRecord μ π)}
    (loads : rows.Loads inputNotes outputNotes) {transactions : List TransactionRecord}
    {answers : NodeAnswers μ π} (fetched : answers.FetchedFit nullifierOf)
    (result : sync.syncState blockNum inputNotes outputNotes transactions answers = .ok after) :
    (∀ noteId : NoteId, (rows.applyNoteUpdates after.noteUpdates).inputs[noteId]? =
      (after.noteUpdates.inputNotes[noteId]?.map fun entry => serializeInputNote entry.note).or
        rows.inputs[noteId]?) ∧
    (∀ noteId : NoteId, (rows.applyNoteUpdates after.noteUpdates).outputs[noteId]? =
      (after.noteUpdates.outputNotes[noteId]?.map fun entry => serializeOutputNote entry.note).or
        rows.outputs[noteId]?) ∧
    (rows.applyNoteUpdates after.noteUpdates).WellFormed := by
  obtain ⟨events, _, run⟩ := syncState_reaches inserts fetched result
  exact run_stores_notes wellFormed loads run

/-- A client whose screener accepts what it is shown. -/
def acceptingSync : StateSync Nat Nat where
  scheme := InputNoteRecord.acceptingScheme
  onNoteReceived note shown := match shown with
    | some record => .ok (.insert record)
    | none => .ok (.commit note)
  txDiscardDelta := none
  syncNullifiers := true

/-- A note that transaction `9` of account `5` is consuming, and the report of its commit. -/
def processedNote : InputNoteRecord Nat Nat :=
  ⟨⟨1, 1⟩, some 0, .processingAuthenticated 0 0 ⟨0, 0, 0, 0⟩ ⟨none, 5, 9⟩⟩

@[inherit_doc processedNote]
def processingTransaction : TransactionRecord :=
  ⟨9, ⟨5, ⟨0, 0, 0, 1⟩, ⟨0, 0, 0, 2⟩, [1], 3, 20⟩, .pending⟩

@[inherit_doc processedNote]
def commitReport : RawStateSyncData Nat Nat where
  chainTipHeader := ⟨10, ⟨0, 0, 0, 7⟩, 99⟩
  noteBlocks := []
  publicNotes := ∅
  nullifiers := [1]
  transactions := [⟨⟨9, 10, 5, ⟨0, 0, 0, 1⟩, [1]⟩, [], []⟩]

@[inherit_doc processedNote]
def commitAnswers : NodeAnswers Nat Nat where
  syncData := .ok (some commitReport)
  accounts := .ok ()
  newNullifiers := .ok [⟨1, 10⟩]

theorem acceptingSync_insertsShown : acceptingSync.InsertsShown := by
  intro committedNote shown note received
  cases shown with
  | none => cases Except.ok.inj received
  | some record =>
      cases Except.ok.inj received
      rfl

theorem commitAnswers_fetchedFit : commitAnswers.FetchedFit id := by
  intro data given noteId note found
  obtain rfl := Option.some.inj (Except.ok.inj given)
  simp [commitReport] at found

theorem processedNote_loaded : Loaded acceptingSync.scheme id [processedNote] [] where
  inputs note member := by
    rw [List.mem_singleton.mp member]
    exact ⟨rfl, rfl⟩
  unspent note member := by
    rw [List.mem_singleton.mp member]
    rfl
  outputs note member := absurd member List.not_mem_nil
  distinct := List.nodup_nil

theorem commitAnswers_succeed :
    ∃ after, acceptingSync.syncState 3 [processedNote] [] [processingTransaction]
      commitAnswers = .ok after := by
  have succeeds : (acceptingSync.syncState 3 [processedNote] [] [processingTransaction]
      commitAnswers).isOk = true := by decide
  cases result : acceptingSync.syncState 3 [processedNote] [] [processingTransaction]
      commitAnswers with
  | error failure =>
      rw [result] at succeeds
      cases succeeds
  | ok after => exact ⟨after, rfl⟩

theorem sync_agrees_commit :
    ∃ after, acceptingSync.syncState 3 [processedNote] [] [processingTransaction]
      commitAnswers = .ok after ∧ Spent 1 after.noteUpdates := by
  obtain ⟨after, result⟩ := commitAnswers_succeed
  exact ⟨after, result, ((sync_agrees acceptingSync_insertsShown Function.injective_id
    processedNote_loaded commitAnswers_fetchedFit result).2.2 rfl commitReport [⟨1, 10⟩] rfl rfl
      ⟨1, 10⟩ (List.mem_singleton_self _) (Nat.le_refl 10)).1⟩

/-- The store with that note only. -/
def storedRows : NoteRows Nat Nat where
  inputs :=
    (∅ : OrderedMap NoteId (InputNoteRow Nat Nat)).insert 1 (serializeInputNote processedNote)
  outputs := ∅

theorem storedRows_lookup {noteId : NoteId} {row : InputNoteRow Nat Nat}
    (found : storedRows.inputs[noteId]? = some row) :
    noteId = 1 ∧ row = serializeInputNote processedNote := by
  rw [storedRows, OrderedMap.getElem?_insert] at found
  split at found
  · rename_i same
    exact ⟨same.symm, (Option.some.inj found).symm⟩
  · simp at found

theorem sync_stores_notes_commit :
    ∃ after, acceptingSync.syncState 3 [processedNote] [] [processingTransaction]
      commitAnswers = .ok after ∧ (storedRows.applyNoteUpdates after.noteUpdates).WellFormed := by
  obtain ⟨after, result⟩ := commitAnswers_succeed
  have wellFormed : storedRows.WellFormed := by
    refine ⟨fun noteId row found => ?_, fun noteId row found => by simp [storedRows] at found⟩
    obtain ⟨rfl, rfl⟩ := storedRows_lookup found
    exact ⟨rfl, rfl⟩
  have loads : storedRows.Loads [processedNote] [] := by
    refine ⟨fun note member => ⟨1, serializeInputNote processedNote, ?_, ?_⟩,
      fun note member => absurd member List.not_mem_nil⟩
    · rw [storedRows, OrderedMap.getElem?_insert, if_pos rfl]
    · rw [List.mem_singleton.mp member]
      rfl
  exact ⟨after, result, (sync_stores_notes acceptingSync_insertsShown wellFormed loads
    commitAnswers_fetchedFit result).2.2⟩

end StateSync

end MidenWorkspace.Client
