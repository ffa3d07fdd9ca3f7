import MidenWorkspace.Client.TransactionTracker

/-!
Contract: the changes to notes that a client collects while it synchronises.

Owns the tracker with its notes, its two lookup indices by nullifier and the order of the
consuming transactions, the operations that the synchronisation applies to it, and how it is
rebuilt from what is serialised of it.

A fallible operation that ends the whole synchronisation returns no tracker; the one whose
error is ignored returns what it has written.
-/

namespace MidenWorkspace.Client

open Library (OrderedMap)

inductive NoteUpdateType where
  | none
  | insert
  | update
deriving DecidableEq, Repr

/-- `InputNoteUpdate` and `OutputNoteUpdate`. -/
structure NoteUpdate (ρ : Type) where
  note : ρ
  updateType : NoteUpdateType
deriving DecidableEq, Repr

/-- What `inner_mut` makes of the type of an update. -/
def NoteUpdateType.touched : NoteUpdateType → NoteUpdateType
  | .none | .update => .update
  | .insert => .insert

/-- `inner_mut`, with the note that is then written through the reference. -/
def NoteUpdate.innerMut {ρ : Type} (entry : NoteUpdate ρ) (note : ρ) : NoteUpdate ρ :=
  ⟨note, entry.updateType.touched⟩

inductive ClientError where
  | noteRecordError (failure : NoteRecordError)
  /-- `ExpectedDataMissing("full metadata for committed note …")`. -/
  | expectedMetadata (noteId : NoteId)
  | noteImportError (message : String)
  | noteNotFoundOnChain (noteId : NoteId)
  /-- `TransactionRequestError::InputNoteAlreadyConsumed`. -/
  | inputNoteAlreadyConsumed (noteId : NoteId)
  /-- The node, the transport layer or the database has failed. -/
  | requestFailed (message : String)
deriving DecidableEq, Repr

/-- A committed note as the node reports it. -/
structure CommittedNote (μ π : Type) where
  noteId : NoteId
  isPrivate : Bool
  metadata : Option μ
  inclusionProof : π

def CommittedNote.fullMetadata {μ π : Type} (note : CommittedNote μ π) : Except ClientError μ :=
  match note.metadata with
  | some metadata => .ok metadata
  | none => .error (.expectedMetadata note.noteId)

structure NullifierUpdate where
  nullifier : Nullifier
  blockNum : BlockNumber
deriving DecidableEq, Repr

abbrev Notes (ρ : Type) := OrderedMap NoteId (NoteUpdate ρ)

structure NoteUpdateTracker (μ π : Type) where
  inputNotes : Notes (InputNoteRecord μ π)
  outputNotes : Notes (OutputNoteRecord μ π)
  inputNotesByNullifier : OrderedMap Nullifier NoteId
  outputNotesByNullifier : OrderedMap Nullifier NoteId
  nullifierOrder : OrderedMap Nullifier Nat

/-- A fallible change through `get_mut(id).map(inner_mut)`; nothing happens to a note that is not
tracked. -/
def changeNote {ρ : Type} (notes : Notes ρ) (noteId : NoteId)
    (change : ρ → Except ClientError ρ) : Except ClientError (Notes ρ) :=
  match notes[noteId]? with
  | some entry => do
      let note ← change entry.note
      return notes.insert noteId (entry.innerMut note)
  | none => return notes

/-- The `?` operator on the result of a transition. -/
def liftRecord {α : Type} (answer : Except NoteRecordError α) : Except ClientError α :=
  answer.mapError .noteRecordError

namespace NoteUpdateTracker

variable {μ π : Type}

def empty : NoteUpdateTracker μ π := ⟨∅, ∅, ∅, ∅, ∅⟩

def insertInputNote (updateType : NoteUpdateType) (tracker : NoteUpdateTracker μ π)
    (note : InputNoteRecord μ π) : NoteUpdateTracker μ π :=
  { tracker with
    inputNotesByNullifier := tracker.inputNotesByNullifier.insert note.nullifier note.id
    inputNotes := tracker.inputNotes.insert note.id ⟨note, updateType⟩ }

def insertOutputNote (updateType : NoteUpdateType) (tracker : NoteUpdateTracker μ π)
    (note : OutputNoteRecord μ π) : NoteUpdateTracker μ π :=
  { tracker with
    outputNotesByNullifier := match note.nullifier with
      | some nullifier => tracker.outputNotesByNullifier.insert nullifier note.id
      | none => tracker.outputNotesByNullifier
    outputNotes := tracker.outputNotes.insert note.id ⟨note, updateType⟩ }

def new (inputNotes : List (InputNoteRecord μ π)) (outputNotes : List (OutputNoteRecord μ π)) :
    NoteUpdateTracker μ π :=
  outputNotes.foldl (insertOutputNote .none) (inputNotes.foldl (insertInputNote .none) empty)

def forTransactionUpdates (newInputNotes updatedInputNotes : List (InputNoteRecord μ π))
    (newOutputNotes : List (OutputNoteRecord μ π)) : NoteUpdateTracker μ π :=
  newOutputNotes.foldl (insertOutputNote .insert)
    (updatedInputNotes.foldl (insertInputNote .update)
      (newInputNotes.foldl (insertInputNote .insert) empty))

def isUpdated {ρ : Type} (entry : NoteUpdate ρ) : Bool :=
  match entry.updateType with
  | .insert | .update => true
  | .none => false

def updatedInputNotes (tracker : NoteUpdateTracker μ π) : List (NoteUpdate (InputNoteRecord μ π)) :=
  tracker.inputNotes.values.filter isUpdated

def updatedOutputNotes (tracker : NoteUpdateTracker μ π) :
    List (NoteUpdate (OutputNoteRecord μ π)) :=
  tracker.outputNotes.values.filter isUpdated

def extendNullifiers (nullifiers : List Nullifier) (tracker : NoteUpdateTracker μ π) :
    NoteUpdateTracker μ π :=
  { tracker with
    nullifierOrder := nullifiers.foldl
      (fun order nullifier => order.insertIfNew nullifier order.size) tracker.nullifierOrder }

def applyNewPublicNote (scheme : NoteScheme μ π) (publicNoteData : InputNoteRecord μ π)
    (header : BlockHeader) (tracker : NoteUpdateTracker μ π) :
    Except ClientError (NoteUpdateTracker μ π) := do
  let note ← liftRecord (publicNoteData.blockHeaderReceived scheme header)
  return tracker.insertInputNote .insert note

section Decidable

variable [DecidableEq μ] [DecidableEq π]

omit [DecidableEq μ] in
def tryCommitOutputNote (noteId : NoteId) (inclusionProof : π) (tracker : NoteUpdateTracker μ π) :
    Except ClientError (NoteUpdateTracker μ π) := do
  let outputNotes ← changeNote tracker.outputNotes noteId fun note =>
    liftRecord (note.inclusionProofReceived inclusionProof)
  return { tracker with outputNotes }

/-- The flag says whether the note is tracked as an input note. -/
def applyCommittedNoteStateTransitions (scheme : NoteScheme μ π)
    (committedNote : CommittedNote μ π) (header : BlockHeader)
    (tracker : NoteUpdateTracker μ π) : Except ClientError (Bool × NoteUpdateTracker μ π) := do
  let isTrackedAsInputNote := tracker.inputNotes[committedNote.noteId]?.isSome
  let inputNotes ← changeNote tracker.inputNotes committedNote.noteId fun note => do
    let metadata ← committedNote.fullMetadata
    let included ← liftRecord (note.inclusionProofReceived committedNote.inclusionProof metadata)
    liftRecord (included.blockHeaderReceived scheme header)
  let committed ← tryCommitOutputNote committedNote.noteId committedNote.inclusionProof
    { tracker with inputNotes }
  return (isTrackedAsInputNote, committed)

omit [DecidableEq μ] in
def applyOutputNoteInclusionProofs (committedNotes : List (CommittedNote μ π))
    (tracker : NoteUpdateTracker μ π) : Except ClientError (NoteUpdateTracker μ π) :=
  committedNotes.foldlM (fun tracker note =>
    tracker.tryCommitOutputNote note.noteId note.inclusionProof) tracker

end Decidable

/-- The part of `mark_erased_note_as_consumed` about the output note. The reference is taken
before the conditions are checked, so that the note is marked in any case. -/
def markErasedOutputNote (noteId : NoteId) (blockNum : BlockNumber)
    (tracker : NoteUpdateTracker μ π) : Except ClientError Unit × NoteUpdateTracker μ π :=
  match tracker.outputNotes[noteId]? with
  | none => (.ok (), tracker)
  | some entry =>
      let write (note : OutputNoteRecord μ π) : NoteUpdateTracker μ π :=
        { tracker with outputNotes := tracker.outputNotes.insert noteId (entry.innerMut note) }
      if !entry.note.isConsumed && !entry.note.isCommitted then
        match entry.note.nullifier with
        | some nullifier =>
            match entry.note.nullifierReceived nullifier blockNum with
            | .ok note => (.ok (), write note)
            | .error failure => (.error (.noteRecordError failure), write entry.note)
        | none => (.ok (), write entry.note)
      else (.ok (), write entry.note)

def markErasedInputNote (scheme : NoteScheme μ π) (noteId : NoteId) (blockNum : BlockNumber)
    (tracker : NoteUpdateTracker μ π) : Except ClientError Unit × NoteUpdateTracker μ π :=
  match tracker.inputNotes[noteId]? with
  | none => (.ok (), tracker)
  | some entry =>
      let write (note : InputNoteRecord μ π) : NoteUpdateTracker μ π :=
        { tracker with inputNotes := tracker.inputNotes.insert noteId (entry.innerMut note) }
      if !entry.note.isConsumed then
        match entry.note.consumedExternally entry.note.nullifier blockNum
            (entry.note.state.metadata.bind scheme.networkTarget) with
        | .ok note => (.ok (), write (note.setConsumedTxOrder (some 0)))
        | .error failure => (.error (.noteRecordError failure), write entry.note)
      else (.ok (), tracker)

/-- An error of the first part ends the function with what was written so far. -/
def markErasedNoteAsConsumed (scheme : NoteScheme μ π) (noteId : NoteId) (blockNum : BlockNumber)
    (tracker : NoteUpdateTracker μ π) : Except ClientError Unit × NoteUpdateTracker μ π :=
  match markErasedOutputNote noteId blockNum tracker with
  | (.error failure, marked) => (.error failure, marked)
  | (.ok (), marked) => markErasedInputNote scheme noteId blockNum marked

/-- The first of the committed transactions that is processing the note, or somebody else,
has consumed it. -/
def attributeConsumption (update : NullifierUpdate)
    (committedTransactions : List TransactionRecord) (externalConsumerAccount : Option AccountId)
    (note : InputNoteRecord μ π) : Except ClientError (InputNoteRecord μ π) :=
  match committedTransactions.find? fun transaction =>
      note.state.consumerTransactionId = some transaction.id with
  | some consumer =>
      match consumer.status with
      | .committed blockNumber _ => liftRecord (note.transactionCommitted consumer.id blockNumber)
      | _ => .ok note
  | none =>
      liftRecord (note.consumedExternally update.nullifier update.blockNum externalConsumerAccount)

/-- What a nullifier does to the input note that it is of. -/
def consumeInputNote (update : NullifierUpdate) (committedTransactions : List TransactionRecord)
    (externalConsumerAccount : Option AccountId) (order : Option Nat)
    (note : InputNoteRecord μ π) : Except ClientError (InputNoteRecord μ π) := do
  let consumed ← attributeConsumption update committedTransactions externalConsumerAccount note
  return consumed.setConsumedTxOrder order

/-- A lookup through one of the indices, then `changeNote`. -/
def changeByNullifier {ρ : Type} (index : OrderedMap Nullifier NoteId) (notes : Notes ρ)
    (nullifier : Nullifier) (change : ρ → Except ClientError ρ) : Except ClientError (Notes ρ) :=
  match index[nullifier]? with
  | some noteId => changeNote notes noteId change
  | none => return notes

def applyNullifiersStateTransitions (update : NullifierUpdate)
    (committedTransactions : List TransactionRecord) (externalConsumerAccount : Option AccountId)
    (tracker : NoteUpdateTracker μ π) : Except ClientError (NoteUpdateTracker μ π) := do
  let order := tracker.nullifierOrder[update.nullifier]?
  let inputNotes ← changeByNullifier tracker.inputNotesByNullifier tracker.inputNotes
    update.nullifier (consumeInputNote update committedTransactions externalConsumerAccount order)
  let outputNotes ← changeByNullifier tracker.outputNotesByNullifier tracker.outputNotes
    update.nullifier fun note =>
      liftRecord (note.nullifierReceived update.nullifier update.blockNum)
  return { tracker with inputNotes, outputNotes }

/-- What `read_from` makes of the three maps: the indices are collected from the notes. -/
def ofMaps (inputNotes : Notes (InputNoteRecord μ π)) (outputNotes : Notes (OutputNoteRecord μ π))
    (nullifierOrder : OrderedMap Nullifier Nat) : NoteUpdateTracker μ π where
  inputNotes
  outputNotes
  inputNotesByNullifier := OrderedMap.collect (inputNotes.toList.map fun entry =>
    (entry.2.note.nullifier, entry.1))
  outputNotesByNullifier := OrderedMap.collect (outputNotes.toList.filterMap fun entry =>
    entry.2.note.nullifier.map fun nullifier => (nullifier, entry.1))
  nullifierOrder

/-! ### Insertions -/

theorem foldl_insertInputNote_outputNotes (updateType : NoteUpdateType)
    (notes : List (InputNoteRecord μ π)) (start : NoteUpdateTracker μ π) :
    (notes.foldl (insertInputNote updateType) start).outputNotes = start.outputNotes := by
  induction notes generalizing start with
  | nil => rfl
  | cons note others inductionHypothesis => exact inductionHypothesis _

theorem foldl_insertOutputNote_inputNotes (updateType : NoteUpdateType)
    (notes : List (OutputNoteRecord μ π)) (start : NoteUpdateTracker μ π) :
    (notes.foldl (insertOutputNote updateType) start).inputNotes = start.inputNotes := by
  induction notes generalizing start with
  | nil => rfl
  | cons note others inductionHypothesis => exact inductionHypothesis _

/-- An entry after notes were inserted is an earlier one or one of these notes. -/
theorem found_of_foldl_insert {ρ : Type} {idOf : ρ → NoteId}
    {notesOf : NoteUpdateTracker μ π → Notes ρ}
    {insert : NoteUpdateTracker μ π → ρ → NoteUpdateTracker μ π} {updateType : NoteUpdateType}
    (inserts : ∀ tracker note,
      notesOf (insert tracker note) = (notesOf tracker).insert (idOf note) ⟨note, updateType⟩)
    {notes : List ρ} {start : NoteUpdateTracker μ π} {noteId : NoteId} {entry : NoteUpdate ρ}
    (found : (notesOf (notes.foldl insert start))[noteId]? = some entry) :
    (notesOf start)[noteId]? = some entry ∨
      entry.updateType = updateType ∧ entry.note ∈ notes ∧ idOf entry.note = noteId := by
  induction notes generalizing start with
  | nil => exact .inl found
  | cons note others inductionHypothesis =>
      rcases inductionHypothesis found with earlier | ⟨marked, member, own⟩
      · rw [inserts, OrderedMap.getElem?_insert] at earlier
        split at earlier
        · rename_i same
          obtain rfl := Option.some.inj earlier
          exact .inr ⟨rfl, .head _, same⟩
        · exact .inl earlier
      · exact .inr ⟨marked, .tail _ member, own⟩

theorem found_of_insertInputNotes {updateType : NoteUpdateType}
    {notes : List (InputNoteRecord μ π)} {start : NoteUpdateTracker μ π} {noteId : NoteId}
    {entry : NoteUpdate (InputNoteRecord μ π)}
    (found : (notes.foldl (insertInputNote updateType) start).inputNotes[noteId]? = some entry) :
    start.inputNotes[noteId]? = some entry ∨
      entry.updateType = updateType ∧ entry.note ∈ notes ∧ entry.note.id = noteId :=
  found_of_foldl_insert (fun _ _ => rfl) found

theorem found_of_insertOutputNotes {updateType : NoteUpdateType}
    {notes : List (OutputNoteRecord μ π)} {start : NoteUpdateTracker μ π} {noteId : NoteId}
    {entry : NoteUpdate (OutputNoteRecord μ π)}
    (found : (notes.foldl (insertOutputNote updateType) start).outputNotes[noteId]? = some entry) :
    start.outputNotes[noteId]? = some entry ∨
      entry.updateType = updateType ∧ entry.note ∈ notes ∧ entry.note.id = noteId :=
  found_of_foldl_insert (fun _ _ => rfl) found

end NoteUpdateTracker

end MidenWorkspace.Client
