import MidenWorkspace.Client.NoteEntry

/-!
Contract: the notes in the store of a client over its whole history.

Between two synchronisations the client imports notes, fetches those of the transport layer, and
executes and submits transactions. A submitted transaction enters the notes that it creates or
announces and marks those that it consumes. Owns the updates of a submission, histories of all
these events in any order, and what every history keeps: the stored notes are ones that were
checked, and of the notes that no later transaction creates none is lost or exchanged, an
authenticated one stays so until it is consumed, and a consumed one is never written again.

A note that a transaction creates or announces is written anew, whatever the store has of it.
-/

namespace MidenWorkspace.Client

open Library (OrderedMap)
open Library.Structured
open NoteUpdateTracker

variable {μ π : Type}

/-! ### Submitted transactions -/

/-- An output note of an executed transaction; a partial one comes without its recipient. -/
inductive RawOutputNote (μ : Type) where
  | full (details : NoteDetails) (metadata : μ)
  | withoutRecipient (noteId : NoteId) (metadata : μ)

def RawOutputNote.id : RawOutputNote μ → NoteId
  | .full details _ => details.id
  | .withoutRecipient noteId _ => noteId

/-- `try_from_output_note`, which fails for neither kind of note. -/
def OutputNoteRecord.fromOutputNote (expectedHeight : BlockNumber) :
    RawOutputNote μ → OutputNoteRecord μ π
  | .full details metadata =>
      ⟨details.id, metadata, .expectedFull ⟨details.nullifier⟩, expectedHeight⟩
  | .withoutRecipient noteId metadata => ⟨noteId, metadata, .expectedPartial, expectedHeight⟩

def notesFromOutput (outputNotes : List (RawOutputNote μ)) : List (NoteDetails × μ) :=
  outputNotes.filterMap fun
    | .full details metadata => some (details, metadata)
    | .withoutRecipient _ _ => none

/-- The result of a transaction, and what its submission consults besides the store. -/
structure Submission (μ : Type) where
  transactionId : TransactionId
  accountId : AccountId
  inputNoteIds : List NoteId
  outputNotes : List (RawOutputNote μ)
  futureNotes : List (NoteDetails × NoteTag)
  submissionHeight : BlockNumber
  syncHeight : BlockNumber
  currentTimestamp : Option Nat
  tag : μ → NoteTag
  /-- The notes that an account of the client can consume. -/
  canConsumeBatch : List (NoteDetails × μ) → Except ClientError (List NoteId)

namespace Submission

variable (submission : Submission μ)

def newInputNotes (relevant : List NoteId) : List (InputNoteRecord μ π) :=
  ((notesFromOutput submission.outputNotes).filter fun note => relevant.contains note.1.id).map
      (fun note => ⟨note.1, submission.currentTimestamp,
        .expected (some note.2) submission.submissionHeight (some (submission.tag note.2))⟩) ++
    submission.futureNotes.map fun note =>
      ⟨note.1, none, .expected none submission.syncHeight (some note.2)⟩

/-- `NoteFilter::List` with the input notes of the transaction. -/
def consumedNotes (rows : NoteRows μ π) : List (InputNoteRecord μ π) :=
  (rows.inputs.values.filter fun row => submission.inputNoteIds.contains row.details.id).map
    parseInputNote

/-- The body of the loop over the consumed notes; a note that does not change is skipped. -/
def consume (scheme : NoteScheme μ π) (note : InputNoteRecord μ π) :
    Except ClientError (Option (InputNoteRecord μ π)) := do
  let changed ← liftRecord (note.state.consumedLocally scheme submission.accountId
    submission.transactionId submission.currentTimestamp)
  return changed.map fun state => { note with state }

def getNoteUpdates (scheme : NoteScheme μ π) (rows : NoteRows μ π) :
    Except ClientError (NoteUpdateTracker μ π) := do
  let relevant ← submission.canConsumeBatch (notesFromOutput submission.outputNotes)
  let consumed ← (submission.consumedNotes rows).mapM (submission.consume scheme)
  return .forTransactionUpdates (submission.newInputNotes relevant) consumed.reduceOption
    (submission.outputNotes.map (OutputNoteRecord.fromOutputNote submission.submissionHeight))

/-- The transaction creates the note, or announces it. -/
def Creates (noteId : NoteId) : Prop :=
  (∃ note ∈ submission.outputNotes, note.id = noteId) ∨
    ∃ note ∈ submission.futureNotes, note.1.id = noteId

/-- The nullifiers of the created notes go with their identifiers. -/
structure Fits (nullifierOf : NoteId → Nullifier) : Prop where
  created : ∀ details metadata, .full details metadata ∈ submission.outputNotes →
    details.nullifier = nullifierOf details.id
  announced : ∀ note ∈ submission.futureNotes, note.1.nullifier = nullifierOf note.1.id

/-- The notes that the transaction enters. -/
def creating : Entries := { Entries.none with Created := submission.Creates }

end Submission

/-- The note updates of `apply_transaction`. -/
def NoteRows.submit (scheme : NoteScheme μ π) (rows : NoteRows μ π) (submission : Submission μ) :
    NoteRows μ π :=
  match submission.getNoteUpdates scheme rows with
  | .ok noteUpdates => rows.applyNoteUpdates noteUpdates
  | .error _ => rows

/-! ### What a submission writes -/

section Submitting

variable {submission : Submission μ} {scheme : NoteScheme μ π}
  {nullifierOf : NoteId → Nullifier} {rows : NoteRows μ π} {tracker : NoteUpdateTracker μ π}

theorem InputNoteState.isUnspent_of_consumedLocally {state changed : InputNoteState μ π}
    {account : AccountId} {transaction : TransactionId} {timestamp : Option Nat}
    (result : state.consumedLocally scheme account transaction timestamp = .ok (some changed)) :
    state.isUnspent = true := by
  cases state with
  | expected => rfl
  | unverified => rfl
  | committed => rfl
  | _ => cases result

theorem Submission.consume_eq_some {note consumed : InputNoteRecord μ π}
    (result : submission.consume scheme note = .ok (some consumed)) :
    note.state.isUnspent = true ∧
      InputNoteRecord.Keeps scheme (fun _ _ => True) note consumed := by
  obtain ⟨changed, consuming, written⟩ := bind_eq_ok_iff.mp result
  obtain ⟨state, rfl, rfl⟩ := Option.map_eq_some_iff.mp (Except.ok.inj written)
  have transition := liftRecord_eq_ok consuming
  refine ⟨InputNoteState.isUnspent_of_consumedLocally transition, ?_⟩
  exact InputNoteRecord.keeps_of_become
    (fun _ => InputNoteRecord.consumedLocally_changes) (congrArg note.become transition)

/-- An input note that a submission writes is a new one, which its transaction creates, or one
that was unspent in the store. -/
theorem Submission.input_cases (wellFormed : rows.WellFormed)
    (result : submission.getNoteUpdates scheme rows = .ok tracker) {noteId : NoteId}
    {entry : NoteUpdate (InputNoteRecord μ π)}
    (found : tracker.inputNotes[noteId]? = some entry) :
    entry.note.id = noteId ∧
      ((entry.updateType = .insert ∧ ∃ relevant, entry.note ∈ submission.newInputNotes relevant) ∨
        entry.updateType = .update ∧ ∃ row, rows.inputs[noteId]? = some row ∧
          row.state.isUnspent = true ∧
            InputNoteRecord.Keeps scheme (fun _ _ => True) (parseInputNote row) entry.note) := by
  obtain ⟨relevant, _, consuming⟩ := bind_eq_ok_iff.mp result
  obtain ⟨consumed, mapped, written⟩ := bind_eq_ok_iff.mp consuming
  obtain rfl := Except.ok.inj written
  rw [forTransactionUpdates, foldl_insertOutputNote_inputNotes] at found
  rcases found_of_insertInputNotes found with inserted | ⟨marked, member, own⟩
  · rcases found_of_insertInputNotes inserted with absent | ⟨marked, member, own⟩
    · simp [NoteUpdateTracker.empty] at absent
    · exact ⟨own, .inl ⟨marked, relevant, member⟩⟩
  · obtain ⟨note, selected, changed⟩ :=
      exists_of_mem_mapM_eq_ok mapped (List.reduceOption_mem_iff.mp member)
    obtain ⟨row, listed, rfl⟩ := List.mem_map.mp selected
    obtain ⟨key, stored⟩ := OrderedMap.mem_values.mp (List.mem_filter.mp listed).1
    obtain ⟨unspent, keeps⟩ := Submission.consume_eq_some changed
    have sameKey : key = noteId := by
      rw [← (wellFormed.inputs key row stored).1, ← own]
      exact (congrArg NoteDetails.id keeps.details).symm
    exact ⟨own, .inr ⟨marked, row, sameKey ▸ stored, unspent, keeps⟩⟩

theorem Submission.output_cases (result : submission.getNoteUpdates scheme rows = .ok tracker)
    {noteId : NoteId} {entry : NoteUpdate (OutputNoteRecord μ π)}
    (found : tracker.outputNotes[noteId]? = some entry) :
    entry.note.id = noteId ∧ entry.updateType = .insert ∧ ∃ note ∈ submission.outputNotes,
      OutputNoteRecord.fromOutputNote submission.submissionHeight note = entry.note := by
  obtain ⟨relevant, _, consuming⟩ := bind_eq_ok_iff.mp result
  obtain ⟨consumed, _, written⟩ := bind_eq_ok_iff.mp consuming
  obtain rfl := Except.ok.inj written
  rcases found_of_insertOutputNotes found with absent | ⟨marked, member, own⟩
  · rw [foldl_insertInputNote_outputNotes, foldl_insertInputNote_outputNotes] at absent
    simp [NoteUpdateTracker.empty] at absent
  · exact ⟨own, marked, List.mem_map.mp member⟩

theorem Submission.writable (wellFormed : rows.WellFormed)
    (result : submission.getNoteUpdates scheme rows = .ok tracker) :
    TrackerWritable rows tracker := by
  refine ⟨⟨fun noteId entry found => ?_, fun noteId entry found => ?_⟩,
    ⟨fun noteId entry found => ?_, fun noteId entry found => ?_⟩⟩
  · exact (Submission.input_cases wellFormed result found).1
  · rw [Unwritten]
    rcases (Submission.input_cases wellFormed result found).2 with
      ⟨marked, _⟩ | ⟨marked, row, stored, _, keeps⟩
    · rw [marked]
      trivial
    · rw [marked]
      have respects : (inputTable μ π).Respects (InputNoteRecord.Keeps scheme fun _ _ => True) :=
        inputTable_respects
      have complete := respects.stored (parseInputNote row)
      exact ⟨row, stored, respects.changed keeps
        ((wellFormed.inputs noteId row stored).2 ▸ complete)⟩
  · exact (Submission.output_cases result found).1
  · rw [Unwritten, (Submission.output_cases result found).2.1]
    trivial

theorem Submission.mem_newInputNotes {relevant : List NoteId} {note : InputNoteRecord μ π}
    (member : note ∈ submission.newInputNotes relevant) :
    (∃ metadata afterBlockNum tag, note.state = .expected metadata afterBlockNum tag) ∧
      ((∃ metadata, .full note.details metadata ∈ submission.outputNotes) ∨
        ∃ tag, (note.details, tag) ∈ submission.futureNotes) := by
  rcases List.mem_append.mp member with created | announced
  · obtain ⟨full, selected, rfl⟩ := List.mem_map.mp created
    obtain ⟨raw, listed, kept⟩ := List.mem_filterMap.mp (List.mem_filter.mp selected).1
    cases raw with
    | full details metadata =>
        obtain rfl := Option.some.inj kept
        exact ⟨⟨_, _, _, rfl⟩, .inl ⟨metadata, listed⟩⟩
    | withoutRecipient noteId metadata => cases kept
  · obtain ⟨future, listed, rfl⟩ := List.mem_map.mp announced
    exact ⟨⟨_, _, _, rfl⟩, .inr ⟨future.2, listed⟩⟩

theorem Submission.newInputNotes_fit (fits : submission.Fits nullifierOf) {relevant : List NoteId}
    {note : InputNoteRecord μ π} (member : note ∈ submission.newInputNotes relevant) :
    NoteUpdateTracker.Fits scheme nullifierOf note := by
  obtain ⟨⟨metadata, afterBlockNum, tag, expected⟩, origin⟩ := Submission.mem_newInputNotes member
  constructor
  · rcases origin with ⟨metadata, created⟩ | ⟨tag, announced⟩
    · exact fits.created note.details metadata created
    · exact fits.announced (note.details, tag) announced
  · rw [expected]
    trivial

theorem Submission.newInputNotes_created {relevant : List NoteId} {note : InputNoteRecord μ π}
    (member : note ∈ submission.newInputNotes relevant) : submission.Creates note.id := by
  rcases (Submission.mem_newInputNotes member).2 with ⟨metadata, created⟩ | ⟨tag, announced⟩
  · exact .inl ⟨.full note.details metadata, created, rfl⟩
  · exact .inr ⟨(note.details, tag), announced, rfl⟩

theorem Stored.getNoteUpdates (stored : Stored scheme nullifierOf rows)
    (fits : submission.Fits nullifierOf)
    (result : submission.getNoteUpdates scheme rows = .ok tracker) :
    Stored scheme nullifierOf (rows.applyNoteUpdates tracker) := by
  refine stored.of_written (Submission.writable stored.wellFormed result)
    (fun noteId entry found => ?_) (fun noteId entry found => ?_)
  · rcases (Submission.input_cases stored.wellFormed result found).2 with
      ⟨_, relevant, member⟩ | ⟨_, row, foundRow, _, keeps⟩
    · exact Submission.newInputNotes_fit fits member
    · exact (stored.inputs noteId row foundRow).keeps keeps
  · obtain ⟨_, _, note, listed, built⟩ := Submission.output_cases result found
    rw [← built]
    cases note with
    | full details metadata =>
        intro nullifier known
        rw [← Option.some.inj known]
        exact fits.created details metadata listed
    | withoutRecipient noteId metadata =>
        intro nullifier known
        cases known

theorem Submission.persists (wellFormed : rows.WellFormed)
    (result : submission.getNoteUpdates scheme rows = .ok tracker) :
    Persists submission.creating rows (rows.applyNoteUpdates tracker) := by
  refine Persists.of_written scheme wellFormed (Submission.writable wellFormed result)
    (fun noteId row entry other found tracked => ?_)
    (fun noteId row entry other found tracked => ?_)
  · obtain ⟨own, origin⟩ := Submission.input_cases wellFormed result tracked
    rcases origin with ⟨_, relevant, member⟩ | ⟨_, stored, foundStored, unspent, keeps⟩
    · exact absurd (own ▸ Submission.newInputNotes_created member) other
    · obtain rfl := Option.some.inj (foundStored.symm.trans found)
      exact ⟨unspent, keeps⟩
  · obtain ⟨own, _, note, listed, built⟩ := Submission.output_cases result tracked
    refine absurd (.inl ⟨note, listed, ?_⟩) other
    rw [← own, ← built]
    cases note with
    | full details metadata => rfl
    | withoutRecipient noteId metadata => rfl

theorem Stored.submit (stored : Stored scheme nullifierOf rows)
    (fits : submission.Fits nullifierOf) :
    Stored scheme nullifierOf (rows.submit scheme submission) ∧
      Persists submission.creating rows (rows.submit scheme submission) := by
  rw [NoteRows.submit]
  split
  · rename_i tracker result
    exact ⟨stored.getNoteUpdates fits result, Submission.persists stored.wellFormed result⟩
  · exact ⟨stored, .refl rows⟩

end Submitting

/-! ### Histories -/

/-- What happens to the notes of the store. A synchronisation asks the transport layer first, if
the client has one. -/
inductive StoreEvent (μ π : Type) where
  | synchronised (transport : Option (ImportContext μ π × NoteTransport μ)) (round : Round μ π)
  | fetched (context : ImportContext μ π) (transport : NoteTransport μ)
  | imported (context : ImportContext μ π) (noteFiles : List (NoteFile μ π))
  | executed (request : TransactionRequest μ)
  | submitted (submission : Submission μ)

/-- The notes that the event enters in other ways than by the synchronisation itself. -/
def StoreEvent.entries : StoreEvent μ π → Entries
  | .synchronised none _ => .none
  | .synchronised (some (context, transport)) _ => transporting context transport
  | .fetched context transport => transporting context transport
  | .imported _ noteFiles => importing noteFiles
  | .executed request => request.requesting
  | .submitted submission => submission.creating

/-- The notes that the events enter, all together. -/
def Entries.ofEvents (events : List (StoreEvent μ π)) : Entries where
  Created noteId := ∃ event ∈ events, event.entries.Created noteId
  Requested noteId := ∃ event ∈ events, event.entries.Requested noteId
  Imported noteId := ∃ event ∈ events, event.entries.Imported noteId

/-- The notes of the event go with their nullifiers. -/
def StoreEvent.Fits (nullifierOf : NoteId → Nullifier) : StoreEvent μ π → Prop
  | .synchronised none round => round.answers.FetchedFit nullifierOf
  | .synchronised (some (context, transport)) round =>
      context.Fits nullifierOf ∧ transport.Fits nullifierOf ∧
        round.answers.FetchedFit nullifierOf
  | .fetched context transport => context.Fits nullifierOf ∧ transport.Fits nullifierOf
  | .imported context noteFiles =>
      context.Fits nullifierOf ∧ ∀ file ∈ noteFiles, file.Fits nullifierOf
  | .executed request => request.Fits nullifierOf
  | .submitted submission => submission.Fits nullifierOf

theorem Entries.within_ofEvents {event : StoreEvent μ π} {events : List (StoreEvent μ π)}
    (member : event ∈ events) : event.entries.Within (.ofEvents events) :=
  ⟨fun _ entered => ⟨event, member, entered⟩, fun _ entered => ⟨event, member, entered⟩,
    fun _ entered => ⟨event, member, entered⟩⟩

theorem Entries.ofEvents_within {fewer events : List (StoreEvent μ π)} (subset : fewer ⊆ events) :
    (Entries.ofEvents fewer).Within (.ofEvents events) := by
  constructor <;>
    · rintro noteId ⟨event, member, entered⟩
      exact ⟨event, subset member, entered⟩

section Histories

variable [DecidableEq μ] [DecidableEq π] {scheme : NoteScheme μ π}
  {nullifierOf : NoteId → Nullifier} {rows : NoteRows μ π}

/-- `Client::sync_state`. A failure of the transport layer ends it, and what was imported before
a failure stays. -/
def NoteRows.synchronise (scheme : NoteScheme μ π) (rows : NoteRows μ π) (round : Round μ π) :
    Option (ImportContext μ π × NoteTransport μ) → NoteRows μ π
  | none => rows.syncState scheme round
  | some (context, transport) =>
      match context.fetchTransportNotes scheme transport rows with
      | (.error _, after) => after
      | (.ok (), after) => after.syncState scheme round

def NoteRows.apply (scheme : NoteScheme μ π) (rows : NoteRows μ π) :
    StoreEvent μ π → NoteRows μ π
  | .synchronised transport round => rows.synchronise scheme round transport
  | .fetched context transport => (context.fetchTransportNotes scheme transport rows).2
  | .imported context noteFiles => (context.importNotes scheme noteFiles rows).2
  | .executed request => (request.executeTransaction rows).2
  | .submitted submission => rows.submit scheme submission

def NoteRows.run (scheme : NoteScheme μ π) (rows : NoteRows μ π)
    (events : List (StoreEvent μ π)) : NoteRows μ π :=
  events.foldl (NoteRows.apply scheme) rows

theorem Stored.synchronise (injective : Function.Injective nullifierOf)
    (stored : Stored scheme nullifierOf rows)
    {transport : Option (ImportContext μ π × NoteTransport μ)} {round : Round μ π}
    (fits : (StoreEvent.synchronised transport round).Fits nullifierOf) :
    Stored scheme nullifierOf (rows.synchronise scheme round transport) ∧
      Persists (StoreEvent.synchronised transport round).entries rows
        (rows.synchronise scheme round transport) := by
  cases transport with
  | none => exact stored.syncState injective fits
  | some given =>
      obtain ⟨context, transport⟩ := given
      obtain ⟨contextFits, transportFits, fetched⟩ := fits
      obtain ⟨storedFetched, persists⟩ := stored.fetchTransportNotes contextFits transportFits
      rw [NoteRows.synchronise]
      split
      · rename_i after answered
        rw [answered] at storedFetched persists
        exact ⟨storedFetched, persists⟩
      · rename_i after answered
        rw [answered] at storedFetched persists
        obtain ⟨storedAfter, persistsAlso⟩ := storedFetched.syncState injective fetched
        exact ⟨storedAfter, persists.trans (persistsAlso.mono (Entries.none_within _))⟩

theorem Stored.apply (injective : Function.Injective nullifierOf)
    (stored : Stored scheme nullifierOf rows) {event : StoreEvent μ π}
    (fits : event.Fits nullifierOf) :
    Stored scheme nullifierOf (rows.apply scheme event) ∧
      Persists event.entries rows (rows.apply scheme event) := by
  cases event with
  | synchronised transport round => exact stored.synchronise injective fits
  | fetched context transport => exact stored.fetchTransportNotes fits.1 fits.2
  | imported context noteFiles => exact stored.importNotes fits.1 fits.2
  | executed request => exact stored.executeTransaction fits
  | submitted submission => exact stored.submit fits

theorem Stored.run (injective : Function.Injective nullifierOf)
    (stored : Stored scheme nullifierOf rows) {events : List (StoreEvent μ π)}
    (fits : ∀ event ∈ events, event.Fits nullifierOf) :
    Stored scheme nullifierOf (rows.run scheme events) ∧
      Persists (.ofEvents events) rows (rows.run scheme events) := by
  induction events generalizing rows with
  | nil => exact ⟨stored, .refl rows⟩
  | cons event others inductionHypothesis =>
      obtain ⟨storedNext, first⟩ := stored.apply injective (fits event (.head _))
      obtain ⟨storedLast, rest⟩ := inductionHypothesis storedNext
        fun other member => fits other (.tail _ member)
      refine ⟨storedLast, Persists.trans (first.mono ?_) (rest.mono ?_)⟩
      · exact Entries.within_ofEvents (.head others)
      · exact Entries.ofEvents_within (List.subset_cons_self event others)

/-- Over any events in any order, with whatever answers and failures, the stored notes stay ones
that were checked. From any store of the history to any later one, of the notes that no
transaction in between creates or announces, none is lost or exchanged for another one, an
authenticated one stays authenticated until it is consumed, a consumed one keeps its row, and an
invalid one keeps its row unless it is imported or requested for a transaction. -/
theorem history_persists (injective : Function.Injective nullifierOf)
    (stored : Stored scheme nullifierOf rows) (earlier later : List (StoreEvent μ π))
    (fits : ∀ event ∈ earlier ++ later, event.Fits nullifierOf) :
    Stored scheme nullifierOf (rows.run scheme (earlier ++ later)) ∧
      Persists (.ofEvents later) (rows.run scheme earlier)
        (rows.run scheme (earlier ++ later)) := by
  have split : rows.run scheme (earlier ++ later) = (rows.run scheme earlier).run scheme later :=
    List.foldl_append
  obtain ⟨storedBetween, _⟩ := stored.run injective fun event member =>
    fits event (List.mem_append_left _ member)
  rw [split]
  exact storedBetween.run injective fun event member =>
    fits event (List.mem_append_right _ member)

end Histories

/-- A synchronisation in which the transaction that spends the stored note is reported. -/
def commitRound : Round Nat Nat where
  screener := ⟨id, [], fun _ => .ok false⟩
  txDiscardDelta := none
  blockNum := 3
  uncommittedTransactions := [StateSync.processingTransaction]
  answers := StateSync.commitAnswers

/-- A transaction that creates note `2` and announces the note with the given identifier. -/
def announcing (noteId : NoteId) : Submission Nat where
  transactionId := 11
  accountId := 5
  inputNoteIds := []
  outputNotes := [.full ⟨2, 2⟩ 0]
  futureNotes := [(⟨noteId, noteId⟩, 0)]
  submissionHeight := 12
  syncHeight := 10
  currentTimestamp := none
  tag := id
  canConsumeBatch _ := .ok []

theorem announcing_fits (noteId : NoteId) : (announcing noteId).Fits id := by
  refine ⟨fun details metadata member => ?_, fun note member => ?_⟩
  · cases List.mem_singleton.mp member
    rfl
  · cases List.mem_singleton.mp member
    rfl

theorem storedRows_stored :
    Stored InputNoteRecord.acceptingScheme id StateSync.storedRows := by
  refine ⟨⟨fun noteId row found => ?_, fun noteId row found => ?_⟩, fun noteId row found => ?_,
    fun noteId row found => ?_⟩
  · obtain ⟨rfl, rfl⟩ := StateSync.storedRows_lookup found
    exact ⟨rfl, rfl⟩
  · simp [StateSync.storedRows] at found
  · obtain ⟨rfl, rfl⟩ := StateSync.storedRows_lookup found
    have fits := StateSync.processedNote_loaded.inputs _ (List.mem_singleton_self _)
    exact ⟨fits.nullifier, fits.authentic⟩
  · simp [StateSync.storedRows] at found

/-- A request for a transaction that consumes note `1`. -/
def requestingNote : TransactionRequest Nat := ⟨.ok (), [(⟨1, 1⟩, 0)], id⟩

/-- The stored note is consumed by a synchronisation. A transaction that creates other notes and
a request that would consume the note again leave its row as it is. -/
theorem history_persists_commit :
    ∃ row, (StateSync.storedRows.run InputNoteRecord.acceptingScheme
        [.synchronised none commitRound]).inputs[1]? = some row ∧
      row.consumedBlockHeight = some 10 ∧
      (StateSync.storedRows.run InputNoteRecord.acceptingScheme
        [.synchronised none commitRound, .submitted (announcing 3),
          .executed requestingNote]).inputs[1]? = some row := by
  have fits : ∀ event ∈ [StoreEvent.synchronised none commitRound] ++
      [.submitted (announcing 3), .executed requestingNote], event.Fits id := by
    simp only [List.cons_append, List.nil_append, List.forall_mem_cons, List.not_mem_nil,
      false_implies, implies_true, and_true]
    refine ⟨StateSync.commitAnswers_fetchedFit, announcing_fits 3, fun note member => ?_⟩
    cases List.mem_singleton.mp member
    rfl
  have persists := (history_persists Function.injective_id storedRows_stored
    [.synchronised none commitRound] [.submitted (announcing 3), .executed requestingNote] fits).2
  have consumed : (StateSync.storedRows.run InputNoteRecord.acceptingScheme
      [.synchronised none commitRound]).inputs[1]?.map (fun row =>
        (row.state.consumedBlockHeight.isSome, row.consumedBlockHeight)) =
      some (true, some 10) := by
    decide
  obtain ⟨row, found, spent⟩ := Option.map_eq_some_iff.mp consumed
  obtain ⟨isSpent, height⟩ := Prod.mk.inj spent
  have other : ¬ (Entries.ofEvents [(.submitted (announcing 3) : StoreEvent Nat Nat),
      .executed requestingNote]).Created 1 := by
    rintro ⟨event, member, creates⟩
    rcases List.mem_pair.mp member with rfl | rfl
    · simp [StoreEvent.entries, Submission.creating, Submission.Creates, announcing,
        RawOutputNote.id] at creates
    · exact creates
  obtain ⟨later, foundLater, same⟩ := persists.inputs 1 row other found
  rw [same.consumed isSpent] at foundLater
  exact ⟨row, found, height, foundLater⟩

/-- A transaction that announces the consumed note makes it an expected one again. -/
example : (StateSync.storedRows.run InputNoteRecord.acceptingScheme
    [.synchronised none commitRound, .submitted (announcing 1)]).inputs[1]?.map
      (fun row => (row.state.isUnspent, row.consumedBlockHeight)) = some (true, none) := by
  decide

/-- A request makes an invalid note an expected one, without the time of its creation. -/
example : ((NoteRows.upsertInputNotes ⟨∅, ∅⟩
    [⟨⟨1, 1⟩, some 7, .invalid 0 4 ⟨0, 0, 0, 0⟩⟩]).run InputNoteRecord.acceptingScheme
      [.executed requestingNote]).inputs[1]?.map (fun row => (row.stateDiscriminant,
        row.createdAt)) = some (0, 0) := by
  decide

end MidenWorkspace.Client
