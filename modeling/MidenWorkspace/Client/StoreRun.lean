import MidenWorkspace.Client.Sync

/-!
Contract: what a synchronisation does to the notes in the store of a client.

A synchronisation loads the unspent notes, asks a screener that looks into the same store, and
writes what it has collected, or nothing if it fails. Owns the screener, the filter for
unspent notes and one such round, what a store must satisfy (`Stored`), how its rows may change
(`Persists`), and the proof that a round keeps the one and changes rows along the other.

Does not own how the node is asked.
-/

namespace MidenWorkspace.Client

open Library (OrderedMap)
open Library.Structured
open NoteUpdateTracker

variable {μ π : Type}

/-! ### One round -/

/-- The states that `NoteFilter::Unspent` lists for input notes. Invalid notes are not among
them. -/
def InputNoteState.unspentDiscriminants : List UInt8 := [0, 4, 5, 1, 2]

/-- The states that `NoteFilter::Unspent` lists for output notes. -/
def OutputNoteState.unspentDiscriminants : List UInt8 := [0, 1, 2, 3]

def NoteRows.unspentInputNotes (rows : NoteRows μ π) : List (InputNoteRecord μ π) :=
  (rows.inputs.values.filter fun row =>
    InputNoteState.unspentDiscriminants.contains row.stateDiscriminant).map parseInputNote

def NoteRows.unspentOutputNotes (rows : NoteRows μ π) : List (OutputNoteRecord μ π) :=
  (rows.outputs.values.filter fun row =>
    OutputNoteState.unspentDiscriminants.contains row.stateDiscriminant).map parseOutputNote

/-- What the screener consults besides the notes of the store. -/
structure NoteScreener (μ π : Type) where
  tag : μ → NoteTag
  uniqueNoteTags : List NoteTag
  /-- Whether `can_consume` finds an account. It converts the note first, which may fail. -/
  canConsume : InputNoteRecord μ π → Except ClientError Bool

def NoteScreener.screenPublicNote (screener : NoteScreener μ π) (note : InputNoteRecord μ π) :
    Except ClientError (NoteUpdateAction μ π) :=
  -- A note with a tag that the user follows is kept without further checks.
  if note.state.metadata.any fun metadata =>
      screener.uniqueNoteTags.contains (screener.tag metadata) then
    .ok (.insert note)
  else do
    let isRelevant ← screener.canConsume note
    return if isRelevant then .insert note else .discard

def NoteScreener.onNoteReceived (screener : NoteScreener μ π) (rows : NoteRows μ π)
    (committedNote : CommittedNote μ π) (publicNote : Option (InputNoteRecord μ π)) :
    Except ClientError (NoteUpdateAction μ π) :=
  if rows.inputs[committedNote.noteId]?.isSome || rows.outputs[committedNote.noteId]?.isSome then
    .ok (.commit committedNote)
  else
    match publicNote with
    | some note => screener.screenPublicNote note
    | none => .ok .discard

/-- What a synchronisation is given besides the notes of the store. -/
structure Round (μ π : Type) where
  screener : NoteScreener μ π
  txDiscardDelta : Option Nat
  blockNum : BlockNumber
  uncommittedTransactions : List TransactionRecord
  answers : NodeAnswers μ π

def Round.stateSync (round : Round μ π) (scheme : NoteScheme μ π) (rows : NoteRows μ π) :
    StateSync μ π where
  scheme := scheme
  onNoteReceived := round.screener.onNoteReceived rows
  txDiscardDelta := round.txDiscardDelta
  syncNullifiers := true

section Rounds

variable [DecidableEq μ] [DecidableEq π]

/-- The changes to notes that `StateSync::sync_state` returns. -/
def Round.noteUpdates (round : Round μ π) (scheme : NoteScheme μ π) (rows : NoteRows μ π) :
    Except ClientError (NoteUpdateTracker μ π) := do
  let update ← (round.stateSync scheme rows).syncState round.blockNum rows.unspentInputNotes
    rows.unspentOutputNotes round.uncommittedTransactions round.answers
  return update.noteUpdates

/-- `Client::sync_state` from the input on, as far as it writes notes. -/
def NoteRows.syncState (scheme : NoteScheme μ π) (rows : NoteRows μ π) (round : Round μ π) :
    NoteRows μ π :=
  match round.noteUpdates scheme rows with
  | .ok noteUpdates => rows.applyNoteUpdates noteUpdates
  | .error _ => rows

end Rounds

/-! ### The screener inserts only notes that the store does not have -/

theorem NoteScreener.screenPublicNote_insert {screener : NoteScreener μ π}
    {shown note : InputNoteRecord μ π}
    (received : screener.screenPublicNote shown = .ok (.insert note)) : shown = note := by
  rw [screenPublicNote] at received
  split at received
  · cases received
    rfl
  · obtain ⟨isRelevant, _, decided⟩ := bind_eq_ok_iff.mp received
    cases isRelevant with
    | false => cases decided
    | true =>
        cases decided
        rfl

theorem NoteScreener.onNoteReceived_insert {screener : NoteScreener μ π} {rows : NoteRows μ π}
    {committedNote : CommittedNote μ π} {publicNote : Option (InputNoteRecord μ π)}
    {note : InputNoteRecord μ π}
    (received : screener.onNoteReceived rows committedNote publicNote = .ok (.insert note)) :
    publicNote = some note ∧ rows.inputs[committedNote.noteId]? = none := by
  unfold onNoteReceived at received
  split at received
  · cases received
  · rename_i absent
    cases publicNote with
    | none => cases received
    | some shown =>
        refine ⟨congrArg some (screenPublicNote_insert received), ?_⟩
        cases found : rows.inputs[committedNote.noteId]? with
        | none => rfl
        | some row => simp [found] at absent

theorem Round.stateSync_insertsShown (round : Round μ π) (scheme : NoteScheme μ π)
    (rows : NoteRows μ π) : (round.stateSync scheme rows).InsertsShown :=
  fun _ _ _ received => (NoteScreener.onNoteReceived_insert received).1

/-! ### Stored notes are not exchanged during a round -/

/-- The tracked notes among the known ones were tracked before, and changed by transitions
only. -/
structure Continues (scheme : NoteScheme μ π) (Known : NoteId → Prop)
    (before after : NoteUpdateTracker μ π) : Prop where
  inputs : ∀ (noteId : NoteId) (entry : NoteUpdate (InputNoteRecord μ π)), Known noteId →
    after.inputNotes[noteId]? = some entry → ∃ earlier, before.inputNotes[noteId]? = some earlier ∧
      InputNoteRecord.Keeps scheme (fun _ _ => True) earlier.note entry.note
  outputs : ∀ (noteId : NoteId) (entry : NoteUpdate (OutputNoteRecord μ π)),
    after.outputNotes[noteId]? = some entry → ∃ earlier,
      before.outputNotes[noteId]? = some earlier ∧ OutputNoteRecord.Keeps earlier.note entry.note

section Continuing

variable {scheme : NoteScheme μ π} {Known : NoteId → Prop}
  {before middle after : NoteUpdateTracker μ π}

theorem Continues.refl (tracker : NoteUpdateTracker μ π) : Continues scheme Known tracker tracker :=
  ⟨fun _ entry _ found => ⟨entry, found, .refl _⟩, fun _ entry found => ⟨entry, found, .refl _⟩⟩

theorem Continues.trans (earlier : Continues scheme Known before middle)
    (later : Continues scheme Known middle after) : Continues scheme Known before after := by
  refine ⟨fun noteId entry known found => ?_, fun noteId entry found => ?_⟩
  · obtain ⟨between, foundBetween, keepsLater⟩ := later.inputs noteId entry known found
    obtain ⟨first, foundFirst, keeps⟩ := earlier.inputs noteId between known foundBetween
    exact ⟨first, foundFirst, keeps.trans keepsLater⟩
  · obtain ⟨between, foundBetween, keepsLater⟩ := later.outputs noteId entry found
    obtain ⟨first, foundFirst, keeps⟩ := earlier.outputs noteId between foundBetween
    exact ⟨first, foundFirst, keeps.trans keepsLater⟩

theorem Continues.of_tracks (tracks : Tracks scheme (fun _ _ => True) before after) :
    Continues scheme Known before after :=
  ⟨fun _ _ _ found => tracks.inputs.exists_before InputNoteRecord.Keeps.refl found,
    fun _ _ found => tracks.outputs.exists_before OutputNoteRecord.Keeps.refl found⟩

theorem Continues.insertInputNote {note : InputNoteRecord μ π} (unknown : ¬ Known note.id)
    (updateType : NoteUpdateType) (tracker : NoteUpdateTracker μ π) :
    Continues scheme Known tracker (tracker.insertInputNote updateType note) := by
  refine ⟨fun noteId entry known found => ?_, fun _ entry found => ⟨entry, found, .refl _⟩⟩
  rw [NoteUpdateTracker.insertInputNote, OrderedMap.getElem?_insert, if_neg] at found
  · exact ⟨entry, found, .refl _⟩
  · rintro rfl
    exact unknown known

/-- A fold of steps that continue. -/
theorem Continues.foldlM {σ α : Type} (tracker : σ → NoteUpdateTracker μ π)
    {step : σ → α → Except ClientError σ}
    (continues : ∀ {state item next}, step state item = .ok next →
      Continues scheme Known (tracker state) (tracker next)) {items : List α} {start final : σ}
    (result : items.foldlM step start = .ok final) :
    Continues scheme Known (tracker start) (tracker final) :=
  foldlM_invariant (fun state => Continues scheme Known (tracker start) (tracker state))
    (fun _ continued stepped => continued.trans (continues stepped)) (.refl _) result

end Continuing

section SyncContinues

variable [DecidableEq μ] [DecidableEq π] {scheme : NoteScheme μ π} {rows : NoteRows μ π}
  {round : Round μ π} {data : RawStateSyncData μ π}

/-- The store has an input note of that identifier. -/
def NoteRows.HasInput (rows : NoteRows μ π) (noteId : NoteId) : Prop :=
  rows.inputs[noteId]?.isSome = true

theorem screenNote_continues {header : BlockHeader} {committedNote : CommittedNote μ π}
    {state after : Bool × NoteUpdateTracker μ π}
    (result : (round.stateSync scheme rows).screenNote (StateSync.publicNoteRecords data) header
      state committedNote = .ok after) :
    Continues scheme rows.HasInput state.2 after.2 := by
  obtain ⟨action, received, acting⟩ := bind_eq_ok_iff.mp result
  cases action with
  | commit note =>
      obtain ⟨⟨tracked, notes⟩, applied, written⟩ := bind_eq_ok_iff.mp acting
      obtain rfl := Except.ok.inj written
      exact .of_tracks (applyCommittedNote_tracks applied)
  | insert note =>
      obtain ⟨notes, applied, written⟩ := bind_eq_ok_iff.mp acting
      obtain rfl := Except.ok.inj written
      obtain ⟨shown, absent⟩ := NoteScreener.onNoteReceived_insert received
      have found : (StateSync.publicNoteRecords data)[committedNote.noteId]? = some note := by
        split at shown
        · cases shown
        · exact shown
      obtain ⟨known, receiving, inserted⟩ := bind_eq_ok_iff.mp applied
      obtain rfl := Except.ok.inj inserted
      have keeps : InputNoteRecord.Keeps scheme (fun _ _ => True) note known :=
        InputNoteRecord.keeps_blockHeaderReceived (liftRecord_eq_ok receiving)
      have sameId : known.id = committedNote.noteId :=
        (congrArg NoteDetails.id keeps.details).trans (OrderedMap.getElem?_collect_key found).2
      refine Continues.insertInputNote ?_ .insert state.2
      rw [NoteRows.HasInput, sameId, absent]
      exact Bool.false_ne_true
  | discard =>
      obtain rfl := Except.ok.inj acting
      exact .refl _

omit [DecidableEq μ] [DecidableEq π] in
theorem markErasedNotesAsConsumed_continues {sync : StateSync μ π} {Known : NoteId → Prop}
    (report : TransactionReport μ π) (notes : NoteUpdateTracker μ π) :
    Continues sync.scheme Known notes (sync.markErasedNotesAsConsumed report notes) := by
  rw [StateSync.markErasedNotesAsConsumed]
  induction report.erasedOutputNoteIds generalizing notes with
  | nil => exact .refl _
  | cons noteId others inductionHypothesis =>
      have erased : Continues sync.scheme Known notes _ :=
        .of_tracks (markErasedNoteAsConsumed_tracks noteId report.blockNum notes)
      exact erased.trans (inductionHypothesis _)

theorem applySyncResult_continues {before after : StateSyncUpdate μ π}
    (result : (round.stateSync scheme rows).applySyncResult data before = .ok after) :
    Continues scheme rows.HasInput before.noteUpdates after.noteUpdates := by
  obtain ⟨screened, screening, further⟩ := bind_eq_ok_iff.mp result
  obtain ⟨notes, processing, written⟩ := bind_eq_ok_iff.mp further
  obtain rfl := Except.ok.inj written
  have blocks : Continues scheme rows.HasInput before.noteUpdates screened := by
    refine Continues.foldlM id (fun {tracker block after} synced => ?_) screening
    obtain ⟨⟨relevant, notes⟩, screenedBlock, writtenBlock⟩ := bind_eq_ok_iff.mp synced
    obtain rfl := Except.ok.inj writtenBlock
    exact Continues.foldlM Prod.snd screenNote_continues screenedBlock
  have ordered : Continues scheme rows.HasInput screened
      (screened.extendNullifiers data.nullifiers) :=
    .of_tracks (extendNullifiers_tracks data.nullifiers screened)
  have reports : Continues scheme rows.HasInput (screened.extendNullifiers data.nullifiers)
      notes := by
    refine Continues.foldlM id (fun {tracker report after} applied => ?_) processing
    obtain ⟨proved, proving, writtenReport⟩ := bind_eq_ok_iff.mp applied
    obtain rfl := Except.ok.inj writtenReport
    have provedNotes : Continues scheme rows.HasInput tracker proved :=
      .of_tracks (applyOutputNoteInclusionProofs_tracks proving)
    have erased : Continues (round.stateSync scheme rows).scheme rows.HasInput proved _ :=
      markErasedNotesAsConsumed_continues report proved
    exact provedNotes.trans erased
  exact (blocks.trans ordered).trans reports

omit [DecidableEq μ] [DecidableEq π] in
theorem applyNullifier_continues {Known : NoteId → Prop} {before after : StateSyncUpdate μ π}
    {nullifierUpdate : NullifierUpdate}
    (result : StateSync.applyNullifier before nullifierUpdate = .ok after) :
    Continues scheme Known before.noteUpdates after.noteUpdates := by
  obtain ⟨notes, applied, written⟩ := bind_eq_ok_iff.mp result
  obtain rfl := Except.ok.inj written
  exact .of_tracks (applyNullifiersStateTransitions_tracks (fun _ _ _ _ _ => trivial) applied)

/-- During a round no stored note is exchanged for one that the node sends. -/
theorem Round.noteUpdates_continues {tracker : NoteUpdateTracker μ π}
    (result : round.noteUpdates scheme rows = .ok tracker) :
    Continues scheme rows.HasInput
      (.new rows.unspentInputNotes rows.unspentOutputNotes) tracker := by
  obtain ⟨update, synced, written⟩ := bind_eq_ok_iff.mp result
  obtain rfl := Except.ok.inj written
  rcases StateSync.syncState_eq_ok synced with ⟨_, rfl⟩ | ⟨data, applied, _, applying, further⟩
  · exact .refl _
  · have first := applySyncResult_continues applying
    rcases further with ⟨_, rfl⟩ | ⟨newNullifiers, _, nullified⟩
    · exact first
    · have second : Continues scheme rows.HasInput applied.noteUpdates update.noteUpdates :=
        Continues.foldlM StateSyncUpdate.noteUpdates applyNullifier_continues nullified
      exact first.trans second

end SyncContinues

/-! ### What a round loads -/

/-- Every stored note goes with its nullifier, and if it is authenticated it was checked. -/
structure Stored (scheme : NoteScheme μ π) (nullifierOf : NoteId → Nullifier)
    (rows : NoteRows μ π) : Prop where
  wellFormed : rows.WellFormed
  inputs : ∀ (noteId : NoteId) (row : InputNoteRow μ π), rows.inputs[noteId]? = some row →
    Fits scheme nullifierOf (parseInputNote row)
  outputs : ∀ (noteId : NoteId) (row : OutputNoteRow μ π), rows.outputs[noteId]? = some row →
    OutputFits nullifierOf (parseOutputNote row)

section Loading

variable {scheme : NoteScheme μ π} {nullifierOf : NoteId → Nullifier} {rows : NoteRows μ π}

/-- An input note that is neither consumed nor invalid. -/
def InputNoteState.isUnspent : InputNoteState μ π → Bool
  | .expected _ _ _ | .unverified _ _ | .committed _ _ _ => true
  | .processingAuthenticated _ _ _ _ | .processingUnauthenticated _ _ _ => true
  | _ => false

def OutputNoteState.isUnspent : OutputNoteState π → Bool
  | .consumed _ _ => false
  | _ => true

theorem InputNoteState.contains_unspentDiscriminants (state : InputNoteState μ π) :
    unspentDiscriminants.contains state.discriminant = state.isUnspent := by
  cases state <;> rfl

theorem OutputNoteState.contains_unspentDiscriminants (state : OutputNoteState π) :
    unspentDiscriminants.contains state.discriminant = state.isUnspent := by
  cases state <;> rfl

/-- The filter looks at the column with the discriminant, which goes with the state. -/
theorem mem_unspentInputNotes (wellFormed : rows.WellFormed) {note : InputNoteRecord μ π}
    (member : note ∈ rows.unspentInputNotes) :
    ∃ (noteId : NoteId) (row : InputNoteRow μ π), rows.inputs[noteId]? = some row ∧
      row.state.isUnspent = true ∧ parseInputNote row = note := by
  obtain ⟨row, selected, rfl⟩ := List.mem_map.mp member
  obtain ⟨stored, listed⟩ := List.mem_filter.mp selected
  obtain ⟨noteId, found⟩ := OrderedMap.mem_values.mp stored
  have column : row.state.discriminant = row.stateDiscriminant :=
    congrArg InputNoteRow.stateDiscriminant (wellFormed.inputs noteId row found).2
  rw [← column, InputNoteState.contains_unspentDiscriminants] at listed
  exact ⟨noteId, row, found, listed, rfl⟩

theorem mem_unspentOutputNotes (wellFormed : rows.WellFormed) {note : OutputNoteRecord μ π}
    (member : note ∈ rows.unspentOutputNotes) :
    ∃ (noteId : NoteId) (row : OutputNoteRow μ π), rows.outputs[noteId]? = some row ∧
      row.state.isUnspent = true ∧ parseOutputNote row = note := by
  obtain ⟨row, selected, rfl⟩ := List.mem_map.mp member
  obtain ⟨stored, listed⟩ := List.mem_filter.mp selected
  obtain ⟨noteId, found⟩ := OrderedMap.mem_values.mp stored
  have column : row.state.discriminant = row.stateDiscriminant :=
    congrArg OutputNoteRow.stateDiscriminant (wellFormed.outputs noteId row found).2
  rw [← column, OutputNoteState.contains_unspentDiscriminants] at listed
  exact ⟨noteId, row, found, listed, rfl⟩

theorem loads_unspent (wellFormed : rows.WellFormed) :
    rows.Loads rows.unspentInputNotes rows.unspentOutputNotes := by
  constructor
  · intro note member
    obtain ⟨noteId, row, found, _, parsed⟩ := mem_unspentInputNotes wellFormed member
    exact ⟨noteId, row, found, parsed⟩
  · intro note member
    obtain ⟨noteId, row, found, _, parsed⟩ := mem_unspentOutputNotes wellFormed member
    exact ⟨noteId, row, found, parsed⟩

theorem InputNoteState.not_consumed_of_isUnspent {state : InputNoteState μ π}
    (unspent : state.isUnspent = true) : state.consumedBlockHeight = none := by
  cases state with
  | consumedAuthenticatedLocal => cases unspent
  | consumedUnauthenticatedLocal => cases unspent
  | consumedExternal => cases unspent
  | _ => rfl

theorem nodup_unspentOutputNotes (wellFormed : rows.WellFormed) :
    (rows.unspentOutputNotes.map OutputNoteRecord.id).Nodup := by
  have keys : rows.outputs.values.map OutputNoteRow.noteId = rows.outputs.toList.map Prod.fst := by
    rw [OrderedMap.values, List.map_map]
    refine List.map_congr_left fun entry member => ?_
    exact (wellFormed.outputs entry.1 entry.2
      (Std.ExtTreeMap.mem_toList_iff_getElem?_eq_some.mp member)).1
  have distinct := rows.outputs.nodup_keys
  rw [← keys] at distinct
  rw [NoteRows.unspentOutputNotes, List.map_map]
  exact distinct.sublist (List.filter_sublist.map _)

theorem Stored.loaded (stored : Stored scheme nullifierOf rows) :
    StateSync.Loaded scheme nullifierOf rows.unspentInputNotes rows.unspentOutputNotes where
  inputs note member := by
    obtain ⟨noteId, row, found, _, rfl⟩ := mem_unspentInputNotes stored.wellFormed member
    exact stored.inputs noteId row found
  unspent note member := by
    obtain ⟨noteId, row, _, unspent, rfl⟩ := mem_unspentInputNotes stored.wellFormed member
    exact congrArg Option.isSome (InputNoteState.not_consumed_of_isUnspent unspent)
  outputs note member := by
    obtain ⟨noteId, row, found, _, rfl⟩ := mem_unspentOutputNotes stored.wellFormed member
    exact stored.outputs noteId row found
  distinct := nodup_unspentOutputNotes stored.wellFormed

theorem mem_outputs_of_new {inputNotes : List (InputNoteRecord μ π)}
    {outputNotes : List (OutputNoteRecord μ π)} {noteId : NoteId}
    {entry : NoteUpdate (OutputNoteRecord μ π)}
    (found : (NoteUpdateTracker.new inputNotes outputNotes).outputNotes[noteId]? = some entry) :
    entry.note ∈ outputNotes := by
  rcases found_of_insertOutputNotes found with earlier | ⟨_, member, _⟩
  · rw [foldl_insertInputNote_outputNotes] at earlier
    simp [NoteUpdateTracker.empty] at earlier
  · exact member

/-- A note that is tracked at the start of a round is the one of an unspent row. -/
theorem row_of_loaded_input (wellFormed : rows.WellFormed) {noteId : NoteId}
    {entry : NoteUpdate (InputNoteRecord μ π)}
    (found : (NoteUpdateTracker.new rows.unspentInputNotes
      rows.unspentOutputNotes).inputNotes[noteId]? = some entry) :
    ∃ row, rows.inputs[noteId]? = some row ∧ row.state.isUnspent = true ∧
      parseInputNote row = entry.note := by
  obtain ⟨key, row, stored, unspent, parsed⟩ :=
    mem_unspentInputNotes wellFormed (StateSync.mem_of_new found)
  have own : entry.note.id = noteId :=
    (TrackerWritable.new wellFormed (loads_unspent wellFormed)).inputs.keyed noteId entry found
  have sameKey : key = noteId := by
    rw [← (wellFormed.inputs key row stored).1, ← own, ← parsed]
    rfl
  exact ⟨row, sameKey ▸ stored, unspent, parsed⟩

theorem row_of_loaded_output (wellFormed : rows.WellFormed) {noteId : NoteId}
    {entry : NoteUpdate (OutputNoteRecord μ π)}
    (found : (NoteUpdateTracker.new rows.unspentInputNotes
      rows.unspentOutputNotes).outputNotes[noteId]? = some entry) :
    ∃ row, rows.outputs[noteId]? = some row ∧ row.state.isUnspent = true ∧
      parseOutputNote row = entry.note := by
  obtain ⟨key, row, stored, unspent, parsed⟩ :=
    mem_unspentOutputNotes wellFormed (mem_outputs_of_new found)
  have own : entry.note.id = noteId :=
    (TrackerWritable.new wellFormed (loads_unspent wellFormed)).outputs.keyed noteId entry found
  have sameKey : key = noteId := by
    rw [← (wellFormed.outputs key row stored).1, ← own, ← parsed]
    rfl
  exact ⟨row, sameKey ▸ stored, unspent, parsed⟩

end Loading

/-! ### What writing keeps -/

/-- The notes that a part of the history enters in other ways than by a synchronisation. -/
structure Entries where
  /-- By a transaction that creates or announces them. -/
  Created : NoteId → Prop
  /-- By the request for a transaction that consumes them. -/
  Requested : NoteId → Prop
  Imported : NoteId → Prop

def Entries.none : Entries := ⟨fun _ => False, fun _ => False, fun _ => False⟩

structure Entries.Within (fewer entries : Entries) : Prop where
  created : ∀ noteId, fewer.Created noteId → entries.Created noteId
  requested : ∀ noteId, fewer.Requested noteId → entries.Requested noteId
  imported : ∀ noteId, fewer.Imported noteId → entries.Imported noteId

theorem Entries.none_within (entries : Entries) : Entries.none.Within entries :=
  ⟨fun _ => False.elim, fun _ => False.elim, fun _ => False.elim⟩

/-- The note stays the same, once it is authenticated it stays so until it is consumed, and
then it is not written again. -/
structure InputNoteRow.Persists (requested imported : Prop) (row later : InputNoteRow μ π) :
    Prop where
  details : later.details = row.details
  createdAt : ¬ requested → later.createdAt = row.createdAt
  authenticated : row.state.isAuthenticated = true →
    later.state.isAuthenticated = true ∨ later.state.consumedBlockHeight.isSome = true
  consumed : row.state.consumedBlockHeight.isSome = true → later = row
  invalid : ¬ requested → ¬ imported → row.state.isUnspent = false → later = row

structure OutputNoteRow.Persists (row later : OutputNoteRow μ π) : Prop where
  metadata : later.metadata = row.metadata
  nullifier : later.nullifier = row.nullifier
  expectedHeight : later.expectedHeight = row.expectedHeight
  consumed : row.state.isUnspent = false → later = row

/-- No row is lost, and every one outside of the created notes persists. -/
structure Persists (entries : Entries) (before after : NoteRows μ π) : Prop where
  inputs : ∀ (noteId : NoteId) (row : InputNoteRow μ π), ¬ entries.Created noteId →
    before.inputs[noteId]? = some row → ∃ later, after.inputs[noteId]? = some later ∧
      row.Persists (entries.Requested noteId) (entries.Imported noteId) later
  outputs : ∀ (noteId : NoteId) (row : OutputNoteRow μ π), ¬ entries.Created noteId →
    before.outputs[noteId]? = some row →
    ∃ later, after.outputs[noteId]? = some later ∧ row.Persists later

section Persisting

variable {requested imported : Prop}

theorem InputNoteRow.Persists.refl (row : InputNoteRow μ π) :
    row.Persists requested imported row :=
  ⟨rfl, fun _ => rfl, .inl, fun _ => rfl, fun _ _ _ => rfl⟩

theorem InputNoteRow.Persists.trans {first second third : InputNoteRow μ π}
    (before : first.Persists requested imported second)
    (after : second.Persists requested imported third) :
    first.Persists requested imported third := by
  refine ⟨after.details.trans before.details,
    fun other => (after.createdAt other).trans (before.createdAt other), fun checked => ?_,
    fun consumed => ?_, fun notRequested notImported spent => ?_⟩
  · rcases before.authenticated checked with checkedAlso | consumed
    · exact after.authenticated checkedAlso
    · rw [after.consumed consumed]
      exact .inr consumed
  · have same := before.consumed consumed
    rw [after.consumed (same ▸ consumed), same]
  · have same := before.invalid notRequested notImported spent
    rw [after.invalid notRequested notImported (same ▸ spent), same]

/-- A row that is written with a note that has come from it by transitions. -/
theorem InputNoteRow.Persists.of_keeps {scheme : NoteScheme μ π} {row : InputNoteRow μ π}
    {note : InputNoteRecord μ π} (complete : serializeInputNote (parseInputNote row) = row)
    (keeps : InputNoteRecord.Keeps scheme (fun _ _ => True) (parseInputNote row) note)
    (consumed : row.state.consumedBlockHeight.isSome = true → note = parseInputNote row)
    (changeable : imported ∨ row.state.isUnspent = true) :
    row.Persists requested imported (serializeInputNote note) := by
  refine ⟨keeps.details, fun _ => ?_, keeps.authenticated, fun isConsumed => ?_,
    fun _ notImported spent => ?_⟩
  · rw [serializeInputNote, keeps.fixed]
    rfl
  · rw [consumed isConsumed, complete]
  · rcases changeable with isImported | unspent
    · exact absurd isImported notImported
    · cases unspent.symm.trans spent

theorem OutputNoteRow.Persists.refl (row : OutputNoteRow μ π) : row.Persists row :=
  ⟨rfl, rfl, rfl, fun _ => rfl⟩

theorem OutputNoteRow.Persists.trans {first second third : OutputNoteRow μ π}
    (before : first.Persists second) (after : second.Persists third) : first.Persists third := by
  refine ⟨after.metadata.trans before.metadata, after.nullifier.trans before.nullifier,
    after.expectedHeight.trans before.expectedHeight, fun spent => ?_⟩
  have same := before.consumed spent
  rw [after.consumed (same ▸ spent), same]

end Persisting

section Writing

variable {scheme : NoteScheme μ π} {nullifierOf : NoteId → Nullifier} {rows : NoteRows μ π}
  {tracker : NoteUpdateTracker μ π} {entries : Entries}

theorem Persists.refl (rows : NoteRows μ π) : Persists entries rows rows :=
  ⟨fun _ row _ found => ⟨row, found, .refl row⟩, fun _ row _ found => ⟨row, found, .refl row⟩⟩

theorem Persists.trans {first second third : NoteRows μ π}
    (before : Persists entries first second) (after : Persists entries second third) :
    Persists entries first third := by
  constructor
  · intro noteId row other found
    obtain ⟨middle, foundMiddle, persists⟩ := before.inputs noteId row other found
    obtain ⟨later, foundLater, persistsLater⟩ := after.inputs noteId middle other foundMiddle
    exact ⟨later, foundLater, persists.trans persistsLater⟩
  · intro noteId row other found
    obtain ⟨middle, foundMiddle, persists⟩ := before.outputs noteId row other found
    obtain ⟨later, foundLater, persistsLater⟩ := after.outputs noteId middle other foundMiddle
    exact ⟨later, foundLater, persists.trans persistsLater⟩

theorem Persists.mono {fewer : Entries} {before after : NoteRows μ π}
    (persists : Persists fewer before after) (within : fewer.Within entries) :
    Persists entries before after := by
  constructor
  · intro noteId row other found
    obtain ⟨later, foundLater, own⟩ :=
      persists.inputs noteId row (other ∘ within.created noteId) found
    exact ⟨later, foundLater, own.details, own.createdAt ∘ (· ∘ within.requested noteId),
      own.authenticated, own.consumed, fun notRequested notImported =>
        own.invalid (notRequested ∘ within.requested noteId)
          (notImported ∘ within.imported noteId)⟩
  · exact fun noteId row other => persists.outputs noteId row (other ∘ within.created noteId)

/-- Writing notes that were checked. -/
theorem Stored.of_written (stored : Stored scheme nullifierOf rows)
    (writable : TrackerWritable rows tracker)
    (inputsFit : ∀ (noteId : NoteId) (entry : NoteUpdate (InputNoteRecord μ π)),
      tracker.inputNotes[noteId]? = some entry → Fits scheme nullifierOf entry.note)
    (outputsFit : ∀ (noteId : NoteId) (entry : NoteUpdate (OutputNoteRecord μ π)),
      tracker.outputNotes[noteId]? = some entry → OutputFits nullifierOf entry.note) :
    Stored scheme nullifierOf (rows.applyNoteUpdates tracker) := by
  obtain ⟨inputs, outputs, wellFormed⟩ := writable.applyNoteUpdates stored.wellFormed
  refine ⟨wellFormed, fun noteId row found => ?_, fun noteId row found => ?_⟩
  · rw [inputs] at found
    cases tracked : tracker.inputNotes[noteId]? with
    | none =>
        rw [tracked] at found
        exact stored.inputs noteId row found
    | some entry =>
        rw [tracked] at found
        obtain rfl := Option.some.inj found
        have fits := inputsFit noteId entry tracked
        exact ⟨fits.nullifier, fits.authentic⟩
  · rw [outputs] at found
    cases tracked : tracker.outputNotes[noteId]? with
    | none =>
        rw [tracked] at found
        exact stored.outputs noteId row found
    | some entry =>
        rw [tracked] at found
        obtain rfl := Option.some.inj found
        exact outputsFit noteId entry tracked

variable (scheme) in
/-- Writing notes that come from unspent rows by transitions. -/
theorem Persists.of_written (wellFormed : rows.WellFormed)
    (writable : TrackerWritable rows tracker)
    (inputs : ∀ (noteId : NoteId) (row : InputNoteRow μ π)
      (entry : NoteUpdate (InputNoteRecord μ π)), ¬ entries.Created noteId →
      rows.inputs[noteId]? = some row → tracker.inputNotes[noteId]? = some entry →
      row.state.isUnspent = true ∧
        InputNoteRecord.Keeps scheme (fun _ _ => True) (parseInputNote row) entry.note)
    (outputs : ∀ (noteId : NoteId) (row : OutputNoteRow μ π)
      (entry : NoteUpdate (OutputNoteRecord μ π)), ¬ entries.Created noteId →
      rows.outputs[noteId]? = some row → tracker.outputNotes[noteId]? = some entry →
      row.state.isUnspent = true ∧ OutputNoteRecord.Keeps (parseOutputNote row) entry.note) :
    Persists entries rows (rows.applyNoteUpdates tracker) := by
  obtain ⟨inputsAfter, outputsAfter, _⟩ := writable.applyNoteUpdates wellFormed
  refine ⟨fun noteId row other found => ?_, fun noteId row other found => ?_⟩
  · rw [inputsAfter]
    cases tracked : tracker.inputNotes[noteId]? with
    | none => exact ⟨row, found, .refl row⟩
    | some entry =>
        obtain ⟨unspent, keeps⟩ := inputs noteId row entry other found tracked
        refine ⟨serializeInputNote entry.note, rfl,
          .of_keeps (wellFormed.inputs noteId row found).2 keeps (fun consumed => ?_)
            (.inr unspent)⟩
        rw [InputNoteState.not_consumed_of_isUnspent unspent] at consumed
        cases consumed
  · rw [outputsAfter]
    cases tracked : tracker.outputNotes[noteId]? with
    | none => exact ⟨row, found, .refl row⟩
    | some entry =>
        obtain ⟨unspent, keeps⟩ := outputs noteId row entry other found tracked
        have complete := congrArg OutputNoteRow.nullifier (wellFormed.outputs noteId row found).2
        refine ⟨serializeOutputNote entry.note, rfl, ?_, keeps.nullifier.trans complete, ?_,
          fun isSpent => ?_⟩
        · rw [serializeOutputNote, keeps.fixed]
          rfl
        · rw [serializeOutputNote, keeps.fixed]
          rfl
        · cases unspent.symm.trans isSpent

end Writing

/-! ### What a round keeps -/

section Keeping

variable [DecidableEq μ] [DecidableEq π] {scheme : NoteScheme μ π}
  {nullifierOf : NoteId → Nullifier} {rows : NoteRows μ π} {round : Round μ π}
  {tracker : NoteUpdateTracker μ π}

theorem Round.noteUpdates_reaches (fetched : round.answers.FetchedFit nullifierOf)
    (result : round.noteUpdates scheme rows = .ok tracker) :
    Reaches scheme nullifierOf (fun _ _ => True)
      (NoteUpdateTracker.new rows.unspentInputNotes rows.unspentOutputNotes) tracker := by
  obtain ⟨update, synced, written⟩ := bind_eq_ok_iff.mp result
  obtain rfl := Except.ok.inj written
  exact StateSync.syncState_reaches (round.stateSync_insertsShown scheme rows) fetched synced

theorem Round.writable (stored : Stored scheme nullifierOf rows)
    (fetched : round.answers.FetchedFit nullifierOf)
    (result : round.noteUpdates scheme rows = .ok tracker) :
    TrackerWritable rows tracker := by
  obtain ⟨events, _, ran⟩ := Round.noteUpdates_reaches fetched result
  exact (TrackerWritable.new stored.wellFormed (loads_unspent stored.wellFormed)).run ran

theorem Stored.noteUpdates (injective : Function.Injective nullifierOf)
    (stored : Stored scheme nullifierOf rows) (fetched : round.answers.FetchedFit nullifierOf)
    (result : round.noteUpdates scheme rows = .ok tracker) :
    Stored scheme nullifierOf (rows.applyNoteUpdates tracker) := by
  have loaded := stored.loaded
  have start : Sound scheme nullifierOf
      (NoteUpdateTracker.new rows.unspentInputNotes rows.unspentOutputNotes) :=
    sound_new injective loaded.inputs loaded.outputs loaded.distinct
  have sound := start.reaches injective (Round.noteUpdates_reaches fetched result)
  exact stored.of_written (Round.writable stored fetched result)
    (fun noteId entry found => (sound.inputs noteId entry found).2)
    (fun noteId entry found => (sound.outputs noteId entry found).2)

theorem Round.persists (stored : Stored scheme nullifierOf rows)
    (fetched : round.answers.FetchedFit nullifierOf)
    (result : round.noteUpdates scheme rows = .ok tracker) :
    Persists .none rows (rows.applyNoteUpdates tracker) := by
  have continues := Round.noteUpdates_continues result
  refine Persists.of_written scheme stored.wellFormed (Round.writable stored fetched result)
    (fun noteId row entry _ found tracked => ?_) (fun noteId row entry _ found tracked => ?_)
  · have known : rows.HasInput noteId := by
      rw [NoteRows.HasInput, found]
      rfl
    obtain ⟨earlier, loaded, keeps⟩ := continues.inputs noteId entry known tracked
    obtain ⟨own, foundOwn, unspent, parsed⟩ := row_of_loaded_input stored.wellFormed loaded
    obtain rfl := Option.some.inj (foundOwn.symm.trans found)
    exact ⟨unspent, parsed ▸ keeps⟩
  · obtain ⟨earlier, loaded, keeps⟩ := continues.outputs noteId entry tracked
    obtain ⟨own, foundOwn, unspent, parsed⟩ := row_of_loaded_output stored.wellFormed loaded
    obtain rfl := Option.some.inj (foundOwn.symm.trans found)
    exact ⟨unspent, parsed ▸ keeps⟩

theorem Stored.syncState (injective : Function.Injective nullifierOf)
    (stored : Stored scheme nullifierOf rows) (fetched : round.answers.FetchedFit nullifierOf) :
    Stored scheme nullifierOf (rows.syncState scheme round) ∧
      Persists .none rows (rows.syncState scheme round) := by
  rw [NoteRows.syncState]
  split
  · rename_i tracker result
    exact ⟨stored.noteUpdates injective fetched result, Round.persists stored fetched result⟩
  · exact ⟨stored, .refl rows⟩

end Keeping

end MidenWorkspace.Client
