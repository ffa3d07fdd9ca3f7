import MidenWorkspace.Client.NoteRun

/-!
Contract: how the collected changes reach the rows of the store.

A new note is written as a whole row; of a note that was tracked before only the columns of
its state are written. Owns the rows of input and output notes with the columns that repeat
parts of the state, the two kinds of writes, and the proof that nothing is lost: after a
synchronisation every tracked note is stored as the tracker has it.
-/

namespace MidenWorkspace.Client

open Library (OrderedMap)
open Library.Structured

/-- How notes of one kind are stored. -/
structure NoteTable (ρ ω : Type) where
  noteId : ρ → NoteId
  /-- All columns, for `INSERT OR REPLACE`. -/
  serialize : ρ → ω
  /-- The columns that `UPDATE … SET … WHERE note_id = ?` writes. -/
  writeState : ρ → ω → ω

namespace NoteTable

variable {ρ ω : Type} (table : NoteTable ρ ω)

def batchInsert (rows : OrderedMap NoteId ω) (entries : List (NoteUpdate ρ)) :
    OrderedMap NoteId ω :=
  entries.foldl (fun rows entry =>
    rows.insert (table.noteId entry.note) (table.serialize entry.note)) rows

/-- A row that does not exist is not created. -/
def batchUpdateStates (rows : OrderedMap NoteId ω) (entries : List (NoteUpdate ρ)) :
    OrderedMap NoteId ω :=
  entries.foldl (fun rows entry =>
    rows.modify (table.noteId entry.note) (table.writeState entry.note)) rows

/-- One half of `apply_note_updates_tx`. -/
def applyUpdates (rows : OrderedMap NoteId ω) (updated : List (NoteUpdate ρ)) :
    OrderedMap NoteId ω :=
  table.batchUpdateStates
    (table.batchInsert rows (updated.filter fun entry => entry.updateType = .insert))
    (updated.filter fun entry => entry.updateType = .update)

end NoteTable

structure InputNoteRow (μ π : Type) where
  details : NoteDetails
  createdAt : Nat
  stateDiscriminant : UInt8
  state : InputNoteState μ π
  consumedBlockHeight : Option BlockNumber
  consumedTxOrder : Option Nat
  consumerAccountId : Option AccountId

structure OutputNoteRow (μ π : Type) where
  noteId : NoteId
  metadata : μ
  nullifier : Option Nullifier
  expectedHeight : BlockNumber
  stateDiscriminant : UInt8
  state : OutputNoteState π

def serializeInputNote {μ π : Type} (note : InputNoteRecord μ π) : InputNoteRow μ π where
  details := note.details
  createdAt := note.createdAt.getD 0
  stateDiscriminant := note.state.discriminant
  state := note.state
  consumedBlockHeight := note.state.consumedBlockHeight
  consumedTxOrder := note.state.consumedTxOrder
  consumerAccountId := note.state.consumerAccount

def parseInputNote {μ π : Type} (row : InputNoteRow μ π) : InputNoteRecord μ π :=
  ⟨row.details, some row.createdAt, row.state⟩

def serializeOutputNote {μ π : Type} (note : OutputNoteRecord μ π) : OutputNoteRow μ π where
  noteId := note.id
  metadata := note.metadata
  nullifier := note.nullifier
  expectedHeight := note.expectedHeight
  stateDiscriminant := note.state.discriminant
  state := note.state

def parseOutputNote {μ π : Type} (row : OutputNoteRow μ π) : OutputNoteRecord μ π :=
  ⟨row.noteId, row.metadata, row.state, row.expectedHeight⟩

def inputTable (μ π : Type) : NoteTable (InputNoteRecord μ π) (InputNoteRow μ π) where
  noteId := InputNoteRecord.id
  serialize := serializeInputNote
  writeState note row :=
    { row with
      stateDiscriminant := note.state.discriminant
      state := note.state
      consumedBlockHeight := note.state.consumedBlockHeight
      consumedTxOrder := note.state.consumedTxOrder
      consumerAccountId := note.state.consumerAccount }

/-- The column with the nullifier is not written again. -/
def outputTable (μ π : Type) : NoteTable (OutputNoteRecord μ π) (OutputNoteRow μ π) where
  noteId := OutputNoteRecord.id
  serialize := serializeOutputNote
  writeState note row :=
    { row with stateDiscriminant := note.state.discriminant, state := note.state }

/-! ### Nothing is lost -/

section WriteBack

variable {ρ ω : Type} {table : NoteTable ρ ω} {Keeps : ρ → ρ → Prop}

/-- How a tracked note stands to its row: unmarked notes are as stored, and of a note that is
marked as changed a stored one differs in its state only. -/
def Unwritten (table : NoteTable ρ ω) (rows : OrderedMap NoteId ω) (noteId : NoteId)
    (entry : NoteUpdate ρ) : Prop :=
  match entry.updateType with
  | .none => rows[noteId]? = some (table.serialize entry.note)
  | .insert => True
  | .update => ∃ row, rows[noteId]? = some row ∧
      table.writeState entry.note row = table.serialize entry.note

theorem batchInsert_spec (rows : OrderedMap NoteId ω) {entries : List (NoteUpdate ρ)}
    (distinct : (entries.map fun entry => table.noteId entry.note).Nodup) (noteId : NoteId) :
    (∀ entry ∈ entries, table.noteId entry.note = noteId →
      (table.batchInsert rows entries)[noteId]? = some (table.serialize entry.note)) ∧
    ((∀ entry ∈ entries, table.noteId entry.note ≠ noteId) →
      (table.batchInsert rows entries)[noteId]? = rows[noteId]?) :=
  OrderedMap.getElem?_foldl
    (fun rows (entry : NoteUpdate ρ) =>
      rows.insert (table.noteId entry.note) (table.serialize entry.note))
    (fun entry => table.noteId entry.note) (fun entry _ => some (table.serialize entry.note))
    (fun _ _ _ => OrderedMap.getElem?_insert ..) distinct rows noteId

theorem batchUpdateStates_spec (rows : OrderedMap NoteId ω) {entries : List (NoteUpdate ρ)}
    (distinct : (entries.map fun entry => table.noteId entry.note).Nodup) (noteId : NoteId) :
    (∀ entry ∈ entries, table.noteId entry.note = noteId →
      (table.batchUpdateStates rows entries)[noteId]? =
        rows[noteId]?.map (table.writeState entry.note)) ∧
    ((∀ entry ∈ entries, table.noteId entry.note ≠ noteId) →
      (table.batchUpdateStates rows entries)[noteId]? = rows[noteId]?) := by
  refine OrderedMap.getElem?_foldl _ _ (fun entry row => row.map (table.writeState entry.note))
    (fun rows entry key => ?_) distinct rows noteId
  rw [Std.ExtTreeMap.getElem?_modify]
  simp only [Std.compare_eq_iff_eq]
  split
  · rename_i same
    rw [same]
  · rfl

/-- The entries with one of the two marks, as `apply_note_updates_tx` collects them. -/
def marked (notes : Notes ρ) (updateType : NoteUpdateType) : List (NoteUpdate ρ) :=
  (notes.values.filter NoteUpdateTracker.isUpdated).filter fun entry =>
    entry.updateType = updateType

section Marked

variable {notes : Notes ρ} {updateType : NoteUpdateType} {noteId : NoteId}

/-- Every tracked note is under its own identifier. -/
def Keyed (table : NoteTable ρ ω) (notes : Notes ρ) : Prop :=
  ∀ (noteId : NoteId) (entry : NoteUpdate ρ), notes[noteId]? = some entry →
    table.noteId entry.note = noteId

theorem nodup_marked (keyed : Keyed table notes) (updateType : NoteUpdateType) :
    ((marked notes updateType).map fun entry => table.noteId entry.note).Nodup := by
  have keys : notes.values.map (fun entry => table.noteId entry.note) =
      notes.toList.map Prod.fst := by
    rw [OrderedMap.values, List.map_map]
    refine List.map_congr_left fun entry member => ?_
    exact keyed entry.1 entry.2 (Std.ExtTreeMap.mem_toList_iff_getElem?_eq_some.mp member)
  have distinct := notes.nodup_keys
  rw [← keys] at distinct
  exact distinct.sublist ((List.filter_sublist.trans List.filter_sublist).map _)

theorem mem_marked {entry : NoteUpdate ρ} (keyed : Keyed table notes)
    (member : entry ∈ marked notes updateType) :
    notes[table.noteId entry.note]? = some entry ∧ entry.updateType = updateType := by
  obtain ⟨updated, hasType⟩ := List.mem_filter.mp member
  obtain ⟨key, found⟩ := OrderedMap.mem_values.mp (List.mem_filter.mp updated).1
  rw [keyed key entry found]
  exact ⟨found, of_decide_eq_true hasType⟩

theorem mem_marked_of_found {entry : NoteUpdate ρ} (found : notes[noteId]? = some entry)
    (updated : NoteUpdateTracker.isUpdated entry = true) :
    entry ∈ marked notes entry.updateType :=
  List.mem_filter.mpr ⟨List.mem_filter.mpr ⟨OrderedMap.mem_values.mpr ⟨noteId, found⟩, updated⟩,
    decide_eq_true rfl⟩

/-- No note with the mark is written under the identifier of one with another mark. -/
theorem not_marked (keyed : Keyed table notes)
    (other : ∀ entry, notes[noteId]? = some entry → entry.updateType ≠ updateType) :
    ∀ entry ∈ marked notes updateType, table.noteId entry.note ≠ noteId := by
  rintro entry member rfl
  obtain ⟨found, hasType⟩ := mem_marked keyed member
  exact other entry found hasType

end Marked

/-- The rows after the writes, for notes under their own identifiers. -/
theorem applyUpdates_spec {rows : OrderedMap NoteId ω} {notes : Notes ρ}
    (keyed : Keyed table notes)
    (unwritten : ∀ (noteId : NoteId) (entry : NoteUpdate ρ), notes[noteId]? = some entry →
      Unwritten table rows noteId entry) (noteId : NoteId) :
    (table.applyUpdates rows (notes.values.filter NoteUpdateTracker.isUpdated))[noteId]? =
      (notes[noteId]?.map fun entry => table.serialize entry.note).or rows[noteId]? := by
  obtain ⟨inserted, notInserted⟩ := batchInsert_spec rows (nodup_marked keyed .insert) noteId
  obtain ⟨updated, notUpdated⟩ := batchUpdateStates_spec
    (table.batchInsert rows (marked notes .insert)) (nodup_marked keyed .update) noteId
  show (table.batchUpdateStates (table.batchInsert rows (marked notes .insert))
    (marked notes .update))[noteId]? = _
  cases found : notes[noteId]? with
  | none =>
      have absent : ∀ updateType, ∀ entry ∈ marked notes updateType,
          table.noteId entry.note ≠ noteId := fun updateType => not_marked keyed
        fun entry present => by rw [found] at present; cases present
      rw [notUpdated (absent .update), notInserted (absent .insert)]
      rfl
  | some entry =>
      have only : ∀ updateType, entry.updateType ≠ updateType →
          ∀ other ∈ marked notes updateType, table.noteId other.note ≠ noteId :=
        fun updateType different => not_marked keyed fun other present => by
          rw [found] at present
          exact Option.some.inj present ▸ different
      have sameId := keyed noteId entry found
      have stored := unwritten noteId entry found
      rw [Unwritten] at stored
      cases hasType : entry.updateType with
      | none =>
          rw [hasType] at stored only
          rw [notUpdated (only .update nofun), notInserted (only .insert nofun)]
          exact stored
      | insert =>
          rw [hasType] at only
          have member : entry ∈ marked notes .insert := by
            rw [← hasType]
            exact mem_marked_of_found found (by rw [NoteUpdateTracker.isUpdated, hasType])
          rw [notUpdated (only .update nofun)]
          exact inserted entry member sameId
      | update =>
          rw [hasType] at stored only
          have member : entry ∈ marked notes .update := by
            rw [← hasType]
            exact mem_marked_of_found found (by rw [NoteUpdateTracker.isUpdated, hasType])
          obtain ⟨row, foundRow, completes⟩ := stored
          rw [updated entry member sameId, notInserted (only .insert nofun), foundRow,
            Option.map_some, completes]
          rfl

/-! ### Runs keep the notes writable -/

/-- The columns of the state are all that a change along `Keeps` touches. -/
structure NoteTable.Respects (table : NoteTable ρ ω) (Keeps : ρ → ρ → Prop) : Prop where
  noteId : ∀ {note changed}, Keeps note changed → table.noteId changed = table.noteId note
  stored : ∀ note, table.writeState note (table.serialize note) = table.serialize note
  changed : ∀ {note changed row}, Keeps note changed →
    table.writeState note row = table.serialize note →
    table.writeState changed row = table.serialize changed

structure Writable (table : NoteTable ρ ω) (rows : OrderedMap NoteId ω) (notes : Notes ρ) :
    Prop where
  keyed : Keyed table notes
  unwritten : ∀ (noteId : NoteId) (entry : NoteUpdate ρ), notes[noteId]? = some entry →
    Unwritten table rows noteId entry

theorem Writable.touches {rows : OrderedMap NoteId ω} {before after : Notes ρ}
    (writable : Writable table rows before) (respects : table.Respects Keeps)
    (touches : Touches Keeps before after) : Writable table rows after := by
  refine ⟨touches.forall (fun noteId note => table.noteId note = noteId)
    (fun keeps same => (respects.noteId keeps).trans same) writable.keyed, ?_⟩
  intro noteId entry found
  rcases touches noteId with ⟨_, absent⟩ | ⟨previous, changed, foundBefore, foundAfter, moved⟩
  · cases absent.symm.trans found
  · obtain rfl := Option.some.inj (foundAfter.symm.trans found)
    have stored := writable.unwritten noteId previous foundBefore
    rcases moved with rfl | ⟨keeps, marked⟩
    · exact stored
    · rw [Unwritten] at stored ⊢
      cases hasType : previous.updateType with
      | none =>
          rw [hasType] at stored marked
          rw [marked]
          exact ⟨_, stored, respects.changed keeps (respects.stored previous.note)⟩
      | insert =>
          rw [hasType] at marked
          rw [marked]
          trivial
      | update =>
          rw [hasType] at stored marked
          rw [marked]
          obtain ⟨row, foundRow, completes⟩ := stored
          exact ⟨row, foundRow, respects.changed keeps completes⟩

theorem Writable.insert {rows : OrderedMap NoteId ω} {notes : Notes ρ}
    (writable : Writable table rows notes) (note : ρ) (updateType : NoteUpdateType)
    (unwritten : Unwritten table rows (table.noteId note) ⟨note, updateType⟩) :
    Writable table rows (notes.insert (table.noteId note) ⟨note, updateType⟩) := by
  constructor <;> intro noteId entry found <;> rw [OrderedMap.getElem?_insert] at found
  · split at found
    · rename_i same
      exact Option.some.inj found ▸ same
    · exact writable.keyed noteId entry found
  · split at found
    · rename_i same
      subst same
      exact Option.some.inj found ▸ unwritten
    · exact writable.unwritten noteId entry found

end WriteBack

section Tables

variable {μ π : Type} {scheme : NoteScheme μ π}

theorem inputTable_respects {Committed : TransactionId → BlockNumber → Prop} :
    (inputTable μ π).Respects (InputNoteRecord.Keeps scheme Committed) := by
  refine ⟨fun keeps => congrArg NoteDetails.id keeps.details, fun _ => rfl, ?_⟩
  intro note changed row keeps completes
  have details : row.details = note.details := congrArg InputNoteRow.details completes
  have createdAt : row.createdAt = note.createdAt.getD 0 :=
    congrArg InputNoteRow.createdAt completes
  have fixed : changed.details = note.details ∧ changed.createdAt = note.createdAt := by
    rw [keeps.fixed]
    exact ⟨rfl, rfl⟩
  simp only [inputTable, serializeInputNote, details, createdAt, fixed]

/-- The nullifier is the one of the recipient, which no transition changes. -/
theorem outputTable_respects : (outputTable μ π).Respects OutputNoteRecord.Keeps := by
  refine ⟨fun keeps => by rw [keeps.fixed]; rfl, fun _ => rfl, ?_⟩
  intro note changed row keeps completes
  have noteId : row.noteId = note.id := congrArg OutputNoteRow.noteId completes
  have metadata : row.metadata = note.metadata := congrArg OutputNoteRow.metadata completes
  have nullifier : row.nullifier = note.nullifier := congrArg OutputNoteRow.nullifier completes
  have height : row.expectedHeight = note.expectedHeight :=
    congrArg OutputNoteRow.expectedHeight completes
  have fixed : changed.id = note.id ∧ changed.metadata = note.metadata ∧
      changed.expectedHeight = note.expectedHeight := by
    rw [keeps.fixed]
    exact ⟨rfl, rfl, rfl⟩
  simp only [outputTable, serializeOutputNote, noteId, metadata, nullifier, height, fixed,
    keeps.nullifier]

structure NoteRows (μ π : Type) where
  inputs : OrderedMap NoteId (InputNoteRow μ π)
  outputs : OrderedMap NoteId (OutputNoteRow μ π)

/-- `apply_note_updates_tx`. -/
def NoteRows.applyNoteUpdates (rows : NoteRows μ π) (tracker : NoteUpdateTracker μ π) :
    NoteRows μ π where
  inputs := (inputTable μ π).applyUpdates rows.inputs tracker.updatedInputNotes
  outputs := (outputTable μ π).applyUpdates rows.outputs tracker.updatedOutputNotes

/-- Rows are under their identifiers, and the columns that repeat the state agree with it. -/
structure NoteRows.WellFormed (rows : NoteRows μ π) : Prop where
  inputs : ∀ (noteId : NoteId) (row : InputNoteRow μ π), rows.inputs[noteId]? = some row →
    row.details.id = noteId ∧ serializeInputNote (parseInputNote row) = row
  outputs : ∀ (noteId : NoteId) (row : OutputNoteRow μ π), rows.outputs[noteId]? = some row →
    row.noteId = noteId ∧ serializeOutputNote (parseOutputNote row) = row

/-- The notes were read from the store. -/
structure NoteRows.Loads (rows : NoteRows μ π) (inputNotes : List (InputNoteRecord μ π))
    (outputNotes : List (OutputNoteRecord μ π)) : Prop where
  inputs : ∀ note ∈ inputNotes, ∃ (noteId : NoteId) (row : InputNoteRow μ π),
    rows.inputs[noteId]? = some row ∧ parseInputNote row = note
  outputs : ∀ note ∈ outputNotes, ∃ (noteId : NoteId) (row : OutputNoteRow μ π),
    rows.outputs[noteId]? = some row ∧ parseOutputNote row = note

structure TrackerWritable (rows : NoteRows μ π) (tracker : NoteUpdateTracker μ π) : Prop where
  inputs : Writable (inputTable μ π) rows.inputs tracker.inputNotes
  outputs : Writable (outputTable μ π) rows.outputs tracker.outputNotes

open NoteUpdateTracker

theorem TrackerWritable.new {rows : NoteRows μ π} (wellFormed : rows.WellFormed)
    {inputNotes : List (InputNoteRecord μ π)} {outputNotes : List (OutputNoteRecord μ π)}
    (loads : rows.Loads inputNotes outputNotes) :
    TrackerWritable rows (NoteUpdateTracker.new inputNotes outputNotes) := by
  have start : TrackerWritable rows NoteUpdateTracker.empty := by
    refine ⟨⟨?_, ?_⟩, ⟨?_, ?_⟩⟩ <;>
      · intro noteId entry found
        simp [NoteUpdateTracker.empty] at found
  refine List.foldlRecOn outputNotes _ (List.foldlRecOn inputNotes _ start ?_) ?_
  · intro tracker writable note member
    obtain ⟨noteId, row, found, rfl⟩ := loads.inputs note member
    obtain ⟨sameId, complete⟩ := wellFormed.inputs noteId row found
    refine ⟨writable.inputs.insert (parseInputNote row) .none ?_, writable.outputs⟩
    show rows.inputs[row.details.id]? = some (serializeInputNote (parseInputNote row))
    rw [sameId, complete]
    exact found
  · intro tracker writable note member
    obtain ⟨noteId, row, found, rfl⟩ := loads.outputs note member
    obtain ⟨sameId, complete⟩ := wellFormed.outputs noteId row found
    refine ⟨writable.inputs, writable.outputs.insert (parseOutputNote row) .none ?_⟩
    show rows.outputs[row.noteId]? = some (serializeOutputNote (parseOutputNote row))
    rw [sameId, complete]
    exact found

variable [DecidableEq μ] [DecidableEq π]

theorem TrackerWritable.run {rows : NoteRows μ π} {tracker after : NoteUpdateTracker μ π}
    (writable : TrackerWritable rows tracker) {events : List (Event μ π)}
    (result : tracker.run scheme events = .ok after) : TrackerWritable rows after := by
  refine foldlM_invariant (TrackerWritable rows) (fun {_ event _} _ kept applied => ?_) writable
    result
  rcases apply_cases event.reports_any applied with
    tracks | ⟨note, header, received, rfl, keeps, rfl⟩
  · exact ⟨kept.inputs.touches inputTable_respects tracks.inputs,
      kept.outputs.touches outputTable_respects tracks.outputs⟩
  · exact ⟨kept.inputs.insert received .insert trivial, kept.outputs⟩

omit [DecidableEq μ] [DecidableEq π] in
/-- What the writing of a tracker makes of the rows. -/
theorem TrackerWritable.applyNoteUpdates {rows : NoteRows μ π} {tracker : NoteUpdateTracker μ π}
    (writable : TrackerWritable rows tracker) (wellFormed : rows.WellFormed) :
    (∀ noteId : NoteId, (rows.applyNoteUpdates tracker).inputs[noteId]? =
      (tracker.inputNotes[noteId]?.map fun entry => serializeInputNote entry.note).or
        rows.inputs[noteId]?) ∧
    (∀ noteId : NoteId, (rows.applyNoteUpdates tracker).outputs[noteId]? =
      (tracker.outputNotes[noteId]?.map fun entry => serializeOutputNote entry.note).or
        rows.outputs[noteId]?) ∧
    (rows.applyNoteUpdates tracker).WellFormed := by
  have inputs : ∀ noteId : NoteId, (rows.applyNoteUpdates tracker).inputs[noteId]? =
      (tracker.inputNotes[noteId]?.map fun entry => serializeInputNote entry.note).or
        rows.inputs[noteId]? :=
    applyUpdates_spec writable.inputs.keyed writable.inputs.unwritten
  have outputs : ∀ noteId : NoteId, (rows.applyNoteUpdates tracker).outputs[noteId]? =
      (tracker.outputNotes[noteId]?.map fun entry => serializeOutputNote entry.note).or
        rows.outputs[noteId]? :=
    applyUpdates_spec writable.outputs.keyed writable.outputs.unwritten
  refine ⟨inputs, outputs, fun noteId row found => ?_, fun noteId row found => ?_⟩
  · have lookup := inputs noteId
    cases tracked : tracker.inputNotes[noteId]? with
    | none =>
        rw [tracked] at lookup
        exact wellFormed.inputs noteId row (lookup.symm.trans found)
    | some entry =>
        rw [tracked] at lookup
        obtain rfl := Option.some.inj (lookup.symm.trans found)
        exact ⟨writable.inputs.keyed noteId entry tracked, rfl⟩
  · have lookup := outputs noteId
    cases tracked : tracker.outputNotes[noteId]? with
    | none =>
        rw [tracked] at lookup
        exact wellFormed.outputs noteId row (lookup.symm.trans found)
    | some entry =>
        rw [tracked] at lookup
        obtain rfl := Option.some.inj (lookup.symm.trans found)
        exact ⟨writable.outputs.keyed noteId entry tracked, rfl⟩

/-- A run from notes of the store, whatever the events, loses nothing. -/
theorem run_stores_notes {rows : NoteRows μ π} (wellFormed : rows.WellFormed)
    {inputNotes : List (InputNoteRecord μ π)} {outputNotes : List (OutputNoteRecord μ π)}
    (loads : rows.Loads inputNotes outputNotes) {events : List (Event μ π)}
    {tracker : NoteUpdateTracker μ π}
    (result : (NoteUpdateTracker.new inputNotes outputNotes).run scheme events = .ok tracker) :
    (∀ noteId : NoteId, (rows.applyNoteUpdates tracker).inputs[noteId]? =
      (tracker.inputNotes[noteId]?.map fun entry => serializeInputNote entry.note).or
        rows.inputs[noteId]?) ∧
    (∀ noteId : NoteId, (rows.applyNoteUpdates tracker).outputs[noteId]? =
      (tracker.outputNotes[noteId]?.map fun entry => serializeOutputNote entry.note).or
        rows.outputs[noteId]?) ∧
    (rows.applyNoteUpdates tracker).WellFormed :=
  ((TrackerWritable.new wellFormed loads).run result).applyNoteUpdates wellFormed

end Tables

end MidenWorkspace.Client
