import MidenWorkspace.Client.NoteTracker
import MidenWorkspace.Library.Structured

/-!
Contract: what any sequence of operations keeps of the tracked notes.

Owns the operations as events, one lemma on how each of them may change the notes
(`Touches`), and the invariant of whole runs (`Sound`): every authenticated note has a proof
that was checked, and the two indices are those of the notes.
-/

namespace MidenWorkspace.Client

open Library (OrderedMap)
open Library.Structured

/-! ### Changes of the tracked notes -/

/-- Notes stay tracked; a note that changes does so along `Keeps` and is marked. -/
def Touches {ρ : Type} (Keeps : ρ → ρ → Prop) (before after : Notes ρ) : Prop :=
  ∀ noteId : NoteId, before[noteId]? = none ∧ after[noteId]? = none ∨
    ∃ entry changed, before[noteId]? = some entry ∧ after[noteId]? = some changed ∧
      (changed = entry ∨
        Keeps entry.note changed.note ∧ changed.updateType = entry.updateType.touched)

section Touching

variable {ρ : Type} {Keeps : ρ → ρ → Prop} {before middle after : Notes ρ} {noteId : NoteId}
  {change : ρ → Except ClientError ρ}

theorem NoteUpdateType.touched_touched (updateType : NoteUpdateType) :
    updateType.touched.touched = updateType.touched := by
  cases updateType <;> rfl

theorem Touches.refl (notes : Notes ρ) : Touches Keeps notes notes := by
  intro noteId
  cases found : notes[noteId]? with
  | none => exact .inl ⟨rfl, rfl⟩
  | some entry => exact .inr ⟨entry, entry, rfl, rfl, .inl rfl⟩

theorem Touches.trans (transitive : ∀ {first second third}, Keeps first second →
      Keeps second third → Keeps first third)
    (earlier : Touches Keeps before middle) (later : Touches Keeps middle after) :
    Touches Keeps before after := by
  intro noteId
  rcases earlier noteId with ⟨absent, absentMiddle⟩ | ⟨entry, changed, found, foundMiddle, moved⟩
  · rcases later noteId with ⟨_, absentAfter⟩ | ⟨_, _, foundMiddle, _⟩
    · exact .inl ⟨absent, absentAfter⟩
    · cases absentMiddle.symm.trans foundMiddle
  · rcases later noteId with ⟨absentMiddle, _⟩ | ⟨same, final, foundSame, foundAfter, further⟩
    · cases foundMiddle.symm.trans absentMiddle
    · obtain rfl := Option.some.inj (foundMiddle.symm.trans foundSame)
      refine .inr ⟨entry, final, found, foundAfter, ?_⟩
      rcases moved with rfl | ⟨keeps, marked⟩
      · exact further
      · rcases further with rfl | ⟨keepsAlso, markedAlso⟩
        · exact .inr ⟨keeps, marked⟩
        · refine .inr ⟨transitive keeps keepsAlso, ?_⟩
          rw [markedAlso, marked, NoteUpdateType.touched_touched]

theorem Touches.insert {entry : NoteUpdate ρ} {note : ρ} (found : before[noteId]? = some entry)
    (keeps : Keeps entry.note note) :
    Touches Keeps before (before.insert noteId (entry.innerMut note)) := by
  intro other
  rw [OrderedMap.getElem?_insert]
  split
  · rename_i same
    subst same
    exact .inr ⟨entry, _, found, rfl, .inr ⟨keeps, rfl⟩⟩
  · exact Touches.refl before other

theorem Touches.exists_before (reflexive : ∀ note, Keeps note note)
    (touches : Touches Keeps before after) {entry : NoteUpdate ρ}
    (found : after[noteId]? = some entry) :
    ∃ earlier, before[noteId]? = some earlier ∧ Keeps earlier.note entry.note := by
  rcases touches noteId with ⟨_, absent⟩ | ⟨earlier, changed, foundBefore, foundAfter, moved⟩
  · cases absent.symm.trans found
  · obtain rfl := Option.some.inj (foundAfter.symm.trans found)
    refine ⟨earlier, foundBefore, ?_⟩
    rcases moved with rfl | ⟨keeps, _⟩
    · exact reflexive _
    · exact keeps

theorem changeNote_eq_ok (result : changeNote before noteId change = .ok after) :
    before[noteId]? = none ∧ after = before ∨
      ∃ entry note, before[noteId]? = some entry ∧ change entry.note = .ok note ∧
        after = before.insert noteId (entry.innerMut note) := by
  rw [changeNote] at result
  cases found : before[noteId]? with
  | none =>
      rw [found] at result
      exact .inl ⟨rfl, (Except.ok.inj result).symm⟩
  | some entry =>
      rw [found] at result
      obtain ⟨note, changed, written⟩ := bind_eq_ok_iff.mp result
      exact .inr ⟨entry, note, rfl, changed, (Except.ok.inj written).symm⟩

theorem changeNote_touches (keeps : ∀ note changed, change note = .ok changed → Keeps note changed)
    (result : changeNote before noteId change = .ok after) : Touches Keeps before after := by
  rcases changeNote_eq_ok result with ⟨_, rfl⟩ | ⟨entry, note, found, changed, rfl⟩
  · exact .refl _
  · exact .insert found (keeps _ _ changed)

theorem changeByNullifier_touches {index : OrderedMap Nullifier NoteId} {nullifier : Nullifier}
    (keeps : ∀ note changed, change note = .ok changed → Keeps note changed)
    (result : NoteUpdateTracker.changeByNullifier index before nullifier change = .ok after) :
    Touches Keeps before after := by
  rw [NoteUpdateTracker.changeByNullifier] at result
  cases located : index[nullifier]? with
  | none =>
      rw [located] at result
      rw [← Except.ok.inj result]
      exact .refl _
  | some noteId =>
      rw [located] at result
      exact changeNote_touches keeps result

/-- Touched notes are looked up under the same nullifiers. -/
theorem Touches.index_iff {κ : Type} (touches : Touches Keeps before after) (keyOf : ρ → κ)
    (same : ∀ {note noteAfter}, Keeps note noteAfter → keyOf noteAfter = keyOf note) (key : κ)
    (noteId : NoteId) :
    (∃ entry, after[noteId]? = some entry ∧ keyOf entry.note = key) ↔
      ∃ entry, before[noteId]? = some entry ∧ keyOf entry.note = key := by
  rcases touches noteId with ⟨absent, absentAfter⟩ | ⟨entry, changed, found, foundAfter, moved⟩
  · simp [absent, absentAfter]
  · have sameKey : keyOf changed.note = keyOf entry.note := by
      rcases moved with rfl | ⟨keeps, _⟩
      · rfl
      · exact same keeps
    simp [found, foundAfter, sameKey]

theorem Touches.forall (touches : Touches Keeps before after) (Holds : NoteId → ρ → Prop)
    (kept : ∀ {noteId note noteAfter}, Keeps note noteAfter → Holds noteId note →
      Holds noteId noteAfter)
    (holds : ∀ (noteId : NoteId) (entry : NoteUpdate ρ), before[noteId]? = some entry →
      Holds noteId entry.note)
    (noteId : NoteId) (entry : NoteUpdate ρ) (found : after[noteId]? = some entry) :
    Holds noteId entry.note := by
  rcases touches noteId with ⟨_, absentAfter⟩ | ⟨previous, changed, foundBefore, foundAfter, moved⟩
  · cases absentAfter.symm.trans found
  · obtain rfl := Option.some.inj (foundAfter.symm.trans found)
    rcases moved with rfl | ⟨keeps, _⟩
    · exact holds noteId _ foundBefore
    · exact kept keeps (holds noteId _ foundBefore)

end Touching

theorem liftRecord_eq_ok {α : Type} {answer : Except NoteRecordError α} {value : α}
    (result : liftRecord answer = .ok value) : answer = .ok value := by
  cases answer with
  | error failure => cases result
  | ok own => exact congrArg _ (Except.ok.inj result)

/-! ### Output notes -/

/-- What every transition of an output note keeps. -/
structure OutputNoteRecord.Keeps {μ π : Type} (before after : OutputNoteRecord μ π) : Prop where
  fixed : after = { before with state := after.state }
  recipient : after.state.recipient = before.state.recipient
  consumed : before.isConsumed = true → after = before

namespace OutputNoteRecord

variable {μ π : Type}

theorem Keeps.nullifier {note noteAfter : OutputNoteRecord μ π}
    (keeps : Keeps note noteAfter) : noteAfter.nullifier = note.nullifier :=
  congrArg (Option.map NoteRecipient.nullifier) keeps.recipient

theorem Keeps.refl (record : OutputNoteRecord μ π) : Keeps record record :=
  ⟨rfl, rfl, fun _ => rfl⟩

theorem Keeps.trans {first second third : OutputNoteRecord μ π} (before : Keeps first second)
    (after : Keeps second third) : Keeps first third := by
  refine ⟨?_, after.recipient.trans before.recipient, fun consumed => ?_⟩
  · rw [after.fixed, before.fixed]
  · have same := before.consumed consumed
    rw [after.consumed (same.symm ▸ consumed), same]

theorem keeps_of_become {record after : OutputNoteRecord μ π}
    {answer : Except NoteRecordError (Option (OutputNoteState π))}
    (changes : ∀ state, answer = .ok (some state) →
      record.isConsumed = false ∧ state.recipient = record.state.recipient)
    (result : record.become answer = .ok after) : Keeps record after := by
  cases answer with
  | error failure => cases result
  | ok changed =>
      cases changed with
      | none =>
          rw [← Except.ok.inj result]
          exact .refl record
      | some state =>
          obtain ⟨unconsumed, recipient⟩ := changes state rfl
          rw [← Except.ok.inj result]
          refine ⟨rfl, recipient, fun consumed => ?_⟩
          rw [unconsumed] at consumed
          cases consumed

theorem keeps_inclusionProofReceived [DecidableEq π] {record after : OutputNoteRecord μ π}
    {proof : π}
    (result : record.inclusionProofReceived proof = .ok after) : Keeps record after := by
  refine keeps_of_become (fun state => ?_) result
  rw [isConsumed]
  cases record.state with
  | expectedPartial | expectedFull =>
      rintro ⟨⟩
      exact ⟨rfl, rfl⟩
  | committedPartial | committedFull =>
      rw [OutputNoteState.inclusionProofReceived]
      split <;> rintro ⟨⟩
  | consumed => rintro ⟨⟩

theorem keeps_nullifierReceived {record after : OutputNoteRecord μ π} {nullifier : Nullifier}
    {height : BlockNumber} (result : record.nullifierReceived nullifier height = .ok after) :
    Keeps record after := by
  rw [nullifierReceived] at result
  split at result
  · cases result
  · refine keeps_of_become (fun state => ?_) result
    rw [isConsumed]
    cases record.state with
    | expectedFull | committedFull =>
        rintro ⟨⟩
        exact ⟨rfl, rfl⟩
    | _ => rintro ⟨⟩

end OutputNoteRecord

/-! ### Operations of the tracker -/

namespace NoteUpdateTracker

variable {μ π : Type} {scheme : NoteScheme μ π}
  {Committed : TransactionId → BlockNumber → Prop}
  {before middle after tracker : NoteUpdateTracker μ π}

/-- The list holds no commits but those of `Committed`. -/
def Lists (Committed : TransactionId → BlockNumber → Prop)
    (committedTransactions : List TransactionRecord) : Prop :=
  ∀ transaction ∈ committedTransactions, ∀ height timestamp,
    transaction.status = .committed height timestamp → Committed transaction.id height

/-- An operation that inserts nothing. -/
structure Tracks (scheme : NoteScheme μ π) (Committed : TransactionId → BlockNumber → Prop)
    (before after : NoteUpdateTracker μ π) : Prop where
  inputs : Touches (InputNoteRecord.Keeps scheme Committed) before.inputNotes after.inputNotes
  outputs : Touches OutputNoteRecord.Keeps before.outputNotes after.outputNotes
  inputIndex : after.inputNotesByNullifier = before.inputNotesByNullifier
  outputIndex : after.outputNotesByNullifier = before.outputNotesByNullifier

theorem Tracks.refl (tracker : NoteUpdateTracker μ π) : Tracks scheme Committed tracker tracker :=
  ⟨.refl _, .refl _, rfl, rfl⟩

theorem Tracks.trans (earlier : Tracks scheme Committed before middle)
    (later : Tracks scheme Committed middle after) : Tracks scheme Committed before after :=
  ⟨earlier.inputs.trans InputNoteRecord.Keeps.trans later.inputs,
    earlier.outputs.trans OutputNoteRecord.Keeps.trans later.outputs,
    later.inputIndex.trans earlier.inputIndex, later.outputIndex.trans earlier.outputIndex⟩

theorem tryCommitOutputNote_tracks [DecidableEq π] {noteId : NoteId} {proof : π}
    (result : tracker.tryCommitOutputNote noteId proof = .ok after) :
    Tracks scheme Committed tracker after := by
  obtain ⟨outputNotes, changed, written⟩ := bind_eq_ok_iff.mp result
  obtain rfl := Except.ok.inj written
  refine ⟨.refl _, changeNote_touches (fun note noteAfter received => ?_) changed, rfl, rfl⟩
  exact OutputNoteRecord.keeps_inclusionProofReceived (liftRecord_eq_ok received)

theorem applyOutputNoteInclusionProofs_tracks [DecidableEq π] {notes : List (CommittedNote μ π)}
    (result : tracker.applyOutputNoteInclusionProofs notes = .ok after) :
    Tracks scheme Committed tracker after :=
  foldlM_invariant (Tracks scheme Committed tracker)
    (fun _ tracks committed => tracks.trans (tryCommitOutputNote_tracks committed)) (.refl _) result

theorem applyCommittedNote_tracks [DecidableEq μ] [DecidableEq π] {note : CommittedNote μ π}
    {header : BlockHeader} {flag : Bool}
    (result : tracker.applyCommittedNoteStateTransitions scheme note header = .ok (flag, after)) :
    Tracks scheme Committed tracker after := by
  obtain ⟨inputNotes, changed, committing⟩ := bind_eq_ok_iff.mp result
  obtain ⟨committed, outputs, written⟩ := bind_eq_ok_iff.mp committing
  obtain ⟨rfl, rfl⟩ := Prod.mk.inj (Except.ok.inj written)
  have inputs : Tracks scheme Committed tracker { tracker with inputNotes } := by
    refine ⟨changeNote_touches (fun record recordAfter received => ?_) changed, .refl _, rfl, rfl⟩
    -- The proof first, then the header of its block.
    obtain ⟨metadata, _, proofAndHeader⟩ := bind_eq_ok_iff.mp received
    obtain ⟨included, proofReceived, headerReceived⟩ := bind_eq_ok_iff.mp proofAndHeader
    exact (InputNoteRecord.keeps_inclusionProofReceived (liftRecord_eq_ok proofReceived)).trans
      (InputNoteRecord.keeps_blockHeaderReceived (liftRecord_eq_ok headerReceived))
  exact inputs.trans (tryCommitOutputNote_tracks outputs)

theorem consumeInputNote_keeps {update : NullifierUpdate} {committed : List TransactionRecord}
    {account : Option AccountId} {order : Option Nat} {note noteAfter : InputNoteRecord μ π}
    (lists : Lists Committed committed)
    (result : consumeInputNote update committed account order note = .ok noteAfter) :
    InputNoteRecord.Keeps scheme Committed note noteAfter := by
  obtain ⟨consumed, consuming, written⟩ := bind_eq_ok_iff.mp result
  obtain rfl := Except.ok.inj written
  refine InputNoteRecord.Keeps.trans ?_ (InputNoteRecord.keeps_setConsumedTxOrder order consumed)
  rw [attributeConsumption] at consuming
  have listed := fun transaction => List.mem_of_find?_eq_some (l := committed) (a := transaction)
    (p := fun transaction => note.state.consumerTransactionId = some transaction.id)
  generalize committed.find? _ = consumer at consuming listed
  cases consumer with
  | none => exact InputNoteRecord.keeps_consumedExternally (liftRecord_eq_ok consuming)
  | some consumer =>
      obtain ⟨transactionId, details, status⟩ := consumer
      cases status with
      | committed blockNumber timestamp =>
          exact InputNoteRecord.keeps_transactionCommitted
            (lists _ (listed _ rfl) blockNumber timestamp rfl) (liftRecord_eq_ok consuming)
      | _ =>
          obtain rfl := Except.ok.inj consuming
          exact .refl _

theorem applyNullifiersStateTransitions_tracks {update : NullifierUpdate}
    {committed : List TransactionRecord} {account : Option AccountId}
    (lists : Lists Committed committed)
    (result : tracker.applyNullifiersStateTransitions update committed account = .ok after) :
    Tracks scheme Committed tracker after := by
  obtain ⟨inputNotes, inputs, consuming⟩ := bind_eq_ok_iff.mp result
  obtain ⟨outputNotes, outputs, written⟩ := bind_eq_ok_iff.mp consuming
  obtain rfl := Except.ok.inj written
  refine ⟨changeByNullifier_touches (fun _ _ => consumeInputNote_keeps lists) inputs,
    changeByNullifier_touches (fun note noteAfter received => ?_) outputs, rfl, rfl⟩
  exact OutputNoteRecord.keeps_nullifierReceived (liftRecord_eq_ok received)

theorem markErasedOutputNote_tracks (noteId : NoteId) (blockNum : BlockNumber)
    (tracker : NoteUpdateTracker μ π) :
    Tracks scheme Committed tracker (tracker.markErasedOutputNote noteId blockNum).2 := by
  rw [markErasedOutputNote]
  cases found : tracker.outputNotes[noteId]? with
  | none => exact .refl _
  | some entry =>
      have writes : ∀ note, OutputNoteRecord.Keeps entry.note note →
          Tracks scheme Committed tracker { tracker with
            outputNotes := tracker.outputNotes.insert noteId (entry.innerMut note) } :=
        fun note keeps => ⟨.refl _, .insert found keeps, rfl, rfl⟩
      dsimp only
      split
      · cases entry.note.nullifier with
        | none => exact writes _ (.refl _)
        | some nullifier =>
            dsimp only
            cases received : entry.note.nullifierReceived nullifier blockNum with
            | error failure => exact writes _ (.refl _)
            | ok note => exact writes _ (OutputNoteRecord.keeps_nullifierReceived received)
      · exact writes _ (.refl _)

theorem markErasedInputNote_tracks (noteId : NoteId) (blockNum : BlockNumber)
    (tracker : NoteUpdateTracker μ π) :
    Tracks scheme Committed tracker (tracker.markErasedInputNote scheme noteId blockNum).2 := by
  rw [markErasedInputNote]
  cases found : tracker.inputNotes[noteId]? with
  | none => exact .refl _
  | some entry =>
      have writes : ∀ note, InputNoteRecord.Keeps scheme Committed entry.note note →
          Tracks scheme Committed tracker { tracker with
            inputNotes := tracker.inputNotes.insert noteId (entry.innerMut note) } :=
        fun note keeps => ⟨.insert found keeps, .refl _, rfl, rfl⟩
      dsimp only
      split
      · cases received : entry.note.consumedExternally entry.note.nullifier blockNum
          (entry.note.state.metadata.bind scheme.networkTarget) with
        | error failure => exact writes _ (.refl _)
        | ok note =>
            exact writes _ ((InputNoteRecord.keeps_consumedExternally received).trans
              (InputNoteRecord.keeps_setConsumedTxOrder _ note))
      · exact .refl _

theorem markErasedNoteAsConsumed_tracks (noteId : NoteId) (blockNum : BlockNumber)
    (tracker : NoteUpdateTracker μ π) :
    Tracks scheme Committed tracker
      (tracker.markErasedNoteAsConsumed scheme noteId blockNum).2 := by
  have output : Tracks scheme Committed tracker (tracker.markErasedOutputNote noteId blockNum).2 :=
    markErasedOutputNote_tracks noteId blockNum tracker
  rw [markErasedNoteAsConsumed]
  generalize tracker.markErasedOutputNote noteId blockNum = outcome at output
  obtain ⟨answer, marked⟩ := outcome
  cases answer with
  | error failure => exact output
  | ok done => exact output.trans (markErasedInputNote_tracks noteId blockNum marked)

theorem extendNullifiers_tracks (nullifiers : List Nullifier) (tracker : NoteUpdateTracker μ π) :
    Tracks scheme Committed tracker (tracker.extendNullifiers nullifiers) :=
  ⟨.refl _, .refl _, rfl, rfl⟩

/-! ### The invariant -/

/-- A note as it can come from the store or the node: the nullifier goes with the identifier,
and an authenticated state has been checked. -/
structure Fits (scheme : NoteScheme μ π) (nullifierOf : NoteId → Nullifier)
    (note : InputNoteRecord μ π) : Prop where
  nullifier : note.nullifier = nullifierOf note.id
  authentic : note.state.Authentic scheme note.id

def OutputFits (nullifierOf : NoteId → Nullifier) (note : OutputNoteRecord μ π) : Prop :=
  ∀ nullifier, note.nullifier = some nullifier → nullifier = nullifierOf note.id

structure Sound (scheme : NoteScheme μ π) (nullifierOf : NoteId → Nullifier)
    (tracker : NoteUpdateTracker μ π) : Prop where
  inputs : ∀ (noteId : NoteId) (entry : NoteUpdate (InputNoteRecord μ π)),
    tracker.inputNotes[noteId]? = some entry →
      entry.note.id = noteId ∧ Fits scheme nullifierOf entry.note
  outputs : ∀ (noteId : NoteId) (entry : NoteUpdate (OutputNoteRecord μ π)),
    tracker.outputNotes[noteId]? = some entry →
      entry.note.id = noteId ∧ OutputFits nullifierOf entry.note
  inputIndex : ∀ (nullifier : Nullifier) (noteId : NoteId),
    tracker.inputNotesByNullifier[nullifier]? = some noteId ↔
      ∃ entry, tracker.inputNotes[noteId]? = some entry ∧ entry.note.nullifier = nullifier
  outputIndex : ∀ (nullifier : Nullifier) (noteId : NoteId),
    tracker.outputNotesByNullifier[nullifier]? = some noteId ↔
      ∃ entry, tracker.outputNotes[noteId]? = some entry ∧ entry.note.nullifier = some nullifier

variable {nullifierOf : NoteId → Nullifier}

theorem Fits.keeps {note noteAfter : InputNoteRecord μ π} (fits : Fits scheme nullifierOf note)
    (keeps : InputNoteRecord.Keeps scheme Committed note noteAfter) :
    Fits scheme nullifierOf noteAfter := by
  have sameId : noteAfter.id = note.id := congrArg NoteDetails.id keeps.details
  have sameNullifier : noteAfter.nullifier = note.nullifier :=
    congrArg NoteDetails.nullifier keeps.details
  constructor
  · rw [sameNullifier, sameId, fits.nullifier]
  · rw [sameId]
    exact keeps.authentic fits.authentic

theorem Sound.tracks (sound : Sound scheme nullifierOf before)
    (tracks : Tracks scheme Committed before after) : Sound scheme nullifierOf after := by
  constructor
  · refine tracks.inputs.forall (fun noteId note =>
      note.id = noteId ∧ Fits scheme nullifierOf note) ?_ sound.inputs
    rintro noteId note noteAfter keeps ⟨sameId, fits⟩
    exact ⟨(congrArg NoteDetails.id keeps.details).trans sameId, fits.keeps keeps⟩
  · refine tracks.outputs.forall (fun noteId note =>
      note.id = noteId ∧ OutputFits nullifierOf note) ?_ sound.outputs
    rintro noteId note noteAfter keeps ⟨sameId, fits⟩
    have same : noteAfter.id = note.id := by rw [keeps.fixed]
    refine ⟨same.trans sameId, fun nullifier known => ?_⟩
    rw [same]
    exact fits nullifier (keeps.nullifier ▸ known)
  · intro nullifier noteId
    rw [tracks.inputIndex, sound.inputIndex]
    exact (tracks.inputs.index_iff InputNoteRecord.nullifier
      (fun keeps => congrArg NoteDetails.nullifier keeps.details) nullifier noteId).symm
  · intro nullifier noteId
    rw [tracks.outputIndex, sound.outputIndex]
    exact (tracks.outputs.index_iff OutputNoteRecord.nullifier
      OutputNoteRecord.Keeps.nullifier (some nullifier) noteId).symm

theorem Sound.insertInputNote (sound : Sound scheme nullifierOf tracker)
    (injective : Function.Injective nullifierOf) {note : InputNoteRecord μ π}
    (fits : Fits scheme nullifierOf note) (updateType : NoteUpdateType) :
    Sound scheme nullifierOf (tracker.insertInputNote updateType note) := by
  refine ⟨fun noteId entry found => ?_, sound.outputs, fun nullifier noteId => ?_,
    sound.outputIndex⟩
  · rw [NoteUpdateTracker.insertInputNote, OrderedMap.getElem?_insert] at found
    split at found
    · rename_i same
      obtain rfl := Option.some.inj found
      exact ⟨same, fits⟩
    · exact sound.inputs noteId entry found
  · simp only [NoteUpdateTracker.insertInputNote, OrderedMap.getElem?_insert]
    -- A second note with the nullifier of this one would be this one.
    by_cases same : note.id = noteId
    · subst same
      rw [if_pos rfl]
      by_cases own : note.nullifier = nullifier
      · simp [own]
      · have unlisted : tracker.inputNotesByNullifier[nullifier]? ≠ some note.id := by
          rw [Ne, sound.inputIndex]
          rintro ⟨entry, found, known⟩
          obtain ⟨sameId, entryFits⟩ := sound.inputs _ entry found
          rw [← known, entryFits.nullifier, sameId] at own
          exact own fits.nullifier
        simp [own, unlisted]
    · rw [if_neg same]
      by_cases own : note.nullifier = nullifier
      · simp only [own, if_true, Option.some.injEq, same, false_iff, not_exists, not_and]
        intro entry found known
        obtain ⟨sameId, entryFits⟩ := sound.inputs _ entry found
        refine same (injective ?_)
        rw [← fits.nullifier, own, ← known, entryFits.nullifier, sameId]
      · rw [if_neg own]
        exact sound.inputIndex nullifier noteId

/-- A note that is tracked already must be the same one, as far as the nullifier is known. -/
theorem Sound.insertOutputNote (sound : Sound scheme nullifierOf tracker)
    (injective : Function.Injective nullifierOf) {note : OutputNoteRecord μ π}
    (fits : OutputFits nullifierOf note) (fresh : tracker.outputNotes[note.id]? = none)
    (updateType : NoteUpdateType) :
    Sound scheme nullifierOf (tracker.insertOutputNote updateType note) := by
  refine ⟨sound.inputs, fun noteId entry found => ?_, sound.inputIndex,
    fun nullifier noteId => ?_⟩
  · rw [NoteUpdateTracker.insertOutputNote, OrderedMap.getElem?_insert] at found
    split at found
    · rename_i same
      obtain rfl := Option.some.inj found
      exact ⟨same, fits⟩
    · exact sound.outputs noteId entry found
  · have unlisted : ∀ other : Nullifier, tracker.outputNotesByNullifier[other]? ≠ some note.id := by
      intro other listed
      obtain ⟨entry, found, _⟩ := (sound.outputIndex other note.id).mp listed
      cases fresh.symm.trans found
    have lookup : (tracker.insertOutputNote updateType note).outputNotesByNullifier[nullifier]? =
        if note.nullifier = some nullifier then some note.id
        else tracker.outputNotesByNullifier[nullifier]? := by
      rw [NoteUpdateTracker.insertOutputNote]
      cases note.nullifier with
      | none => simp
      | some own =>
          dsimp only
          simp only [OrderedMap.getElem?_insert, Option.some.injEq]
    rw [lookup, NoteUpdateTracker.insertOutputNote, OrderedMap.getElem?_insert]
    by_cases same : note.id = noteId
    · subst same
      rw [if_pos rfl]
      by_cases own : note.nullifier = some nullifier
      · simp [own]
      · simp [own, unlisted]
    · rw [if_neg same]
      by_cases own : note.nullifier = some nullifier
      · simp only [own, if_true, Option.some.injEq, same, false_iff, not_exists, not_and]
        intro entry found known
        obtain ⟨sameId, entryFits⟩ := sound.outputs _ entry found
        refine same (injective ?_)
        rw [← fits nullifier own, entryFits nullifier known, sameId]
      · rw [if_neg own]
        exact sound.outputIndex nullifier noteId

theorem sound_empty : Sound scheme nullifierOf (empty : NoteUpdateTracker μ π) := by
  constructor <;> simp [empty]

/-- The tracker that a synchronisation starts from. -/
theorem sound_new (injective : Function.Injective nullifierOf)
    {inputNotes : List (InputNoteRecord μ π)} {outputNotes : List (OutputNoteRecord μ π)}
    (inputsFit : ∀ note ∈ inputNotes, Fits scheme nullifierOf note)
    (outputsFit : ∀ note ∈ outputNotes, OutputFits nullifierOf note)
    (distinct : (outputNotes.map OutputNoteRecord.id).Nodup) :
    Sound scheme nullifierOf (new inputNotes outputNotes) := by
  have inputs : ∀ start : NoteUpdateTracker μ π, Sound scheme nullifierOf start →
      Sound scheme nullifierOf
        (inputNotes.foldl (NoteUpdateTracker.insertInputNote .none) start) := by
    induction inputNotes with
    | nil => exact fun _ sound => sound
    | cons note others inductionHypothesis =>
        intro start sound
        refine inductionHypothesis (fun other member => inputsFit other (.tail _ member)) _ ?_
        exact sound.insertInputNote injective (inputsFit note (.head _)) .none
  have outputs : ∀ start : NoteUpdateTracker μ π, Sound scheme nullifierOf start →
      (∀ note ∈ outputNotes, start.outputNotes[note.id]? = none) →
      Sound scheme nullifierOf
        (outputNotes.foldl (NoteUpdateTracker.insertOutputNote .none) start) := by
    induction outputNotes with
    | nil => exact fun _ sound _ => sound
    | cons note others inductionHypothesis =>
        intro start sound fresh
        obtain ⟨unlike, distinctOthers⟩ := List.nodup_cons.mp distinct
        refine inductionHypothesis (fun other member => outputsFit other (.tail _ member))
          distinctOthers _ ?_ ?_
        · exact sound.insertOutputNote injective (outputsFit note (.head _))
            (fresh note (.head _)) .none
        · intro other member
          rw [NoteUpdateTracker.insertOutputNote, OrderedMap.getElem?_insert, if_neg]
          · exact fresh other (.tail _ member)
          · exact fun same => unlike (same ▸ List.mem_map_of_mem member)
  refine outputs _ (inputs _ sound_empty) fun note _ => ?_
  rw [foldl_insertInputNote_outputNotes]
  simp [empty]

/-- The indices of a sound tracker can be collected from its notes. -/
theorem Sound.ofMaps_eq (sound : Sound scheme nullifierOf tracker) :
    ofMaps tracker.inputNotes tracker.outputNotes tracker.nullifierOrder = tracker := by
  have inputs : OrderedMap.collect (tracker.inputNotes.toList.map fun entry =>
      (entry.2.note.nullifier, entry.1)) = tracker.inputNotesByNullifier := by
    refine OrderedMap.collect_eq fun nullifier noteId => ?_
    rw [sound.inputIndex]
    simp only [List.mem_map, Prod.exists, Prod.mk.injEq,
      Std.ExtTreeMap.mem_toList_iff_getElem?_eq_some]
    constructor
    · rintro ⟨key, entry, found, same, rfl⟩
      exact ⟨entry, found, same⟩
    · rintro ⟨entry, found, same⟩
      exact ⟨noteId, entry, found, same, rfl⟩
  have outputs : OrderedMap.collect (tracker.outputNotes.toList.filterMap fun entry =>
      entry.2.note.nullifier.map fun nullifier => (nullifier, entry.1)) =
      tracker.outputNotesByNullifier := by
    refine OrderedMap.collect_eq fun nullifier noteId => ?_
    rw [sound.outputIndex]
    simp only [List.mem_filterMap, Prod.exists, Option.map_eq_some_iff, Prod.mk.injEq,
      Std.ExtTreeMap.mem_toList_iff_getElem?_eq_some]
    constructor
    · rintro ⟨key, entry, found, own, known, rfl, rfl⟩
      exact ⟨entry, found, known⟩
    · rintro ⟨entry, found, known⟩
      exact ⟨noteId, entry, found, nullifier, known, rfl, rfl⟩
  obtain ⟨inputNotes, outputNotes, inputIndex, outputIndex, order⟩ := tracker
  rw [ofMaps, inputs, outputs]

/-! ### Runs -/

/-- What the synchronisation applies to the tracker. -/
inductive Event (μ π : Type) where
  | newPublicNote (note : InputNoteRecord μ π) (header : BlockHeader)
  | committedNote (note : CommittedNote μ π) (header : BlockHeader)
  | outputInclusionProofs (notes : List (CommittedNote μ π))
  | erasedNote (noteId : NoteId) (blockNum : BlockNumber)
  | nullified (update : NullifierUpdate) (committed : List TransactionRecord)
      (account : Option AccountId)
  | orderedNullifiers (nullifiers : List Nullifier)

section Runs

variable [DecidableEq μ] [DecidableEq π]

def apply (scheme : NoteScheme μ π) (tracker : NoteUpdateTracker μ π) :
    Event μ π → Except ClientError (NoteUpdateTracker μ π)
  | .newPublicNote note header => tracker.applyNewPublicNote scheme note header
  | .committedNote note header => do
      let (_, after) ← tracker.applyCommittedNoteStateTransitions scheme note header
      return after
  | .outputInclusionProofs notes => tracker.applyOutputNoteInclusionProofs notes
  | .erasedNote noteId blockNum => .ok (tracker.markErasedNoteAsConsumed scheme noteId blockNum).2
  | .nullified update committed account =>
      tracker.applyNullifiersStateTransitions update committed account
  | .orderedNullifiers nullifiers => .ok (tracker.extendNullifiers nullifiers)

def run (scheme : NoteScheme μ π) (tracker : NoteUpdateTracker μ π) (events : List (Event μ π)) :
    Except ClientError (NoteUpdateTracker μ π) :=
  events.foldlM (apply scheme) tracker

/-- The commits that the event refers to. -/
def Event.Reports (Committed : TransactionId → BlockNumber → Prop) : Event μ π → Prop
  | .nullified _ committed _ => Lists Committed committed
  | _ => True

omit [DecidableEq μ] [DecidableEq π] in
theorem Event.reports_any (event : Event μ π) : event.Reports fun _ _ => True := by
  cases event with
  | nullified update committed account => exact fun _ _ _ _ _ => trivial
  | _ => trivial

/-- Every event but a new public note inserts nothing. -/
theorem apply_cases {event : Event μ π} (reports : event.Reports Committed)
    (result : tracker.apply scheme event = .ok after) :
    Tracks scheme Committed tracker after ∨
      ∃ note header received, event = .newPublicNote note header ∧
        InputNoteRecord.Keeps scheme Committed note received ∧
        after = tracker.insertInputNote .insert received := by
  cases event with
  | newPublicNote note header =>
      obtain ⟨received, receiving, written⟩ := bind_eq_ok_iff.mp result
      exact .inr ⟨note, header, received, rfl,
        InputNoteRecord.keeps_blockHeaderReceived (liftRecord_eq_ok receiving),
        (Except.ok.inj written).symm⟩
  | committedNote note header =>
      obtain ⟨⟨flag, committed⟩, applied, written⟩ := bind_eq_ok_iff.mp result
      obtain rfl := Except.ok.inj written
      exact .inl (applyCommittedNote_tracks applied)
  | outputInclusionProofs notes => exact .inl (applyOutputNoteInclusionProofs_tracks result)
  | erasedNote noteId blockNum =>
      rw [← Except.ok.inj result]
      exact .inl (markErasedNoteAsConsumed_tracks noteId blockNum tracker)
  | nullified update committed account =>
      exact .inl (applyNullifiersStateTransitions_tracks reports result)
  | orderedNullifiers nullifiers =>
      rw [← Except.ok.inj result]
      exact .inl (extendNullifiers_tracks nullifiers tracker)

omit [DecidableEq μ] [DecidableEq π] in
/-- The notes that come from the node go with their nullifiers, and are not consumed. -/
def Event.Admissible (scheme : NoteScheme μ π) (nullifierOf : NoteId → Nullifier) :
    Event μ π → Prop
  | .newPublicNote note _ => Fits scheme nullifierOf note ∧ note.state.locallyConsumed = none
  | _ => True

theorem Sound.apply (sound : Sound scheme nullifierOf tracker)
    (injective : Function.Injective nullifierOf) {event : Event μ π}
    (admissible : event.Admissible scheme nullifierOf)
    (result : tracker.apply scheme event = .ok after) : Sound scheme nullifierOf after := by
  rcases apply_cases event.reports_any result with
    tracks | ⟨note, header, received, rfl, keeps, rfl⟩
  · exact sound.tracks tracks
  · have fits : Fits scheme nullifierOf note := admissible.1
    exact sound.insertInputNote injective (fits.keeps keeps) .insert

theorem Sound.run (sound : Sound scheme nullifierOf tracker)
    (injective : Function.Injective nullifierOf) {events : List (Event μ π)}
    (admissible : ∀ event ∈ events, event.Admissible scheme nullifierOf)
    (result : tracker.run scheme events = .ok after) : Sound scheme nullifierOf after :=
  foldlM_invariant (Sound scheme nullifierOf)
    (fun member kept applied => kept.apply injective (admissible _ member) applied) sound result

/-- Every note that a local transaction has consumed is one of a committed transaction. -/
def Attributed (Committed : TransactionId → BlockNumber → Prop)
    (tracker : NoteUpdateTracker μ π) : Prop :=
  ∀ (noteId : NoteId) (entry : NoteUpdate (InputNoteRecord μ π)),
    tracker.inputNotes[noteId]? = some entry →
    ∀ transaction height, entry.note.state.locallyConsumed = some (transaction, height) →
      Committed transaction height

omit [DecidableEq μ] [DecidableEq π] in
theorem Attributed.tracks (attributed : Attributed Committed before)
    (tracks : Tracks scheme Committed before after) : Attributed Committed after := by
  refine tracks.inputs.forall (fun _ note => ∀ transaction height,
    note.state.locallyConsumed = some (transaction, height) → Committed transaction height)
    (fun keeps held transaction height consumer => ?_) attributed
  rcases keeps.attributed transaction height consumer with earlier | committed
  · exact held transaction height earlier
  · exact committed

theorem Attributed.apply (attributed : Attributed Committed tracker) {event : Event μ π}
    (admissible : event.Admissible scheme nullifierOf) (reports : event.Reports Committed)
    (result : tracker.apply scheme event = .ok after) : Attributed Committed after := by
  rcases apply_cases reports result with tracks | ⟨note, header, received, rfl, keeps, rfl⟩
  · exact attributed.tracks tracks
  · intro noteId entry found transaction height consumer
    rw [NoteUpdateTracker.insertInputNote, OrderedMap.getElem?_insert] at found
    split at found
    · obtain rfl := Option.some.inj found
      rcases keeps.attributed transaction height consumer with earlier | committed
      · rw [admissible.2] at earlier
        cases earlier
      · exact committed
    · exact attributed noteId entry found transaction height consumer

theorem run_append (tracker : NoteUpdateTracker μ π) (earlier later : List (Event μ π)) :
    tracker.run scheme (earlier ++ later) =
      tracker.run scheme earlier >>= fun middle => middle.run scheme later :=
  List.foldlM_append

/-- A run of admissible events that refer to no commits but those of `Committed`. -/
def Reaches (scheme : NoteScheme μ π) (nullifierOf : NoteId → Nullifier)
    (Committed : TransactionId → BlockNumber → Prop) (before after : NoteUpdateTracker μ π) :
    Prop :=
  ∃ events : List (Event μ π),
    (∀ event ∈ events, event.Admissible scheme nullifierOf ∧ event.Reports Committed) ∧
      before.run scheme events = .ok after

theorem Reaches.refl (tracker : NoteUpdateTracker μ π) :
    Reaches scheme nullifierOf Committed tracker tracker :=
  ⟨[], fun _ member => absurd member List.not_mem_nil, rfl⟩

theorem Reaches.trans (earlier : Reaches scheme nullifierOf Committed before middle)
    (later : Reaches scheme nullifierOf Committed middle after) :
    Reaches scheme nullifierOf Committed before after := by
  obtain ⟨events, admissible, first⟩ := earlier
  obtain ⟨further, admissibleAlso, second⟩ := later
  refine ⟨events ++ further, fun event member => ?_, ?_⟩
  · rcases List.mem_append.mp member with inFirst | inSecond
    · exact admissible event inFirst
    · exact admissibleAlso event inSecond
  · rw [run_append, first]
    exact second

theorem Reaches.single {event : Event μ π} (result : before.apply scheme event = .ok after)
    (admissible : event.Admissible scheme nullifierOf) (reports : event.Reports Committed) :
    Reaches scheme nullifierOf Committed before after := by
  refine ⟨[event], fun other member => ?_, ?_⟩
  · rw [List.mem_singleton.mp member]
    exact ⟨admissible, reports⟩
  · rw [NoteUpdateTracker.run, List.foldlM_cons, result]
    rfl

/-- A fold whose steps are runs of its tracker is one run of the tracker. -/
theorem Reaches.foldlM {σ α : Type} (tracker : σ → NoteUpdateTracker μ π)
    {step : σ → α → Except ClientError σ}
    (reaches : ∀ {state item next}, step state item = .ok next →
      Reaches scheme nullifierOf Committed (tracker state) (tracker next)) {items : List α}
    {start final : σ} (result : items.foldlM step start = .ok final) :
    Reaches scheme nullifierOf Committed (tracker start) (tracker final) :=
  foldlM_invariant
    (fun state => Reaches scheme nullifierOf Committed (tracker start) (tracker state))
    (fun _ reached stepped => reached.trans (reaches stepped)) (.refl _) result

theorem Attributed.reaches (attributed : Attributed Committed before)
    (reaches : Reaches scheme nullifierOf Committed before after) : Attributed Committed after := by
  obtain ⟨events, admissible, result⟩ := reaches
  refine foldlM_invariant (Attributed Committed) (fun member held applied => ?_) attributed result
  obtain ⟨allowed, reports⟩ := admissible _ member
  exact held.apply allowed reports applied

theorem Sound.reaches (sound : Sound scheme nullifierOf before)
    (injective : Function.Injective nullifierOf)
    (reaches : Reaches scheme nullifierOf Committed before after) :
    Sound scheme nullifierOf after := by
  obtain ⟨events, admissible, result⟩ := reaches
  exact sound.run injective (fun event member => (admissible event member).1) result

end Runs

end NoteUpdateTracker

end MidenWorkspace.Client
