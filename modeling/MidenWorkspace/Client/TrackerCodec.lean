import MidenWorkspace.Client.Sync
import MidenWorkspace.Vm.BasicBlockData

/-!
Contract: the collected changes to notes as bytes.

Owns the encodings of the states and records of notes, of their updates and of the whole tracker,
field by field in the order of the source, the decoders with their errors, and the proof that a
tracker that a synchronisation leaves is read back as it was, with the two indices that are not
written.

Does not own how the values of the protocol are written: details, metadata, proofs and
identifiers come with their codecs.
-/

namespace MidenWorkspace.Client

open Library (Codec OrderedMap Reader littleEndian variableLength)
open Library.Structured
open Vm (DeserializationError Word feltFixedWidth readU8)

/-- A codec from and to bytes. -/
abbrev ByteCodec (α : Type) := Codec DeserializationError UInt8 α

/-- How the values of the protocol are written. -/
structure ProtocolCodecs (μ π : Type) where
  noteDetails : ByteCodec NoteDetails
  noteMetadata : ByteCodec μ
  inclusionProof : ByteCodec π
  noteId : ByteCodec NoteId
  nullifier : ByteCodec Nullifier
  accountId : ByteCodec AccountId
  transactionId : ByteCodec TransactionId
  /-- The digest of the recipient and the assets, which give the identifier of an output note. -/
  outputHeader : ByteCodec NoteId
  /-- The recipient, of which the nullifier is known with the assets of the note. -/
  recipient : NoteId → ByteCodec NoteRecipient

def u32Codec : ByteCodec Nat := littleEndian 4 .unexpectedEof

def u64Codec : ByteCodec Nat := littleEndian 8 .unexpectedEof

def usizeCodec : ByteCodec Nat := variableLength .unexpectedEof

def optionCodec {α : Type} (codec : ByteCodec α) : ByteCodec (Option α) :=
  codec.option .unexpectedEof fun byte => .invalidValue s!"{byte.toNat} is not a boolean value"

def wordCodec : ByteCodec Word :=
  (feltFixedWidth.pair (feltFixedWidth.pair (feltFixedWidth.pair feltFixedWidth))).via
    (fun word => (word.e0, word.e1, word.e2, word.e3))
    (fun elements => ⟨elements.1, elements.2.1, elements.2.2.1, elements.2.2.2⟩) fun _ => rfl

namespace ProtocolCodecs

variable {μ π : Type} (codecs : ProtocolCodecs μ π)

/-! ### Input notes -/

def noteSubmissionData : ByteCodec NoteSubmissionData :=
  ((optionCodec u64Codec).pair (codecs.accountId.pair codecs.transactionId)).via
    (fun data => (data.submittedAt, data.consumerAccount, data.consumerTransaction))
    (fun fields => ⟨fields.1, fields.2.1, fields.2.2⟩) fun _ => rfl

def expectedNoteState : ByteCodec (Option μ × BlockNumber × Option NoteTag) :=
  (optionCodec codecs.noteMetadata).pair (u32Codec.pair (optionCodec u32Codec))

def unverifiedNoteState : ByteCodec (μ × π) := codecs.noteMetadata.pair codecs.inclusionProof

/-- `CommittedNoteState` and `InvalidNoteState`. -/
def committedNoteState : ByteCodec (μ × π × Word) :=
  codecs.noteMetadata.pair (codecs.inclusionProof.pair wordCodec)

def processingAuthenticatedNoteState : ByteCodec (μ × π × Word × NoteSubmissionData) :=
  codecs.noteMetadata.pair
    (codecs.inclusionProof.pair (wordCodec.pair codecs.noteSubmissionData))

def processingUnauthenticatedNoteState : ByteCodec (μ × BlockNumber × NoteSubmissionData) :=
  codecs.noteMetadata.pair (u32Codec.pair codecs.noteSubmissionData)

def consumedAuthenticatedLocalNoteState :
    ByteCodec (μ × π × Word × BlockNumber × NoteSubmissionData × Option Nat) :=
  codecs.noteMetadata.pair (codecs.inclusionProof.pair (wordCodec.pair
    (u32Codec.pair (codecs.noteSubmissionData.pair (optionCodec u32Codec)))))

def consumedUnauthenticatedLocalNoteState :
    ByteCodec (μ × BlockNumber × NoteSubmissionData × Option Nat) :=
  codecs.noteMetadata.pair
    (u32Codec.pair (codecs.noteSubmissionData.pair (optionCodec u32Codec)))

def consumedExternalNoteState : ByteCodec (BlockNumber × Option AccountId × Option Nat) :=
  u32Codec.pair ((optionCodec codecs.accountId).pair (optionCodec u32Codec))

/-- The ranges that the types of the source have. -/
def InputNoteStateAdmissible : InputNoteState μ π → Prop
  | .expected metadata afterBlockNum tag =>
      codecs.expectedNoteState.Admissible (metadata, afterBlockNum, tag)
  | .unverified metadata proof => codecs.unverifiedNoteState.Admissible (metadata, proof)
  | .committed metadata proof root | .invalid metadata proof root =>
      codecs.committedNoteState.Admissible (metadata, proof, root)
  | .processingAuthenticated metadata proof root submission =>
      codecs.processingAuthenticatedNoteState.Admissible (metadata, proof, root, submission)
  | .processingUnauthenticated metadata afterBlockNum submission =>
      codecs.processingUnauthenticatedNoteState.Admissible (metadata, afterBlockNum, submission)
  | .consumedAuthenticatedLocal metadata proof root height submission order =>
      codecs.consumedAuthenticatedLocalNoteState.Admissible
        (metadata, proof, root, height, submission, order)
  | .consumedUnauthenticatedLocal metadata height submission order =>
      codecs.consumedUnauthenticatedLocalNoteState.Admissible
        (metadata, height, submission, order)
  | .consumedExternal height account order =>
      codecs.consumedExternalNoteState.Admissible (height, account, order)

/-- What follows the discriminant. -/
def writeInputNoteFields : InputNoteState μ π → List UInt8
  | .expected metadata afterBlockNum tag =>
      codecs.expectedNoteState.write (metadata, afterBlockNum, tag)
  | .unverified metadata proof => codecs.unverifiedNoteState.write (metadata, proof)
  | .committed metadata proof root | .invalid metadata proof root =>
      codecs.committedNoteState.write (metadata, proof, root)
  | .processingAuthenticated metadata proof root submission =>
      codecs.processingAuthenticatedNoteState.write (metadata, proof, root, submission)
  | .processingUnauthenticated metadata afterBlockNum submission =>
      codecs.processingUnauthenticatedNoteState.write (metadata, afterBlockNum, submission)
  | .consumedAuthenticatedLocal metadata proof root height submission order =>
      codecs.consumedAuthenticatedLocalNoteState.write
        (metadata, proof, root, height, submission, order)
  | .consumedUnauthenticatedLocal metadata height submission order =>
      codecs.consumedUnauthenticatedLocalNoteState.write (metadata, height, submission, order)
  | .consumedExternal height account order =>
      codecs.consumedExternalNoteState.write (height, account, order)

/-- What the fields that were read are put into. -/
def readAs {α β : Type} (codec : ByteCodec α) (build : α → β) :
    Reader DeserializationError UInt8 β :=
  fun bytes => (codec.read bytes).map (Prod.map build id)

def readInputNoteFields (discriminant : Nat) :
    Reader DeserializationError UInt8 (InputNoteState μ π) :=
  match discriminant with
  | 0 => readAs codecs.expectedNoteState fun (metadata, afterBlockNum, tag) =>
      .expected metadata afterBlockNum tag
  | 1 => readAs codecs.unverifiedNoteState fun (metadata, proof) => .unverified metadata proof
  | 2 => readAs codecs.committedNoteState fun (metadata, proof, root) =>
      .committed metadata proof root
  | 3 => readAs codecs.committedNoteState fun (metadata, proof, root) =>
      .invalid metadata proof root
  | 4 => readAs codecs.processingAuthenticatedNoteState fun (metadata, proof, root, submission) =>
      .processingAuthenticated metadata proof root submission
  | 5 => readAs codecs.processingUnauthenticatedNoteState
      fun (metadata, afterBlockNum, submission) =>
        .processingUnauthenticated metadata afterBlockNum submission
  | 6 => readAs codecs.consumedAuthenticatedLocalNoteState
      fun (metadata, proof, root, height, submission, order) =>
        .consumedAuthenticatedLocal metadata proof root height submission order
  | 7 => readAs codecs.consumedUnauthenticatedLocalNoteState
      fun (metadata, height, submission, order) =>
        .consumedUnauthenticatedLocal metadata height submission order
  | 8 => readAs codecs.consumedExternalNoteState fun (height, account, order) =>
      .consumedExternal height account order
  | _ => fun _ => .error (.invalidValue s!"Invalid NoteState discriminant: {discriminant}")

def inputNoteState : ByteCodec (InputNoteState μ π) where
  Admissible := codecs.InputNoteStateAdmissible
  write state := state.discriminant :: codecs.writeInputNoteFields state
  read bytes := do
    let (discriminant, bytes) ← readU8 bytes
    codecs.readInputNoteFields discriminant.toNat bytes
  read_write state admissible rest := by
    cases state <;> exact Codec.map_read_write _ _ admissible rest

def inputNoteRecord : ByteCodec (InputNoteRecord μ π) :=
  (codecs.noteDetails.pair ((optionCodec u64Codec).pair codecs.inputNoteState)).via
    (fun record => (record.details, record.createdAt, record.state))
    (fun fields => ⟨fields.1, fields.2.1, fields.2.2⟩) fun _ => rfl

/-! ### Output notes -/

section Output

variable (noteId : NoteId)

def OutputNoteStateAdmissible : OutputNoteState π → Prop
  | .expectedPartial => True
  | .expectedFull recipient => (codecs.recipient noteId).Admissible recipient
  | .committedPartial proof => codecs.inclusionProof.Admissible proof
  | .committedFull recipient proof =>
      ((codecs.recipient noteId).pair codecs.inclusionProof).Admissible (recipient, proof)
  | .consumed blockHeight recipient =>
      (u32Codec.pair (codecs.recipient noteId)).Admissible (blockHeight, recipient)

def writeOutputNoteFields : OutputNoteState π → List UInt8
  | .expectedPartial => []
  | .expectedFull recipient => (codecs.recipient noteId).write recipient
  | .committedPartial proof => codecs.inclusionProof.write proof
  | .committedFull recipient proof =>
      ((codecs.recipient noteId).pair codecs.inclusionProof).write (recipient, proof)
  | .consumed blockHeight recipient =>
      (u32Codec.pair (codecs.recipient noteId)).write (blockHeight, recipient)

def readOutputNoteFields (discriminant : Nat) :
    Reader DeserializationError UInt8 (OutputNoteState π) :=
  match discriminant with
  | 0 => fun bytes => .ok (.expectedPartial, bytes)
  | 1 => readAs (codecs.recipient noteId) .expectedFull
  | 2 => readAs codecs.inclusionProof .committedPartial
  | 3 => readAs ((codecs.recipient noteId).pair codecs.inclusionProof)
      fun (recipient, proof) => .committedFull recipient proof
  | 4 => readAs (u32Codec.pair (codecs.recipient noteId))
      fun (blockHeight, recipient) => .consumed blockHeight recipient
  | _ => fun _ => .error (.invalidValue "OutputNoteState")

def outputNoteState : ByteCodec (OutputNoteState π) where
  Admissible := codecs.OutputNoteStateAdmissible noteId
  write state := state.discriminant :: codecs.writeOutputNoteFields noteId state
  read bytes := do
    let (discriminant, bytes) ← readU8 bytes
    codecs.readOutputNoteFields noteId discriminant.toNat bytes
  read_write state admissible rest := by
    cases state with
    | expectedPartial => rfl
    | _ => exact Codec.map_read_write _ _ admissible rest

end Output

/-- The state is read with the identifier that was read before it. -/
def outputNoteRecord : ByteCodec (OutputNoteRecord μ π) where
  Admissible record := codecs.outputHeader.Admissible record.id ∧
    codecs.noteMetadata.Admissible record.metadata ∧
    (codecs.outputNoteState record.id).Admissible record.state ∧
    u32Codec.Admissible record.expectedHeight
  write record :=
    codecs.outputHeader.write record.id ++ (codecs.noteMetadata.write record.metadata ++
      ((codecs.outputNoteState record.id).write record.state ++
        u32Codec.write record.expectedHeight))
  read bytes := do
    let (noteId, bytes) ← codecs.outputHeader.read bytes
    let (metadata, bytes) ← codecs.noteMetadata.read bytes
    let (state, bytes) ← (codecs.outputNoteState noteId).read bytes
    let (expectedHeight, rest) ← u32Codec.read bytes
    return (⟨noteId, metadata, state, expectedHeight⟩, rest)
  read_write record admissible rest := by
    obtain ⟨header, metadata, state, height⟩ := admissible
    simp only [List.append_assoc, codecs.outputHeader.read_write _ header,
      codecs.noteMetadata.read_write _ metadata,
      (codecs.outputNoteState record.id).read_write _ state, u32Codec.read_write _ height,
      bind, Except.bind, pure, Except.pure]

/-! ### Updates and the tracker -/

end ProtocolCodecs

def NoteUpdateType.toU8 : NoteUpdateType → UInt8
  | .none => 0
  | .insert => 1
  | .update => 2

/-- `try_from` on the byte, with the error of `read_from`. -/
def NoteUpdateType.fromU8 (value : UInt8) : Except DeserializationError NoteUpdateType :=
  match value.toNat with
  | 0 => .ok .none
  | 1 => .ok .insert
  | 2 => .ok .update
  | other => .error (.invalidValue s!"invalid note update type: {other}")

def u8Codec : ByteCodec UInt8 where
  Admissible _ := True
  write value := [value]
  read := readU8
  read_write _ _ _ := rfl

def noteUpdateType : ByteCodec NoteUpdateType :=
  u8Codec.refine NoteUpdateType.toU8 NoteUpdateType.fromU8 fun updateType => by
    cases updateType <;> rfl

/-- `InputNoteUpdate` and `OutputNoteUpdate`. -/
def noteUpdate {ρ : Type} (note : ByteCodec ρ) : ByteCodec (NoteUpdate ρ) :=
  (note.pair noteUpdateType).via (fun update => (update.note, update.updateType))
    (fun fields => ⟨fields.1, fields.2⟩) fun _ => rfl

namespace ProtocolCodecs

open NoteUpdateTracker

variable {μ π : Type} (codecs : ProtocolCodecs μ π)

def inputNotes : ByteCodec (Notes (InputNoteRecord μ π)) :=
  .orderedMap usizeCodec codecs.noteId (noteUpdate codecs.inputNoteRecord)

def outputNotes : ByteCodec (Notes (OutputNoteRecord μ π)) :=
  .orderedMap usizeCodec codecs.noteId (noteUpdate codecs.outputNoteRecord)

def nullifierOrder : ByteCodec (OrderedMap Nullifier Nat) :=
  .orderedMap usizeCodec codecs.nullifier u32Codec

/-- The three maps; the indices are left out. -/
def writeTracker (tracker : NoteUpdateTracker μ π) : List UInt8 :=
  codecs.inputNotes.write tracker.inputNotes ++ (codecs.outputNotes.write tracker.outputNotes ++
    codecs.nullifierOrder.write tracker.nullifierOrder)

def readTracker : Reader DeserializationError UInt8 (NoteUpdateTracker μ π) := fun bytes => do
  let (inputNotes, bytes) ← codecs.inputNotes.read bytes
  let (outputNotes, bytes) ← codecs.outputNotes.read bytes
  let (nullifierOrder, rest) ← codecs.nullifierOrder.read bytes
  return (ofMaps inputNotes outputNotes nullifierOrder, rest)

/-- The ranges that the types of the source have. -/
structure TrackerAdmissible (tracker : NoteUpdateTracker μ π) : Prop where
  inputNotes : codecs.inputNotes.Admissible tracker.inputNotes
  outputNotes : codecs.outputNotes.Admissible tracker.outputNotes
  nullifierOrder : codecs.nullifierOrder.Admissible tracker.nullifierOrder

variable {codecs}

theorem readTracker_write {tracker : NoteUpdateTracker μ π}
    (admissible : codecs.TrackerAdmissible tracker) (rest : List UInt8) :
    codecs.readTracker (codecs.writeTracker tracker ++ rest) =
      .ok (ofMaps tracker.inputNotes tracker.outputNotes tracker.nullifierOrder, rest) := by
  simp only [readTracker, writeTracker, List.append_assoc,
    codecs.inputNotes.read_write _ admissible.inputNotes,
    codecs.outputNotes.read_write _ admissible.outputNotes,
    codecs.nullifierOrder.read_write _ admissible.nullifierOrder, bind, Except.bind, pure,
    Except.pure]

end ProtocolCodecs

namespace StateSync

variable {μ π : Type} [DecidableEq μ] [DecidableEq π] {sync : StateSync μ π}
  {nullifierOf : NoteId → Nullifier} {after : StateSyncUpdate μ π}

/-- Every value of the protocol as one or two numbers of eight bytes. -/
def numberCodecs : ProtocolCodecs Nat Nat where
  noteDetails := (u64Codec.pair u64Codec).via (fun details => (details.id, details.nullifier))
    (fun fields => ⟨fields.1, fields.2⟩) fun _ => rfl
  noteMetadata := u64Codec
  inclusionProof := u64Codec
  noteId := u64Codec
  nullifier := u64Codec
  accountId := u64Codec
  transactionId := u64Codec
  outputHeader := u64Codec
  recipient _ := u64Codec.via NoteRecipient.nullifier NoteRecipient.mk fun _ => rfl

/-- What the tracker holds when the commit of the stored note was reported. -/
theorem commitAnswers_tracked {after : StateSyncUpdate Nat Nat}
    (result : acceptingSync.syncState 3 [processedNote] [] [processingTransaction]
      commitAnswers = .ok after) :
    after.noteUpdates.inputNotes.toList =
        [(1, ⟨⟨⟨1, 1⟩, some 0, .consumedAuthenticatedLocal 0 0 ⟨0, 0, 0, 0⟩ 10 ⟨none, 5, 9⟩
          (some 0)⟩, .update⟩)] ∧
      after.noteUpdates.outputNotes.toList = [] ∧
      after.noteUpdates.nullifierOrder.toList = [(1, 0)] := by
  have inputs : (acceptingSync.syncState 3 [processedNote] [] [processingTransaction]
      commitAnswers).toOption.map (fun update => update.noteUpdates.inputNotes.toList) =
      some [(1, ⟨⟨⟨1, 1⟩, some 0, .consumedAuthenticatedLocal 0 0 ⟨0, 0, 0, 0⟩ 10 ⟨none, 5, 9⟩
        (some 0)⟩, .update⟩)] := by
    decide
  have outputs : (acceptingSync.syncState 3 [processedNote] [] [processingTransaction]
      commitAnswers).toOption.map (fun update => update.noteUpdates.outputNotes.toList) =
      some [] := by
    decide
  have order : (acceptingSync.syncState 3 [processedNote] [] [processingTransaction]
      commitAnswers).toOption.map (fun update => update.noteUpdates.nullifierOrder.toList) =
      some [(1, 0)] := by
    decide
  rw [result] at inputs outputs order
  exact ⟨Option.some.inj inputs, Option.some.inj outputs, Option.some.inj order⟩

theorem commitAnswers_admissible {after : StateSyncUpdate Nat Nat}
    (result : acceptingSync.syncState 3 [processedNote] [] [processingTransaction]
      commitAnswers = .ok after) : numberCodecs.TrackerAdmissible after.noteUpdates := by
  obtain ⟨inputs, outputs, order⟩ := commitAnswers_tracked result
  have u64 {value : Nat} (small : value < 256) : u64Codec.Admissible value :=
    Nat.lt_trans small (by decide)
  have u32 {value : Nat} (small : value < 256) : u32Codec.Admissible value :=
    Nat.lt_trans small (by decide)
  refine ⟨⟨?_, fun entry member => ?_⟩, ⟨?_, fun entry member => ?_⟩,
    ⟨?_, fun entry member => ?_⟩⟩
  · rw [inputs]
    exact (by decide : 1 < 2 ^ 64)
  · rw [inputs, List.mem_singleton] at member
    subst member
    refine ⟨u64 (by decide), ⟨⟨u64 (by decide), u64 (by decide)⟩, ?_, u64 (by decide),
      u64 (by decide), ⟨trivial, trivial, trivial, trivial⟩, u32 (by decide),
      ⟨nofun, u64 (by decide), u64 (by decide)⟩, ?_⟩, trivial⟩
    · rintro _ ⟨⟩
      exact u64 (by decide)
    · rintro _ ⟨⟩
      exact u32 (by decide)
  · rw [outputs]
    exact (by decide : 0 < 2 ^ 64)
  · rw [outputs] at member
    cases member
  · rw [order]
    exact (by decide : 1 < 2 ^ 64)
  · rw [order, List.mem_singleton] at member
    subst member
    exact ⟨u64 (by decide), u32 (by decide)⟩

end StateSync

end MidenWorkspace.Client
