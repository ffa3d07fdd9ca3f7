import MidenWorkspace.Vm.Stack

/-!
Contract: the notes that a client tracks, and how what it learns changes their state.

Owns the nine states of an input note and the five of an output note with all their
transitions, the records around them, and the facts that every transition of an input note
keeps: an authenticated note has a proof that was checked against a block (`Authentic`) and
stays authenticated until it is consumed, and a consumed note stays consumed at its height.

Identifiers are hashes and are only compared. How a note commitment is computed and how a
proof is checked is a parameter.
-/

namespace MidenWorkspace.Client

open Vm (Word)

abbrev NoteId := Nat
abbrev Nullifier := Nat
abbrev TransactionId := Nat
abbrev AccountId := Nat
abbrev BlockNumber := Nat
abbrev NoteTag := Nat

/-- What the client computes from the metadata of a note and from an inclusion proof. -/
structure NoteScheme (μ π : Type) where
  computeNoteCommitment : NoteId → μ → Word
  /-- `note_path().verify(index, commitment, root).is_ok()`. -/
  verify : π → Word → Word → Bool
  /-- `location().block_num()`. -/
  blockNum : π → BlockNumber
  /-- `NetworkAccountTarget::try_from(attachment)`. -/
  networkTarget : μ → Option AccountId

structure BlockHeader where
  blockNum : BlockNumber
  noteRoot : Word
  timestamp : Nat
deriving DecidableEq, Repr

inductive NoteRecordError where
  | noteNotConsumable (message : String)
  | invalidStateTransition (message : String)
  | stateTransitionError (message : String)
  | conversionError (message : String)
deriving DecidableEq, Repr

structure NoteSubmissionData where
  submittedAt : Option Nat
  consumerAccount : AccountId
  consumerTransaction : TransactionId
deriving DecidableEq, Repr

/-! ### Input notes -/

inductive InputNoteState (μ π : Type) where
  | expected (metadata : Option μ) (afterBlockNum : BlockNumber) (tag : Option NoteTag)
  | unverified (metadata : μ) (inclusionProof : π)
  | committed (metadata : μ) (inclusionProof : π) (blockNoteRoot : Word)
  | invalid (metadata : μ) (invalidInclusionProof : π) (blockNoteRoot : Word)
  | processingAuthenticated (metadata : μ) (inclusionProof : π) (blockNoteRoot : Word)
      (submissionData : NoteSubmissionData)
  | processingUnauthenticated (metadata : μ) (afterBlockNum : BlockNumber)
      (submissionData : NoteSubmissionData)
  | consumedAuthenticatedLocal (metadata : μ) (inclusionProof : π) (blockNoteRoot : Word)
      (nullifierBlockHeight : BlockNumber) (submissionData : NoteSubmissionData)
      (consumedTxOrder : Option Nat)
  | consumedUnauthenticatedLocal (metadata : μ) (nullifierBlockHeight : BlockNumber)
      (submissionData : NoteSubmissionData) (consumedTxOrder : Option Nat)
  | consumedExternal (nullifierBlockHeight : BlockNumber) (consumerAccount : Option AccountId)
      (consumedTxOrder : Option Nat)
deriving DecidableEq, Repr

namespace InputNoteState

variable {μ π : Type}

def discriminant : InputNoteState μ π → UInt8
  | expected _ _ _ => 0
  | unverified _ _ => 1
  | committed _ _ _ => 2
  | invalid _ _ _ => 3
  | processingAuthenticated _ _ _ _ => 4
  | processingUnauthenticated _ _ _ => 5
  | consumedAuthenticatedLocal _ _ _ _ _ _ => 6
  | consumedUnauthenticatedLocal _ _ _ _ => 7
  | consumedExternal _ _ _ => 8

def metadata : InputNoteState μ π → Option μ
  | expected metadata _ _ => metadata
  | unverified metadata _ | committed metadata _ _ | invalid metadata _ _ => some metadata
  | processingAuthenticated metadata _ _ _ | processingUnauthenticated metadata _ _ => some metadata
  | consumedAuthenticatedLocal metadata _ _ _ _ _ => some metadata
  | consumedUnauthenticatedLocal metadata _ _ _ => some metadata
  | consumedExternal _ _ _ => none

def consumerTransactionId : InputNoteState μ π → Option TransactionId
  | processingAuthenticated _ _ _ submission | processingUnauthenticated _ _ submission =>
      some submission.consumerTransaction
  | consumedAuthenticatedLocal _ _ _ _ submission _ =>
      some submission.consumerTransaction
  | consumedUnauthenticatedLocal _ _ submission _ => some submission.consumerTransaction
  | _ => none

/-- `consumed_block_height`. -/
def consumedBlockHeight : InputNoteState μ π → Option BlockNumber
  | consumedAuthenticatedLocal _ _ _ height _ _ => some height
  | consumedUnauthenticatedLocal _ height _ _ => some height
  | consumedExternal height _ _ => some height
  | _ => none

/-- The local transaction that has consumed the note, and in which block. -/
def locallyConsumed : InputNoteState μ π → Option (TransactionId × BlockNumber)
  | consumedAuthenticatedLocal _ _ _ height submission _ =>
      some (submission.consumerTransaction, height)
  | consumedUnauthenticatedLocal _ height submission _ =>
      some (submission.consumerTransaction, height)
  | _ => none

def consumedTxOrder : InputNoteState μ π → Option Nat
  | consumedAuthenticatedLocal _ _ _ _ _ order => order
  | consumedUnauthenticatedLocal _ _ _ order => order
  | consumedExternal _ _ order => order
  | _ => none

/-- `consumer_account` of the record. -/
def consumerAccount : InputNoteState μ π → Option AccountId
  | processingAuthenticated _ _ _ submission | processingUnauthenticated _ _ submission =>
      some submission.consumerAccount
  | consumedAuthenticatedLocal _ _ _ _ submission _ => some submission.consumerAccount
  | consumedUnauthenticatedLocal _ _ submission _ => some submission.consumerAccount
  | consumedExternal _ account _ => account
  | _ => none

def isProcessing : InputNoteState μ π → Bool
  | processingAuthenticated _ _ _ _ | processingUnauthenticated _ _ _ => true
  | _ => false

def isAuthenticated : InputNoteState μ π → Bool
  | committed _ _ _ | processingAuthenticated _ _ _ _ => true
  | consumedAuthenticatedLocal _ _ _ _ _ _ => true
  | _ => false

def setConsumedTxOrder (order : Option Nat) : InputNoteState μ π → InputNoteState μ π
  | consumedAuthenticatedLocal metadata proof root height submission _ =>
      consumedAuthenticatedLocal metadata proof root height submission order
  | consumedUnauthenticatedLocal metadata height submission _ =>
      consumedUnauthenticatedLocal metadata height submission order
  | consumedExternal height account _ => consumedExternal height account order
  | state => state

def inclusionProofReceived [DecidableEq μ] [DecidableEq π] (inclusionProof : π) (metadata : μ) :
    InputNoteState μ π → Except NoteRecordError (Option (InputNoteState μ π))
  | expected _ _ _ | unverified _ _ | invalid _ _ _ =>
      .ok (some (unverified metadata inclusionProof))
  | committed own proof _ | processingAuthenticated own proof _ _ =>
      if proof ≠ inclusionProof ∨ own ≠ metadata then
        .error (.stateTransitionError
          "Inclusion proof or metadata do not match the expected values")
      else .ok none
  | _ => .ok none

def consumedExternally (nullifierBlockHeight : BlockNumber) (consumerAccount : Option AccountId) :
    InputNoteState μ π → Except NoteRecordError (Option (InputNoteState μ π))
  | consumedAuthenticatedLocal _ _ _ _ _ _ | consumedUnauthenticatedLocal _ _ _ _ => .ok none
  | consumedExternal _ _ _ => .ok none
  | _ => .ok (some (consumedExternal nullifierBlockHeight consumerAccount none))

def blockHeaderReceived (scheme : NoteScheme μ π) (noteId : NoteId) (header : BlockHeader) :
    InputNoteState μ π → Except NoteRecordError (Option (InputNoteState μ π))
  | expected _ _ _ => .error (.stateTransitionError "Can't verify an expected note")
  | unverified metadata proof =>
      if scheme.verify proof (scheme.computeNoteCommitment noteId metadata) header.noteRoot then
        .ok (some (committed metadata proof header.noteRoot))
      else .ok (some (invalid metadata proof header.noteRoot))
  | committed _ _ root =>
      if header.noteRoot ≠ root then
        .error (.stateTransitionError "Block header does not match the expected note root")
      else .ok none
  | invalid metadata proof _ =>
      if scheme.verify proof (scheme.computeNoteCommitment noteId metadata) header.noteRoot then
        .ok (some (committed metadata proof header.noteRoot))
      else .ok none
  | _ => .ok none

def consumedLocally (scheme : NoteScheme μ π) (consumerAccount : AccountId)
    (consumerTransaction : TransactionId) (currentTimestamp : Option Nat) :
    InputNoteState μ π → Except NoteRecordError (Option (InputNoteState μ π))
  | expected none _ _ => .error (.noteNotConsumable "Can't consume note without metadata")
  | expected (some metadata) afterBlockNum _ =>
      .ok (some (processingUnauthenticated metadata afterBlockNum
        ⟨currentTimestamp, consumerAccount, consumerTransaction⟩))
  | unverified metadata proof =>
      -- The timestamp is not recorded here.
      .ok (some (processingUnauthenticated metadata (scheme.blockNum proof - 1)
        ⟨none, consumerAccount, consumerTransaction⟩))
  | committed metadata proof root =>
      .ok (some (processingAuthenticated metadata proof root
        ⟨currentTimestamp, consumerAccount, consumerTransaction⟩))
  | invalid _ _ _ => .error (.noteNotConsumable "Can't consume invalid note")
  | processingAuthenticated _ _ _ _ | processingUnauthenticated _ _ _ =>
      .error (.noteNotConsumable "Note being consumed")
  | _ => .error (.noteNotConsumable "Note already consumed")

def transactionCommitted (transactionId : TransactionId) (blockHeight : BlockNumber) :
    InputNoteState μ π → Except NoteRecordError (Option (InputNoteState μ π))
  | processingAuthenticated metadata proof root submission =>
      if transactionId ≠ submission.consumerTransaction then
        .error (.stateTransitionError "Transaction ID does not match the expected value")
      else
        .ok (some (consumedAuthenticatedLocal metadata proof root blockHeight submission none))
  | processingUnauthenticated metadata _ submission =>
      if transactionId ≠ submission.consumerTransaction then
        .error (.stateTransitionError "Transaction ID does not match the expected value")
      else .ok (some (consumedUnauthenticatedLocal metadata blockHeight submission none))
  | _ => .error (.invalidStateTransition
      "Only processing notes can be committed in a local transaction")

end InputNoteState

/-- Assets, script, inputs and serial number, as far as the client looks at them. -/
@[ext]
structure NoteDetails where
  id : NoteId
  nullifier : Nullifier
deriving DecidableEq, Repr

structure InputNoteRecord (μ π : Type) where
  details : NoteDetails
  createdAt : Option Nat
  state : InputNoteState μ π
deriving DecidableEq, Repr

namespace InputNoteRecord

variable {μ π : Type}

def id (record : InputNoteRecord μ π) : NoteId := record.details.id

def nullifier (record : InputNoteRecord μ π) : Nullifier := record.details.nullifier

def isConsumed (record : InputNoteRecord μ π) : Bool := record.state.consumedBlockHeight.isSome

def isProcessing (record : InputNoteRecord μ π) : Bool := record.state.isProcessing

def isAuthenticated (record : InputNoteRecord μ π) : Bool := record.state.isAuthenticated

/-- The record with its new state, if it has one. -/
def withState (record : InputNoteRecord μ π) : Option (InputNoteState μ π) → InputNoteRecord μ π
  | some state => { record with state }
  | none => record

/-- What each of the five transitions of a record does with the answer of its state. -/
def become (record : InputNoteRecord μ π)
    (answer : Except NoteRecordError (Option (InputNoteState μ π))) :
    Except NoteRecordError (InputNoteRecord μ π) := do
  return record.withState (← answer)

def inclusionProofReceived [DecidableEq μ] [DecidableEq π] (record : InputNoteRecord μ π)
    (inclusionProof : π) (metadata : μ) : Except NoteRecordError (InputNoteRecord μ π) :=
  record.become (record.state.inclusionProofReceived inclusionProof metadata)

def blockHeaderReceived (scheme : NoteScheme μ π) (record : InputNoteRecord μ π)
    (header : BlockHeader) : Except NoteRecordError (InputNoteRecord μ π) :=
  record.become (record.state.blockHeaderReceived scheme record.id header)

def consumedExternally (record : InputNoteRecord μ π) (nullifier : Nullifier)
    (nullifierBlockHeight : BlockNumber) (consumerAccount : Option AccountId) :
    Except NoteRecordError (InputNoteRecord μ π) :=
  if record.nullifier ≠ nullifier then
    .error (.stateTransitionError "Nullifier does not match the expected value")
  else record.become (record.state.consumedExternally nullifierBlockHeight consumerAccount)

def consumedLocally (scheme : NoteScheme μ π) (record : InputNoteRecord μ π)
    (consumerAccount : AccountId) (consumerTransaction : TransactionId)
    (currentTimestamp : Option Nat) : Except NoteRecordError (InputNoteRecord μ π) :=
  record.become
    (record.state.consumedLocally scheme consumerAccount consumerTransaction currentTimestamp)

def transactionCommitted (record : InputNoteRecord μ π) (transactionId : TransactionId)
    (blockHeight : BlockNumber) : Except NoteRecordError (InputNoteRecord μ π) :=
  record.become (record.state.transactionCommitted transactionId blockHeight)

def setConsumedTxOrder (order : Option Nat) (record : InputNoteRecord μ π) :
    InputNoteRecord μ π :=
  { record with state := record.state.setConsumedTxOrder order }

end InputNoteRecord

/-! ### Output notes -/

/-- The recipient of a note, as the nullifier that it gives with the assets of its record. -/
structure NoteRecipient where
  nullifier : Nullifier
deriving DecidableEq, Repr

inductive OutputNoteState (π : Type) where
  | expectedPartial
  | expectedFull (recipient : NoteRecipient)
  | committedPartial (inclusionProof : π)
  | committedFull (recipient : NoteRecipient) (inclusionProof : π)
  | consumed (blockHeight : BlockNumber) (recipient : NoteRecipient)
deriving DecidableEq, Repr

namespace OutputNoteState

variable {π : Type}

def discriminant : OutputNoteState π → UInt8
  | expectedPartial => 0
  | expectedFull _ => 1
  | committedPartial _ => 2
  | committedFull _ _ => 3
  | consumed _ _ => 4

def recipient : OutputNoteState π → Option NoteRecipient
  | expectedFull recipient | committedFull recipient _ | consumed _ recipient => some recipient
  | _ => none

def inclusionProofReceived [DecidableEq π] (inclusionProof : π) :
    OutputNoteState π → Except NoteRecordError (Option (OutputNoteState π))
  | expectedPartial => .ok (some (committedPartial inclusionProof))
  | expectedFull recipient => .ok (some (committedFull recipient inclusionProof))
  | committedPartial previous | committedFull _ previous =>
      if previous = inclusionProof then .ok none
      else .error (.stateTransitionError
        "Cannot receive different inclusion proof for committed note")
  | consumed _ _ => .ok none

def nullifierReceived (blockHeight : BlockNumber) :
    OutputNoteState π → Except NoteRecordError (Option (OutputNoteState π))
  | consumed _ _ => .ok none
  | expectedFull recipient | committedFull recipient _ =>
      .ok (some (consumed blockHeight recipient))
  | expectedPartial | committedPartial _ =>
      .error (.invalidStateTransition "Cannot nullify note without recipient")

end OutputNoteState

/-- The identifier stands for the digest of the recipient and the assets. -/
structure OutputNoteRecord (μ π : Type) where
  id : NoteId
  metadata : μ
  state : OutputNoteState π
  expectedHeight : BlockNumber
deriving DecidableEq, Repr

namespace OutputNoteRecord

variable {μ π : Type}

def nullifier (record : OutputNoteRecord μ π) : Option Nullifier :=
  record.state.recipient.map NoteRecipient.nullifier

def isConsumed (record : OutputNoteRecord μ π) : Bool :=
  match record.state with
  | .consumed _ _ => true
  | _ => false

def isCommitted (record : OutputNoteRecord μ π) : Bool :=
  match record.state with
  | .committedPartial _ | .committedFull _ _ => true
  | _ => false

def become (record : OutputNoteRecord μ π)
    (answer : Except NoteRecordError (Option (OutputNoteState π))) :
    Except NoteRecordError (OutputNoteRecord μ π) := do
  match ← answer with
  | some state => return { record with state }
  | none => return record

def inclusionProofReceived [DecidableEq π] (record : OutputNoteRecord μ π) (inclusionProof : π) :
    Except NoteRecordError (OutputNoteRecord μ π) :=
  record.become (record.state.inclusionProofReceived inclusionProof)

def nullifierReceived (record : OutputNoteRecord μ π) (nullifier : Nullifier)
    (blockHeight : BlockNumber) : Except NoteRecordError (OutputNoteRecord μ π) :=
  if record.nullifier.any (· ≠ nullifier) then
    .error (.stateTransitionError "Nullifier does not match the expected value")
  else record.become (record.state.nullifierReceived blockHeight)

end OutputNoteRecord

/-! ### What the transitions of an input note keep -/

section Transitions

variable {μ π : Type} [DecidableEq μ] [DecidableEq π] (scheme : NoteScheme μ π)

/-- An authenticated note has a proof that was checked against the root of a block, an
invalid one has a proof that failed. -/
def InputNoteState.Authentic (noteId : NoteId) : InputNoteState μ π → Prop
  | .committed metadata proof root | .processingAuthenticated metadata proof root _ =>
      scheme.verify proof (scheme.computeNoteCommitment noteId metadata) root = true
  | .consumedAuthenticatedLocal metadata proof root _ _ _ =>
      scheme.verify proof (scheme.computeNoteCommitment noteId metadata) root = true
  | .invalid metadata proof root =>
      scheme.verify proof (scheme.computeNoteCommitment noteId metadata) root = false
  | _ => True

/-- What the client can learn about a note, or do with it. -/
inductive NoteEvent (μ π : Type) where
  | inclusionProofReceived (inclusionProof : π) (metadata : μ)
  | blockHeaderReceived (header : BlockHeader)
  | consumedExternally (nullifier : Nullifier) (height : BlockNumber) (account : Option AccountId)
  | consumedLocally (account : AccountId) (transaction : TransactionId) (timestamp : Option Nat)
  | transactionCommitted (transaction : TransactionId) (height : BlockNumber)
  | setConsumedTxOrder (order : Option Nat)

def InputNoteRecord.apply (record : InputNoteRecord μ π) :
    NoteEvent μ π → Except NoteRecordError (InputNoteRecord μ π)
  | .inclusionProofReceived proof metadata => record.inclusionProofReceived proof metadata
  | .blockHeaderReceived header => record.blockHeaderReceived scheme header
  | .consumedExternally nullifier height account =>
      record.consumedExternally nullifier height account
  | .consumedLocally account transaction timestamp =>
      record.consumedLocally scheme account transaction timestamp
  | .transactionCommitted transaction height => record.transactionCommitted transaction height
  | .setConsumedTxOrder order => .ok (record.setConsumedTxOrder order)

/-- The events one after the other; an event that the record refuses changes nothing. -/
def InputNoteRecord.run (record : InputNoteRecord μ π) (events : List (NoteEvent μ π)) :
    InputNoteRecord μ π :=
  events.foldl (fun current event => match current.apply scheme event with
    | .ok changed => changed
    | .error _ => current) record

variable {scheme}

/-- What every transition keeps, where only the transactions that are `Committed` at a height
are reported as such. -/
structure InputNoteRecord.Keeps (scheme : NoteScheme μ π)
    (Committed : TransactionId → BlockNumber → Prop) (before after : InputNoteRecord μ π) :
    Prop where
  fixed : after = { before with state := after.state }
  authentic : before.state.Authentic scheme before.id → after.state.Authentic scheme before.id
  authenticated : before.isAuthenticated = true →
    after.isAuthenticated = true ∨ after.isConsumed = true
  consumed : ∀ height, before.state.consumedBlockHeight = some height →
    after.state.consumedBlockHeight = some height
  attributed : ∀ transaction height,
    after.state.locallyConsumed = some (transaction, height) →
      before.state.locallyConsumed = some (transaction, height) ∨ Committed transaction height

namespace InputNoteRecord

variable {Committed : TransactionId → BlockNumber → Prop}

omit [DecidableEq μ] [DecidableEq π]

theorem Keeps.refl (record : InputNoteRecord μ π) : Keeps scheme Committed record record :=
  ⟨rfl, fun authentic => authentic, .inl, fun _ consumed => consumed, fun _ _ => .inl⟩

theorem Keeps.isConsumed {before after : InputNoteRecord μ π}
    (keeps : Keeps scheme Committed before after) (consumed : before.isConsumed = true) :
    after.isConsumed = true := by
  obtain ⟨height, atHeight⟩ := Option.isSome_iff_exists.mp consumed
  exact Option.isSome_iff_exists.mpr ⟨height, keeps.consumed height atHeight⟩

theorem Keeps.details {before after : InputNoteRecord μ π}
    (keeps : Keeps scheme Committed before after) :
    after.details = before.details := by
  rw [keeps.fixed]

theorem Keeps.trans {first second third : InputNoteRecord μ π}
    (before : Keeps scheme Committed first second) (after : Keeps scheme Committed second third) :
    Keeps scheme Committed first third := by
  have sameId : second.id = first.id := congrArg NoteDetails.id before.details
  refine ⟨?_, fun authentic => ?_, fun checked => ?_, fun height consumed =>
    after.consumed height (before.consumed height consumed),
    fun transaction height attributed => ?_⟩
  · rw [after.fixed, before.fixed]
  · rw [← sameId]
    exact after.authentic (sameId ▸ before.authentic authentic)
  · rcases before.authenticated checked with checkedAlso | consumed
    · exact after.authenticated checkedAlso
    · exact .inr (after.isConsumed consumed)
  · rcases after.attributed transaction height attributed with earlier | committed
    · exact before.attributed transaction height earlier
    · exact .inr committed

/-- A transition that changes the state starts from an unconsumed note, and where it
ends in an authenticated or an invalid state the proof was looked at. An authenticated note
stays so until it is consumed. -/
def Changes (scheme : NoteScheme μ π) (Committed : TransactionId → BlockNumber → Prop)
    (record : InputNoteRecord μ π) (state : InputNoteState μ π) : Prop :=
  record.state.consumedBlockHeight = none ∧
    (record.state.Authentic scheme record.id → state.Authentic scheme record.id) ∧
    (record.state.isAuthenticated = true →
      state.isAuthenticated = true ∨ state.consumedBlockHeight.isSome = true) ∧
    ∀ transaction height, state.locallyConsumed = some (transaction, height) →
      Committed transaction height

theorem keeps_of_become {record after : InputNoteRecord μ π}
    {answer : Except NoteRecordError (Option (InputNoteState μ π))}
    (changes : ∀ state, answer = .ok (some state) → Changes scheme Committed record state)
    (result : record.become answer = .ok after) : Keeps scheme Committed record after := by
  cases answer with
  | error failure => cases result
  | ok changed =>
      cases changed with
      | none =>
          rw [← Except.ok.inj result]
          exact .refl record
      | some state =>
          obtain ⟨unconsumed, authentic, authenticated, attributed⟩ := changes state rfl
          rw [← Except.ok.inj result]
          refine ⟨rfl, authentic, authenticated, fun height consumed => ?_,
            fun transaction height consumer => .inr (attributed transaction height consumer)⟩
          rw [unconsumed] at consumed
          cases consumed

theorem blockHeaderReceived_changes {record : InputNoteRecord μ π} {header : BlockHeader}
    {state : InputNoteState μ π}
    (changed : record.state.blockHeaderReceived scheme record.id header = .ok (some state)) :
    Changes scheme Committed record state := by
  revert changed
  rw [Changes]
  cases record.state with
  | unverified metadata proof =>
      rw [InputNoteState.blockHeaderReceived]
      split
      · rename_i verified
        rintro ⟨⟩
        exact ⟨rfl, fun _ => verified, nofun, by rintro _ _ ⟨⟩⟩
      · rename_i refuted
        rintro ⟨⟩
        exact ⟨rfl, fun _ => Bool.eq_false_of_not_eq_true refuted, nofun, by rintro _ _ ⟨⟩⟩
  | invalid metadata proof root =>
      rw [InputNoteState.blockHeaderReceived]
      split
      · rename_i verified
        rintro ⟨⟩
        exact ⟨rfl, fun _ => verified, nofun, by rintro _ _ ⟨⟩⟩
      · rintro ⟨⟩
  | committed metadata proof root =>
      rw [InputNoteState.blockHeaderReceived]
      split <;> rintro ⟨⟩
  | _ => rintro ⟨⟩

theorem consumedExternally_changes {record : InputNoteRecord μ π} {height : BlockNumber}
    {account : Option AccountId} {state : InputNoteState μ π}
    (changed : record.state.consumedExternally height account = .ok (some state)) :
    Changes scheme Committed record state := by
  revert changed
  rw [Changes]
  cases record.state <;> rintro ⟨⟩ <;>
    exact ⟨rfl, fun _ => trivial, fun _ => .inr rfl, by rintro _ _ ⟨⟩⟩

theorem consumedLocally_changes {record : InputNoteRecord μ π} {account : AccountId}
    {transaction : TransactionId} {timestamp : Option Nat} {state : InputNoteState μ π}
    (changed : record.state.consumedLocally scheme account transaction timestamp =
      .ok (some state)) : Changes scheme Committed record state := by
  revert changed
  rw [Changes]
  cases record.state with
  | expected metadata afterBlockNum tag =>
      cases metadata with
      | none => rintro ⟨⟩
      | some metadata =>
          rintro ⟨⟩
          exact ⟨rfl, fun _ => trivial, nofun, by rintro _ _ ⟨⟩⟩
  | unverified metadata proof =>
      rintro ⟨⟩
      exact ⟨rfl, fun _ => trivial, nofun, by rintro _ _ ⟨⟩⟩
  | committed metadata proof root =>
      -- The proof and the root that it was checked against are carried over.
      rintro ⟨⟩
      exact ⟨rfl, fun authentic => authentic, .inl, by rintro _ _ ⟨⟩⟩
  | _ => rintro ⟨⟩

theorem transactionCommitted_changes {record : InputNoteRecord μ π} {transaction : TransactionId}
    {height : BlockNumber} {state : InputNoteState μ π}
    (committed : Committed transaction height)
    (changed : record.state.transactionCommitted transaction height = .ok (some state)) :
    Changes scheme Committed record state := by
  revert changed
  rw [Changes]
  cases record.state with
  | processingAuthenticated metadata proof root submission =>
      rw [InputNoteState.transactionCommitted]
      split
      · rintro ⟨⟩
      · rename_i same
        rintro ⟨⟩
        rw [not_not.mp same] at committed
        refine ⟨rfl, fun authentic => authentic, .inl, ?_⟩
        rintro _ _ ⟨⟩
        exact committed
  | processingUnauthenticated metadata afterBlockNum submission =>
      rw [InputNoteState.transactionCommitted]
      split
      · rintro ⟨⟩
      · rename_i same
        rintro ⟨⟩
        rw [not_not.mp same] at committed
        refine ⟨rfl, fun _ => trivial, nofun, ?_⟩
        rintro _ _ ⟨⟩
        exact committed
  | _ => rintro ⟨⟩

theorem inclusionProofReceived_changes [DecidableEq μ] [DecidableEq π]
    {record : InputNoteRecord μ π} {proof : π} {metadata : μ} {state : InputNoteState μ π}
    (changed : record.state.inclusionProofReceived proof metadata = .ok (some state)) :
    Changes scheme Committed record state := by
  revert changed
  rw [Changes]
  cases record.state with
  | expected | unverified | invalid =>
      rintro ⟨⟩
      exact ⟨rfl, fun _ => trivial, nofun, by rintro _ _ ⟨⟩⟩
  | committed | processingAuthenticated =>
      rw [InputNoteState.inclusionProofReceived]
      split <;> rintro ⟨⟩
  | _ => rintro ⟨⟩

theorem keeps_setConsumedTxOrder (order : Option Nat) (record : InputNoteRecord μ π) :
    Keeps scheme Committed record (record.setConsumedTxOrder order) := by
  obtain ⟨details, createdAt, state⟩ := record
  cases state <;>
    exact ⟨rfl, fun authentic => authentic, .inl, fun _ consumed => consumed, fun _ _ => .inl⟩

theorem keeps_inclusionProofReceived [DecidableEq μ] [DecidableEq π]
    {record after : InputNoteRecord μ π} {proof : π} {metadata : μ}
    (result : record.inclusionProofReceived proof metadata = .ok after) :
    Keeps scheme Committed record after :=
  keeps_of_become (fun _ => inclusionProofReceived_changes) result

theorem keeps_blockHeaderReceived {record after : InputNoteRecord μ π} {header : BlockHeader}
    (result : record.blockHeaderReceived scheme header = .ok after) :
    Keeps scheme Committed record after :=
  keeps_of_become (fun _ => blockHeaderReceived_changes) result

theorem keeps_consumedExternally {record after : InputNoteRecord μ π} {nullifier : Nullifier}
    {height : BlockNumber} {account : Option AccountId}
    (result : record.consumedExternally nullifier height account = .ok after) :
    Keeps scheme Committed record after := by
  rw [InputNoteRecord.consumedExternally] at result
  split at result
  · cases result
  · exact keeps_of_become (fun _ => consumedExternally_changes) result

theorem keeps_transactionCommitted {record after : InputNoteRecord μ π}
    {transaction : TransactionId} {height : BlockNumber}
    (committed : Committed transaction height)
    (result : record.transactionCommitted transaction height = .ok after) :
    Keeps scheme Committed record after :=
  keeps_of_become (fun _ => transactionCommitted_changes committed) result

theorem keeps_of_apply [DecidableEq μ] [DecidableEq π] {record after : InputNoteRecord μ π}
    {event : NoteEvent μ π} (reports : ∀ transaction height,
      event = .transactionCommitted transaction height → Committed transaction height)
    (applied : record.apply scheme event = .ok after) : Keeps scheme Committed record after := by
  cases event with
  | inclusionProofReceived proof metadata => exact keeps_inclusionProofReceived applied
  | blockHeaderReceived header => exact keeps_blockHeaderReceived applied
  | consumedExternally nullifier height account => exact keeps_consumedExternally applied
  | consumedLocally account transaction timestamp =>
      exact keeps_of_become (fun _ => consumedLocally_changes) applied
  | transactionCommitted transaction height =>
      exact keeps_transactionCommitted (reports transaction height rfl) applied
  | setConsumedTxOrder order =>
      rw [← Except.ok.inj applied]
      exact keeps_setConsumedTxOrder order record

theorem keeps_run [DecidableEq μ] [DecidableEq π] (record : InputNoteRecord μ π)
    (events : List (NoteEvent μ π)) :
    Keeps scheme (fun transaction height => .transactionCommitted transaction height ∈ events)
      record (record.run scheme events) := by
  suffices general : ∀ others ⊆ events, ∀ start : InputNoteRecord μ π,
      Keeps scheme (fun transaction height => .transactionCommitted transaction height ∈ events)
        start (start.run scheme others) from general events (List.Subset.refl _) record
  intro others
  induction others with
  | nil => exact fun _ start => .refl start
  | cons event others inductionHypothesis =>
      intro subset start
      obtain ⟨member, subsetOthers⟩ := List.cons_subset.mp subset
      rw [run, List.foldl_cons]
      cases applied : start.apply scheme event with
      | error failure => exact inductionHypothesis subsetOthers start
      | ok changed =>
          refine (keeps_of_apply (fun transaction height same => ?_) applied).trans
            (inductionHypothesis subsetOthers changed)
          exact same ▸ member

theorem run_append [DecidableEq μ] [DecidableEq π] (record : InputNoteRecord μ π)
    (earlier later : List (NoteEvent μ π)) :
    record.run scheme (earlier ++ later) = (record.run scheme earlier).run scheme later :=
  List.foldl_append

/-- The life of a note from its first record on, whatever happens in whatever order: its details
stay, an authenticated state has a proof that was checked against the recorded root, a note
consumed by a local transaction was reported with this transaction and block, and once it is
consumed it stays so at its height. -/
theorem lifecycle [DecidableEq μ] [DecidableEq π] (record : InputNoteRecord μ π)
    (created : (∃ metadata afterBlockNum tag,
        record.state = .expected metadata afterBlockNum tag) ∨
      ∃ metadata proof, record.state = .unverified metadata proof)
    (earlier later : List (NoteEvent μ π)) :
    (record.run scheme (earlier ++ later)).details = record.details ∧
    (record.run scheme (earlier ++ later)).state.Authentic scheme record.id ∧
    (∀ transaction height,
      (record.run scheme (earlier ++ later)).state.locallyConsumed = some (transaction, height) →
      .transactionCommitted transaction height ∈ earlier ++ later) ∧
    ∀ height, (record.run scheme earlier).state.consumedBlockHeight = some height →
      (record.run scheme (earlier ++ later)).state.consumedBlockHeight = some height := by
  have fresh : record.state.Authentic scheme record.id ∧ record.state.locallyConsumed = none := by
    rcases created with ⟨metadata, afterBlockNum, tag, state⟩ | ⟨metadata, proof, state⟩
    · rw [state]
      exact ⟨trivial, rfl⟩
    · rw [state]
      exact ⟨trivial, rfl⟩
  have all : Keeps scheme
      (fun transaction height => .transactionCommitted transaction height ∈ earlier ++ later)
      record (record.run scheme (earlier ++ later)) := keeps_run record (earlier ++ later)
  refine ⟨all.details, all.authentic fresh.1, fun transaction height consumer => ?_,
    fun height consumed => ?_⟩
  · refine (all.attributed transaction height consumer).resolve_left ?_
    rw [fresh.2]
    exact Option.some_ne_none _ ∘ Eq.symm
  · rw [run_append]
    exact (keeps_run (record.run scheme earlier) later).consumed height consumed

/-- A scheme in which a proof is the number of its block, and every proof is accepted. -/
def acceptingScheme : NoteScheme Nat Nat where
  computeNoteCommitment _ _ := ⟨0, 0, 0, 0⟩
  verify _ _ _ := true
  blockNum proof := proof
  networkTarget _ := none

/-- A note that is expected, included in block `4`, and consumed by transaction `9` in block `6`;
a nullifier that is reported for a later block changes nothing. -/
theorem lifecycle_consumed :
    (InputNoteRecord.run acceptingScheme ⟨⟨1, 1⟩, none, .expected none 3 none⟩
      ([.inclusionProofReceived 4 0, .blockHeaderReceived ⟨4, ⟨0, 0, 0, 7⟩, 60⟩,
        .consumedLocally 5 9 none, .transactionCommitted 9 6] ++
        [.consumedExternally 1 8 none])).state.consumedBlockHeight = some 6 :=
  (lifecycle ⟨⟨1, 1⟩, none, .expected none 3 none⟩ (.inl ⟨none, 3, none, rfl⟩) _ _).2.2.2 6
    (by decide)

end InputNoteRecord

end Transitions

end MidenWorkspace.Client
