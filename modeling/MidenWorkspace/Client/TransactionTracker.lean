import MidenWorkspace.Client.NoteRecord
import MidenWorkspace.Library.OrderedMap

/-!
Contract: the local transactions that a client follows while it synchronises.

Owns the record of a transaction with its status, the tracker, the four things that happen
to it (an inclusion, a new height, a nullified note, an invalid account state), and the
discarding of transactions with all those that build on them.

Does not own the output notes of a transaction.
-/

namespace MidenWorkspace.Client

open Vm (Word)
open Library (OrderedMap)

inductive DiscardCause where
  | expired
  | inputConsumed
  | discardedInitialState
  | stale
deriving DecidableEq, Repr

inductive TransactionStatus where
  | pending
  | committed (blockNumber : BlockNumber) (commitTimestamp : Nat)
  | discarded (cause : DiscardCause)
deriving DecidableEq, Repr

structure TransactionDetails where
  accountId : AccountId
  initAccountState : Word
  finalAccountState : Word
  inputNoteNullifiers : List Nullifier
  submissionHeight : BlockNumber
  expirationBlockNum : BlockNumber
deriving DecidableEq, Repr

structure TransactionRecord where
  id : TransactionId
  details : TransactionDetails
  status : TransactionStatus
deriving DecidableEq, Repr

namespace TransactionRecord

/-- The flag says whether the status changed. -/
def commitTransaction (commitHeight : BlockNumber) (commitTimestamp : Nat)
    (transaction : TransactionRecord) : TransactionRecord × Bool :=
  match transaction.status with
  | .pending => ({ transaction with status := .committed commitHeight commitTimestamp }, true)
  | .discarded _ | .committed _ _ => (transaction, false)

def discardTransaction (cause : DiscardCause) (transaction : TransactionRecord) :
    TransactionRecord × Bool :=
  match transaction.status with
  | .pending => ({ transaction with status := .discarded cause }, true)
  | .discarded _ | .committed _ _ => (transaction, false)

def isPending (transaction : TransactionRecord) : Bool :=
  match transaction.status with
  | .pending => true
  | _ => false

def isCommitted (transaction : TransactionRecord) : Bool :=
  match transaction.status with
  | .committed _ _ => true
  | _ => false

def isDiscarded (transaction : TransactionRecord) : Bool :=
  match transaction.status with
  | .discarded _ => true
  | _ => false

end TransactionRecord

abbrev Transactions := OrderedMap TransactionId TransactionRecord

/-- A transaction as the node reports it. -/
structure TransactionInclusion where
  transactionId : TransactionId
  blockNum : BlockNumber
  accountId : AccountId
  initialStateCommitment : Word
  nullifiers : List Nullifier
deriving DecidableEq, Repr

structure TransactionUpdateTracker where
  transactions : Transactions
  externalNullifierAccounts : OrderedMap Nullifier AccountId

/-! ### Discarding -/

/-- The loop over the pending transactions: those that satisfy the predicate are discarded,
and their final account states are returned. -/
def discardPending (predicate : TransactionRecord → Bool) (cause : DiscardCause)
    (transactions : Transactions) : Transactions × List Word :=
  (transactions.map fun _ transaction =>
      if transaction.isPending && predicate transaction then
        (transaction.discardTransaction cause).1
      else transaction,
    ((transactions.values.filter TransactionRecord.isPending).filter fun transaction =>
      predicate transaction && (transaction.discardTransaction cause).2).map
        (·.details.finalAccountState))

def pendingCount (transactions : Transactions) : Nat :=
  transactions.countP TransactionRecord.isPending

/-- `discard_transaction_with_predicate`, which calls itself through
`apply_invalid_initial_account_state` for each transaction that it discards. Calls nested
deeper than `depth` have no result. -/
def discardCascade :
    Nat → (TransactionRecord → Bool) → DiscardCause → Transactions → Option Transactions
  | 0, _, _, _ => none
  | depth + 1, predicate, cause, transactions =>
      let (remaining, newInvalidAccountStates) := discardPending predicate cause transactions
      newInvalidAccountStates.foldlM (fun current state =>
        discardCascade depth (fun transaction => transaction.details.initAccountState = state)
          .discardedInitialState current) remaining

namespace TransactionUpdateTracker

def new (transactions : List TransactionRecord) : TransactionUpdateTracker where
  transactions := OrderedMap.collect (transactions.map fun transaction =>
    (transaction.id, transaction))
  externalNullifierAccounts := ∅

def committedTransactions (tracker : TransactionUpdateTracker) : List TransactionRecord :=
  tracker.transactions.values.filter TransactionRecord.isCommitted

def externalNullifierAccount (tracker : TransactionUpdateTracker) (nullifier : Nullifier) :
    Option AccountId :=
  tracker.externalNullifierAccounts[nullifier]?

/-- The calls are never nested deeper than there are pending transactions
(`discardCascade_swept`), so the result is always there. -/
def discardTransactionWithPredicate (predicate : TransactionRecord → Bool) (cause : DiscardCause)
    (tracker : TransactionUpdateTracker) : TransactionUpdateTracker :=
  { tracker with
    transactions := (discardCascade (pendingCount tracker.transactions + 1) predicate cause
      tracker.transactions).getD tracker.transactions }

def applyInvalidInitialAccountState (invalidAccountState : Word) :
    TransactionUpdateTracker → TransactionUpdateTracker :=
  discardTransactionWithPredicate
    (fun transaction => transaction.details.initAccountState = invalidAccountState)
    .discardedInitialState

def applyInputNoteNullified (inputNoteNullifier : Nullifier) :
    TransactionUpdateTracker → TransactionUpdateTracker :=
  discardTransactionWithPredicate
    (fun transaction => transaction.details.inputNoteNullifiers.contains inputNoteNullifier)
    .inputConsumed

def applySyncHeightUpdate (newSyncHeight : BlockNumber) (txDiscardDelta : Option Nat)
    (tracker : TransactionUpdateTracker) : TransactionUpdateTracker :=
  let afterStale := match txDiscardDelta with
    | some delta => tracker.discardTransactionWithPredicate
        (fun transaction => transaction.details.submissionHeight < newSyncHeight - delta) .stale
    | none => tracker
  afterStale.discardTransactionWithPredicate
    (fun transaction => transaction.details.expirationBlockNum ≤ newSyncHeight) .expired

/-- The fallback of `apply_transaction_inclusion`: the node authenticates unauthenticated
input notes, which changes the identifier of the transaction. -/
def sameAccountState (inclusion : TransactionInclusion) (transaction : TransactionRecord) : Bool :=
  transaction.details.accountId = inclusion.accountId ∧
    transaction.details.initAccountState = inclusion.initialStateCommitment

/-- The transaction, with its key, that an inclusion is taken to be about. -/
def locate (inclusion : TransactionInclusion) (transactions : Transactions) :
    Option (TransactionId × TransactionRecord) :=
  match transactions[inclusion.transactionId]? with
  | some transaction => some (inclusion.transactionId, transaction)
  | none => transactions.toList.find? fun entry => sameAccountState inclusion entry.2

def applyTransactionInclusion (inclusion : TransactionInclusion) (timestamp : Nat)
    (tracker : TransactionUpdateTracker) : TransactionUpdateTracker :=
  match locate inclusion tracker.transactions with
  | some (key, transaction) =>
      { tracker with
        transactions := tracker.transactions.insert key
          (transaction.commitTransaction inclusion.blockNum timestamp).1 }
  | none =>
      { tracker with
        externalNullifierAccounts := inclusion.nullifiers.foldl
          (fun accounts nullifier => accounts.insert nullifier inclusion.accountId)
          tracker.externalNullifierAccounts }

end TransactionUpdateTracker

end MidenWorkspace.Client
