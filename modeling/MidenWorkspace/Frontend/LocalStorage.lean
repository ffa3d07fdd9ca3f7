import Mathlib.Data.List.AList
import MidenWorkspace.Frontend.Institution
import MidenWorkspace.Library.Runs

/-!
Contract: what the register and submit pages keep in the browser
(`app/register/page.tsx`, `app/submit/page.tsx`).

Owns the browser's `localStorage`, the records that a registration and a submission
leave there, the register page's `handleSubmit` with every exit, and the shape of
every storage that the two pages can produce.

A stored text is the value it parses to. The order in which a browser lists its
keys is that of the store; nothing here depends on it. The wallet's transaction
and the block number are inputs.
-/

namespace MidenWorkspace.Frontend

open MidenWorkspace.Library

abbrev LocalStorage := AList fun _ : JsString => Json

def LocalStorage.getItem (storage : LocalStorage) (key : JsString) : Option Json :=
  storage.lookup key

def LocalStorage.setItem (storage : LocalStorage) (key : JsString) (value : Json) : LocalStorage :=
  storage.insert key value

/-- An object literal. -/
def Json.ofFields (fields : List (JsString × Json)) : Json := .obj fun key => fields.lookup key

def registrationPrefix : JsString := js "syndex_registration_"

def registrationKey (address : JsString) : JsString := registrationPrefix ++ address

def updatesKey : JsString := js "syndex_updates"

/-- `JSON.parse(localStorage.getItem("syndex_updates") || "[]")` -/
def LocalStorage.updates (storage : LocalStorage) : List Json :=
  match storage.getItem updatesKey with
  | some (.arr records) => records
  | _ => []

/-! ### Registering -/

/-- One press of the register button. -/
structure RegistrationAttempt where
  /-- the address of the connected wallet -/
  address : Option JsString
  canRequest : Bool
  name : JsString
  /-- `requestTransaction` resolves -/
  sent : Bool
  /-- the block number, if `syncState` resolves -/
  block : Option Json
  /-- `Date.now()` for the registration and for the record in the history -/
  registeredAt : Int
  listedAt : Int

def RegistrationAttempt.registration (attempt : RegistrationAttempt) (address : JsString)
    (block : Json) :
    Json :=
  .ofFields [(js "institutionId", .str (decimal (deriveInstitutionId address))),
    (js "institutionName", .str attempt.name), (js "schema", .null),
    (js "timestamp", .num attempt.registeredAt), (js "block", block),
    (js "walletAddress", .str address)]

/-- The record that the history of updates keeps of a registration. -/
def RegistrationAttempt.event (attempt : RegistrationAttempt) (address : JsString) : Json :=
  .ofFields [(js "type", .str (js "REGISTER")),
    (js "institution_id", .str (decimal (deriveInstitutionId address))),
    (js "institution_name", .str attempt.name), (js "timestamp", .num attempt.listedAt),
    (js "status", .str (js "confirmed"))]

/-- `handleSubmit` of the register page: the storage it leaves when it reaches
`confirmed`, or the error it shows. -/
def register (storage : LocalStorage) (attempt : RegistrationAttempt) :
    Except String LocalStorage :=
  match attempt.address with
  | none | some [] => .error "Connect your wallet first"
  | some address =>
      if !attempt.canRequest then .error "Connect your wallet first"
      else if (trim attempt.name).length < 2 then
        .error "Institution name must be at least 2 characters"
      else if 64 < (trim attempt.name).length then
        .error "Institution name must be 64 characters or less"
      else
        match attempt.sent, attempt.block with
        | true, some block =>
            let registered := storage.setItem (registrationKey address)
              (attempt.registration address block)
            .ok (registered.setItem updatesKey (.arr (attempt.event address :: registered.updates)))
        | _, _ => .error "Registration failed. Please check your wallet and try again."

/-! ### Submitting -/

inductive SchemaLabel where
  | transactionFraud
  | accountTakeover
  | syntheticIdentity
  | moneyLaundering
deriving DecidableEq, Repr

def SchemaLabel.text : SchemaLabel → JsString
  | .transactionFraud => js "Transaction Fraud"
  | .accountTakeover => js "Account Takeover"
  | .syntheticIdentity => js "Synthetic Identity"
  | .moneyLaundering => js "Money Laundering"

/-- `label.toLowerCase().replace(/ /g, '_')` for the letters and blanks of a label. -/
def SchemaLabel.slug (label : SchemaLabel) : JsString :=
  label.text.map fun unit => if unit = 32 then 95 else if 65 ≤ unit ∧ unit ≤ 90 then unit + 32 else unit

/-- A submission that the wallet has confirmed. The page sends a hash only if it is
a digest. -/
structure Submission where
  label : SchemaLabel
  gradientHash : JsString
  instId : JsString
  timestamp : Int
  txId : JsString
  block : Json
  full : gradientHash.length = 64
  hexadecimal : ∀ unit ∈ gradientHash, isDigitIn 16 unit = true

def Submission.record (submission : Submission) : Json :=
  .ofFields [(js "type", .str (js "SUBMIT")), (js "desc", .str submission.label.text),
    (js "gradientHash", .str submission.gradientHash), (js "institution_id", .str submission.instId),
    (js "schema", .str submission.label.slug), (js "timestamp", .num submission.timestamp),
    (js "status", .str (js "confirmed")), (js "txId", .str submission.txId),
    (js "blockNum", submission.block)]

def recordSubmission (storage : LocalStorage) (submission : Submission) : LocalStorage :=
  storage.setItem updatesKey (.arr (storage.updates ++ [submission.record]))

/-! ### What the pages write -/

theorem getItem_setItem_self (storage : LocalStorage) (key : JsString) (value : Json) :
    (storage.setItem key value).getItem key = some value :=
  AList.lookup_insert storage

theorem getItem_setItem_of_ne {key other : JsString} (storage : LocalStorage) (value : Json)
    (different : other ≠ key) : (storage.setItem key value).getItem other = storage.getItem other :=
  AList.lookup_insert_ne different

theorem updates_setItem_self (storage : LocalStorage) (records : List Json) :
    (storage.setItem updatesKey (.arr records)).updates = records := by
  rw [LocalStorage.updates, getItem_setItem_self]

theorem updates_setItem_of_ne {key : JsString} (storage : LocalStorage) (value : Json)
    (different : updatesKey ≠ key) : (storage.setItem key value).updates = storage.updates := by
  rw [LocalStorage.updates, LocalStorage.updates, getItem_setItem_of_ne storage value different]

/-- The key of a registration differs from every key without its prefix. -/
theorem ne_registrationKey {key : JsString} (plain : ¬ registrationPrefix <+: key)
    (address : JsString) : key ≠ registrationKey address := by
  intro same
  apply plain
  rw [same]
  exact List.prefix_append registrationPrefix address

theorem updatesKey_ne_registrationKey (address : JsString) : updatesKey ≠ registrationKey address :=
  ne_registrationKey (by decide) address

/-- The storage after a registration has been confirmed. -/
def withRegistration (storage : LocalStorage) (attempt : RegistrationAttempt) (address : JsString)
    (block : Json) : LocalStorage :=
  (storage.setItem (registrationKey address) (attempt.registration address block)).setItem updatesKey
    (.arr (attempt.event address :: storage.updates))

theorem updates_withRegistration (storage : LocalStorage) (attempt : RegistrationAttempt)
    (address : JsString) (block : Json) :
    (withRegistration storage attempt address block).updates =
      attempt.event address :: storage.updates :=
  updates_setItem_self _ _

theorem updates_recordSubmission (storage : LocalStorage) (submission : Submission) :
    (recordSubmission storage submission).updates = storage.updates ++ [submission.record] :=
  updates_setItem_self _ _

theorem register_eq_ok {storage next : LocalStorage} {attempt : RegistrationAttempt}
    (confirmed : register storage attempt = .ok next) :
    ∃ address block, attempt.address = some address ∧
      next = withRegistration storage attempt address block := by
  unfold register at confirmed
  split at confirmed
  · cases confirmed
  · cases confirmed
  · rename_i address _ found
    split_ifs at confirmed
    split at confirmed
    · rename_i block _ _
      cases confirmed
      refine ⟨address, block, found, ?_⟩
      rw [withRegistration, updates_setItem_of_ne _ _ (updatesKey_ne_registrationKey address)]
    · cases confirmed

/-! ### Storages that the pages produce -/

inductive PageAction where
  | register (attempt : RegistrationAttempt)
  | submit (submission : Submission)

def act (storage : LocalStorage) : PageAction → LocalStorage
  | .register attempt => (register storage attempt).toOption.getD storage
  | .submit submission => recordSubmission storage submission

/-- An action leaves the storage alone, files a registration, or records its
submission. -/
theorem act_cases (storage : LocalStorage) (action : PageAction) :
    act storage action = storage ∨
    (∃ attempt address block, act storage action = withRegistration storage attempt address block) ∨
    ∃ submission, action = .submit submission ∧
      act storage action = recordSubmission storage submission := by
  cases action with
  | register attempt =>
      show (register storage attempt).toOption.getD storage = storage ∨ _
      cases outcome : register storage attempt with
      | error message => exact .inl rfl
      | ok next =>
          obtain ⟨address, block, -, rfl⟩ := register_eq_ok outcome
          refine .inr (.inl ⟨attempt, address, block, ?_⟩)
          show (register storage attempt).toOption.getD storage = _
          rw [outcome]
          rfl
  | submit submission => exact .inr (.inr ⟨submission, rfl, rfl⟩)

/-- The storage of a browser in which these actions have been taken. -/
def produced (actions : List PageAction) : LocalStorage := Runs.after act ∅ actions

def IsRegistrationEvent (record : Json) : Prop :=
  ∃ (attempt : RegistrationAttempt) (address : JsString), record = attempt.event address

def IsSubmission (record : Json) : Prop := ∃ submission : Submission, record = submission.record

structure IsProduced (storage : LocalStorage) : Prop where
  registrations : ∀ key value, registrationPrefix <+: key → storage.getItem key = some value →
    ∃ (attempt : RegistrationAttempt) (address : JsString) (block : Json),
      value = attempt.registration address block
  updates : ∀ record ∈ storage.updates, IsRegistrationEvent record ∨ IsSubmission record

theorem withRegistration_isProduced {storage : LocalStorage} (isProduced : IsProduced storage)
    (attempt : RegistrationAttempt) (address : JsString) (block : Json) :
    IsProduced (withRegistration storage attempt address block) where
  registrations := by
    intro key value named found
    have notUpdates : key ≠ updatesKey := by
      intro same
      subst same
      exact absurd named (by decide)
    rw [withRegistration, getItem_setItem_of_ne _ _ notUpdates] at found
    by_cases own : key = registrationKey address
    · subst own
      rw [getItem_setItem_self] at found
      exact ⟨attempt, address, block, (Option.some.inj found).symm⟩
    · rw [getItem_setItem_of_ne _ _ own] at found
      exact isProduced.registrations key value named found
  updates := by
    intro record member
    rw [updates_withRegistration] at member
    rcases List.mem_cons.mp member with event | earlier
    · exact .inl ⟨attempt, address, event⟩
    · exact isProduced.updates record earlier

theorem recordSubmission_isProduced {storage : LocalStorage} (isProduced : IsProduced storage)
    (submission : Submission) : IsProduced (recordSubmission storage submission) where
  registrations := by
    intro key value named found
    have notUpdates : key ≠ updatesKey := by
      intro same
      subst same
      exact absurd named (by decide)
    rw [recordSubmission, getItem_setItem_of_ne _ _ notUpdates] at found
    exact isProduced.registrations key value named found
  updates := by
    intro record member
    rw [updates_recordSubmission] at member
    rcases List.mem_append.mp member with earlier | last
    · exact isProduced.updates record earlier
    · exact .inr ⟨submission, List.mem_singleton.mp last⟩

theorem act_isProduced {storage : LocalStorage} (action : PageAction)
    (isProduced : IsProduced storage) :
    IsProduced (act storage action) := by
  rcases act_cases storage action with
    same | ⟨attempt, address, block, registered⟩ | ⟨submission, -, submitted⟩
  · rw [same]
    exact isProduced
  · rw [registered]
    exact withRegistration_isProduced isProduced attempt address block
  · rw [submitted]
    exact recordSubmission_isProduced isProduced submission

theorem produced_isProduced (actions : List PageAction) : IsProduced (produced actions) := by
  apply Runs.after_invariant IsProduced (fun _ action _ => act_isProduced action)
  constructor
  · intro key value _ found
    cases found
  · intro record member
    cases member

end MidenWorkspace.Frontend
