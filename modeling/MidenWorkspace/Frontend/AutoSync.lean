import MidenWorkspace.Frontend.LocalStorage
import MidenWorkspace.Frontend.SerialStore

/-!
Contract: what a page that polls the shared document writes back to it
(`app/network/page.tsx`, `app/page.tsx`).

Owns the events that the pages read out of the browser's storage, the test whether
the shared document has an event, the calls that `loadData` and `loadLandingData`
make for those it has not, and one poll as a run of these writes.

Every test looks at the document that the poll has read, not at what its own
writes have made of it. An exception, in the merge for display or in the loop that
writes, ends the poll. The texts and times of the feed are left out; making them
does not throw.
-/

namespace MidenWorkspace.Frontend

open MidenWorkspace.Library

/-- The two pages that poll. -/
inductive PollingPage where
  | network
  | home
deriving DecidableEq, Repr

/-- `first || second` -/
def JsValue.orElse (first second : JsValue) : JsValue := if first.truthy then first else second

/-- An object literal whose values may be undefined. -/
def Record.ofFields (fields : List (JsString × JsValue)) : Record :=
  fun key => (fields.lookup key).getD .undefined

/-! ### Local events -/

/-- Only the network page keeps the block. -/
structure RegisterEvent where
  institutionId : JsValue
  block : JsValue

structure SubmitEvent where
  institutionId : JsValue
  timestamp : JsValue
  block : JsValue
  schema : JsValue
  gradientHash : JsValue

def LocalStorage.registrationKeys (storage : LocalStorage) : List JsString :=
  storage.keys.filter registrationPrefix.isPrefixOf

def LocalStorage.registrations (storage : LocalStorage) : List Json :=
  storage.registrationKeys.filterMap storage.getItem

def registerEvent (registration : Json) : Option RegisterEvent := do
  return ⟨← registration.member (js "institutionId"), ← registration.member (js "block")⟩

/-- Every record of the history becomes a submission, whatever its `type`. The home
page's events have no block. -/
def submitEvent (page : PollingPage) (update : Json) : Option SubmitEvent := do
  let institutionId := (← update.member (js "institutionId")).orElse
    (← update.member (js "institution_id"))
  let block := (← update.member (js "blockNum")).orElse (← update.member (js "block"))
  let schema := (← update.member (js "schema")).orElse (← update.member (js "desc"))
  return {
    institutionId
    timestamp := ← update.member (js "timestamp")
    block := match page with
      | .network => block
      | .home => .undefined
    schema
    gradientHash := ← update.member (js "gradientHash") }

/-! ### Events that the shared document has -/

/-- `shared.key?.some(test)` -/
def listedIn (shared : Json) (key : JsString) (test : Json → Option Bool) : Option Bool :=
  match shared.member key with
  | none => none
  | some .undefined | some (.json .null) => some false
  | some (.json (.arr entries)) => (findEntry test entries).map Option.isSome
  | some _ => none

def sharesInstitution (event : RegisterEvent) (registration : Json) : Option Bool :=
  (registration.member (js "institutionId")).map (·.strictEquals event.institutionId)

/-- `first && second && first === second` -/
def JsValue.sameTruthy (first second : JsValue) : Bool :=
  first.truthy && second.truthy && first.strictEquals second

def sharesSubmission (event : SubmitEvent) (update : Json) : Option Bool := do
  let gradientHash ← update.member (js "gradientHash")
  let timestamp ← update.member (js "timestamp")
  return gradientHash.sameTruthy event.gradientHash || timestamp.sameTruthy event.timestamp

/-- The merge for display runs through a list: `if (shared.key) shared.key.forEach(…)`. -/
def mergesList (shared : Json) (key : JsString) : Bool :=
  match shared.member key with
  | none => false
  | some (.json (.arr entries)) => entries.all fun entry => (entry.member (js "timestamp")).isSome
  | some value => !value.truthy

/-! ### The calls of a poll -/

structure SyncCall where
  type : ActivityType
  data : Record

/-- The first registration whose key has the id somewhere in it. -/
def originalRegistration (storage : LocalStorage) (id : JsString) : Json :=
  ((storage.registrationKeys.find? (includes · id)).bind storage.getItem).getD (.obj emptyProperty)

def registrationData (page : PollingPage) (event : RegisterEvent) (name wallet : JsValue) :
    Record :=
  match page with
  | .network => .ofFields [(js "institutionId", event.institutionId),
      (js "institutionName", name.orElse (.json (.str (js "Syndex Participant")))),
      (js "block", event.block), (js "walletAddress", wallet.orElse (.json (.str [])))]
  | .home => .ofFields [(js "institutionId", event.institutionId),
      (js "institutionName", name.orElse (.json (.str (js "Syndex Participant")))),
      (js "block", .json (.num 0))]

def submissionData (event : SubmitEvent) : Record :=
  .ofFields [(js "desc", event.schema.orElse (.json (.str (js "Pattern Update")))),
    (js "gradientHash", event.gradientHash), (js "institutionId", event.institutionId),
    (js "schema", event.schema), (js "blockNum", event.block)]

def syncRegistration (host : Host) (page : PollingPage) (storage : LocalStorage) (shared : Json)
    (event : RegisterEvent) : Option (Option SyncCall) := do
  let inShared ← listedIn shared (js "registrations") (sharesInstitution event)
  if inShared then return none
  let original := originalRegistration storage (← stringOf host event.institutionId)
  return some ⟨.register, registrationData page event (← original.member (js "institutionName"))
    (← original.member (js "walletAddress"))⟩

def syncSubmission (shared : Json) (event : SubmitEvent) : Option (Option SyncCall) := do
  let inShared ← listedIn shared (js "updates") (sharesSubmission event)
  return if inShared then none else some ⟨.submit, submissionData event⟩

/-- The calls before the first exception. -/
def untilThrow : List (Option (Option SyncCall)) → List SyncCall
  | some (some call) :: rest => call :: untilThrow rest
  | some none :: rest => untilThrow rest
  | _ => []

def syncCalls (host : Host) (page : PollingPage) (storage : LocalStorage) (shared : Json) :
    List SyncCall :=
  match storage.registrations.mapM registerEvent, storage.updates.mapM (submitEvent page) with
  | some registrations, some submissions =>
      if mergesList shared (js "registrations") && mergesList shared (js "updates") then
        untilThrow (registrations.map (syncRegistration host page storage shared) ++
          submissions.map (syncSubmission shared))
      else []
  | _, _ => []

def loadData (host : Host) : LocalStorage → Json → List SyncCall := syncCalls host .network

def loadLandingData (host : Host) : LocalStorage → Json → List SyncCall := syncCalls host .home

/-! ### Polls -/

/-- What a write finds besides its data. -/
structure WriteSetting where
  lastWrite : Option JsString
  startedAt : Int
  stampedAt : Int
  forwardedFor : Option JsString
  environment : ServerEnvironment

def SyncCall.request (call : SyncCall) (setting : WriteSetting) : StoreRequest :=
  ⟨⟨call.type, call.data, setting.lastWrite, setting.startedAt, setting.stampedAt,
    setting.forwardedFor⟩, setting.environment⟩

/-- The calls, one after the other, each in its own setting. -/
def schedule : List SyncCall → (Nat → WriteSetting) → List StoreRequest
  | [], _ => []
  | call :: rest, settings => call.request (settings 0) :: schedule rest fun index => settings (index + 1)

structure Poll where
  page : PollingPage
  settings : Nat → WriteSetting

def Poll.calls (poll : Poll) (host : Host) (storage : LocalStorage) (shared : Json) :
    List SyncCall :=
  match poll.page with
  | .network => loadData host storage shared
  | .home => loadLandingData host storage shared

def Poll.requests (poll : Poll) (host : Host) (storage : LocalStorage) (server : ServerState) :
    List StoreRequest :=
  schedule (poll.calls host storage (readSharedActivity (successfulRead server.document))) poll.settings

/-- One poll: its writes, each of which has read the current document. -/
def runPoll (host : Host) (storage : LocalStorage) (server : ServerState) (poll : Poll) :
    ServerState :=
  Runs.after (serialWrite host) server (poll.requests host storage server)

/-- Every write of a run succeeds. -/
def WritesAccepted (host : Host) : ServerState → List StoreRequest → Prop :=
  Runs.Along (serialWrite host) fun server request => accepts host server request = true

/-- Every write of every poll succeeds. -/
def PollsAccepted (host : Host) (storage : LocalStorage) : ServerState → List Poll → Prop :=
  Runs.Along (runPoll host storage) fun server poll =>
    WritesAccepted host server (poll.requests host storage server)

end MidenWorkspace.Frontend
