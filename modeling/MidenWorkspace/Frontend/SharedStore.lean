import MidenWorkspace.Frontend.GistRoutes

/-!
Contract: the client side of the shared activity document (`lib/shared-store.ts`).

Owns `readSharedActivity`, the cooldown, the sanitising of a call's data, the
duplicate test, the merge of one entry into the document that was read, and
`writeSharedActivity` as a whole; and what one accepted write makes of a document.

A call carries what it finds in its browser and on its clock. Outside a browser
there is no cooldown, as with a browser that has not written yet. A merge that
throws posts nothing.
-/

namespace MidenWorkspace.Frontend

/-! ### Reading -/

def readSharedActivity (route : Fetched) : Json :=
  match route with
  | .replied true (some data) => data
  | _ => defaultDocument

/-! ### One call -/

inductive ActivityType where
  | register
  | submit
deriving DecidableEq, Repr

structure WriteCall where
  type : ActivityType
  data : Record
  /-- `syndex_gist_last_write` in `localStorage` -/
  lastWrite : Option JsString
  /-- `Date.now()` at the cooldown test -/
  startedAt : Int
  /-- `Date.now()` where an entry without a time is stamped -/
  stampedAt : Int
  forwardedFor : Option JsString

def cooldownActive (call : WriteCall) : Bool :=
  match call.lastWrite with
  | none | some [] => false
  | some text =>
      match parseInt text with
      | .nan => false
      | .infinity negative => !negative
      | .finite time => call.startedAt - time < 60000

/-- `if (data.key !== undefined) data.key = sanitize(data.key)` -/
def sanitizeField (key : JsString) (data : Record) : Record :=
  match data key with
  | .undefined => data
  | value => Function.update data key (.json (.str (sanitize value)))

/-- `String(value)` -/
def stringOf (host : Host) : JsValue → Option JsString
  | .json (.str text) => some text
  | value => host.text value

/-- What becomes of `institutionId`; `none` if `String` throws. -/
def parseInstitutionId (host : Host) (value : JsValue) : Option JsValue :=
  match value with
  | .undefined => some .undefined
  | value =>
      (stringOf host value).map fun text =>
        match parseInt10 text with
        | .nan => .json (.num 0)
        | parsed => parsed.toValue

def sanitizeData (host : Host) (data : Record) : Option Record :=
  let texts := sanitizeField (js "gradientHash") (sanitizeField (js "institutionName")
    (sanitizeField (js "desc") (sanitizeField (js "schema") data)))
  (parseInstitutionId host (texts (js "institutionId"))).map fun id =>
    Function.update texts (js "institutionId") id

/-- `{ ...data, timestamp: data.timestamp || Date.now() }`, as it is posted. -/
def stampedEntry (data : Record) (now : Int) : Json :=
  let timestamp := data (js "timestamp")
  let stamped := if timestamp.truthy then timestamp else .json (.num now)
  .obj fun key => (Function.update data (js "timestamp") stamped key).toJson

/-! ### The duplicate test -/

/-- `entries.find(test)`; `none` if the test throws before an entry passes it. -/
def findEntry (test : Json → Option Bool) : List Json → Option (Option Json)
  | [] => some none
  | entry :: rest =>
      match test entry with
      | none => none
      | some true => some (some entry)
      | some false => findEntry test rest

/-- `r.institutionId === data.institutionId` -/
def sameInstitution (data : Record) (registration : Json) : Option Bool :=
  (registration.member (js "institutionId")).map (·.strictEquals (data (js "institutionId")))

/-- The same `gradientHash` or the same `txId`, if the entry has one. -/
def sameSubmission (data : Record) (update : Json) : Option Bool := do
  let gradientHash ← update.member (js "gradientHash")
  let txId ← update.member (js "txId")
  return (gradientHash.truthy && gradientHash.strictEquals (data (js "gradientHash"))) ||
    (txId.truthy && txId.strictEquals (data (js "txId")))

def listKey : ActivityType → JsString
  | .register => js "registrations"
  | .submit => js "updates"

def sameEntry : ActivityType → Record → Json → Option Bool
  | .register => sameInstitution
  | .submit => sameSubmission

/-! ### Merging and writing -/

/-- The properties after an entry has been pushed; only a registration touches
`participants`. -/
def pushEntry (type : ActivityType) (property : JsString → Option Json) (entries : List Json)
    (entry : Json) : JsString → Option Json :=
  let pushed := Function.update property (listKey type) (some (.arr (entries ++ [entry])))
  match type with
  | .register =>
      Function.update pushed (js "participants") (some (.num ((entries ++ [entry]).length : Nat)))
  | .submit => pushed

/-- The document to post; `none` if the merge throws. -/
def mergeEntry (type : ActivityType) (data : Record) (now : Int) (current : Json) : Option Json :=
  match current with
  | .obj property =>
      match property (listKey type) with
      | some (.arr entries) =>
          (findEntry (sameEntry type data) entries).map fun found =>
            if found.any Json.truthy then current
            else .obj (pushEntry type property entries (stampedEntry data now))
      | _ => none
  | _ => none

/-- The body that a call posts after it has read `current`, if it posts one. -/
def postedBody (host : Host) (call : WriteCall) (current : Json) : Option Json :=
  if cooldownActive call then none
  else do
    let data ← sanitizeData host call.data
    mergeEntry call.type data call.stampedAt current

structure WriteOutcome where
  server : ServerState
  /-- The cooldown of this browser starts again. -/
  wrote : Bool

def sendBody (host : Host) (environment : ServerEnvironment) (server : ServerState)
    (call : WriteCall) (body : Option Json) : WriteOutcome :=
  match body with
  | none => ⟨server, false⟩
  | some body =>
      let (response, after) := post host environment server ⟨call.forwardedFor, some body⟩
      ⟨after, response = .success⟩

def writeSharedActivity (host : Host) (environment : ServerEnvironment) (server : ServerState)
    (call : WriteCall) (read : Fetched) : WriteOutcome :=
  sendBody host environment server call (postedBody host call (readSharedActivity read))

/-- A read through which both fetches return the stored document. -/
def successfulRead (document : Json) : Fetched :=
  .replied true (some (get (.replied true (some document))))

/-- A call, and the server's clock, configuration and upstream while it runs. -/
structure StoreRequest where
  call : WriteCall
  environment : ServerEnvironment

end MidenWorkspace.Frontend
