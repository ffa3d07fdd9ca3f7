import MidenWorkspace.Frontend.Sanitize

/-!
Contract: the two routes between the pages and the gist
(`app/api/update-gist/route.ts`, `app/api/read-gist/route.ts`).

Owns the rate limiter, validation and sanitising of a body, every exit of `POST`
with its message and status, the fallback document of `GET`, and what a `POST` can
do to the stored document.

The gist is the document it holds: a `PATCH` that GitHub accepts replaces it, any
other leaves it. The clock, the configuration and GitHub's answer are inputs.
-/

namespace MidenWorkspace.Frontend

/-! ### Rate limiting -/

def rateLimit : Nat := 10

def windowMs : Int := 60000

/-- The clock values of each address's requests; an address without any has none. -/
abbrev RequestLog := JsString → List Int

def isRateLimited (requestLog : RequestLog) (ip : JsString) (now : Int) : Bool × RequestLog :=
  let recent := (requestLog ip).filter (fun time => now - time < windowMs) ++ [now]
  (rateLimit < recent.length, Function.update requestLog ip recent)

/-! ### Sanitising a body -/

/-- `if (entry.key !== undefined) entry.key = sanitizeText(entry.key)` -/
def sanitizeProperty (key : JsString) (property : JsString → Option Json) :
    JsString → Option Json :=
  match property key with
  | none => property
  | some value => Function.update property key (some (.str (sanitizeText value)))

/-- An array is an object too, but has none of these properties. -/
def sanitizeUpdate : Json → Json
  | .obj property =>
      .obj (sanitizeProperty (js "description") (sanitizeProperty (js "desc") property))
  | update => update

def sanitizeRegistration : Json → Json
  | .obj property => .obj (sanitizeProperty (js "institutionName") property)
  | registration => registration

/-- `if (Array.isArray(body.key)) body.key = body.key.map(sanitizeEntry)` -/
def sanitizeList (key : JsString) (sanitizeEntry : Json → Json)
    (property : JsString → Option Json) :
    JsString → Option Json :=
  match property key with
  | some (.arr entries) => Function.update property key (some (.arr (entries.map sanitizeEntry)))
  | _ => property

def sanitizeBody : Json → Json
  | .obj property =>
      .obj (sanitizeList (js "registrations") sanitizeRegistration
        (sanitizeList (js "updates") sanitizeUpdate property))
  | body => body

/-! ### `POST` -/

def maxUpdates : Nat := 500

def maxRegistrations : Nat := 500

/-- `list?.length > limit`; `none` if the comparison throws. -/
def lengthExceeds (host : Host) (list : Option Json) (limit : Nat) : Option Bool :=
  match list with
  | some (.arr entries) => some (limit < entries.length)
  | some (.str text) => some (limit < text.length)
  | some (.obj property) =>
      match property (js "length") with
      | none => some false
      | some (.num length) => some ((limit : Rat) < length)
      | some length => host.exceeds length limit
  | _ => some false

def Json.field (value : Json) (key : JsString) : Option Json :=
  match value with
  | .obj property => property key
  | _ => none

def Json.isObject : Json → Bool
  | .arr _ | .obj _ => true
  | _ => false

/-- The payload has too many updates or too many registrations. -/
def exceedsLimits (host : Host) (body : Json) : Option Bool :=
  match lengthExceeds host (body.field (js "updates")) maxUpdates with
  | some false => lengthExceeds host (body.field (js "registrations")) maxRegistrations
  | decided => decided

inductive GithubReply where
  | unreachable
  | replied (status : Nat)
deriving DecidableEq, Repr

structure ServerEnvironment where
  now : Int
  gistId : Option JsString
  publicGistId : Option JsString
  githubToken : Option JsString
  github : GithubReply

/-- The text is there and not empty. -/
def isSet (text : Option JsString) : Bool := text.any (· ≠ [])

def ServerEnvironment.configured (environment : ServerEnvironment) : Bool :=
  (isSet environment.gistId || isSet environment.publicGistId) && isSet environment.githubToken

structure PostRequest where
  forwardedFor : Option JsString
  /-- `none` if the body is no JSON -/
  body : Option Json

structure ServerState where
  requestLog : RequestLog
  document : Json

inductive PostResponse where
  | success
  /-- status 200 with `rateLimited: true` -/
  | rateLimited
  | failure (error : String) (status : Nat)
deriving DecidableEq, Repr

def internalServerError : PostResponse := .failure "Internal server error" 500

/-- The gist request and its answer. -/
def patchGist (environment : ServerEnvironment) (server : ServerState) (content : Json) :
    PostResponse × ServerState :=
  match environment.github with
  | .unreachable => (internalServerError, server)
  | .replied status =>
      if 200 ≤ status ∧ status < 300 then (.success, { server with document := content })
      else if status = 403 ∨ status = 429 then (.rateLimited, server)
      else (.failure "Gist update failed" 500, server)

/-- What follows once the request has passed the rate limiter. -/
def handleBody (host : Host) (environment : ServerEnvironment) (server : ServerState)
    (body : Option Json) : PostResponse × ServerState :=
  match body with
  | none => (internalServerError, server)
  | some body =>
      if !body.truthy || !body.isObject then (.failure "Invalid payload" 400, server)
      else
        match exceedsLimits host body with
        | none => (internalServerError, server)
        | some true => (.failure "Payload exceeds maximum size" 400, server)
        | some false =>
            if environment.configured then patchGist environment server (sanitizeBody body)
            else (.failure "Server configuration missing GIST_ID or GITHUB_TOKEN" 500, server)

def post (host : Host) (environment : ServerEnvironment) (server : ServerState)
    (request : PostRequest) : PostResponse × ServerState :=
  let ip := if isSet request.forwardedFor then request.forwardedFor.getD [] else js "unknown"
  let (limited, requestLog) := isRateLimited server.requestLog ip environment.now
  let counted := { server with requestLog }
  if limited then (.failure "Rate limit exceeded" 429, counted)
  else handleBody host environment counted request.body

/-! ### `GET` -/

/-- The outcome of a `fetch` for a JSON document. -/
inductive Fetched where
  | rejected
  | replied (ok : Bool) (body : Option Json)

def emptyProperty : JsString → Option Json := fun _ => none

/-- `{ participants: 0, updates: [], registrations: [] }` -/
def defaultDocument : Json :=
  .obj (Function.update (Function.update (Function.update emptyProperty
    (js "participants") (some (.num 0)))
    (js "updates") (some (.arr [])))
    (js "registrations") (some (.arr [])))

/-- The route answers 200 with the default document where it catches. The status
of the upstream reply is not looked at. -/
def get (upstream : Fetched) : Json :=
  match upstream with
  | .replied _ (some data) => data
  | _ => defaultDocument

/-! ### What a `POST` does to the document -/

/-- A request is refused and leaves `document` as it was, or succeeds and stores
its sanitised body. -/
def Settles (host : Host) (document : Json) (body : Option Json) :
    PostResponse × ServerState → Prop
  | (response, server) =>
      (response ≠ .success ∧ server.document = document) ∨
      (response = .success ∧ ∃ payload, body = some payload ∧ payload.isObject = true ∧
        exceedsLimits host payload = some false ∧ server.document = sanitizeBody payload)

theorem patchGist_settles {host : Host} (environment : ServerEnvironment) (server : ServerState)
    {payload : Json} (object : payload.isObject = true)
    (limits : exceedsLimits host payload = some false) :
    Settles host server.document (some payload)
      (patchGist environment server (sanitizeBody payload)) := by
  unfold patchGist
  cases environment.github with
  | unreachable => exact .inl ⟨by simp [internalServerError], rfl⟩
  | replied status =>
      dsimp only
      split_ifs
      · exact .inr ⟨rfl, payload, rfl, object, limits, rfl⟩
      · exact .inl ⟨by simp, rfl⟩
      · exact .inl ⟨by simp, rfl⟩

theorem handleBody_settles (host : Host) (environment : ServerEnvironment) (server : ServerState)
    (body : Option Json) :
    Settles host server.document body (handleBody host environment server body) := by
  cases body with
  | none => exact .inl ⟨by simp [internalServerError], rfl⟩
  | some payload =>
      simp only [handleBody]
      by_cases malformed : (!payload.truthy || !payload.isObject) = true
      · rw [if_pos malformed]
        exact .inl ⟨by simp, rfl⟩
      have object : payload.isObject = true := by
        cases shape : payload.isObject with
        | true => rfl
        | false => simp [shape] at malformed
      rw [if_neg malformed]
      cases limits : exceedsLimits host payload with
      | none => exact .inl ⟨by simp [internalServerError], rfl⟩
      | some exceeded =>
          cases exceeded with
          | true => exact .inl ⟨by simp, rfl⟩
          | false =>
              dsimp only
              split_ifs
              · exact patchGist_settles environment server object limits
              · exact .inl ⟨by simp, rfl⟩

theorem post_settles (host : Host) (environment : ServerEnvironment) (server : ServerState)
    (request : PostRequest) :
    Settles host server.document request.body (post host environment server request) := by
  simp only [post]
  generalize isRateLimited server.requestLog _ environment.now = counted
  by_cases limited : counted.1 = true
  · rw [if_pos limited]
    exact .inl ⟨by simp, rfl⟩
  · rw [if_neg limited]
    exact handleBody_settles host environment { server with requestLog := counted.2 } request.body

theorem sanitizeProperty_apply (key : JsString) (property : JsString → Option Json)
    (other : JsString) :
    sanitizeProperty key property other =
      if other = key then (property key).map fun value => .str (sanitizeText value)
      else property other := by
  unfold sanitizeProperty
  by_cases same : other = key
  · subst same
    cases found : property other with
    | none => simp [found]
    | some value => simp
  · cases property key with
    | none => simp [same]
    | some value => simp [same]

/-- The server leaves alone what it has sanitised before. -/
theorem sanitizeUpdate_idempotent (update : Json) :
    sanitizeUpdate (sanitizeUpdate update) = sanitizeUpdate update := by
  cases update with
  | obj property =>
      refine congrArg Json.obj (funext fun key => ?_)
      have distinct : js "desc" ≠ js "description" := by decide
      by_cases description : key = js "description"
      · simp [sanitizeProperty_apply, description, distinct.symm, Function.comp_def,
          sanitizeText_idempotent]
      · by_cases desc : key = js "desc"
        · simp [sanitizeProperty_apply, desc, distinct, Function.comp_def, sanitizeText_idempotent]
        · simp [sanitizeProperty_apply, description, desc]
  | _ => rfl

theorem sanitizeRegistration_idempotent (registration : Json) :
    sanitizeRegistration (sanitizeRegistration registration) = sanitizeRegistration registration := by
  cases registration with
  | obj property =>
      refine congrArg Json.obj (funext fun key => ?_)
      by_cases name : key = js "institutionName"
      · simp [sanitizeProperty_apply, name, Function.comp_def, sanitizeText_idempotent]
      · simp [sanitizeProperty_apply, name]
  | _ => rfl

end MidenWorkspace.Frontend
