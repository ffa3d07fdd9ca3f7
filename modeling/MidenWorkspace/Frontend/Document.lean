import MidenWorkspace.Frontend.Entry
import MidenWorkspace.Library.Runs

/-!
Contract: what the update route guarantees of the stored document against
arbitrary callers.

Owns the well-formed document that every reader relies on, the shape of a body
that the route turns into one, the tests a request passes before it is stored, and
exactly when a run of requests keeps the document well formed.

The route checks the type of the body and the length of its lists. It does not
check that the lists are there, nor what they hold, so the shape of a stored body
is the caller's.
-/

namespace MidenWorkspace.Frontend

open MidenWorkspace.Library

/-! ### Well-formed documents -/

/-- The texts that the pages show. -/
def textKeys : List JsString := [js "desc", js "description", js "institutionName"]

/-- An object whose texts under `keys` are clean. -/
def IsCleanRecord (keys : List JsString) (entry : Json) : Prop :=
  IsRecord entry ∧ ∀ key ∈ keys, ∀ text, entry.field key = some (.str text) → IsClean text

def listLimit : ActivityType → Nat
  | .register => maxRegistrations
  | .submit => maxUpdates

def IsWellFormed (document : Json) : Prop :=
  ∀ type, ∃ entries, document.field (listKey type) = some (.arr entries) ∧
    entries.length ≤ listLimit type ∧ ∀ entry ∈ entries, IsCleanRecord textKeys entry

/-- The texts that the route stores as they come. -/
def untouchedKeys (type : ActivityType) : List JsString :=
  textKeys.filter (· ∉ sanitisedKeys type)

/-- Both lists are there, they hold objects only, and the texts that the route does
not sanitise are clean. -/
def IsWellShaped (body : Json) : Prop :=
  ∀ type, ∃ entries, body.field (listKey type) = some (.arr entries) ∧
    ∀ entry ∈ entries, IsCleanRecord (untouchedKeys type) entry

theorem sanitizeEntry_isRecord_iff (type : ActivityType) (entry : Json) :
    IsRecord (sanitizeEntry type entry) ↔ IsRecord entry := by
  cases type <;> cases entry <;> simp [IsRecord, sanitizeEntry, sanitizeRegistration, sanitizeUpdate]

/-- Sanitising takes care of its own keys and of no others. -/
theorem isCleanRecord_sanitizeEntry_iff (type : ActivityType) (entry : Json) :
    IsCleanRecord textKeys (sanitizeEntry type entry) ↔ IsCleanRecord (untouchedKeys type) entry := by
  unfold IsCleanRecord
  rw [sanitizeEntry_isRecord_iff]
  apply and_congr_right
  intro _
  constructor
  · intro clean key member text found
    obtain ⟨shown, untouched⟩ := List.mem_filter.mp member
    apply clean key shown
    rw [field_sanitizeEntry_apply, if_neg (of_decide_eq_true untouched), found]
  · intro clean key shown text found
    rw [field_sanitizeEntry_apply] at found
    by_cases sanitised : key ∈ sanitisedKeys type
    · rw [if_pos sanitised] at found
      obtain ⟨value, -, same⟩ := Option.map_eq_some_iff.mp found
      rw [← Json.str.inj same]
      exact sanitizeText_isClean value
    · rw [if_neg sanitised] at found
      exact clean key (List.mem_filter.mpr ⟨shown, decide_eq_true sanitised⟩) text found

theorem mapEntries_eq_arr_iff (sanitizeOne : Json → Json) (value : Option Json)
    (entries : List Json) :
    mapEntries sanitizeOne value = some (.arr entries) ↔
      ∃ given, value = some (.arr given) ∧ given.map sanitizeOne = entries := by
  match value with
  | some (.arr given) => simp [mapEntries]
  | none | some .null | some (.bool _) | some (.num _) | some (.str _) | some (.obj _) =>
      simp [mapEntries]

/-- A body within the limits becomes a well-formed document exactly if it is well
shaped. -/
theorem sanitizeBody_isWellFormed_iff {host : Host} {body : Json}
    (limits : exceedsLimits host body = some false) :
    IsWellFormed (sanitizeBody body) ↔ IsWellShaped body := by
  apply forall_congr'
  intro type
  rw [field_sanitizeBody_listKey]
  constructor
  · intro ⟨entries, listed, _, clean⟩
    obtain ⟨given, found, rfl⟩ := (mapEntries_eq_arr_iff _ _ _).mp listed
    refine ⟨given, found, fun entry member => ?_⟩
    exact (isCleanRecord_sanitizeEntry_iff type entry).mp (clean _ (List.mem_map_of_mem member))
  · intro ⟨given, found, clean⟩
    refine ⟨given.map (sanitizeEntry type), ?_, ?_, ?_⟩
    · rw [found, mapEntries]
    · have short := entriesOf_length_le limits type
      rw [entriesOf, found] at short
      rw [List.length_map]
      cases type <;> exact short
    · intro entry member
      obtain ⟨original, listed, rfl⟩ := List.mem_map.mp member
      exact (isCleanRecord_sanitizeEntry_iff type original).mpr (clean original listed)

/-! ### What a well-formed document is good for -/

theorem sameEntry_isSome {entry : Json} (record : IsRecord entry) (type : ActivityType)
    (data : Record) : (sameEntry type data entry).isSome := by
  cases type with
  | register => simp [sameEntry, sameInstitution, member_of_isRecord record]
  | submit => simp [sameEntry, sameSubmission, member_of_isRecord record]

/-- On a well-formed document no reader throws: every entry can be merged. -/
theorem IsWellFormed.mergeEntry_isSome {document : Json} (wellFormed : IsWellFormed document)
    (type : ActivityType) (data : Record) (now : Int) :
    (mergeEntry type data now document).isSome := by
  obtain ⟨entries, listed, -, clean⟩ := wellFormed type
  cases document with
  | obj property =>
      have searched : (findEntry (sameEntry type data) entries).isSome :=
        findEntry_isSome fun entry member => sameEntry_isSome (clean entry member).1 type data
      change property (listKey type) = some (.arr entries) at listed
      simp only [mergeEntry, listed, Option.isSome_map, searched]
  | _ => cases listed

/-! ### Requests that are stored -/

/-- A request and the server's clock, configuration and upstream when it arrives. -/
structure PostArrival where
  environment : ServerEnvironment
  request : PostRequest

def serve (host : Host) (server : ServerState) (arrival : PostArrival) : ServerState :=
  (post host arrival.environment server arrival.request).2

/-- The address that the rate limiter counts the request under. -/
def PostRequest.ip (request : PostRequest) : JsString :=
  if isSet request.forwardedFor then request.forwardedFor.getD [] else js "unknown"

/-- GitHub answers with a status of success. -/
def GithubReply.ok : GithubReply → Bool
  | .unreachable => false
  | .replied status => 200 ≤ status ∧ status < 300

/-- The request passes every test of the route with the body `payload`, and the
gist accepts it. -/
structure IsStored (host : Host) (server : ServerState) (arrival : PostArrival) (payload : Json) :
    Prop where
  unlimited : (isRateLimited server.requestLog arrival.request.ip arrival.environment.now).1 = false
  parsed : arrival.request.body = some payload
  object : payload.isObject = true
  limits : exceedsLimits host payload = some false
  configured : arrival.environment.configured = true
  accepted : arrival.environment.github.ok = true

theorem Json.truthy_of_isObject {value : Json} (object : value.isObject = true) :
    value.truthy = true := by
  cases value <;> first | rfl | cases object

theorem handleBody_of_isStored {host : Host} {server counted : ServerState} {arrival : PostArrival}
    {payload : Json} (stored : IsStored host server arrival payload) :
    (handleBody host arrival.environment counted arrival.request.body).2.document =
      sanitizeBody payload := by
  have wellTyped : (!payload.truthy || !payload.isObject) = false := by
    rw [Json.truthy_of_isObject stored.object, stored.object]
    rfl
  have accepted := stored.accepted
  simp only [handleBody, stored.parsed, wellTyped, stored.limits, stored.configured, patchGist]
  cases reply : arrival.environment.github with
  | unreachable => rw [reply] at accepted; cases accepted
  | replied status =>
      rw [reply] at accepted
      simp [of_decide_eq_true accepted]

theorem serve_of_isStored {host : Host} {server : ServerState} {arrival : PostArrival}
    {payload : Json} (stored : IsStored host server arrival payload) :
    (serve host server arrival).document = sanitizeBody payload := by
  have unlimited := stored.unlimited
  simp only [PostRequest.ip] at unlimited
  simp only [serve, post, unlimited]
  exact handleBody_of_isStored stored

/-- Nothing but a stored request is answered with plain success. -/
theorem isStored_of_success {host : Host} {server : ServerState} {arrival : PostArrival}
    (succeeded : (post host arrival.environment server arrival.request).1 = .success) :
    ∃ payload, IsStored host server arrival payload := by
  rcases post_settles host arrival.environment server arrival.request with
    ⟨refused, -⟩ | ⟨-, payload, parsed, object, limits, -⟩
  · exact absurd succeeded refused
  have wellTyped : (!payload.truthy || !payload.isObject) = false := by
    rw [Json.truthy_of_isObject object, object]
    rfl
  cases limited : (isRateLimited server.requestLog arrival.request.ip arrival.environment.now).1 with
  | true =>
      rw [PostRequest.ip] at limited
      simp [post, limited] at succeeded
  | false =>
      have handled := succeeded
      rw [PostRequest.ip] at limited
      simp only [post, limited, parsed, handleBody, wellTyped, limits] at handled
      cases configured : arrival.environment.configured with
      | false => simp [configured] at handled
      | true =>
          refine ⟨payload, limited, parsed, object, limits, configured, ?_⟩
          simp only [configured, patchGist] at handled
          cases reply : arrival.environment.github with
          | unreachable => simp [reply, internalServerError] at handled
          | replied status =>
              by_cases ok : 200 ≤ status ∧ status < 300
              · exact decide_eq_true ok
              · by_cases limitedByGist : status = 403 ∨ status = 429
                · simp [reply, ok, limitedByGist] at handled
                · simp [reply, ok, limitedByGist] at handled

theorem serve_of_not_isStored {host : Host} {server : ServerState} {arrival : PostArrival}
    (refused : ∀ payload, ¬ IsStored host server arrival payload) :
    (serve host server arrival).document = server.document := by
  rcases post_settles host arrival.environment server arrival.request with
    ⟨-, kept⟩ | ⟨succeeded, -⟩
  · exact kept
  · obtain ⟨payload, stored⟩ := isStored_of_success succeeded
    exact absurd stored (refused payload)

/-- One request keeps a well-formed document so exactly if it is not stored or is
well shaped. -/
theorem serve_isWellFormed_iff (host : Host) (server : ServerState) (arrival : PostArrival)
    (wellFormed : IsWellFormed server.document) :
    IsWellFormed (serve host server arrival).document ↔
      ∀ payload, IsStored host server arrival payload → IsWellShaped payload := by
  by_cases stores : ∃ payload, IsStored host server arrival payload
  · obtain ⟨payload, stored⟩ := stores
    rw [serve_of_isStored stored, sanitizeBody_isWellFormed_iff stored.limits]
    constructor
    · intro shaped other storedToo
      rw [← Option.some.inj (stored.parsed.symm.trans storedToo.parsed)]
      exact shaped
    · intro shaped
      exact shaped payload stored
  · have refused : ∀ payload, ¬ IsStored host server arrival payload := not_exists.mp stores
    rw [serve_of_not_isStored refused]
    exact iff_of_true wellFormed fun payload stored => absurd stored (refused payload)

/-! ### Runs of requests -/

/-- The document stays well formed through a run of requests exactly if every
request that is stored has a well-shaped body, and as long as it does no reader
throws. -/
theorem post_run_isWellFormed_iff (host : Host) (server : ServerState)
    (arrivals : List PostArrival) (wellFormed : IsWellFormed server.document) :
    ((∀ served, served <+: arrivals →
        IsWellFormed (Runs.after (serve host) server served).document) ↔
      ∀ served next, served ++ [next] <+: arrivals →
        ∀ payload, IsStored host (Runs.after (serve host) server served) next payload →
          IsWellShaped payload) ∧
    ∀ served, IsWellFormed (Runs.after (serve host) server served).document →
      ∀ type data now,
        (mergeEntry type data now (Runs.after (serve host) server served).document).isSome := by
  constructor
  · exact Runs.forall_after_iff (fun state => IsWellFormed state.document)
      (fun state next => ∀ payload, IsStored host state next payload → IsWellShaped payload)
      (serve_isWellFormed_iff host) wellFormed arrivals
  · intro served stillWellFormed type data now
    exact stillWellFormed.mergeEntry_isSome type data now

theorem defaultDocument_isWellFormed : IsWellFormed defaultDocument := by
  intro type
  refine ⟨[], ?_, Nat.zero_le _, fun entry member => absurd member List.not_mem_nil⟩
  cases type <;> rfl

theorem post_run_isWellFormed_iff_one_request :
    let host : Host := ⟨fun _ => none, fun _ _ => none⟩
    let environment : ServerEnvironment := ⟨0, some (js "gist"), none, some (js "token"), .replied 200⟩
    let arrival : PostArrival := ⟨environment, ⟨none, some defaultDocument⟩⟩
    let server : ServerState := ⟨fun _ => [], defaultDocument⟩
    IsWellFormed server.document ∧
      (post host environment server arrival.request).1 = .success ∧
      ∀ served, served <+: [arrival] →
        IsWellFormed (Runs.after (serve host) server served).document := by
  intro host environment arrival server
  refine ⟨defaultDocument_isWellFormed, by decide +kernel, ?_⟩
  apply (post_run_isWellFormed_iff host server [arrival] defaultDocument_isWellFormed).1.mpr
  intro served next within payload stored
  have same : next = arrival := List.mem_singleton.mp (within.subset (by simp))
  subst same
  rw [← Option.some.inj stored.parsed]
  intro type
  refine ⟨[], ?_, fun entry member => absurd member List.not_mem_nil⟩
  cases type <;> rfl

/-- A body without lists passes validation, is stored, and leaves a document that
nothing can be merged into. -/
theorem post_stores_body_without_lists :
    let host : Host := ⟨fun _ => none, fun _ _ => none⟩
    let environment : ServerEnvironment := ⟨0, some (js "gist"), none, some (js "token"), .replied 200⟩
    let arrival : PostArrival := ⟨environment, ⟨none, some (.obj emptyProperty)⟩⟩
    let server : ServerState := ⟨fun _ => [], defaultDocument⟩
    IsWellFormed server.document ∧
      (post host environment server arrival.request).1 = .success ∧
      ¬ IsWellFormed (serve host server arrival).document ∧
      mergeEntry .submit (fun _ => .undefined) 0 (serve host server arrival).document = none := by
  intro host environment arrival server
  refine ⟨defaultDocument_isWellFormed, by decide +kernel, ?_, rfl⟩
  intro wellFormed
  obtain ⟨entries, listed, -⟩ := wellFormed .submit
  cases listed

end MidenWorkspace.Frontend
