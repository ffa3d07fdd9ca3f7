import MidenWorkspace.Frontend.SharedStore

/-!
Contract: what one write makes of the shared document.

Owns the two lists of a document, what sanitising and pushing do to them and to
the other fields, and the case analysis of a write: it leaves the document, or
stores the sanitised merge of what the client read.
-/

namespace MidenWorkspace.Frontend

/-! ### The lists of a document -/

def entriesOf (type : ActivityType) (document : Json) : List Json :=
  match document.field (listKey type) with
  | some (.arr entries) => entries
  | _ => []

def sanitizeEntry : ActivityType → Json → Json
  | .register => sanitizeRegistration
  | .submit => sanitizeUpdate

/-- The entry of a call, as the server stores it. -/
def storedEntry (type : ActivityType) (data : Record) (now : Int) : Json :=
  sanitizeEntry type (stampedEntry data now)

def ActivityType.other : ActivityType → ActivityType
  | .register => .submit
  | .submit => .register

theorem listKey_ne_other (type : ActivityType) : listKey type ≠ listKey type.other := by
  cases type <;> decide

theorem participants_ne_listKey (type : ActivityType) : js "participants" ≠ listKey type := by
  cases type <;> decide

theorem ActivityType.eq_or_eq_other (type other : ActivityType) :
    other = type ∨ other = type.other := by
  cases type <;> cases other <;> decide

theorem sanitizeEntry_idempotent (type : ActivityType) (entry : Json) :
    sanitizeEntry type (sanitizeEntry type entry) = sanitizeEntry type entry := by
  cases type with
  | register => exact sanitizeRegistration_idempotent entry
  | submit => exact sanitizeUpdate_idempotent entry

/-- The texts that the route sanitises. -/
def sanitisedKeys : ActivityType → List JsString
  | .register => [js "institutionName"]
  | .submit => [js "desc", js "description"]

theorem field_sanitizeEntry_apply (type : ActivityType) (entry : Json) (key : JsString) :
    (sanitizeEntry type entry).field key =
      if key ∈ sanitisedKeys type then (entry.field key).map fun value => .str (sanitizeText value)
      else entry.field key := by
  have distinct : js "desc" ≠ js "description" := by decide
  cases entry with
  | obj property =>
      cases type with
      | register =>
          by_cases name : key = js "institutionName"
          · simp [sanitizeEntry, sanitizeRegistration, Json.field, sanitizeProperty_apply,
              sanitisedKeys, name]
          · simp [sanitizeEntry, sanitizeRegistration, Json.field, sanitizeProperty_apply,
              sanitisedKeys, name]
      | submit =>
          by_cases desc : key = js "desc"
          · simp [sanitizeEntry, sanitizeUpdate, Json.field, sanitizeProperty_apply,
              sanitisedKeys, desc, distinct]
          by_cases description : key = js "description"
          · simp [sanitizeEntry, sanitizeUpdate, Json.field, sanitizeProperty_apply,
              sanitisedKeys, description, distinct.symm]
          · simp [sanitizeEntry, sanitizeUpdate, Json.field, sanitizeProperty_apply,
              sanitisedKeys, desc, description]
  | _ => cases type <;> simp [sanitizeEntry, sanitizeRegistration, sanitizeUpdate, Json.field]

/-! ### Sanitising a document -/

/-- What becomes of one property whose value may be a list. -/
def mapEntries (sanitizeOne : Json → Json) : Option Json → Option Json
  | some (.arr entries) => some (.arr (entries.map sanitizeOne))
  | value => value

theorem sanitizeList_apply (key : JsString) (sanitizeOne : Json → Json)
    (property : JsString → Option Json) (other : JsString) :
    sanitizeList key sanitizeOne property other =
      if other = key then mapEntries sanitizeOne (property key) else property other := by
  unfold sanitizeList
  by_cases same : other = key
  · subst same
    cases found : property other with
    | none => simp [found, mapEntries]
    | some value => cases value <;> simp [found, mapEntries]
  · cases property key with
    | none => simp [same]
    | some value => cases value <;> simp [same]

theorem field_sanitizeBody_listKey (type : ActivityType) (document : Json) :
    (sanitizeBody document).field (listKey type) =
      mapEntries (sanitizeEntry type) (document.field (listKey type)) := by
  have distinct : js "updates" ≠ js "registrations" := by decide
  cases document with
  | obj property =>
      cases type with
      | register =>
          simp only [sanitizeBody, Json.field, listKey, sanitizeEntry, sanitizeList_apply, if_true,
            if_neg distinct.symm]
      | submit =>
          simp only [sanitizeBody, Json.field, listKey, sanitizeEntry, sanitizeList_apply, if_true,
            if_neg distinct]
  | _ => rfl

theorem field_sanitizeBody_of_ne {key : JsString} (document : Json)
    (different : ∀ type, key ≠ listKey type) :
    (sanitizeBody document).field key = document.field key := by
  have registrations : key ≠ js "registrations" := different .register
  have updates : key ≠ js "updates" := different .submit
  cases document with
  | obj property =>
      simp only [sanitizeBody, Json.field, sanitizeList_apply, if_neg registrations, if_neg updates]
  | _ => rfl

theorem entriesOf_sanitizeBody (type : ActivityType) (document : Json) :
    entriesOf type (sanitizeBody document) = (entriesOf type document).map (sanitizeEntry type) := by
  rw [entriesOf, entriesOf, field_sanitizeBody_listKey]
  cases document.field (listKey type) with
  | none => rfl
  | some value => cases value <;> rfl

/-- A document whose entries the server has sanitised before stays as it is. -/
theorem sanitizeBody_eq_self {document : Json}
    (sanitised : ∀ type, ∀ entry ∈ entriesOf type document, sanitizeEntry type entry = entry) :
    sanitizeBody document = document := by
  cases document with
  | obj property =>
      refine congrArg Json.obj (funext fun key => ?_)
      have field : ∀ type, mapEntries (sanitizeEntry type) (property (listKey type)) =
          property (listKey type) := by
        intro type
        have fixed := sanitised type
        rw [entriesOf, Json.field] at fixed
        match found : property (listKey type), fixed with
        | none, _ | some .null, _ | some (.bool _), _ | some (.num _), _ | some (.str _), _
        | some (.obj _), _ => rfl
        | some (.arr entries), fixed =>
            rw [mapEntries, List.map_congr_left fixed, List.map_id']
      by_cases listed : ∃ type, key = listKey type
      · obtain ⟨type, rfl⟩ := listed
        exact (field_sanitizeBody_listKey type (.obj property)).trans (field type)
      · exact field_sanitizeBody_of_ne (.obj property) fun type same => listed ⟨type, same⟩
  | _ => rfl

/-! ### Pushing an entry -/

section Push

variable (type : ActivityType) (property : JsString → Option Json) (entries : List Json) (entry : Json)

theorem field_pushEntry_listKey :
    pushEntry type property entries entry (listKey type) = some (.arr (entries ++ [entry])) := by
  cases type with
  | register =>
      rw [pushEntry, Function.update_of_ne (participants_ne_listKey .register).symm,
        Function.update_self]
  | submit => rw [pushEntry, Function.update_self]

theorem field_pushEntry_of_ne {key : JsString} (notList : key ≠ listKey type)
    (notCount : key ≠ js "participants") :
    pushEntry type property entries entry key = property key := by
  cases type with
  | register => rw [pushEntry, Function.update_of_ne notCount, Function.update_of_ne notList]
  | submit => rw [pushEntry, Function.update_of_ne notList]

theorem entriesOf_pushEntry :
    entriesOf type (.obj (pushEntry type property entries entry)) = entries ++ [entry] := by
  rw [entriesOf, Json.field, field_pushEntry_listKey]

theorem entriesOf_other_pushEntry :
    entriesOf type.other (.obj (pushEntry type property entries entry)) =
      entriesOf type.other (.obj property) := by
  rw [entriesOf, entriesOf, Json.field, Json.field, field_pushEntry_of_ne type property entries entry
    (listKey_ne_other type).symm (participants_ne_listKey type.other).symm]

end Push

/-! ### Searching -/

theorem findEntry_some {test : Json → Option Bool} {entries : List Json} {entry : Json}
    (searched : findEntry test entries = some (some entry)) :
    entry ∈ entries ∧ test entry = some true := by
  induction entries with
  | nil => cases searched
  | cons first rest inductionHypothesis =>
      unfold findEntry at searched
      cases outcome : test first with
      | none => simp [outcome] at searched
      | some passes =>
          cases passes with
          | true =>
              simp only [outcome, Option.some.injEq] at searched
              exact searched ▸ ⟨List.mem_cons_self, outcome⟩
          | false =>
              simp only [outcome] at searched
              obtain ⟨member, passed⟩ := inductionHypothesis searched
              exact ⟨List.mem_cons_of_mem first member, passed⟩

theorem findEntry_isSome {test : Json → Option Bool} {entries : List Json}
    (defined : ∀ entry ∈ entries, (test entry).isSome) : (findEntry test entries).isSome := by
  induction entries with
  | nil => rfl
  | cons entry rest inductionHypothesis =>
      have later := inductionHypothesis fun other member => defined other (List.mem_cons_of_mem _ member)
      obtain ⟨outcome, tested⟩ := Option.isSome_iff_exists.mp (defined entry List.mem_cons_self)
      cases outcome with
      | true => simp [findEntry, tested]
      | false => simpa [findEntry, tested] using later

/-! ### Merging -/

/-- The merge keeps what was read, or pushes one entry that the duplicate test has
not found. -/
theorem mergeEntry_cases {type : ActivityType} {data : Record} {now : Int} {current body : Json}
    (merged : mergeEntry type data now current = some body) :
    ∃ property entries found, current = .obj property ∧
      property (listKey type) = some (.arr entries) ∧
      findEntry (sameEntry type data) entries = some found ∧
      ((found.any Json.truthy = true ∧ body = current) ∨
        (found.any Json.truthy = false ∧
          body = .obj (pushEntry type property entries (stampedEntry data now)))) := by
  unfold mergeEntry at merged
  split at merged
  case h_2 => cases merged
  case h_1 property =>
    split at merged
    case h_2 => cases merged
    case h_1 entries listed =>
      obtain ⟨found, searched, rfl⟩ := Option.map_eq_some_iff.mp merged
      refine ⟨property, entries, found, rfl, listed, searched, ?_⟩
      by_cases duplicate : found.any Json.truthy = true
      · exact .inl ⟨duplicate, if_pos duplicate⟩
      · exact .inr ⟨Bool.eq_false_iff.mpr duplicate, if_neg duplicate⟩

/-- Every entry of `earlier` is in `later`, as the route stores it. -/
def Survives (earlier later : Json) : Prop :=
  ∀ type, ∀ entry ∈ entriesOf type earlier, sanitizeEntry type entry ∈ entriesOf type later

/-- A merge drops nothing that was read. -/
theorem survives_of_merge {type : ActivityType} {data : Record} {now : Int}
    {document payload : Json}
    (merged : mergeEntry type data now document = some payload) :
    Survives document (sanitizeBody payload) := by
  obtain ⟨property, entries, found, rfl, listed, -, outcome⟩ := mergeEntry_cases merged
  intro other entry member
  rw [entriesOf_sanitizeBody]
  apply List.mem_map_of_mem
  rcases outcome with ⟨-, rfl⟩ | ⟨-, rfl⟩
  · exact member
  · rcases ActivityType.eq_or_eq_other type other with rfl | rfl
    · rw [entriesOf_pushEntry]
      rw [entriesOf, Json.field, listed] at member
      exact List.mem_append_left _ member
    · rw [entriesOf_other_pushEntry]
      exact member

/-! ### Writing -/

/-- A posted body has passed the cooldown, the sanitiser and the merge. -/
theorem postedBody_eq_some {host : Host} {call : WriteCall} {current payload : Json}
    (posted : postedBody host call current = some payload) :
    ∃ data, sanitizeData host call.data = some data ∧
      mergeEntry call.type data call.stampedAt current = some payload := by
  unfold postedBody at posted
  split at posted
  · cases posted
  · exact Option.bind_eq_some_iff.mp posted

theorem entriesOf_length_le {host : Host} {body : Json}
    (limits : exceedsLimits host body = some false)
    (type : ActivityType) : (entriesOf type body).length ≤ 500 := by
  have within : ∀ list : Option Json, lengthExceeds host list 500 = some false →
      (match list with | some (.arr entries) => entries | _ => []).length ≤ 500 := by
    intro list short
    match list with
    | some (.arr entries) => simpa [lengthExceeds] using short
    | none | some .null | some (.bool _) | some (.num _) | some (.str _) | some (.obj _) =>
        exact Nat.zero_le 500
  unfold exceedsLimits at limits
  cases updates : lengthExceeds host (body.field (js "updates")) maxUpdates with
  | none => simp [updates] at limits
  | some exceeded =>
      cases exceeded with
      | true => simp [updates] at limits
      | false =>
          rw [updates] at limits
          cases type with
          | register => exact within _ limits
          | submit => exact within _ updates

theorem sendBody_cases (host : Host) (environment : ServerEnvironment) (server : ServerState)
    (call : WriteCall) (body : Option Json) :
    ((sendBody host environment server call body).wrote = false ∧
      (sendBody host environment server call body).server.document = server.document) ∨
    ((sendBody host environment server call body).wrote = true ∧
      ∃ payload, body = some payload ∧ exceedsLimits host payload = some false ∧
        (sendBody host environment server call body).server.document = sanitizeBody payload) := by
  cases body with
  | none => exact .inl ⟨rfl, rfl⟩
  | some payload =>
      simp only [sendBody]
      rcases post_settles host environment server ⟨call.forwardedFor, some payload⟩ with
        ⟨refused, kept⟩ | ⟨accepted, stored, same, -, limits, written⟩
      · exact .inl ⟨decide_eq_false refused, kept⟩
      · obtain rfl := Option.some.inj same
        exact .inr ⟨decide_eq_true accepted, payload, rfl, limits, written⟩

end MidenWorkspace.Frontend
