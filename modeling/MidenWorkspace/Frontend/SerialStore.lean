import MidenWorkspace.Frontend.Entry
import MidenWorkspace.Library.Runs

/-!
Contract: the shared document under writes that do not overlap.

Owns the invariant of the document (both lists short, their entries sanitised and
pairwise different by key), that a write which has read the current document keeps
it, and the run of any number of such writes: each leaves the document alone or
appends one entry to it.

The server sanitises the whole document again on every write. Entries that it has
sanitised before are fixed points, so only the new entry is changed by it.
-/

namespace MidenWorkspace.Frontend

open MidenWorkspace.Library.Runs

/-- The id does not overflow to an infinity, and `txId` is a string if it is
there. -/
structure Admissible (host : Host) (call : WriteCall) : Prop where
  finite_id : ∀ negative,
    parseInstitutionId host (call.data (js "institutionId")) ≠ some (.infinity negative)
  text_txId : IsText (call.data (js "txId"))

/-! ### What the duplicate test has ruled out -/

/-- No record passes a test whose `find` returned nothing truthy. -/
theorem findEntry_all_false {test : Json → Option Bool} {entries : List Json} {found : Option Json}
    (records : ∀ entry ∈ entries, IsRecord entry) (searched : findEntry test entries = some found)
    (absent : found.any Json.truthy = false) : ∀ entry ∈ entries, test entry = some false := by
  induction entries with
  | nil => simp
  | cons first rest inductionHypothesis =>
      unfold findEntry at searched
      cases outcome : test first with
      | none => simp [outcome] at searched
      | some passes =>
          cases passes with
          | true =>
              -- a record that passes would have been found, and records are truthy
              simp only [outcome, Option.some.injEq] at searched
              obtain ⟨property, rfl⟩ := records first List.mem_cons_self
              rw [← searched] at absent
              simp [Json.truthy] at absent
          | false =>
              simp only [outcome] at searched
              intro entry member
              rcases List.mem_cons.mp member with rfl | later
              · exact outcome
              · exact inductionHypothesis (fun entry member => records entry
                  (List.mem_cons_of_mem first member)) searched entry later

/-- The two entries have the same truthy value under `key`. -/
def ShareKey (key : JsString) (first second : Json) : Prop :=
  ∃ value : Json, value.truthy = true ∧ first.field key = some value ∧ second.field key = some value

theorem institutionId_ne {data : Record} {registration : Json} (record : IsRecord registration)
    (id : data (js "institutionId") = .undefined ∨
      ∃ number, data (js "institutionId") = .json (.num number))
    (tested : sameInstitution data registration = some false) :
    registration.field (js "institutionId") ≠ (data (js "institutionId")).toJson := by
  intro same
  rw [sameInstitution, member_of_isRecord record, same] at tested
  rcases id with absent | ⟨number, present⟩
  · simp [absent, JsValue.toJson, JsValue.strictEquals] at tested
  · simp [present, JsValue.toJson, JsValue.strictEquals, Json.strictEquals] at tested

/-- A text that both entries have under one of the keys would have passed the test. -/
theorem not_shareKey_of_sameSubmission {data : Record} {update entry : Json} {key : JsString}
    (record : IsRecord update) (keyed : key = js "gradientHash" ∨ key = js "txId")
    (text : IsText (data key)) (stored : entry.field key = (data key).toJson)
    (tested : sameSubmission data update = some false) : ¬ ShareKey key update entry := by
  rintro ⟨value, truthy, old, new⟩
  have given : data key = .json value ∧ JsValue.strictEquals (.json value) (.json value) = true := by
    rcases text with absent | ⟨text, present⟩
    · rw [stored, absent] at new
      cases new
    · rw [stored, present] at new
      obtain rfl := Option.some.inj new
      exact ⟨present, by simp [JsValue.strictEquals, Json.strictEquals]⟩
  rw [sameSubmission, member_of_isRecord record, member_of_isRecord record] at tested
  rcases keyed with rfl | rfl
  · simp [old, given, JsValue.truthy, truthy] at tested
  · simp [old, given, JsValue.truthy, truthy] at tested

/-! ### The invariant of the document -/

/-- The keys by which two entries of a list differ: registrations by
`institutionId`, also by having one; updates by every hash and every transaction
that they name. -/
def Differ : ActivityType → Json → Json → Prop
  | .register => fun first second => first.field (js "institutionId") ≠ second.field (js "institutionId")
  | .submit => fun first second =>
      ¬ ShareKey (js "gradientHash") first second ∧ ¬ ShareKey (js "txId") first second

/-- Both lists are there, and hold records as the server leaves them. -/
structure IsSanitised (document : Json) : Prop where
  listed : ∀ type, ∃ entries, document.field (listKey type) = some (.arr entries)
  records : ∀ type, ∀ entry ∈ entriesOf type document, IsRecord entry
  sanitised : ∀ type, ∀ entry ∈ entriesOf type document, sanitizeEntry type entry = entry

structure StoreInvariant (document : Json) : Prop extends IsSanitised document where
  differ : ∀ type, (entriesOf type document).Pairwise (Differ type)
  short : ∀ type, (entriesOf type document).length ≤ 500

/-- `participants` is the number of registrations. -/
def CountsParticipants (document : Json) : Prop :=
  document.field (js "participants") = some (.num ((entriesOf .register document).length : Nat))

/-- A registration writes the new number of registrations. -/
def participantsAfter (type : ActivityType) (earlier later : Json) : Option Json :=
  match type with
  | .register => some (.num ((entriesOf .register later).length : Nat))
  | .submit => earlier.field (js "participants")

/-- `later` is `earlier` with `entry` at the end of one list; every other field,
and every earlier entry, is the same. -/
structure Pushed (type : ActivityType) (earlier later entry : Json) : Prop where
  own : entriesOf type later = entriesOf type earlier ++ [entry]
  fields : ∀ key, key ≠ listKey type → key ≠ js "participants" → later.field key = earlier.field key
  count : later.field (js "participants") = participantsAfter type earlier later

theorem Pushed.mem {type : ActivityType} {earlier later entry : Json}
    (pushed : Pushed type earlier later entry) : entry ∈ entriesOf type later := by
  rw [pushed.own]
  exact List.mem_append_right _ List.mem_cons_self

theorem Pushed.other {type : ActivityType} {earlier later entry : Json}
    (pushed : Pushed type earlier later entry) :
    entriesOf type.other later = entriesOf type.other earlier := by
  have same := pushed.fields (listKey type.other) (listKey_ne_other type).symm
    (participants_ne_listKey type.other).symm
  rw [entriesOf, entriesOf, same]

theorem pushed_of_pushEntry {type : ActivityType} {property : JsString → Option Json}
    {entries : List Json} (entry : Json) (listed : property (listKey type) = some (.arr entries))
    (sanitised : ∀ type, ∀ entry ∈ entriesOf type (.obj property), sanitizeEntry type entry = entry) :
    Pushed type (.obj property) (sanitizeBody (.obj (pushEntry type property entries entry)))
      (sanitizeEntry type entry) := by
  have before : entriesOf type (.obj property) = entries := by
    rw [entriesOf, Json.field, listed]
  have own : entriesOf type (sanitizeBody (.obj (pushEntry type property entries entry))) =
      entriesOf type (.obj property) ++ [sanitizeEntry type entry] := by
    have fixed := sanitised type
    rw [before] at fixed
    rw [entriesOf_sanitizeBody, entriesOf_pushEntry, List.map_append, List.map_congr_left fixed,
      List.map_id', before]
    rfl
  refine ⟨own, ?_, ?_⟩
  · intro key notList notCount
    have unpushed : Json.field (.obj (pushEntry type property entries entry)) key = property key :=
      field_pushEntry_of_ne type property entries entry notList notCount
    -- the unsanitised document would have kept the field as well
    have kept : (sanitizeBody (.obj property)).field key = property key := by
      rw [sanitizeBody_eq_self sanitised]
      rfl
    by_cases listed : ∃ other, key = listKey other
    · obtain ⟨other, rfl⟩ := listed
      rw [field_sanitizeBody_listKey] at kept ⊢
      rw [unpushed]
      exact kept
    · rw [field_sanitizeBody_of_ne _ fun other same => listed ⟨other, same⟩, unpushed]
      rfl
  · rw [field_sanitizeBody_of_ne _ participants_ne_listKey]
    cases type with
    | register =>
        rw [participantsAfter, own, before]
        simp only [Json.field, pushEntry, Function.update_self, List.length_append,
          List.length_singleton]
    | submit =>
        simp only [Json.field, pushEntry, participantsAfter,
          Function.update_of_ne (participants_ne_listKey .submit)]

/-! ### One write -/

/-- The entry of a call differs from every entry that its test has ruled out. -/
theorem differ_storedEntry {host : Host} {call : WriteCall} {data : Record}
    (admissible : Admissible host call) (done : sanitizeData host call.data = some data)
    {old : Json} (record : IsRecord old) (tested : sameEntry call.type data old = some false) :
    Differ call.type old (storedEntry call.type data call.stampedAt) := by
  obtain ⟨parsed, hash, transaction⟩ := sanitizeData_spec done
  cases type : call.type with
  | register =>
      rw [type] at tested
      have id : data (js "institutionId") = .undefined ∨
          ∃ number, data (js "institutionId") = .json (.num number) := by
        rcases parseInstitutionId_cases parsed with absent | ⟨negative, overflow⟩ | number
        · exact .inl absent
        · exact absurd (overflow ▸ parsed) (admissible.finite_id negative)
        · exact .inr number
      have differs := institutionId_ne record id tested
      rw [← field_storedEntry .register data call.stampedAt (by decide)] at differs
      exact differs
  | submit =>
      rw [type] at tested
      have text : IsText (data (js "txId")) := transaction ▸ admissible.text_txId
      constructor
      · exact not_shareKey_of_sameSubmission record (.inl rfl) hash
          (field_storedEntry _ data _ (by decide)) tested
      · exact not_shareKey_of_sameSubmission record (.inr rfl) text
          (field_storedEntry _ data _ (by decide)) tested

def serialWrite (host : Host) (server : ServerState) (request : StoreRequest) : ServerState :=
  (writeSharedActivity host request.environment server request.call
    (successfulRead server.document)).server

/-- The write of a request that reads the current document succeeds. -/
def accepts (host : Host) (server : ServerState) (request : StoreRequest) : Bool :=
  (writeSharedActivity host request.environment server request.call
    (successfulRead server.document)).wrote

/-- What one write can do, whatever document it has read: it fails, or finds its
entry there, or adds it. -/
theorem write_outcome {host : Host} {server : ServerState} {request : StoreRequest} {read : Json}
    (isSanitised : IsSanitised read) :
    let outcome := writeSharedActivity host request.environment server request.call
      (successfulRead read)
    (outcome.wrote = false ∧ outcome.server.document = server.document) ∨
    ∃ data, sanitizeData host request.call.data = some data ∧
      ((∃ old ∈ entriesOf request.call.type read, sameEntry request.call.type data old = some true) ∧
        outcome.server.document = read ∨
      (∀ old ∈ entriesOf request.call.type read,
          sameEntry request.call.type data old = some false) ∧
        Pushed request.call.type read outcome.server.document
          (storedEntry request.call.type data request.call.stampedAt) ∧
        (entriesOf request.call.type read).length < 500) := by
  intro outcome
  rcases sendBody_cases host request.environment server request.call
      (postedBody host request.call read) with
    ⟨failed, kept⟩ | ⟨-, payload, posted, limits, stored⟩
  · exact .inl ⟨failed, kept⟩
  right
  have written : outcome.server.document = sanitizeBody payload := stored
  obtain ⟨data, done, merged⟩ := postedBody_eq_some posted
  obtain ⟨property, entries, found, same, listed, searched, result⟩ := mergeEntry_cases merged
  have before : entriesOf request.call.type read = entries := by
    rw [same, entriesOf, Json.field, listed]
  have records := isSanitised.records request.call.type
  rw [before] at records
  refine ⟨data, done, ?_⟩
  rw [before]
  rcases result with ⟨duplicate, rfl⟩ | ⟨absent, rfl⟩
  · left
    obtain ⟨old, rfl⟩ : ∃ old, found = some old := by
      cases found with
      | none => cases duplicate
      | some old => exact ⟨old, rfl⟩
    obtain ⟨member, passed⟩ := findEntry_some searched
    exact ⟨⟨old, member, passed⟩, written.trans (sanitizeBody_eq_self isSanitised.sanitised)⟩
  · right
    refine ⟨findEntry_all_false records searched absent, ?_, ?_⟩
    · rw [written, same]
      exact pushed_of_pushEntry _ listed (same ▸ isSanitised.sanitised)
    · have length := entriesOf_length_le limits request.call.type
      rw [entriesOf_pushEntry, List.length_append, List.length_singleton] at length
      omega

theorem serialWrite_outcome {host : Host} {server : ServerState} {request : StoreRequest}
    (isSanitised : IsSanitised server.document) :
    (accepts host server request = false ∧
      (serialWrite host server request).document = server.document) ∨
    ∃ data, sanitizeData host request.call.data = some data ∧
      ((∃ old ∈ entriesOf request.call.type server.document,
          sameEntry request.call.type data old = some true) ∧
        (serialWrite host server request).document = server.document ∨
      (∀ old ∈ entriesOf request.call.type server.document,
          sameEntry request.call.type data old = some false) ∧
        Pushed request.call.type server.document (serialWrite host server request).document
          (storedEntry request.call.type data request.call.stampedAt) ∧
        (entriesOf request.call.type server.document).length < 500) :=
  write_outcome isSanitised

theorem serialWrite_cases {host : Host} {server : ServerState} {request : StoreRequest}
    (admissible : Admissible host request.call) (invariant : StoreInvariant server.document) :
    (serialWrite host server request).document = server.document ∨
    ∃ entry, Pushed request.call.type server.document (serialWrite host server request).document entry ∧
      IsRecord entry ∧ sanitizeEntry request.call.type entry = entry ∧
      (∀ old ∈ entriesOf request.call.type server.document, Differ request.call.type old entry) ∧
      (entriesOf request.call.type server.document).length < 500 := by
  rcases serialWrite_outcome invariant.toIsSanitised with
    ⟨-, kept⟩ | ⟨data, done, ⟨-, kept⟩ | ⟨tested, pushed, room⟩⟩
  · exact .inl kept
  · exact .inl kept
  · refine .inr ⟨_, pushed, storedEntry_isRecord _ _ _, sanitizeEntry_idempotent _ _, ?_, room⟩
    intro old member
    exact differ_storedEntry admissible done (invariant.records _ old member) (tested old member)

theorem Pushed.listed {type : ActivityType} {earlier later entry : Json}
    (pushed : Pushed type earlier later entry)
    (listed : ∀ type, ∃ entries, earlier.field (listKey type) = some (.arr entries))
    (other : ActivityType) : ∃ entries, later.field (listKey other) = some (.arr entries) := by
  rcases ActivityType.eq_or_eq_other type other with rfl | rfl
  · have grown := pushed.own
    unfold entriesOf at grown
    split at grown
    case h_1 entries found => exact ⟨entries, found⟩
    case h_2 => simp at grown
  · rw [pushed.fields _ (listKey_ne_other type).symm (participants_ne_listKey type.other).symm]
    exact listed type.other

/-- What holds of the list that grew and of the list that did not. -/
theorem Pushed.both {type : ActivityType} {earlier later entry : Json}
    (pushed : Pushed type earlier later entry) (Holds : ActivityType → List Json → Prop)
    (grown : Holds type (entriesOf type earlier ++ [entry]))
    (kept : Holds type.other (entriesOf type.other earlier)) (other : ActivityType) :
    Holds other (entriesOf other later) := by
  rcases ActivityType.eq_or_eq_other type other with rfl | rfl
  · rw [pushed.own]
    exact grown
  · rw [pushed.other]
    exact kept

theorem Pushed.isSanitised {type : ActivityType} {earlier later entry : Json}
    (pushed : Pushed type earlier later entry) (isSanitised : IsSanitised earlier)
    (record : IsRecord entry) (sanitised : sanitizeEntry type entry = entry) :
    IsSanitised later where
  listed := pushed.listed isSanitised.listed
  records := by
    refine pushed.both (fun _ entries => ∀ entry ∈ entries, IsRecord entry) ?_
      (isSanitised.records type.other)
    exact List.forall_mem_append.mpr ⟨isSanitised.records type, List.forall_mem_singleton.mpr record⟩
  sanitised := by
    refine pushed.both (fun type entries => ∀ entry ∈ entries, sanitizeEntry type entry = entry) ?_
      (isSanitised.sanitised type.other)
    exact List.forall_mem_append.mpr
      ⟨isSanitised.sanitised type, List.forall_mem_singleton.mpr sanitised⟩

theorem Pushed.storeInvariant {type : ActivityType} {earlier later entry : Json}
    (pushed : Pushed type earlier later entry) (invariant : StoreInvariant earlier)
    (record : IsRecord entry) (sanitised : sanitizeEntry type entry = entry)
    (differs : ∀ old ∈ entriesOf type earlier, Differ type old entry)
    (room : (entriesOf type earlier).length < 500) : StoreInvariant later := by
  refine ⟨pushed.isSanitised invariant.toIsSanitised record sanitised, ?_, ?_⟩
  · refine pushed.both (fun type entries => entries.Pairwise (Differ type)) ?_
      (invariant.differ type.other)
    refine List.pairwise_append.mpr ⟨invariant.differ type, List.pairwise_singleton _ _, ?_⟩
    intro old member last isLast
    rw [List.mem_singleton.mp isLast]
    exact differs old member
  · refine pushed.both (fun _ entries => entries.length ≤ 500) ?_ (invariant.short type.other)
    rw [List.length_append, List.length_singleton]
    omega

theorem Pushed.countsParticipants {type : ActivityType} {earlier later entry : Json}
    (pushed : Pushed type earlier later entry) (counted : CountsParticipants earlier) :
    CountsParticipants later := by
  cases type with
  | register => exact pushed.count
  | submit =>
      have same : entriesOf .register later = entriesOf .register earlier := pushed.other
      rw [CountsParticipants, pushed.count, same]
      exact counted

/-! ### Runs -/

theorem entriesOf_defaultDocument (type : ActivityType) : entriesOf type defaultDocument = [] := by
  cases type <;> rfl

theorem storeInvariant_defaultDocument : StoreInvariant defaultDocument where
  listed := fun type => ⟨[], by cases type <;> rfl⟩
  records := by simp [entriesOf_defaultDocument]
  sanitised := by simp [entriesOf_defaultDocument]
  differ := by simp [entriesOf_defaultDocument]
  short := by simp [entriesOf_defaultDocument]

theorem serialWrite_invariant {host : Host} {server : ServerState} {request : StoreRequest}
    (admissible : Admissible host request.call) (invariant : StoreInvariant server.document) :
    StoreInvariant (serialWrite host server request).document ∧
      (CountsParticipants server.document →
        CountsParticipants (serialWrite host server request).document) := by
  rcases serialWrite_cases admissible invariant with
    same | ⟨entry, pushed, record, sanitised, differs, room⟩
  · rw [same]
    exact ⟨invariant, id⟩
  · exact ⟨pushed.storeInvariant invariant record sanitised differs room, pushed.countsParticipants⟩

/-- The invariant of the document over any number of writes, none of which
overlaps another. -/
theorem serialStore_invariant (host : Host) (server : ServerState) (requests : List StoreRequest)
    (admissible : ∀ request ∈ requests, Admissible host request.call)
    (initial : StoreInvariant server.document) :
    StoreInvariant (after (serialWrite host) server requests).document ∧
    (CountsParticipants server.document →
      CountsParticipants (after (serialWrite host) server requests).document) ∧
    ∀ before request later, requests = before ++ request :: later →
      (after (serialWrite host) server (before ++ [request])).document =
          (after (serialWrite host) server before).document ∨
        ∃ entry, Pushed request.call.type (after (serialWrite host) server before).document
          (after (serialWrite host) server (before ++ [request])).document entry := by
  have invariant : ∀ done, (∀ request ∈ done, Admissible host request.call) →
      StoreInvariant (after (serialWrite host) server done).document := by
    intro done allowed
    exact after_invariant (fun server : ServerState => StoreInvariant server.document)
      (fun _ request member kept => (serialWrite_invariant (allowed request member) kept).1) initial
  refine ⟨invariant requests admissible, ?_, ?_⟩
  · intro counted
    exact (after_invariant
      (fun server : ServerState =>
        StoreInvariant server.document ∧ CountsParticipants server.document)
      (fun _ request member kept =>
        have next := serialWrite_invariant (admissible request member) kept.1
        ⟨next.1, next.2 kept.2⟩) ⟨initial, counted⟩).2
  · rintro before request later rfl
    have kept := invariant before fun earlier member => admissible earlier (List.mem_append_left _ member)
    rw [after_append]
    rcases serialWrite_cases (admissible request (by simp)) kept with same | ⟨entry, pushed, -⟩
    · exact .inl same
    · exact .inr ⟨entry, pushed⟩

theorem serialStore_invariant_one_registration :
    let host : Host := ⟨fun _ => none, fun _ _ => none⟩
    let server : ServerState := ⟨fun _ => [], defaultDocument⟩
    let data : Record := Function.update (fun _ => .undefined) (js "institutionId") (.json (.str (js "42")))
    let request : StoreRequest := ⟨⟨.register, data, none, 0, 0, none⟩,
      ⟨0, some (js "gist"), none, some (js "token"), .replied 200⟩⟩
    Admissible host request.call ∧
      (entriesOf .register (after (serialWrite host) server [request]).document).length = 1 ∧
      StoreInvariant (after (serialWrite host) server [request]).document := by
  intro host server data request
  have admissible : Admissible host request.call := ⟨fun _ overflow => (by cases overflow), .inl rfl⟩
  exact ⟨admissible, by decide +kernel, (serialStore_invariant host server [request]
    (fun _ member => List.mem_singleton.mp member ▸ admissible) storeInvariant_defaultDocument).1⟩

end MidenWorkspace.Frontend
