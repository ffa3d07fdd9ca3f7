import MidenWorkspace.Frontend.Activity

/-!
Contract: a write whose read may have failed.

Owns the ways in which the read step of `writeSharedActivity` ends, what it
returns for each, and exactly when an accepted write leaves every entry of the
stored document in place.

Both layers answer a failure with the default document, so the client cannot tell
an empty store from one it could not read, and overwrites either.
-/

namespace MidenWorkspace.Frontend

/-- How the read step ends, from the browser down to the gist. -/
inductive ReadStep where
  | delivered
  | fetchRejected
  | notOk (body : Option Json)
  | notJson
  /-- the route's own `fetch` rejects -/
  | upstreamRejected
  /-- the route cannot parse what it fetched -/
  | upstreamNotJson (ok : Bool)
  /-- the gist answers with an error that is JSON but no activity document -/
  | upstreamError (body : Json) (foreign : ∀ type entries, body.field (listKey type) ≠ some (.arr entries))

/-- What the client's `fetch` returns while `document` is stored. -/
def ReadStep.fetched (document : Json) : ReadStep → Fetched
  | .delivered => .replied true (some (get (.replied true (some document))))
  | .fetchRejected => .rejected
  | .notOk body => .replied false body
  | .notJson => .replied true none
  | .upstreamRejected => .replied true (some (get .rejected))
  | .upstreamNotJson ok => .replied true (some (get (.replied ok none)))
  | .upstreamError body _ => .replied true (some (get (.replied false (some body))))

/-- A read step that fails yields the default document, or one that no entry can
be merged into. -/
theorem ReadStep.failure_cases {step : ReadStep} (failed : step ≠ .delivered) (document : Json) :
    readSharedActivity (step.fetched document) = defaultDocument ∨
      ∀ type data now, mergeEntry type data now (readSharedActivity (step.fetched document)) = none := by
  cases step with
  | delivered => exact absurd rfl failed
  | upstreamError body foreign =>
      right
      intro type data now
      change mergeEntry type data now body = none
      unfold mergeEntry
      split
      · split
        · exact absurd ‹_› (foreign type _)
        · rfl
      · rfl
  | _ => exact .inl rfl

/-- The document has no entry but copies of the one that the call adds. -/
def CoveredBy (host : Host) (call : WriteCall) (document : Json) : Prop :=
  entriesOf call.type.other document = [] ∧
    ∃ data, sanitizeData host call.data = some data ∧
      ∀ entry ∈ entriesOf call.type document,
        sanitizeEntry call.type entry = storedEntry call.type data call.stampedAt

/-- Merged into the default document, the entry of the call is all there is. -/
theorem mergeEntry_defaultDocument (type : ActivityType) (data : Record) (now : Int) :
    ∃ payload, mergeEntry type data now defaultDocument = some payload ∧
      entriesOf type (sanitizeBody payload) = [storedEntry type data now] ∧
      entriesOf type.other (sanitizeBody payload) = [] := by
  cases type with
  | register =>
      refine ⟨_, rfl, ?_, ?_⟩
      · rw [entriesOf_sanitizeBody]
        rfl
      · rw [entriesOf_sanitizeBody]
        rfl
  | submit =>
      refine ⟨_, rfl, ?_, ?_⟩
      · rw [entriesOf_sanitizeBody]
        rfl
      · rw [entriesOf_sanitizeBody]
        rfl

/-- After an accepted write every entry is still there exactly if the read step
delivered the document, or the document held nothing but the entry of the call. -/
theorem survives_iff_delivered_or_covered (host : Host) (environment : ServerEnvironment)
    (server : ServerState) (call : WriteCall) (step : ReadStep)
    (accepted : (writeSharedActivity host environment server call
      (step.fetched server.document)).wrote = true) :
    Survives server.document (writeSharedActivity host environment server call
        (step.fetched server.document)).server.document ↔
      step = .delivered ∨ CoveredBy host call server.document := by
  rcases sendBody_cases host environment server call
      (postedBody host call (readSharedActivity (step.fetched server.document))) with
    ⟨refused, -⟩ | ⟨-, payload, posted, -, stored⟩
  · cases accepted.symm.trans refused
  obtain ⟨data, done, merged⟩ := postedBody_eq_some posted
  have written : (writeSharedActivity host environment server call
      (step.fetched server.document)).server.document = sanitizeBody payload := stored
  rw [written]
  by_cases delivered : step = .delivered
  · subst delivered
    exact iff_of_true (survives_of_merge merged) (.inl rfl)
  rcases ReadStep.failure_cases delivered server.document with default | foreign
  case inr => cases merged.symm.trans (foreign _ _ _)
  rw [default] at merged
  obtain ⟨replaced, alone, own, other⟩ :=
    mergeEntry_defaultDocument call.type data call.stampedAt
  obtain rfl := Option.some.inj (merged.symm.trans alone)
  constructor
  · intro survives
    refine .inr ⟨?_, data, done, ?_⟩
    · rw [List.eq_nil_iff_forall_not_mem]
      intro entry member
      have kept := survives call.type.other entry member
      rw [other] at kept
      cases kept
    · intro entry member
      have kept := survives call.type entry member
      rw [own] at kept
      exact List.mem_singleton.mp kept
  · rintro (delivers | ⟨nothing, sanitised, again, covers⟩)
    · exact absurd delivers delivered
    obtain rfl := Option.some.inj (done.symm.trans again)
    intro type entry member
    rcases ActivityType.eq_or_eq_other call.type type with rfl | rfl
    · rw [own]
      exact List.mem_singleton.mpr (covers entry member)
    · rw [nothing] at member
      cases member

/-- A submission whose read fails, first where the stored document has nothing but the update
it writes, then where there is a registration as well. -/
theorem survives_iff_delivered_or_covered_rejected :
    let host : Host := ⟨fun _ => none, fun _ _ => none⟩
    let call : WriteCall := ⟨.submit, fun _ => .undefined, none, 0, 7, none⟩
    let environment : ServerEnvironment := ⟨0, some (js "gist"), none, some (js "token"), .replied 200⟩
    let update : Json := .obj (Function.update emptyProperty (js "timestamp") (some (.num 7)))
    let document (registrations : List Json) : Json :=
      .obj (Function.update (Function.update emptyProperty (js "registrations")
        (some (.arr registrations))) (js "updates") (some (.arr [update])))
    let registration : Json :=
      .obj (Function.update emptyProperty (js "institutionId") (some (.num 7)))
    let outcome (stored : Json) := writeSharedActivity host environment ⟨fun _ => [], stored⟩ call
      (ReadStep.fetchRejected.fetched stored)
    (outcome (document [])).wrote = true ∧
      Survives (document []) (outcome (document [])).server.document ∧
      (outcome (document [registration])).wrote = true ∧
      ¬ Survives (document [registration]) (outcome (document [registration])).server.document := by
  intro host call environment update document registration outcome
  have accepted : (outcome (document [])).wrote = true := by decide +kernel
  have acceptedAlso : (outcome (document [registration])).wrote = true := by decide +kernel
  refine ⟨accepted, ?_, acceptedAlso, ?_⟩
  · have sanitised : sanitizeData host call.data = some call.data :=
      congrArg some (Function.update_eq_self (js "institutionId") call.data)
    have posted : stampedEntry call.data 7 = update := by
      refine congrArg Json.obj (funext fun key => ?_)
      by_cases time : key = js "timestamp"
      · subst time
        rfl
      · rw [Function.update_of_ne time, Function.update_of_ne time]
        rfl
    refine (survives_iff_delivered_or_covered host environment ⟨fun _ => [], document []⟩ call
      .fetchRejected accepted).mpr (.inr ⟨rfl, call.data, sanitised, ?_⟩)
    intro entry member
    rw [List.mem_singleton.mp member, storedEntry, posted]
  · intro survives
    rcases (survives_iff_delivered_or_covered host environment
      ⟨fun _ => [], document [registration]⟩ call .fetchRejected acceptedAlso).mp survives with
      delivered | ⟨nothing, -⟩
    · cases delivered
    · cases nothing

/-- A submission whose read fails erases the registration that was stored. -/
theorem failed_read_erases_registration :
    let host : Host := ⟨fun _ => none, fun _ _ => none⟩
    let registration : Json :=
      .obj (Function.update emptyProperty (js "institutionId") (some (.num 7)))
    let document : Json := .obj (Function.update (Function.update emptyProperty
      (js "registrations") (some (.arr [registration]))) (js "updates") (some (.arr [])))
    let call : WriteCall := ⟨.submit, fun _ => .undefined, none, 0, 0, none⟩
    let environment : ServerEnvironment := ⟨0, some (js "gist"), none, some (js "token"), .replied 200⟩
    let outcome := writeSharedActivity host environment ⟨fun _ => [], document⟩ call
      (ReadStep.fetchRejected.fetched document)
    outcome.wrote = true ∧ (entriesOf .register document).length = 1 ∧
      (entriesOf .register outcome.server.document).length = 0 := by
  decide +kernel

end MidenWorkspace.Frontend
