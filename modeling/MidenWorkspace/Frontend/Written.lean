import MidenWorkspace.Frontend.Registrations

/-!
Contract: what the pages leave in the shared document and in the browser.

Owns the data that every call of a page has in common, the documents that such calls
can leave when each has read any earlier one of them, and what their entries and the
records of a browser's history look like to a reader.

Ids are kept under one name in each place: as a text under `institution_id` in the
history, and as a number under `institutionId` in the shared document.
-/

namespace MidenWorkspace.Frontend

open MidenWorkspace.Library

/-! ### Documents that the pages write -/

/-- The data of a page's call: the id is a text, under one name. -/
structure IsPageData (data : Record) : Prop where
  text : ∃ id, data (js "institutionId") = .json (.str id)
  single : data (js "institution_id") = .undefined

/-- A document that calls of the pages have left. Each has read such a document, not
necessarily the one that it overwrites. -/
inductive IsWritten (host : Host) : Json → Prop where
  | initial : IsWritten host defaultDocument
  | write {server : ServerState} {read : Json} (request : StoreRequest) :
      IsWritten host server.document → IsWritten host read → IsPageData request.call.data →
      IsWritten host (writeSharedActivity host request.environment server request.call
        (successfulRead read)).server.document

/-- What the merge sees of a shared entry: an overflowed id has become `null`. -/
structure IsSharedEntry (entry : Json) : Prop where
  numbered : entry.field (js "institutionId") = some .null ∨
    ∃ id : Int, entry.field (js "institutionId") = some (.num id)
  single : entry.field (js "institution_id") = none

theorem isSharedEntry_storedEntry {host : Host} {call data : Record} (pageData : IsPageData call)
    (done : sanitizeData host call = some data) (type : ActivityType) (now : Int) :
    IsSharedEntry (storedEntry type data now) where
  numbered := by
    obtain ⟨id, given⟩ := pageData.text
    have parsed := (sanitizeData_spec done).1
    rw [given] at parsed
    simp only [parseInstitutionId, stringOf, Option.map_some, Option.some.injEq] at parsed
    rw [field_storedEntry type data now (by decide), ← parsed]
    cases parseInt10 id with
    | nan => exact .inr ⟨0, rfl⟩
    | infinity negative => exact .inl rfl
    | finite number => exact .inr ⟨number, rfl⟩
  single := by
    rw [field_storedEntry_of_not_mem data now (by cases type <;> decide) (by decide),
      sanitizeData_of_not_mem done (by decide), pageData.single]
    rfl

structure WrittenInvariant (document : Json) : Prop where
  isSanitised : IsSanitised document
  entries : ∀ type, ∀ entry ∈ entriesOf type document, IsSharedEntry entry
  hashes : (entriesOf .submit document).Pairwise fun first second =>
    ¬ ShareKey (js "gradientHash") first second

theorem WrittenInvariant.pushed {host : Host} {call data : Record} {type : ActivityType} {now : Int}
    {read later : Json} (invariant : WrittenInvariant read) (pageData : IsPageData call)
    (done : sanitizeData host call = some data)
    (tested : ∀ old ∈ entriesOf type read, sameEntry type data old = some false)
    (pushed : Pushed type read later (storedEntry type data now)) : WrittenInvariant later where
  isSanitised := pushed.isSanitised invariant.isSanitised (storedEntry_isRecord _ _ _)
    (sanitizeEntry_idempotent _ _)
  entries := by
    refine pushed.both (fun _ entries => ∀ entry ∈ entries, IsSharedEntry entry) ?_
      (invariant.entries type.other)
    have added := isSharedEntry_storedEntry pageData done type now
    exact List.forall_mem_append.mpr ⟨invariant.entries type, List.forall_mem_singleton.mpr added⟩
  hashes := by
    cases type with
    | register =>
        have same : entriesOf .submit later = entriesOf .submit read := pushed.other
        rw [same]
        exact invariant.hashes
    | submit =>
        rw [pushed.own]
        refine List.pairwise_append.mpr ⟨invariant.hashes, List.pairwise_singleton _ _, ?_⟩
        intro old member last isLast
        rw [List.mem_singleton.mp isLast]
        exact not_shareKey_of_sameSubmission (invariant.isSanitised.records .submit old member)
          (.inl rfl) (sanitizeData_spec done).2.1 (field_storedEntry _ data _ (by decide))
          (tested old member)

theorem IsWritten.invariant {host : Host} {document : Json} (written : IsWritten host document) :
    WrittenInvariant document := by
  induction written with
  | initial =>
      refine ⟨storeInvariant_defaultDocument.toIsSanitised, ?_, ?_⟩
      · simp [entriesOf_defaultDocument]
      · simp [entriesOf_defaultDocument]
  | write request _ _ pageData onServer onRead =>
      rcases write_outcome onRead.isSanitised with
        ⟨-, kept⟩ | ⟨data, done, ⟨-, kept⟩ | ⟨tested, pushed, -⟩⟩
      · rw [kept]
        exact onServer
      · rw [kept]
        exact onRead
      · exact onRead.pushed pageData done tested pushed

/-! ### Storages that the pages write -/

/-- What the merge sees of a record of the history. -/
structure IsLocalRecord (record : Json) : Prop where
  isRecord : IsRecord record
  single : record.field (js "institutionId") = none
  text : ∃ id, id ≠ [] ∧ record.field (js "institution_id") = some (.str id)

theorem isLocalRecord_event (attempt : RegistrationAttempt) (address : JsString) :
    IsLocalRecord (attempt.event address) :=
  ⟨⟨_, rfl⟩, rfl, _, decimal_ne_nil _, rfl⟩

theorem isLocalRecord_of_mem {actions : List PageAction}
    (named : ∀ submission, .submit submission ∈ actions → submission.instId ≠ []) :
    ∀ record ∈ (produced actions).updates, IsLocalRecord record := by
  refine Runs.after_invariant
    (fun storage : LocalStorage => ∀ record ∈ storage.updates, IsLocalRecord record) ?_ ?_
  · intro storage action taken kept
    rcases act_cases storage action with
      same | ⟨attempt, address, block, registered⟩ | ⟨submission, rfl, submitted⟩
    · rw [same]
      exact kept
    · rw [registered, updates_withRegistration]
      exact List.forall_mem_cons.mpr ⟨isLocalRecord_event attempt address, kept⟩
    · have last : IsLocalRecord submission.record :=
        ⟨⟨_, rfl⟩, rfl, _, named submission taken, rfl⟩
      rw [submitted, updates_recordSubmission]
      exact List.forall_mem_append.mpr ⟨kept, List.forall_mem_singleton.mpr last⟩
  · intro record member
    cases member

theorem registration_text {actions : List PageAction} {registration : Json}
    (member : registration ∈ (produced actions).registrations) :
    IsRecord registration ∧ ∃ id, registration.field (js "institutionId") = some (.str id) := by
  obtain ⟨attempt, address, block, rfl⟩ := registration_of_mem (produced_isProduced actions) member
  exact ⟨⟨_, rfl⟩, _, rfl⟩

/-! ### The calls of the pages -/

theorem PageRegistration.isPageData (registration : PageRegistration) :
    IsPageData registration.data :=
  ⟨⟨_, rfl⟩, rfl⟩

/-- The data of the submit page's call. -/
def Submission.data (submission : Submission) : Record :=
  .ofFields [(js "desc", .json (.str submission.label.text)),
    (js "gradientHash", .json (.str submission.gradientHash)),
    (js "institutionId", .json (.str submission.instId)),
    (js "schema", .json (.str submission.label.slug)), (js "txId", .json (.str submission.txId)),
    (js "blockNum", .json submission.block)]

theorem Submission.isPageData (submission : Submission) : IsPageData submission.data :=
  ⟨⟨_, rfl⟩, rfl⟩

theorem mem_of_mem_untilThrow {steps : List (Option (Option SyncCall))} {call : SyncCall}
    (member : call ∈ untilThrow steps) : some (some call) ∈ steps := by
  induction steps with
  | nil => cases member
  | cons step rest inductionHypothesis =>
      match step with
      | none => cases member
      | some none => exact List.mem_cons_of_mem _ (inductionHypothesis member)
      | some (some first) =>
          rcases List.mem_cons.mp member with rfl | later
          · exact List.mem_cons_self
          · exact List.mem_cons_of_mem _ (inductionHypothesis later)

theorem syncRegistration_call {host : Host} {page : PollingPage} {storage : LocalStorage}
    {shared : Json}
    {event : RegisterEvent} {call : SyncCall}
    (posted : syncRegistration host page storage shared event = some (some call)) :
    ∃ name wallet, call = ⟨.register, registrationData page event name wallet⟩ := by
  unfold syncRegistration at posted
  obtain ⟨inShared, -, posted⟩ := Option.bind_eq_some_iff.mp posted
  cases inShared with
  | true => cases posted
  | false =>
      obtain ⟨id, -, posted⟩ := Option.bind_eq_some_iff.mp posted
      obtain ⟨name, -, posted⟩ := Option.bind_eq_some_iff.mp posted
      obtain ⟨wallet, -, posted⟩ := Option.bind_eq_some_iff.mp posted
      cases posted
      exact ⟨name, wallet, rfl⟩

theorem syncSubmission_call {shared : Json} {event : SubmitEvent} {call : SyncCall}
    (posted : syncSubmission shared event = some (some call)) :
    call = ⟨.submit, submissionData event⟩ := by
  unfold syncSubmission at posted
  obtain ⟨inShared, -, posted⟩ := Option.bind_eq_some_iff.mp posted
  cases inShared with
  | true => cases posted
  | false =>
      cases posted
      rfl

theorem isPageData_of_mem_calls {host : Host} {poll : Poll} {actions : List PageAction}
    {shared : Json}
    {call : SyncCall} (named : ∀ submission, .submit submission ∈ actions → submission.instId ≠ [])
    (member : call ∈ poll.calls host (produced actions) shared) : IsPageData call.data := by
  rw [poll.calls_eq, syncCalls] at member
  split at member
  · rename_i registrations submissions readRegistrations readUpdates
    split_ifs at member with merges
    · rcases List.mem_append.mp (mem_of_mem_untilThrow member) with registers | submits
      · obtain ⟨event, listed, posted⟩ := List.mem_map.mp registers
        obtain ⟨name, wallet, rfl⟩ := syncRegistration_call posted
        obtain ⟨registration, stored, read⟩ := exists_of_mem_mapM readRegistrations listed
        obtain ⟨isRecord, id, given⟩ := registration_text stored
        simp only [registerEvent, member_of_isRecord isRecord, given, Option.bind_eq_bind,
          Option.bind_some, Option.pure_def, Option.some.injEq] at read
        rw [← read]
        cases poll.page <;> exact ⟨⟨id, rfl⟩, rfl⟩
      · obtain ⟨event, listed, posted⟩ := List.mem_map.mp submits
        obtain rfl := syncSubmission_call posted
        obtain ⟨record, stored, read⟩ := exists_of_mem_mapM readUpdates listed
        have isLocal := isLocalRecord_of_mem named record stored
        obtain ⟨id, -, given⟩ := isLocal.text
        simp only [submitEvent, member_of_isRecord isLocal.isRecord, isLocal.single, given,
          Option.bind_eq_bind, Option.bind_some, Option.pure_def, Option.some.injEq] at read
        rw [← read]
        exact ⟨⟨id, rfl⟩, rfl⟩
    · cases member
  · cases member

/-- Writes of the pages, one after the other, stay among the documents that they write. -/
theorem IsWritten.run {host : Host} {server : ServerState}
    (written : IsWritten host server.document)
    {requests : List StoreRequest} (pageData : ∀ request ∈ requests, IsPageData request.call.data) :
    IsWritten host (Runs.after (serialWrite host) server requests).document := by
  refine Runs.after_invariant (fun reached : ServerState => IsWritten host reached.document) ?_ written
  intro reached request member kept
  exact kept.write request kept (pageData request member)

theorem mem_schedule {calls : List SyncCall} {settings : Nat → WriteSetting}
    {request : StoreRequest}
    (member : request ∈ schedule calls settings) :
    ∃ call ∈ calls, request.call.data = call.data := by
  induction calls generalizing settings with
  | nil => cases member
  | cons call rest inductionHypothesis =>
      rcases List.mem_cons.mp member with rfl | later
      · exact ⟨call, List.mem_cons_self, rfl⟩
      · obtain ⟨other, listed, same⟩ := inductionHypothesis later
        exact ⟨other, List.mem_cons_of_mem call listed, same⟩

/-- So do the polls of any browser. -/
theorem IsWritten.runPoll {host : Host} {server : ServerState}
    (written : IsWritten host server.document)
    {actions : List PageAction}
    (named : ∀ submission, .submit submission ∈ actions → submission.instId ≠ []) (poll : Poll) :
    IsWritten host (Frontend.runPoll host (produced actions) server poll).document := by
  apply written.run
  intro request member
  obtain ⟨call, listed, same⟩ := mem_schedule member
  rw [same]
  exact isPageData_of_mem_calls named listed

end MidenWorkspace.Frontend
