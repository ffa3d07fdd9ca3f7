import Mathlib.Data.List.Forall2
import MidenWorkspace.Frontend.AutoSync

/-!
Contract: where repeated polls of one browser take the shared document.

Owns what of a browser's storage the shared document already has, the effect of one
poll on a document with well-formed lists, and the run of any number of polls:
it converges, with at most one update for each local submission, exactly if the
history's records of registrations are told from submissions by their times.

The history keeps a record of every registration beside the submissions, and the
pages take each record for a submission. Such a record has no hash, so only an
update with the same time can keep a page from posting it again.
-/

namespace MidenWorkspace.Frontend

open MidenWorkspace.Library

/-! ### What the shared document has -/

/-- `record.type === text` -/
def IsTyped (text : String) (record : Json) : Prop :=
  record.field (js "type") = some (.str (js text))

/-- An update has the hash or the time of the record. -/
def IsListed (document record : Json) : Prop :=
  ∃ entry ∈ entriesOf .submit document,
    ShareKey (js "gradientHash") entry record ∨ ShareKey (js "timestamp") entry record

/-- A registration has the id of the local one, as the text or as its number. -/
def IsRegistered (document registration : Json) : Prop :=
  ∃ entry ∈ entriesOf .register document, ∃ id,
    registration.field (js "institutionId") = some (.str id) ∧
      (entry.field (js "institutionId") = some (.str id) ∨
        ∃ number, parseInt10 id = .finite number ∧
          entry.field (js "institutionId") = some (.num number))

/-- Everything local is present. -/
structure AllPresent (storage : LocalStorage) (document : Json) : Prop where
  registrations : ∀ registration ∈ storage.registrations, IsRegistered document registration
  submissions : ∀ record ∈ storage.updates, IsTyped "SUBMIT" record → IsListed document record

/-- The update that a page has posted for a record of the history. -/
def IsEntryOf (host : Host) (entry record : Json) : Prop :=
  ∃ page event data now, submitEvent page record = some event ∧
    sanitizeData host (submissionData event) = some data ∧ entry = storedEntry .submit data now

/-- The polls append at most one update for each local submission and none for
another record; they bring everything local into the document, and once it is
there, no later poll changes the document. -/
structure Converges (host : Host) (storage : LocalStorage) (server : ServerState)
    (polls : List Poll) : Prop where
  appends : ∃ appended submissions,
    entriesOf .submit (Runs.after (runPoll host storage) server polls).document =
      entriesOf .submit server.document ++ appended ∧
    submissions.Sublist storage.updates ∧ (∀ record ∈ submissions, IsTyped "SUBMIT" record) ∧
    List.Forall₂ (IsEntryOf host) appended submissions
  arrives : polls ≠ [] →
    AllPresent storage (Runs.after (runPoll host storage) server polls).document
  settles : ∀ first later, polls = first ++ later →
    AllPresent storage (Runs.after (runPoll host storage) server first).document →
    (Runs.after (runPoll host storage) server polls).document =
      (Runs.after (runPoll host storage) server first).document

/-! ### Records of the history -/

/-- What the polls see of a record: its time, and no hash for a registration. -/
structure IsEventRecord (record : Json) : Prop where
  isRecord : IsRecord record
  registers : IsTyped "REGISTER" record
  unhashed : record.field (js "gradientHash") = none
  timed : ∃ time, record.field (js "timestamp") = some (.num time)

structure IsSubmissionRecord (record : Json) (hash : JsString) : Prop where
  isRecord : IsRecord record
  submits : IsTyped "SUBMIT" record
  hashed : record.field (js "gradientHash") = some (.str hash)
  timed : ∃ time, record.field (js "timestamp") = some (.num time)
  notEmpty : hash ≠ []
  sanitised : sanitize (.json (.str hash)) = hash

theorem isEventRecord (attempt : RegistrationAttempt) (address : JsString) :
    IsEventRecord (attempt.event address) where
  isRecord := ⟨_, rfl⟩
  registers := rfl
  unhashed := rfl
  timed := ⟨_, rfl⟩

theorem isSubmissionRecord (submission : Submission) :
    IsSubmissionRecord submission.record submission.gradientHash where
  isRecord := ⟨_, rfl⟩
  submits := rfl
  hashed := rfl
  timed := ⟨_, rfl⟩
  notEmpty := by
    intro empty
    have full := submission.full
    rw [empty] at full
    cases full
  sanitised := by
    have plain : 60 ∉ submission.gradientHash :=
      fun opened => absurd (submission.hexadecimal 60 opened) (by decide)
    rw [sanitize, stripTags_of_not_mem plain, List.take_of_length_le]
    rw [submission.full]
    decide

theorem record_cases {storage : LocalStorage} (isProduced : IsProduced storage) {record : Json}
    (member : record ∈ storage.updates) :
    IsEventRecord record ∨ ∃ hash, IsSubmissionRecord record hash := by
  rcases isProduced.updates record member with ⟨attempt, address, rfl⟩ | ⟨submission, rfl⟩
  · exact .inl (isEventRecord attempt address)
  · exact .inr ⟨_, isSubmissionRecord submission⟩

theorem IsEventRecord.not_submit {record : Json} (registration : IsEventRecord record) :
    ¬ IsTyped "SUBMIT" record := by
  intro submits
  exact absurd (registration.registers.symm.trans submits) (by simp [js])

/-! ### The tests of a page -/

/-- A property is strictly equal to a text or a number exactly if it has this value. -/
theorem strictEquals_iff {found : Option Json} {value : Json}
    (reflexive : value.strictEquals value = true) :
    (found.elim .undefined .json : JsValue).strictEquals (.json value) = true ↔ found = some value := by
  constructor
  · intro passed
    have equal := JsValue.eq_of_strictEquals passed
    cases found with
    | none => cases equal
    | some other =>
        cases equal
        rfl
  · intro same
    rw [same]
    exact reflexive

theorem sameTruthy_iff {entry record : Json} {key : JsString}
    (reflexive : ∀ value, record.field key = some value → value.strictEquals value = true) :
    JsValue.sameTruthy ((entry.field key).elim .undefined .json)
      ((record.field key).elim .undefined .json) = true ↔ ShareKey key entry record := by
  rw [JsValue.sameTruthy, Bool.and_eq_true, Bool.and_eq_true]
  cases given : record.field key with
  | none => simp [ShareKey, given, JsValue.truthy]
  | some value =>
      rw [Option.elim_some, strictEquals_iff (reflexive value given)]
      constructor
      · rintro ⟨⟨-, truthy⟩, found⟩
        exact ⟨value, truthy, found, given⟩
      · rintro ⟨other, truthy, found, same⟩
        cases given.symm.trans same
        rw [found]
        exact ⟨⟨truthy, truthy⟩, rfl⟩

/-- The record's hash and time are texts and numbers, if it has them. -/
structure IsComparable (record : Json) : Prop where
  isRecord : IsRecord record
  hash : ∀ value, record.field (js "gradientHash") = some value → value.strictEquals value = true
  time : ∀ value, record.field (js "timestamp") = some value → value.strictEquals value = true

theorem IsEventRecord.isComparable {record : Json} (event : IsEventRecord record) :
    IsComparable record where
  isRecord := event.isRecord
  hash := by
    intro value found
    rw [event.unhashed] at found
    cases found
  time := by
    intro value found
    obtain ⟨time, timed⟩ := event.timed
    cases timed.symm.trans found
    simp [Json.strictEquals]

theorem IsSubmissionRecord.isComparable {record : Json} {hash : JsString}
    (submission : IsSubmissionRecord record hash) : IsComparable record where
  isRecord := submission.isRecord
  hash := by
    intro value found
    cases submission.hashed.symm.trans found
    simp [Json.strictEquals]
  time := by
    intro value found
    obtain ⟨time, timed⟩ := submission.timed
    cases timed.symm.trans found
    simp [Json.strictEquals]

theorem isComparable_of_mem {storage : LocalStorage} (isProduced : IsProduced storage)
    {record : Json}
    (member : record ∈ storage.updates) : IsComparable record := by
  rcases record_cases isProduced member with event | ⟨hash, submission⟩
  · exact event.isComparable
  · exact submission.isComparable

theorem submitEvent_of_isRecord (page : PollingPage) {record : Json} (isRecord : IsRecord record) :
    ∃ event, submitEvent page record = some event ∧
      event.gradientHash = (record.field (js "gradientHash")).elim .undefined .json ∧
      event.timestamp = (record.field (js "timestamp")).elim .undefined .json := by
  simp only [submitEvent, member_of_isRecord isRecord, Option.bind_eq_bind, Option.bind_some]
  exact ⟨_, rfl, rfl, rfl⟩

/-- Both lists of the document can be read. -/
theorem IsSanitised.member_listKey {document : Json} (isSanitised : IsSanitised document)
    (type : ActivityType) :
    document.member (listKey type) = some (.json (.arr (entriesOf type document))) := by
  obtain ⟨entries, found⟩ := isSanitised.listed type
  rw [entriesOf, found]
  cases document with
  | obj property =>
      change property (listKey type) = some (.arr entries) at found
      simp only [Json.member, found, Option.elim_some]
  | _ => cases found

theorem listedIn_spec {document : Json} (isSanitised : IsSanitised document) (type : ActivityType)
    (test : Json → Option Bool) (defined : ∀ entry, IsRecord entry → (test entry).isSome) :
    ∃ listed, listedIn document (listKey type) test = some listed ∧
      (listed = true ↔ ∃ entry ∈ entriesOf type document, test entry = some true) := by
  have records := isSanitised.records type
  obtain ⟨outcome, searched⟩ := Option.isSome_iff_exists.mp
    (findEntry_isSome fun entry member => defined entry (records entry member))
  have looked : listedIn document (listKey type) test = some outcome.isSome := by
    simp only [listedIn, isSanitised.member_listKey, searched, Option.map_some]
  refine ⟨outcome.isSome, looked, ?_⟩
  cases outcome with
  | none =>
      have failed := findEntry_all_false records searched rfl
      constructor
      · intro impossible
        cases impossible
      · rintro ⟨entry, member, passed⟩
        rw [failed entry member] at passed
        cases passed
  | some entry => exact ⟨fun _ => ⟨entry, findEntry_some searched⟩, fun _ => rfl⟩

/-! ### The calls of a poll -/

/-- A record that the document has is not posted; another one is posted as a
submission. -/
def SubmitStep (page : PollingPage) (document record : Json) : Option SyncCall → Prop
  | none => IsListed document record
  | some call => ¬ IsListed document record ∧
      ∃ event, submitEvent page record = some event ∧ call = ⟨.submit, submissionData event⟩

/-- The document stores ids as numbers, and the local text is never one of them, so
a registration is posted although it is there, unless a text is stored. -/
def RegisterStep (document registration : Json) : Option SyncCall → Prop
  | none => IsRegistered document registration
  | some call => ∃ id number, registration.field (js "institutionId") = some (.str id) ∧
      parseInt10 id = .finite number ∧ call.type = .register ∧
      call.data (js "institutionId") = .json (.str id) ∧
      ∀ entry ∈ entriesOf .register document, entry.field (js "institutionId") ≠ some (.str id)

theorem syncSubmission_spec (page : PollingPage) {document record : Json}
    (isSanitised : IsSanitised document) (comparable : IsComparable record) :
    ∃ event step, submitEvent page record = some event ∧ syncSubmission document event = some step ∧
      SubmitStep page document record step := by
  obtain ⟨event, read, hash, time⟩ := submitEvent_of_isRecord page comparable.isRecord
  have tested : ∀ entry, IsRecord entry → ∃ passes, sharesSubmission event entry = some passes ∧
      (passes = true ↔ ShareKey (js "gradientHash") entry record ∨
        ShareKey (js "timestamp") entry record) := by
    intro entry isRecord
    simp only [sharesSubmission, member_of_isRecord isRecord, Option.bind_eq_bind, Option.bind_some,
      Option.pure_def]
    refine ⟨_, rfl, ?_⟩
    rw [hash, time, Bool.or_eq_true, sameTruthy_iff comparable.hash, sameTruthy_iff comparable.time]
  have defined : ∀ entry, IsRecord entry → (sharesSubmission event entry).isSome := by
    intro entry isRecord
    obtain ⟨passes, passed, -⟩ := tested entry isRecord
    rw [passed]
    rfl
  obtain ⟨listed, looked, listed_iff⟩ := listedIn_spec isSanitised .submit _ defined
  have isListed_iff : listed = true ↔ IsListed document record := by
    rw [listed_iff]
    refine exists_congr fun entry => and_congr_right fun member => ?_
    obtain ⟨passes, passed, passes_iff⟩ := tested entry (isSanitised.records .submit entry member)
    rw [passed, Option.some.injEq, passes_iff]
  refine ⟨event, if listed then none else some ⟨.submit, submissionData event⟩, read, ?_, ?_⟩
  · change listedIn document (js "updates") _ = _ at looked
    simp only [syncSubmission, looked, Option.bind_eq_bind, Option.bind_some, Option.pure_def]
  · cases listed with
    | true => exact isListed_iff.mp rfl
    | false =>
        refine ⟨fun present => ?_, event, read, rfl⟩
        cases isListed_iff.mpr present

theorem registration_of_mem {storage : LocalStorage} (isProduced : IsProduced storage)
    {registration : Json} (member : registration ∈ storage.registrations) :
    ∃ (attempt : RegistrationAttempt) (address : JsString) (block : Json),
      registration = attempt.registration address block := by
  obtain ⟨key, listed, found⟩ := List.mem_filterMap.mp member
  have named := List.isPrefixOf_iff_prefix.mp (List.mem_filter.mp listed).2
  exact isProduced.registrations key registration named found

theorem originalRegistration_isRecord {storage : LocalStorage} (isProduced : IsProduced storage)
    (id : JsString) : IsRecord (originalRegistration storage id) := by
  unfold originalRegistration
  cases found : (storage.registrationKeys.find? (includes · id)).bind storage.getItem with
  | none => exact ⟨emptyProperty, rfl⟩
  | some registration =>
      obtain ⟨key, first, stored⟩ := Option.bind_eq_some_iff.mp found
      have member : registration ∈ storage.registrations :=
        List.mem_filterMap.mpr ⟨key, List.mem_of_find?_eq_some first, stored⟩
      obtain ⟨attempt, address, block, rfl⟩ := registration_of_mem isProduced member
      exact ⟨_, rfl⟩

theorem registrationData_institutionId (page : PollingPage) (event : RegisterEvent)
    (name wallet : JsValue) :
    registrationData page event name wallet (js "institutionId") = event.institutionId := by
  cases page <;> rfl

theorem syncRegistration_spec (host : Host) (page : PollingPage) {storage : LocalStorage}
    (isProduced : IsProduced storage) {document registration : Json}
    (isSanitised : IsSanitised document) (member : registration ∈ storage.registrations) :
    ∃ event step, registerEvent registration = some event ∧
      syncRegistration host page storage document event = some step ∧
      RegisterStep document registration step := by
  obtain ⟨attempt, address, block, rfl⟩ := registration_of_mem isProduced member
  let id := decimal (deriveInstitutionId address)
  let event : RegisterEvent := ⟨.json (.str id), .json block⟩
  have given : (attempt.registration address block).field (js "institutionId") = some (.str id) := rfl
  have parsed : parseInt10 id = .finite (deriveInstitutionId address) := parseInt10_derived address
  have defined : ∀ entry, IsRecord entry → (sharesInstitution event entry).isSome := by
    intro entry isRecord
    rw [sharesInstitution, member_of_isRecord isRecord]
    rfl
  obtain ⟨listed, looked, listed_iff⟩ := listedIn_spec isSanitised .register _ defined
  have stored_iff : ∀ entry ∈ entriesOf .register document,
      sharesInstitution event entry = some true ↔
        entry.field (js "institutionId") = some (.str id) := by
    intro entry member
    rw [sharesInstitution, member_of_isRecord (isSanitised.records .register entry member),
      Option.map_some, Option.some.injEq]
    exact strictEquals_iff (by simp [Json.strictEquals])
  change listedIn document (js "registrations") _ = _ at looked
  cases listed with
  | true =>
      obtain ⟨entry, member, passed⟩ := listed_iff.mp rfl
      refine ⟨event, none, rfl, ?_, entry, member, id, given, .inl ((stored_iff entry member).mp passed)⟩
      rw [syncRegistration, looked]
      rfl
  | false =>
      have posted : ∃ name wallet, syncRegistration host page storage document event =
          some (some ⟨.register, registrationData page event name wallet⟩) := by
        have read := member_of_isRecord (originalRegistration_isRecord isProduced id)
        rw [syncRegistration, looked]
        show ∃ name wallet, (((originalRegistration storage id).member (js "institutionName")).bind
          fun name => ((originalRegistration storage id).member (js "walletAddress")).bind
            fun wallet => some (some (⟨.register, registrationData page event name wallet⟩ : SyncCall))) = _
        rw [read, read]
        exact ⟨_, _, rfl⟩
      obtain ⟨name, wallet, posted⟩ := posted
      refine ⟨event, _, rfl, posted, id, _, given, parsed, rfl,
        registrationData_institutionId page event name wallet, ?_⟩
      intro entry member found
      cases listed_iff.mpr ⟨entry, member, (stored_iff entry member).mpr found⟩

theorem exists_steps {Event : Type} {read : Json → Option Event}
    {sync : Event → Option (Option SyncCall)} {Step : Json → Option SyncCall → Prop}
    {values : List Json} (each : ∀ value ∈ values, ∃ event step,
      read value = some event ∧ sync event = some step ∧ Step value step) :
    ∃ events steps, values.mapM read = some events ∧ events.map sync = steps.map some ∧
      List.Forall₂ Step values steps := by
  induction values with
  | nil => exact ⟨[], [], rfl, rfl, .nil⟩
  | cons value rest inductionHypothesis =>
      obtain ⟨event, step, found, synced, isStep⟩ := each value List.mem_cons_self
      obtain ⟨events, steps, read, map, isSteps⟩ := inductionHypothesis fun later member =>
        each later (List.mem_cons_of_mem value member)
      refine ⟨event :: events, step :: steps, ?_, ?_, .cons isStep isSteps⟩
      · simp only [List.mapM_cons, found, read, Option.bind_eq_bind, Option.bind_some, Option.pure_def]
      · rw [List.map_cons, List.map_cons, synced, map]

theorem untilThrow_map_some (steps : List (Option SyncCall)) :
    untilThrow (steps.map some) = steps.filterMap id := by
  induction steps with
  | nil => rfl
  | cons step rest inductionHypothesis =>
      cases step with
      | none => exact inductionHypothesis
      | some call => exact congrArg (call :: ·) inductionHypothesis

theorem IsSanitised.mergesList {document : Json} (isSanitised : IsSanitised document)
    (type : ActivityType) : mergesList document (listKey type) = true := by
  simp only [Frontend.mergesList, isSanitised.member_listKey, List.all_eq_true]
  intro entry member
  obtain ⟨property, rfl⟩ := isSanitised.records type entry member
  rfl

/-- Both pages make their calls in the same way. -/
theorem Poll.calls_eq (poll : Poll) (host : Host) (storage : LocalStorage) (shared : Json) :
    poll.calls host storage shared = syncCalls host poll.page storage shared := by
  unfold Poll.calls
  cases poll.page <;> rfl

/-- The calls of a poll, one step for each local record. -/
theorem calls_spec (host : Host) (poll : Poll) {storage : LocalStorage}
    (isProduced : IsProduced storage)
    {document : Json} (isSanitised : IsSanitised document) :
    ∃ registerSteps submitSteps,
      List.Forall₂ (RegisterStep document) storage.registrations registerSteps ∧
      List.Forall₂ (SubmitStep poll.page document) storage.updates submitSteps ∧
      poll.calls host storage document = registerSteps.filterMap id ++ submitSteps.filterMap id := by
  obtain ⟨registrations, registerSteps, readRegistrations, synced, areRegisterSteps⟩ :=
    exists_steps fun registration member =>
      syncRegistration_spec host poll.page isProduced isSanitised member
  obtain ⟨submissions, submitSteps, readUpdates, syncedUpdates, areSubmitSteps⟩ :=
    exists_steps fun record member =>
      syncSubmission_spec poll.page isSanitised (isComparable_of_mem isProduced member)
  refine ⟨registerSteps, submitSteps, areRegisterSteps, areSubmitSteps, ?_⟩
  have merges : (mergesList document (js "registrations") && mergesList document (js "updates")) = true :=
    Bool.and_eq_true_iff.mpr ⟨isSanitised.mergesList .register, isSanitised.mergesList .submit⟩
  rw [poll.calls_eq, syncCalls, readRegistrations, readUpdates]
  simp only [merges, if_true, synced, syncedUpdates]
  rw [← List.map_append, untilThrow_map_some, List.filterMap_append]

/-! ### Growth -/

/-- Entries are only added, at the end. -/
def Extends (earlier later : Json) : Prop := ∀ type, entriesOf type earlier <+: entriesOf type later

theorem Extends.refl (document : Json) : Extends document document :=
  fun _ => List.prefix_refl _

theorem Extends.trans {first second third : Json} (early : Extends first second)
    (late : Extends second third) : Extends first third :=
  fun type => (early type).trans (late type)

theorem Extends.isListed {earlier later record : Json} (grown : Extends earlier later)
    (listed : IsListed earlier record) : IsListed later record := by
  obtain ⟨entry, member, shares⟩ := listed
  exact ⟨entry, (grown .submit).subset member, shares⟩

theorem Extends.isRegistered {earlier later registration : Json} (grown : Extends earlier later)
    (registered : IsRegistered earlier registration) : IsRegistered later registration := by
  obtain ⟨entry, member, same⟩ := registered
  exact ⟨entry, (grown .register).subset member, same⟩

theorem Pushed.extends {type : ActivityType} {earlier later entry : Json}
    (pushed : Pushed type earlier later entry) : Extends earlier later := by
  intro other
  rcases ActivityType.eq_or_eq_other type other with rfl | rfl
  · rw [pushed.own]
    exact List.prefix_append _ _
  · rw [pushed.other]

/-- What one successful write can do. -/
theorem accepted_cases {host : Host} {server : ServerState} {request : StoreRequest}
    (isSanitised : IsSanitised server.document) (accepted : accepts host server request = true) :
    ∃ data, sanitizeData host request.call.data = some data ∧
      ((∃ old ∈ entriesOf request.call.type server.document,
          sameEntry request.call.type data old = some true) ∧
        (serialWrite host server request).document = server.document ∨
      (∀ old ∈ entriesOf request.call.type server.document,
          sameEntry request.call.type data old = some false) ∧
        Pushed request.call.type server.document (serialWrite host server request).document
          (storedEntry request.call.type data request.call.stampedAt)) := by
  rcases serialWrite_outcome isSanitised with ⟨failed, -⟩ | ⟨data, done, found | ⟨tested, pushed, -⟩⟩
  · rw [failed] at accepted
    cases accepted
  · exact ⟨data, done, .inl found⟩
  · exact ⟨data, done, .inr ⟨tested, pushed⟩⟩

/-- Any write extends a sanitised document and leaves it sanitised. -/
theorem serialWrite_extends (host : Host) {server : ServerState} (request : StoreRequest)
    (isSanitised : IsSanitised server.document) :
    IsSanitised (serialWrite host server request).document ∧
      Extends server.document (serialWrite host server request).document := by
  rcases serialWrite_outcome isSanitised with ⟨-, kept⟩ | ⟨data, -, ⟨-, kept⟩ | ⟨-, pushed, -⟩⟩
  · rw [kept]
    exact ⟨isSanitised, Extends.refl _⟩
  · rw [kept]
    exact ⟨isSanitised, Extends.refl _⟩
  · exact ⟨pushed.isSanitised isSanitised (storedEntry_isRecord _ _ _) (sanitizeEntry_idempotent _ _),
      pushed.extends⟩

theorem serialRun_extends (host : Host) {server : ServerState} (requests : List StoreRequest)
    (isSanitised : IsSanitised server.document) :
    IsSanitised (Runs.after (serialWrite host) server requests).document ∧
      Extends server.document (Runs.after (serialWrite host) server requests).document := by
  refine Runs.after_invariant
    (fun reached : ServerState => IsSanitised reached.document ∧ Extends server.document reached.document)
    ?_ ⟨isSanitised, Extends.refl _⟩
  intro reached request _ kept
  have next := serialWrite_extends host request kept.1
  exact ⟨next.1, kept.2.trans next.2⟩

/-! ### Writing registrations -/

section RegisterWrite

variable {host : Host} {server : ServerState} {request : StoreRequest} {id : JsString} {number : Int}

theorem sameInstitution_iff {data : Record}
    (numbered : data (js "institutionId") = .json (.num number))
    {old : Json} (isRecord : IsRecord old) :
    sameInstitution data old = some true ↔ old.field (js "institutionId") = some (.num number) := by
  rw [sameInstitution, member_of_isRecord isRecord, numbered, Option.map_some, Option.some.injEq]
  exact strictEquals_iff (by simp [Json.strictEquals])

theorem registerWrite_cases (isSanitised : IsSanitised server.document)
    (accepted : accepts host server request = true) (registers : request.call.type = .register)
    (given : request.call.data (js "institutionId") = .json (.str id))
    (parsed : parseInt10 id = .finite number) :
    ((∃ entry ∈ entriesOf .register server.document,
        entry.field (js "institutionId") = some (.num number)) ∧
      (serialWrite host server request).document = server.document) ∨
    ((∀ entry ∈ entriesOf .register server.document,
        entry.field (js "institutionId") ≠ some (.num number)) ∧
      ∃ data, sanitizeData host request.call.data = some data ∧
        Pushed .register server.document (serialWrite host server request).document
          (storedEntry .register data request.call.stampedAt) ∧
        (storedEntry .register data request.call.stampedAt).field (js "institutionId") =
          some (.num number)) := by
  obtain ⟨data, done, outcome⟩ := accepted_cases isSanitised accepted
  have numbered : data (js "institutionId") = .json (.num number) := by
    have read := (sanitizeData_spec done).1
    rw [given] at read
    simp only [parseInstitutionId, stringOf, Option.map_some, parsed, ParsedInt.toValue,
      Option.some.injEq] at read
    exact read.symm
  rw [registers] at outcome
  have same_iff := fun old member =>
    sameInstitution_iff numbered (isSanitised.records .register old member)
  rcases outcome with ⟨⟨old, member, passed⟩, kept⟩ | ⟨tested, pushed⟩
  · exact .inl ⟨⟨old, member, (same_iff old member).mp passed⟩, kept⟩
  · refine .inr ⟨?_, data, done, pushed, ?_⟩
    · intro entry member found
      have passed := (same_iff entry member).mpr found
      cases (tested entry member).symm.trans passed
    · rw [field_storedEntry .register data _ (by decide), numbered]
      rfl

end RegisterWrite

theorem registerPhase {host : Host} {document : Json} {registrations : List Json}
    {steps : List (Option SyncCall)}
    (areSteps : List.Forall₂ (RegisterStep document) registrations steps) {server : ServerState}
    {settings : Nat → WriteSetting} (isSanitised : IsSanitised server.document)
    (grown : Extends document server.document)
    (accepted : WritesAccepted host server (schedule (steps.filterMap id) settings)) :
    let reached := Runs.after (serialWrite host) server (schedule (steps.filterMap id) settings)
    entriesOf .submit reached.document = entriesOf .submit server.document ∧
      ∀ registration ∈ registrations, IsRegistered reached.document registration := by
  induction areSteps generalizing server settings with
  | nil => exact ⟨rfl, by simp⟩
  | @cons registration step rest steps isStep _ inductionHypothesis =>
      cases step with
      | none =>
          have later := inductionHypothesis isSanitised grown accepted
          refine ⟨later.1, List.forall_mem_cons.mpr ⟨?_, later.2⟩⟩
          have extended := (serialRun_extends host (schedule (steps.filterMap id) settings) isSanitised).2
          exact (grown.trans extended).isRegistered isStep
      | some call =>
          obtain ⟨id, number, named, parsed, registers, given, -⟩ := isStep
          have next := serialWrite_extends host (call.request (settings 0)) isSanitised
          have later := inductionHypothesis next.1 (grown.trans next.2) accepted.2
          have written : entriesOf .submit
                (serialWrite host server (call.request (settings 0))).document =
                entriesOf .submit server.document ∧
              IsRegistered (serialWrite host server (call.request (settings 0))).document
                registration := by
            rcases registerWrite_cases isSanitised accepted.1 registers given parsed with
              ⟨⟨entry, member, found⟩, kept⟩ | ⟨-, data, -, pushed, found⟩
            · rw [kept]
              exact ⟨rfl, entry, member, id, named, .inr ⟨number, parsed, found⟩⟩
            · exact ⟨pushed.other, _, pushed.mem, id, named, .inr ⟨number, parsed, found⟩⟩
          refine ⟨later.1.trans written.1, List.forall_mem_cons.mpr ⟨?_, later.2⟩⟩
          exact (serialRun_extends host _ next.1).2.isRegistered written.2

/-- Registrations that are there already are posted, and found. -/
theorem registerPhase_kept {host : Host} {document : Json} {registrations : List Json}
    {steps : List (Option SyncCall)}
    (areSteps : List.Forall₂ (RegisterStep document) registrations steps)
    (present : ∀ registration ∈ registrations, IsRegistered document registration)
    {server : ServerState} {settings : Nat → WriteSetting} (isSanitised : IsSanitised document)
    (same : server.document = document)
    (accepted : WritesAccepted host server (schedule (steps.filterMap id) settings)) :
    (Runs.after (serialWrite host) server (schedule (steps.filterMap id) settings)).document =
      document := by
  induction areSteps generalizing server settings with
  | nil => exact same
  | @cons registration step rest steps isStep _ inductionHypothesis =>
      obtain ⟨registered, others⟩ := List.forall_mem_cons.mp present
      cases step with
      | none => exact inductionHypothesis others same accepted
      | some call =>
          obtain ⟨id, number, named, parsed, registers, given, noText⟩ := isStep
          apply inductionHypothesis others _ accepted.2
          rcases registerWrite_cases (same ▸ isSanitised) accepted.1 registers given parsed with
            ⟨-, kept⟩ | ⟨absent, -⟩
          · exact kept.trans same
          · obtain ⟨entry, member, text, equal, stored⟩ := registered
            cases named.symm.trans equal
            rcases stored with stored | ⟨other, parsedOther, stored⟩
            · exact absurd stored (noText entry member)
            · cases parsed.symm.trans parsedOther
              rw [same] at absent
              exact absurd stored (absent entry member)

/-! ### Writing submissions -/

/-- Without a transaction only the hash can be the same. -/
theorem sameSubmission_eq_true {data : Record} {old : Json} (isRecord : IsRecord old)
    (untransacted : data (js "txId") = .undefined) (passed : sameSubmission data old = some true) :
    ∃ value : Json, value.truthy = true ∧ old.field (js "gradientHash") = some value ∧
      data (js "gradientHash") = .json value := by
  have noTransaction : ∀ value : JsValue, value.truthy = true → value.strictEquals .undefined = false := by
    intro value truthy
    cases value with
    | undefined => cases truthy
    | _ => rfl
  rw [sameSubmission, member_of_isRecord isRecord, member_of_isRecord isRecord] at passed
  simp only [Option.bind_eq_bind, Option.bind_some, Option.pure_def, Option.some.injEq, Bool.or_eq_true,
    Bool.and_eq_true, untransacted] at passed
  rcases passed with ⟨truthy, equal⟩ | ⟨truthy, equal⟩
  · cases found : old.field (js "gradientHash") with
    | none =>
        rw [found] at truthy
        cases truthy
    | some value =>
        rw [found] at truthy equal
        exact ⟨value, truthy, rfl, (JsValue.eq_of_strictEquals equal).symm⟩
  · rw [noTransaction _ truthy] at equal
    cases equal

section SubmitWrite

variable {host : Host} {page : PollingPage} {record : Json} {event : SubmitEvent} {data : Record}

theorem submitEvent_gradientHash (isRecord : IsRecord record)
    (read : submitEvent page record = some event) :
    event.gradientHash = (record.field (js "gradientHash")).elim .undefined .json := by
  obtain ⟨other, same, hash, -⟩ := submitEvent_of_isRecord page isRecord
  cases read.symm.trans same
  exact hash

theorem data_gradientHash (isRecord : IsRecord record) (read : submitEvent page record = some event)
    (done : sanitizeData host (submissionData event) = some data) :
    data (js "gradientHash") =
      sanitizedValue ((record.field (js "gradientHash")).elim .undefined .json) := by
  rw [sanitizeData_gradientHash done, ← submitEvent_gradientHash isRecord read]
  rfl

/-- The hash tells the update of a submission from that of a registration. -/
theorem IsSubmissionRecord.data_gradientHash {hash : JsString}
    (submission : IsSubmissionRecord record hash) (read : submitEvent page record = some event)
    (done : sanitizeData host (submissionData event) = some data) :
    data (js "gradientHash") = .json (.str hash) := by
  rw [Frontend.data_gradientHash submission.isRecord read done, submission.hashed]
  show JsValue.json (.str (sanitize (.json (.str hash)))) = _
  rw [submission.sanitised]

theorem IsEventRecord.data_gradientHash (registration : IsEventRecord record)
    (read : submitEvent page record = some event)
    (done : sanitizeData host (submissionData event) = some data) :
    data (js "gradientHash") = .undefined := by
  rw [Frontend.data_gradientHash registration.isRecord read done, registration.unhashed]
  rfl

theorem IsSubmissionRecord.entry_gradientHash {entry : Json} {hash : JsString}
    (submission : IsSubmissionRecord record hash) (isEntry : IsEntryOf host entry record) :
    entry.field (js "gradientHash") = some (.str hash) := by
  obtain ⟨page, event, data, now, read, done, rfl⟩ := isEntry
  rw [field_storedEntry .submit data now (by decide), submission.data_gradientHash read done]
  rfl

theorem IsEventRecord.entry_gradientHash {entry : Json} (registration : IsEventRecord record)
    (isEntry : IsEntryOf host entry record) : entry.field (js "gradientHash") = none := by
  obtain ⟨page, event, data, now, read, done, rfl⟩ := isEntry
  rw [field_storedEntry .submit data now (by decide), registration.data_gradientHash read done]
  rfl

theorem IsSubmissionRecord.shareKey {entry : Json} {hash : JsString}
    (submission : IsSubmissionRecord record hash)
    (found : entry.field (js "gradientHash") = some (.str hash)) :
    ShareKey (js "gradientHash") entry record :=
  ⟨.str hash, by simp [Json.truthy, submission.notEmpty], found, submission.hashed⟩

/-- A submission is found by its hash or added; the record of a registration is
always added. -/
theorem submitWrite_cases {server : ServerState} {setting : WriteSetting}
    (kind : IsEventRecord record ∨ ∃ hash, IsSubmissionRecord record hash)
    (read : submitEvent page record = some event) (isSanitised : IsSanitised server.document)
    (accepted : accepts host server
      (SyncCall.request ⟨.submit, submissionData event⟩ setting) = true) :
    let reached := serialWrite host server (SyncCall.request ⟨.submit, submissionData event⟩ setting)
    (IsTyped "SUBMIT" record → IsListed reached.document record) ∧
    ((¬ IsEventRecord record ∧ reached.document = server.document) ∨
      ∃ entry, Pushed .submit server.document reached.document entry ∧ IsEntryOf host entry record) := by
  intro reached
  obtain ⟨data, done, outcome⟩ := accepted_cases isSanitised accepted
  change sanitizeData host (submissionData event) = some data at done
  have untransacted : data (js "txId") = .undefined := (sanitizeData_spec done).2.2
  rcases outcome with ⟨⟨old, member, passed⟩, kept⟩ | ⟨-, pushed⟩
  · obtain ⟨value, -, found, same⟩ := sameSubmission_eq_true
      (isSanitised.records .submit old member) untransacted passed
    rcases kind with registration | ⟨hash, submission⟩
    · cases (registration.data_gradientHash read done).symm.trans same
    · cases (submission.data_gradientHash read done).symm.trans same
      refine ⟨fun _ => ?_, .inl ⟨fun registration => ?_, kept⟩⟩
      · show IsListed reached.document record
        rw [kept]
        exact ⟨old, member, .inl (submission.shareKey found)⟩
      · cases registration.unhashed.symm.trans submission.hashed
  · change Pushed .submit server.document reached.document
      (storedEntry .submit data setting.stampedAt) at pushed
    have isEntry : IsEntryOf host (storedEntry .submit data setting.stampedAt) record :=
      ⟨page, event, data, setting.stampedAt, read, done, rfl⟩
    refine ⟨fun submits => ?_, .inr ⟨_, pushed, isEntry⟩⟩
    rcases kind with registration | ⟨hash, submission⟩
    · exact absurd submits registration.not_submit
    · exact ⟨_, pushed.mem, .inl (submission.shareKey (submission.entry_gradientHash isEntry))⟩

end SubmitWrite

/-- The second half of a poll. `posted` are the records for which it has added an
update, in the order of both lists. -/
structure SubmitPhase (host : Host) (document : Json) (records : List Json) (before after : Json)
    (appended posted : List Json) : Prop where
  grows : entriesOf .submit after = entriesOf .submit before ++ appended
  sublist : posted.Sublist records
  unlisted : ∀ record ∈ posted, ¬ IsListed document record
  entries : List.Forall₂ (IsEntryOf host) appended posted
  arrive : ∀ record ∈ records, IsTyped "SUBMIT" record → IsListed after record
  registrations : ∀ record ∈ records, IsEventRecord record → ¬ IsListed document record →
    record ∈ posted

theorem submitPhase {host : Host} {page : PollingPage} {document : Json} {records : List Json}
    {steps : List (Option SyncCall)}
    (areSteps : List.Forall₂ (SubmitStep page document) records steps)
    (kinds : ∀ record ∈ records, IsEventRecord record ∨ ∃ hash, IsSubmissionRecord record hash)
    {server : ServerState} {settings : Nat → WriteSetting}
    (isSanitised : IsSanitised server.document)
    (grown : Extends document server.document)
    (accepted : WritesAccepted host server (schedule (steps.filterMap id) settings)) :
    ∃ appended posted, SubmitPhase host document records server.document
      (Runs.after (serialWrite host) server (schedule (steps.filterMap id) settings)).document
      appended posted := by
  induction areSteps generalizing server settings with
  | nil => exact ⟨[], [], by simp [schedule], .slnil, by simp, .nil, by simp, by simp⟩
  | @cons record step rest steps isStep _ inductionHypothesis =>
      obtain ⟨kind, others⟩ := List.forall_mem_cons.mp kinds
      cases step with
      | none =>
          obtain ⟨appended, posted, later⟩ := inductionHypothesis others isSanitised grown accepted
          have extended := (serialRun_extends host (schedule (steps.filterMap id) settings) isSanitised).2
          refine ⟨appended, posted, later.grows, later.sublist.cons record, later.unlisted,
            later.entries, ?_, ?_⟩
          · exact List.forall_mem_cons.mpr
              ⟨fun _ => (grown.trans extended).isListed isStep, later.arrive⟩
          · exact List.forall_mem_cons.mpr
              ⟨fun _ unlisted => absurd isStep unlisted, later.registrations⟩
      | some call =>
          obtain ⟨unlisted, event, read, rfl⟩ := isStep
          obtain ⟨nextSanitised, nextGrown⟩ := serialWrite_extends host
            (SyncCall.request ⟨.submit, submissionData event⟩ (settings 0)) isSanitised
          obtain ⟨appended, posted, later⟩ := inductionHypothesis others nextSanitised
            (grown.trans nextGrown) accepted.2
          obtain ⟨arrives, outcome⟩ := submitWrite_cases kind read isSanitised accepted.1
          have extended := (serialRun_extends host
            (schedule (steps.filterMap id) fun index => settings (index + 1)) nextSanitised).2
          have arrive := fun submits : IsTyped "SUBMIT" record => extended.isListed (arrives submits)
          rcases outcome with ⟨notEvent, kept⟩ | ⟨entry, pushed, isEntry⟩
          · refine ⟨appended, posted, ?_, later.sublist.cons record, later.unlisted,
              later.entries, List.forall_mem_cons.mpr ⟨arrive, later.arrive⟩, ?_⟩
            · rw [← kept]
              exact later.grows
            · exact List.forall_mem_cons.mpr
                ⟨fun registration => absurd registration notEvent, later.registrations⟩
          · refine ⟨entry :: appended, record :: posted, ?_, later.sublist.cons_cons record,
              List.forall_mem_cons.mpr ⟨unlisted, later.unlisted⟩, .cons isEntry later.entries,
              List.forall_mem_cons.mpr ⟨arrive, later.arrive⟩, ?_⟩
            · rw [List.append_cons, ← pushed.own]
              exact later.grows
            · refine List.forall_mem_cons.mpr ⟨fun _ _ => List.mem_cons_self, ?_⟩
              intro other member registration absent
              exact List.mem_cons_of_mem record (later.registrations other member registration absent)

/-! ### Polls -/

theorem schedule_append (first second : List SyncCall) (settings : Nat → WriteSetting) :
    ∃ later, schedule (first ++ second) settings = schedule first settings ++ schedule second later := by
  induction first generalizing settings with
  | nil => exact ⟨settings, rfl⟩
  | cons call rest inductionHypothesis =>
      obtain ⟨later, same⟩ := inductionHypothesis fun index => settings (index + 1)
      exact ⟨later, congrArg (call.request (settings 0) :: ·) same⟩

section Polls

variable {host : Host} {storage : LocalStorage} {server : ServerState} {poll : Poll}

variable (host storage) in
theorem runPoll_extends (poll : Poll) (isSanitised : IsSanitised server.document) :
    IsSanitised (runPoll host storage server poll).document ∧
      Extends server.document (runPoll host storage server poll).document :=
  serialRun_extends host _ isSanitised

theorem runPoll_outcome (isProduced : IsProduced storage)
    (isSanitised : IsSanitised server.document)
    (accepted : WritesAccepted host server (poll.requests host storage server)) :
    (∀ registration ∈ storage.registrations,
      IsRegistered (runPoll host storage server poll).document registration) ∧
    ∃ appended posted, SubmitPhase host server.document storage.updates server.document
      (runPoll host storage server poll).document appended posted := by
  obtain ⟨registerSteps, submitSteps, areRegisterSteps, areSubmitSteps, calls⟩ :=
    calls_spec host poll isProduced isSanitised
  obtain ⟨settings, split⟩ :=
    schedule_append (registerSteps.filterMap id) (submitSteps.filterMap id) poll.settings
  have requests : poll.requests host storage server =
      schedule (registerSteps.filterMap id) poll.settings ++
        schedule (submitSteps.filterMap id) settings := by
    rw [← split, ← calls]
    rfl
  rw [requests] at accepted
  obtain ⟨acceptedFirst, acceptedSecond⟩ := Runs.along_append.mp accepted
  obtain ⟨unsubmitted, registered⟩ :=
    registerPhase areRegisterSteps isSanitised (Extends.refl _) acceptedFirst
  obtain ⟨middleSanitised, middleGrown⟩ := serialRun_extends host
    (schedule (registerSteps.filterMap id) poll.settings) isSanitised
  obtain ⟨appended, posted, submitted⟩ := submitPhase areSubmitSteps
    (fun record member => record_cases isProduced member) middleSanitised middleGrown acceptedSecond
  have final := (serialRun_extends host (schedule (submitSteps.filterMap id) settings) middleSanitised).2
  rw [runPoll, requests, Runs.after_append]
  refine ⟨fun registration member => final.isRegistered (registered registration member),
    appended, posted, { submitted with grows := ?_ }⟩
  rw [submitted.grows, unsubmitted]

/-- Everything that a poll might post is there. -/
structure NothingNew (storage : LocalStorage) (document : Json) : Prop where
  present : AllPresent storage document
  registrations : ∀ record ∈ storage.updates, IsTyped "REGISTER" record → IsListed document record

theorem NothingNew.isListed {document : Json} (nothingNew : NothingNew storage document)
    (isProduced : IsProduced storage) {record : Json} (member : record ∈ storage.updates) :
    IsListed document record := by
  rcases record_cases isProduced member with registration | ⟨hash, submission⟩
  · exact nothingNew.registrations record member registration.registers
  · exact nothingNew.present.submissions record member submission.submits

theorem filterMap_submitSteps {page : PollingPage} {document : Json} {records : List Json}
    {steps : List (Option SyncCall)}
    (areSteps : List.Forall₂ (SubmitStep page document) records steps)
    (listed : ∀ record ∈ records, IsListed document record) : steps.filterMap id = [] := by
  induction areSteps with
  | nil => rfl
  | @cons record step rest steps isStep _ inductionHypothesis =>
      obtain ⟨first, others⟩ := List.forall_mem_cons.mp listed
      cases step with
      | none => exact inductionHypothesis others
      | some call => exact absurd first isStep.1

theorem runPoll_kept (isProduced : IsProduced storage) (isSanitised : IsSanitised server.document)
    (accepted : WritesAccepted host server (poll.requests host storage server))
    (nothingNew : NothingNew storage server.document) :
    (runPoll host storage server poll).document = server.document := by
  obtain ⟨registerSteps, submitSteps, areRegisterSteps, areSubmitSteps, calls⟩ :=
    calls_spec host poll isProduced isSanitised
  have requests : poll.requests host storage server =
      schedule (registerSteps.filterMap id) poll.settings := by
    rw [filterMap_submitSteps areSubmitSteps fun record member => nothingNew.isListed isProduced member,
      List.append_nil] at calls
    rw [← calls]
    rfl
  rw [requests] at accepted
  rw [runPoll, requests]
  exact registerPhase_kept areRegisterSteps nothingNew.present.registrations isSanitised rfl accepted

variable (host storage) in
theorem polls_extend (polls : List Poll) (isSanitised : IsSanitised server.document) :
    IsSanitised (Runs.after (runPoll host storage) server polls).document ∧
      Extends server.document (Runs.after (runPoll host storage) server polls).document := by
  refine Runs.after_invariant
    (fun reached : ServerState => IsSanitised reached.document ∧ Extends server.document reached.document)
    ?_ ⟨isSanitised, Extends.refl _⟩
  intro reached poll _ kept
  have next := runPoll_extends host storage poll kept.1
  exact ⟨next.1, kept.2.trans next.2⟩

theorem polls_kept {polls : List Poll} (isProduced : IsProduced storage)
    (isSanitised : IsSanitised server.document) (accepted : PollsAccepted host storage server polls)
    (nothingNew : NothingNew storage server.document) :
    (Runs.after (runPoll host storage) server polls).document = server.document := by
  refine Runs.Along.invariant (fun reached : ServerState => reached.document = server.document) ?_
    accepted rfl
  intro reached poll acceptedPoll same
  rw [← same] at isSanitised nothingNew
  exact (runPoll_kept isProduced isSanitised acceptedPoll nothingNew).trans same

end Polls

/-! ### Runs of polls -/

theorem IsEventRecord.isListed_iff {document record : Json} (registration : IsEventRecord record) :
    IsListed document record ↔
      ∃ entry ∈ entriesOf .submit document, ShareKey (js "timestamp") entry record := by
  refine exists_congr fun entry => and_congr_right fun _ => or_iff_right ?_
  rintro ⟨value, -, -, hashed⟩
  cases registration.unhashed.symm.trans hashed

theorem isEventRecord_of_typed {storage : LocalStorage} (isProduced : IsProduced storage)
    {record : Json} (member : record ∈ storage.updates) (registers : IsTyped "REGISTER" record) :
    IsEventRecord record := by
  rcases record_cases isProduced member with registration | ⟨hash, submission⟩
  · exact registration
  · exact absurd (submission.submits.symm.trans registers) (by simp [js])

private theorem exists_related {Left Right : Type} {Related : Left → Right → Prop}
    {lefts : List Left}
    {rights : List Right} (related : List.Forall₂ Related lefts rights) {left : Left}
    (member : left ∈ lefts) : ∃ right ∈ rights, Related left right := by
  induction related with
  | nil => cases member
  | cons first _ inductionHypothesis =>
      rcases List.mem_cons.mp member with rfl | later
      · exact ⟨_, List.mem_cons_self, first⟩
      · obtain ⟨right, found, isRelated⟩ := inductionHypothesis later
        exact ⟨right, List.mem_cons_of_mem _ found, isRelated⟩

section Convergence

variable {host : Host} {storage : LocalStorage} {server : ServerState} {polls : List Poll}

/-- The polls that follow a first one find nothing new, if the records of
registrations were listed before it. -/
theorem converges_of_listed (isProduced : IsProduced storage)
    (isSanitised : IsSanitised server.document)
    {poll : Poll} (accepted : PollsAccepted host storage server (poll :: polls))
    (listed : ∀ record ∈ storage.updates, IsTyped "REGISTER" record → IsListed server.document record) :
    Converges host storage server (poll :: polls) := by
  obtain ⟨registered, appended, posted, phase⟩ := runPoll_outcome isProduced isSanitised accepted.1
  obtain ⟨nextSanitised, nextGrown⟩ := runPoll_extends host storage poll isSanitised
  have nothingNew : NothingNew storage (runPoll host storage server poll).document :=
    ⟨⟨registered, phase.arrive⟩,
      fun record member registers => nextGrown.isListed (listed record member registers)⟩
  have settled := polls_kept isProduced nextSanitised accepted.2 nothingNew
  refine ⟨⟨appended, posted, ?_, phase.sublist, ?_, phase.entries⟩, ?_, ?_⟩
  · rw [Runs.after_cons, settled]
    exact phase.grows
  · intro record member
    rcases record_cases isProduced (phase.sublist.subset member) with registration | ⟨hash, submission⟩
    · exact absurd (listed record (phase.sublist.subset member) registration.registers)
        (phase.unlisted record member)
    · exact submission.submits
  · intro _
    rw [Runs.after_cons, settled]
    exact nothingNew.present
  · intro first later split present
    rw [split] at accepted ⊢
    obtain ⟨firstSanitised, firstGrown⟩ := polls_extend host storage first isSanitised
    rw [Runs.after_append]
    refine polls_kept isProduced firstSanitised (Runs.along_append.mp accepted).2 ⟨present, ?_⟩
    exact fun record member registers => firstGrown.isListed (listed record member registers)

/-- A record of a registration that is not listed is posted as an update without a
hash, which is no submission's. -/
theorem listed_of_converges (isProduced : IsProduced storage)
    (isSanitised : IsSanitised server.document)
    {poll : Poll} (accepted : PollsAccepted host storage server (poll :: polls))
    (converges : Converges host storage server (poll :: polls)) {record : Json}
    (member : record ∈ storage.updates) (registration : IsEventRecord record) :
    IsListed server.document record := by
  by_contra unlisted
  obtain ⟨-, appended, posted, phase⟩ := runPoll_outcome isProduced isSanitised accepted.1
  obtain ⟨entry, added, isEntry⟩ := exists_related phase.entries.flip
    (phase.registrations record member registration unlisted)
  obtain ⟨nextSanitised, -⟩ := runPoll_extends host storage poll isSanitised
  obtain ⟨more, grown⟩ := (polls_extend host storage polls nextSanitised).2 .submit
  obtain ⟨all, submissions, grows, sublist, submit, entries⟩ := converges.appends
  have same : all = appended ++ more := by
    rw [Runs.after_cons, ← grown, phase.grows, List.append_assoc] at grows
    exact (List.append_cancel_left grows).symm
  obtain ⟨other, chosen, isOther⟩ := exists_related entries
    (show entry ∈ all by rw [same]; exact List.mem_append_left more added)
  rcases record_cases isProduced (sublist.subset chosen) with otherRegistration | ⟨hash, submission⟩
  · exact otherRegistration.not_submit (submit other chosen)
  · cases (registration.entry_gradientHash isEntry).symm.trans (submission.entry_gradientHash isOther)

end Convergence

/-- Repeated polls converge exactly if there are none, or if each record of a
registration in the local history has the time of some update that the shared
document starts with. -/
theorem polls_converge_iff (host : Host) (actions : List PageAction) (server : ServerState)
    (polls : List Poll) (isSanitised : IsSanitised server.document)
    (accepted : PollsAccepted host (produced actions) server polls) :
    Converges host (produced actions) server polls ↔
      polls = [] ∨ ∀ record ∈ (produced actions).updates, IsTyped "REGISTER" record →
        ∃ entry ∈ entriesOf .submit server.document, ShareKey (js "timestamp") entry record := by
  have isProduced := produced_isProduced actions
  cases polls with
  | nil =>
      refine iff_of_true ⟨⟨[], [], by simp, by simp, by simp, .nil⟩, fun some => absurd rfl some, ?_⟩
        (.inl rfl)
      intro first later split _
      rw [(List.append_eq_nil_iff.mp split.symm).1]
  | cons poll polls =>
      rw [or_iff_right (List.cons_ne_nil poll polls)]
      constructor
      · intro converges record member registers
        have registration := isEventRecord_of_typed isProduced member registers
        exact registration.isListed_iff.mp
          (listed_of_converges isProduced isSanitised accepted converges member registration)
      · intro timed
        apply converges_of_listed isProduced isSanitised accepted
        intro record member registers
        exact (isEventRecord_of_typed isProduced member registers).isListed_iff.mpr
          (timed record member registers)

/-- A poll in which the server is configured and nothing limits the writes. -/
def quietPoll (page : PollingPage) : Poll where
  page
  settings := fun index => ⟨none, 0, 1000 + index, none,
    ⟨0, some (js "gist"), none, some (js "token"), .replied 200⟩⟩

theorem polls_converge_iff_one_submission :
    let host : Host := ⟨fun _ => none, fun _ _ => none⟩
    let server : ServerState := ⟨fun _ => [], defaultDocument⟩
    let submission : Submission := ⟨.moneyLaundering, List.replicate 64 97, js "902100", 7, js "tx",
      .num 12, List.length_replicate, fun unit listed => List.eq_of_mem_replicate listed ▸ by decide⟩
    let actions : List PageAction := [.submit submission]
    let polls := [quietPoll .network, quietPoll .home]
    PollsAccepted host (produced actions) server polls ∧
      (entriesOf .submit (Runs.after (runPoll host (produced actions)) server polls).document).length = 1 ∧
      Converges host (produced actions) server polls := by
  intro host server submission actions polls
  have accepted : PollsAccepted host (produced actions) server polls := by
    unfold PollsAccepted WritesAccepted
    decide +kernel
  refine ⟨accepted, by decide +kernel, ?_⟩
  apply (polls_converge_iff host actions server polls storeInvariant_defaultDocument.toIsSanitised
    accepted).mpr
  right
  intro record member registers
  have only : record = submission.record := by
    have updates : (produced actions).updates = [submission.record] := rfl
    rw [updates] at member
    exact List.mem_singleton.mp member
  subst only
  exact absurd registers (by simp [IsTyped, Submission.record, Json.ofFields, Json.field, js])

/-- A browser that has only registered: every poll adds one more update. -/
theorem polls_repeat_registration :
    let host : Host := ⟨fun _ => none, fun _ _ => none⟩
    let server : ServerState := ⟨fun _ => [], defaultDocument⟩
    let attempt : RegistrationAttempt :=
      ⟨some (js "mtst1"), true, js "First Bank", true, some (.num 12), 5, 6⟩
    let actions : List PageAction := [.register attempt]
    let polls := [quietPoll .network, quietPoll .home, quietPoll .network]
    IsSanitised server.document ∧ PollsAccepted host (produced actions) server polls ∧
      (entriesOf .submit (Runs.after (runPoll host (produced actions)) server polls).document).length = 3 ∧
      ¬ Converges host (produced actions) server polls := by
  intro host server attempt actions polls
  have accepted : PollsAccepted host (produced actions) server polls := by
    unfold PollsAccepted WritesAccepted
    decide +kernel
  have grown : (entriesOf .submit
      (Runs.after (runPoll host (produced actions)) server polls).document).length = 3 := by
    decide +kernel
  refine ⟨storeInvariant_defaultDocument.toIsSanitised, accepted, grown, ?_⟩
  intro converges
  obtain ⟨appended, submissions, grows, sublist, submit, entries⟩ := converges.appends
  have none : submissions = [] := by
    have updates : (produced actions).updates = [attempt.event (js "mtst1")] := rfl
    apply List.eq_nil_iff_forall_not_mem.mpr
    intro record chosen
    have member := sublist.subset chosen
    rw [updates] at member
    rw [List.mem_singleton.mp member] at chosen
    exact (isEventRecord attempt (js "mtst1")).not_submit (submit _ chosen)
  rw [none] at entries
  cases entries
  rw [grows] at grown
  cases grown

end MidenWorkspace.Frontend
