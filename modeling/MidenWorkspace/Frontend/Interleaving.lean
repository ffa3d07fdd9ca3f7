import MidenWorkspace.Frontend.Entry
import MidenWorkspace.Library.ReadModifyWrite

/-!
Contract: clients whose writes to the shared document overlap.

Owns the system of any number of clients, each of which reads the document and
later posts its merge of what it read, and the schedules on which no client's
entry is lost: those in which no write falls between a client's read and its own
write.

The gist has no versions and the route does not compare, so a write replaces
whatever has been written since the client's read.
-/

namespace MidenWorkspace.Frontend

open MidenWorkspace.Library.ReadModifyWrite

/-! ### What the duplicate test says of another client's entry -/

/-- The keys of two calls of one type differ. -/
def KeysDiffer : ActivityType → Record → Record → Prop
  | .register => fun first second => first (js "institutionId") ≠ second (js "institutionId")
  | .submit => fun first second => first (js "gradientHash") ≠ second (js "gradientHash") ∧
      first (js "txId") ≠ second (js "txId")

/-- The value that `JSON.stringify` leaves equals only the value it was. -/
theorem eq_of_strictEquals_toJson {stored other : JsValue}
    (truthy : ((stored.toJson).elim .undefined .json : JsValue).truthy = true)
    (equal : ((stored.toJson).elim .undefined .json : JsValue).strictEquals other = true) :
    stored = other := by
  have same := JsValue.eq_of_strictEquals equal
  match stored with
  | .undefined => exact same
  | .json value => exact same
  | .nan | .infinity _ => cases truthy

/-- A client does not take the entry of another client for its own. -/
theorem sameEntry_storedEntry {host : Host} {firstData secondData first second : Record}
    (doneFirst : sanitizeData host firstData = some first)
    (doneSecond : sanitizeData host secondData = some second) {type : ActivityType}
    (differ : KeysDiffer type first second) (now : Int) :
    sameEntry type second (storedEntry type first now) = some false := by
  have record := storedEntry_isRecord type first now
  have stored : ∀ key, IsKey key → (storedEntry type first now).member key =
      some (((first key).toJson).elim .undefined .json) := by
    intro key isKey
    rw [member_of_isRecord record, field_storedEntry type first now isKey]
  cases type with
  | register =>
      rw [sameEntry, sameInstitution, stored _ (by decide), Option.map_some, Option.some.injEq]
      refine Bool.eq_false_iff.mpr fun equal => ?_
      have same := JsValue.eq_of_strictEquals equal
      rcases parseInstitutionId_cases (sanitizeData_spec doneFirst).1 with absent | ⟨_, overflow⟩ |
        ⟨_, number⟩
      · rw [absent] at same
        exact differ (absent.trans same)
      · -- an overflowed id is stored as `null`, which no sanitised id is
        rw [overflow] at same
        rcases parseInstitutionId_cases (sanitizeData_spec doneSecond).1 with other | ⟨_, other⟩ |
          ⟨_, other⟩
        · cases same.trans other
        · cases same.trans other
        · cases same.trans other
      · rw [number] at same
        exact differ (number.trans same)
  | submit =>
      rw [sameEntry, sameSubmission, stored _ (by decide), stored _ (by decide)]
      simp only [Option.bind_eq_bind, Option.bind_some, Option.pure_def, Option.some.injEq,
        Bool.or_eq_false_iff]
      constructor
      · refine Bool.eq_false_iff.mpr fun both => ?_
        obtain ⟨truthy, equal⟩ := Bool.and_eq_true_iff.mp both
        exact differ.1 (eq_of_strictEquals_toJson truthy equal)
      · refine Bool.eq_false_iff.mpr fun both => ?_
        obtain ⟨truthy, equal⟩ := Bool.and_eq_true_iff.mp both
        exact differ.2 (eq_of_strictEquals_toJson truthy equal)

/-- Sanitising an entry on the server does not change what the test says of it. -/
theorem sameEntry_sanitizeEntry (type : ActivityType) (data : Record) (entry : Json) :
    sameEntry type data (sanitizeEntry type entry) = sameEntry type data entry := by
  have kept : ∀ key, IsKey key → (sanitizeEntry type entry).member key = entry.member key := by
    intro key isKey
    have field := field_sanitizeEntry type entry isKey
    cases entry with
    | obj property =>
        have record : IsRecord (sanitizeEntry type (.obj property)) := by
          cases type <;> exact ⟨_, rfl⟩
        rw [member_of_isRecord record, member_of_isRecord ⟨property, rfl⟩, field]
    | _ => cases type <;> rfl
  cases type with
  | register => simp only [sameEntry, sameInstitution, kept _ (show IsKey (js "institutionId") by decide)]
  | submit => simp only [sameEntry, sameSubmission, kept _ (show IsKey (js "gradientHash") by decide),
      kept _ (show IsKey (js "txId") by decide)]

/-! ### The system -/

section System

variable {Client : Type} (host : Host) (requests : Client → StoreRequest)

/-- The write step of a client that has read `copy`. -/
def writeStep (client : Client) (copy : Json) (server : ServerState) : WriteOutcome :=
  sendBody host (requests client).environment server (requests client).call
    (postedBody host (requests client).call copy)

/-- The document holds the client's entry or, where `initial` held one that the client
takes for its own, that entry as the route sanitises it. -/
def Recorded (initial : Json) (client : Client) (document : Json) : Prop :=
  ∃ data, sanitizeData host (requests client).call.data = some data ∧
    (storedEntry (requests client).call.type data (requests client).call.stampedAt ∈
        entriesOf (requests client).call.type document ∨
      ∃ old ∈ entriesOf (requests client).call.type initial,
        sameEntry (requests client).call.type data old = some true ∧
          sanitizeEntry (requests client).call.type old ∈
            entriesOf (requests client).call.type document)

/-- `entry` is the one that a client in `done` has added. -/
def AddedBy (done : List Client) (type : ActivityType) (entry : Json) : Prop :=
  ∃ client ∈ done, (requests client).call.type = type ∧
    ∃ data, sanitizeData host (requests client).call.data = some data ∧
      entry = storedEntry type data (requests client).call.stampedAt

/-- Every entry was there from the start or was added by a client in `done`. -/
def Accounted (initial : Json) (done : List Client) (document : Json) : Prop :=
  ∀ type, ∀ entry ∈ entriesOf type document,
    (∃ old ∈ entriesOf type initial, entry = old ∨ entry = sanitizeEntry type old) ∨
      AddedBy host requests done type entry

/-- Clients of one type have different keys. -/
def KeysPairwiseDiffer (clients : List Client) : Prop :=
  ∀ first ∈ clients, ∀ second ∈ clients, first ≠ second →
    (requests first).call.type = (requests second).call.type →
    ∀ firstData secondData, sanitizeData host (requests first).call.data = some firstData →
      sanitizeData host (requests second).call.data = some secondData →
      KeysDiffer (requests second).call.type firstData secondData

variable {host requests} {initial document payload : Json} {done : List Client} {client : Client}
variable {data : Record}

theorem Recorded.survives (recorded : Recorded host requests initial client document)
    (survives : Survives document payload) : Recorded host requests initial client payload := by
  obtain ⟨data, done, stored | ⟨old, present, same, stored⟩⟩ := recorded
  · refine ⟨data, done, .inl ?_⟩
    have kept := survives _ _ stored
    rwa [storedEntry, sanitizeEntry_idempotent] at kept
  · refine ⟨data, done, .inr ⟨old, present, same, ?_⟩⟩
    have kept := survives _ _ stored
    rwa [sanitizeEntry_idempotent] at kept

theorem AddedBy.mono {more : List Client} {type : ActivityType} {entry : Json}
    (added : AddedBy host requests done type entry) :
    AddedBy host requests (done ++ more) type entry := by
  obtain ⟨client, member, rest⟩ := added
  exact ⟨client, List.mem_append_left more member, rest⟩

/-- An entry stays accounted for when the server sanitises it again. -/
theorem Accounted.sanitised (accounted : Accounted host requests initial done document)
    {type : ActivityType} {entry : Json} (member : entry ∈ entriesOf type document) :
    (∃ old ∈ entriesOf type initial,
        sanitizeEntry type entry = old ∨ sanitizeEntry type entry = sanitizeEntry type old) ∨
      AddedBy host requests done type (sanitizeEntry type entry) := by
  rcases accounted type entry member with ⟨old, present, rfl | rfl⟩ |
    ⟨client, wrote, same, data, sanitised, rfl⟩
  · exact .inl ⟨entry, present, .inr rfl⟩
  · exact .inl ⟨old, present, .inr (sanitizeEntry_idempotent type old)⟩
  · exact .inr ⟨client, wrote, same, data, sanitised, sanitizeEntry_idempotent type _⟩

theorem Accounted.merge (accounted : Accounted host requests initial done document)
    (sanitised : sanitizeData host (requests client).call.data = some data)
    (merged : mergeEntry (requests client).call.type data (requests client).call.stampedAt document =
      some payload) :
    Accounted host requests initial (done ++ [client]) (sanitizeBody payload) := by
  have extend : ∀ {type entry}, entry ∈ entriesOf type document →
      (∃ old ∈ entriesOf type initial,
          sanitizeEntry type entry = old ∨ sanitizeEntry type entry = sanitizeEntry type old) ∨
        AddedBy host requests (done ++ [client]) type (sanitizeEntry type entry) := by
    intro type entry member
    exact (accounted.sanitised member).imp_right AddedBy.mono
  obtain ⟨property, entries, found, rfl, listed, -, outcome⟩ := mergeEntry_cases merged
  intro type entry member
  rw [entriesOf_sanitizeBody] at member
  obtain ⟨posted, inPayload, rfl⟩ := List.mem_map.mp member
  rcases outcome with ⟨-, rfl⟩ | ⟨-, rfl⟩
  · exact extend inPayload
  rcases ActivityType.eq_or_eq_other (requests client).call.type type with rfl | rfl
  · rw [entriesOf_pushEntry] at inPayload
    rcases List.mem_append.mp inPayload with old | new
    · exact extend (by rw [entriesOf, Json.field, listed]; exact old)
    · rw [List.mem_singleton.mp new]
      exact .inr ⟨client, by simp, rfl, data, sanitised, rfl⟩
  · rw [entriesOf_other_pushEntry] at inPayload
    exact extend inPayload

/-- After its own merge a client is recorded: the duplicate it may have found was
there from the start. -/
theorem recorded_of_merge (accounted : Accounted host requests initial done document)
    (sanitised : sanitizeData host (requests client).call.data = some data)
    (foreign : ∀ entry, AddedBy host requests done (requests client).call.type entry →
      sameEntry (requests client).call.type data entry = some false)
    (merged : mergeEntry (requests client).call.type data (requests client).call.stampedAt document =
      some payload) : Recorded host requests initial client (sanitizeBody payload) := by
  obtain ⟨property, entries, found, rfl, listed, searched, outcome⟩ := mergeEntry_cases merged
  refine ⟨data, sanitised, ?_⟩
  rcases outcome with ⟨duplicate, -⟩ | ⟨-, rfl⟩
  · right
    obtain ⟨entry, rfl⟩ : ∃ entry, found = some entry := by
      cases found with
      | none => cases duplicate
      | some entry => exact ⟨entry, rfl⟩
    obtain ⟨member, passed⟩ := findEntry_some searched
    have inDocument : entry ∈ entriesOf (requests client).call.type (.obj property) := by
      rw [entriesOf, Json.field, listed]
      exact member
    have posted := survives_of_merge merged _ _ inDocument
    rcases accounted _ entry inDocument with ⟨old, present, rfl | rfl⟩ | added
    · exact ⟨entry, present, passed, posted⟩
    · rw [sameEntry_sanitizeEntry] at passed
      rw [sanitizeEntry_idempotent] at posted
      exact ⟨old, present, passed, posted⟩
    · cases passed.symm.trans (foreign entry added)
  · left
    rw [entriesOf_sanitizeBody, entriesOf_pushEntry]
    exact List.mem_map_of_mem (List.mem_append_right _ (List.mem_singleton_self _))

end System

/-! ### Runs -/

section Run

variable {Client : Type} [DecidableEq Client] (host : Host) (requests : Client → StoreRequest)

/-- What a client's read step returns. -/
def observe (server : ServerState) : Json := readSharedActivity (successfulRead server.document)

def interleavedRun (server : ServerState) (schedule : List (Event Client)) :
    System Client ServerState Json :=
  run observe (fun client copy server => (writeStep host requests client copy server).server)
    server schedule

/-- The route accepts every write of the schedule. -/
def AllAccepted (server : ServerState) (schedule : List (Event Client)) : Prop :=
  ∀ before client later, schedule = before ++ .write client :: later →
    ∀ copy, (interleavedRun host requests server before).copies client = some copy →
      (writeStep host requests client copy
        (interleavedRun host requests server before).shared).wrote = true

/-- Where no write falls between a client's read and its own write, the final
document holds the entry of every client or, for a client that found one with its
key in the initial document, that one. -/
theorem interleavedRun_records_all (server : ServerState) (clients : List Client)
    (schedule : List (Event Client)) (interleaves : Interleaves clients schedule)
    (quiet : NoWriteBetween schedule) (accepted : AllAccepted host requests server schedule)
    (keys : KeysPairwiseDiffer host requests clients) :
    ∀ client ∈ clients, Recorded host requests server.document client
      (interleavedRun host requests server schedule).shared.document := by
  have whole : (∀ client ∈ writers schedule, Recorded host requests server.document client
        (interleavedRun host requests server schedule).shared.document) ∧
      Accounted host requests server.document (writers schedule)
        (interleavedRun host requests server schedule).shared.document := by
    refine undisturbed_invariant observe _ (fun done reached =>
      (∀ client ∈ done, Recorded host requests server.document client reached.document) ∧
        Accounted host requests server.document done reached.document)
      (interleaves.undisturbed quiet) ⟨by simp, fun _ entry member => .inl ⟨entry, member, .inl rfl⟩⟩ ?_
    rintro before client later rfl system copied ⟨recorded, accounted⟩
    have wrote := accepted before client later rfl _ copied
    rcases sendBody_cases host (requests client).environment system.shared (requests client).call
        (postedBody host (requests client).call (observe system.shared)) with
      ⟨refused, -⟩ | ⟨-, payload, posted, -, stored⟩
    · cases wrote.symm.trans refused
    obtain ⟨data, sanitised, merged⟩ := postedBody_eq_some posted
    -- whoever has written before is another client, with another key
    have foreign : ∀ entry, AddedBy host requests (writers before) (requests client).call.type entry →
        sameEntry (requests client).call.type data entry = some false := by
      rintro entry ⟨other, member, same, otherData, done, rfl⟩
      have different : other ≠ client := fun equal => interleaves.not_mem_writers (equal ▸ member)
      have takesPart : ∀ candidate, candidate ∈ writers before ∨ candidate = client →
          candidate ∈ clients := by
        intro candidate among
        rw [← interleaves.mem_writers_iff, writers, List.filterMap_append, List.mem_append]
        rcases among with earlier | rfl
        · exact .inl earlier
        · exact .inr List.mem_cons_self
      exact sameEntry_storedEntry done sanitised (keys other (takesPart other (.inl member)) client
        (takesPart client (.inr rfl)) different same otherData data done sanitised) _
    have document :
        (writeStep host requests client (observe system.shared) system.shared).server.document =
          sanitizeBody payload := stored
    rw [document]
    refine ⟨?_, accounted.merge sanitised merged⟩
    intro other member
    rcases List.mem_append.mp member with earlier | last
    · exact (recorded other earlier).survives (survives_of_merge merged)
    · rw [List.mem_singleton.mp last]
      exact recorded_of_merge accounted sanitised foreign merged
  intro client takesPart
  exact whole.1 client ((interleaves.mem_writers_iff client).mpr takesPart)

theorem interleavedRun_records_all_two_clients :
    let host : Host := ⟨fun _ => none, fun _ _ => none⟩
    let data : Bool → Record := fun client => Function.update (fun _ => .undefined)
      (js "institutionId") (.json (.str (if client then js "2" else js "1")))
    let requests : Bool → StoreRequest := fun client => ⟨⟨.register, data client, none, 0, 0, none⟩,
      ⟨0, some (js "gist"), none, some (js "token"), .replied 200⟩⟩
    let schedule : List (Event Bool) := [.read false, .write false, .read true, .write true]
    let server : ServerState := ⟨fun _ => [], defaultDocument⟩
    Interleaves [false, true] schedule ∧ NoWriteBetween schedule ∧
      AllAccepted host requests server schedule ∧ KeysPairwiseDiffer host requests [false, true] ∧
      ∀ client ∈ [false, true], Recorded host requests server.document client
        (interleavedRun host requests server schedule).shared.document := by
  intro host data requests schedule server
  have interleaves : Interleaves [false, true] schedule := by
    unfold Interleaves
    decide
  have quiet : NoWriteBetween schedule := by
    intro before client between later cut
    rcases before with _ | ⟨e0, _ | ⟨e1, _ | ⟨e2, _ | ⟨e3, rest⟩⟩⟩⟩ <;>
      rcases between with _ | ⟨b0, _ | ⟨b1, _ | ⟨b2, more⟩⟩⟩ <;> simp_all [schedule]
    obtain ⟨isFalse, -, -, isTrue, -⟩ := cut
    cases isFalse.symm.trans isTrue
  have accepted : AllAccepted host requests server schedule := by
    intro before client later cut copy copied
    rcases before with _ | ⟨e0, _ | ⟨e1, _ | ⟨e2, _ | ⟨e3, rest⟩⟩⟩⟩ <;> simp [schedule] at cut
    · obtain ⟨rfl, rfl, rfl⟩ := cut
      obtain rfl := Option.some.inj copied
      decide +kernel
    · obtain ⟨rfl, rfl, rfl, rfl, rfl⟩ := cut
      obtain rfl := Option.some.inj copied
      decide +kernel
  have keys : KeysPairwiseDiffer host requests [false, true] := by
    intro first _ second _ different _ firstData secondData doneFirst doneSecond
    obtain rfl := Option.some.inj doneFirst
    obtain rfl := Option.some.inj doneSecond
    intro same
    have one := congrArg (fun id => id.strictEquals (.json (.num 1))) same
    cases first <;> cases second
    · exact different rfl
    · exact absurd one (by decide +kernel)
    · exact absurd one (by decide +kernel)
    · exact different rfl
  exact ⟨interleaves, quiet, accepted, keys, interleavedRun_records_all host requests server
    [false, true] schedule interleaves quiet accepted keys⟩

/-- Two registrations, the second of which reads before the first one writes. -/
theorem overlapping_registrations_lose_one :
    let host : Host := ⟨fun _ => none, fun _ _ => none⟩
    let data : Bool → Record := fun client => Function.update (fun _ => .undefined)
      (js "institutionId") (.json (.str (if client then js "2" else js "1")))
    let requests : Bool → StoreRequest := fun client => ⟨⟨.register, data client, none, 0, 0, none⟩,
      ⟨0, some (js "gist"), none, some (js "token"), .replied 200⟩⟩
    let reads : List (Event Bool) := [.read false, .read true]
    let server : ServerState := ⟨fun _ => [], defaultDocument⟩
    let first := interleavedRun host requests server (reads ++ [.write false])
    let final := interleavedRun host requests server (reads ++ [.write false, .write true])
    (writeStep host requests false defaultDocument server).wrote = true ∧
      (writeStep host requests true defaultDocument first.shared).wrote = true ∧
      (entriesOf .register first.shared.document).map
          (sameEntry .register (Function.update (data false) (js "institutionId") (.json (.num 1)))) =
        [some true] ∧
      (entriesOf .register final.shared.document).map
          (sameEntry .register (Function.update (data false) (js "institutionId") (.json (.num 1)))) =
        [some false] := by
  decide +kernel

end Run

end MidenWorkspace.Frontend
