import Mathlib.Data.Finset.Image
import MidenWorkspace.Frontend.Written
import MidenWorkspace.Library.PushNew

/-!
Contract: the number of participants that the network page shows
(`loadData` in `app/network/page.tsx`).

Owns the merge of local and shared events, the count of their ids as a `Set` makes it,
the institutions that occur, and exactly when the two numbers agree: for every storage
of the register and submit pages, and every document that the pages' writes can leave,
whether they overlap or not.

The browser keeps ids as texts and the shared document keeps numbers. Neither `===` nor
a `Set` takes one for the other, so an institution on both sides is counted twice. A
shared update with the hash or the time of a local record passes for a copy of it, and
its institution is then not counted at all.
-/

namespace MidenWorkspace.Frontend

open MidenWorkspace.Library PushNew

/-! ### The statistic -/

/-- The comparison of a `Set`. -/
def JsValue.sameValueZero : JsValue → JsValue → Bool
  | .nan, .nan => true
  | first, second => first.strictEquals second

/-- `new Set(values).size` -/
def setSize (values : List JsValue) : Nat := (pushAll JsValue.sameValueZero [] values).length

/-- `if (shared.key) shared.key.forEach(…)` runs through these; `none` if it throws. -/
def sharedList (shared : Json) (key : JsString) : Option (List Json) :=
  match shared.member key with
  | none => none
  | some (.json (.arr entries)) => some entries
  | some value => if value.truthy then none else some []

def sameRegistration (event shared : RegisterEvent) : Bool :=
  event.institutionId.strictEquals shared.institutionId

/-- Events have no `txId`, so its clause never holds. -/
def sameUpdate (event shared : SubmitEvent) : Bool :=
  event.gradientHash.sameTruthy shared.gradientHash || event.timestamp.sameTruthy shared.timestamp

/-- `participants` of `loadData`; `none` if it throws before. Only reading from `null`
throws, so it does not matter which of an entry's fields are read. -/
def participants (storage : LocalStorage) (shared : Json) : Option Nat := do
  let localRegEvents ← storage.registrations.mapM registerEvent
  let localSubmitEvents ← storage.updates.mapM (submitEvent .network)
  let regEvents := pushAll sameRegistration localRegEvents
    (← (← sharedList shared (js "registrations")).mapM registerEvent)
  let submitEvents := pushAll sameUpdate localSubmitEvents
    (← (← sharedList shared (js "updates")).mapM (submitEvent .network))
  return setSize (regEvents.map (·.institutionId) ++
    submitEvents.map (·.institutionId.orElse .undefined))

/-! ### The institutions that occur -/

/-- The number of an id, as `writeSharedActivity` normalises texts. -/
def numericId : Json → Option Int
  | .num value => if value.den = 1 then some value.num else none
  | .str text =>
      match parseInt10 text with
      | .nan => some 0
      | .finite number => some number
      | .infinity _ => none
  | _ => none

def idAt (key : JsString) (entry : Json) : Option Int := (entry.field key).bind numericId

def localIds (storage : LocalStorage) : Finset Int :=
  (storage.registrations.filterMap (idAt (js "institutionId")) ++
    storage.updates.filterMap (idAt (js "institution_id"))).toFinset

def sharedIds (document : Json) : Finset Int :=
  ((entriesOf .register document).filterMap (idAt (js "institutionId")) ++
    (entriesOf .submit document).filterMap (idAt (js "institutionId"))).toFinset

/-- The number of different institutions, on either side. -/
def institutions (storage : LocalStorage) (document : Json) : Nat :=
  (localIds storage ∪ sharedIds document).card

/-! ### The ids that are shown -/

/-- The property, as an expression reads it. -/
def valueAt (record : Json) (key : JsString) : JsValue := (record.field key).elim .undefined .json

def sameAt (key : JsString) (first second : Json) : Bool :=
  (valueAt first key).sameTruthy (valueAt second key)

def sameRecord (first second : Json) : Bool :=
  sameAt (js "gradientHash") first second || sameAt (js "timestamp") first second

def matchesHistory (history : List Json) (update : Json) : Bool := history.any (sameRecord · update)

/-- The update has the hash or the time of a local record, or the time of an earlier
update that has neither. -/
def isCopy (history earlier : List Json) (update : Json) : Bool :=
  matchesHistory history update ||
    earlier.any fun other => sameAt (js "timestamp") other update && !matchesHistory history other

/-- The updates that are no copies, of those that follow `earlier`. -/
def ownUpdates (history : List Json) : List Json → List Json → List Json
  | _, [] => []
  | earlier, update :: later =>
      (if isCopy history earlier update then [] else [update]) ++
        ownUpdates history (earlier ++ [update]) later

/-- An update's id is read as `institutionId || institution_id`, which drops a zero. -/
def shownUpdateId (update : Json) : Option Int := (idAt (js "institutionId") update).filter (· ≠ 0)

/-- The shared updates that the page takes for its own entries. -/
def shownUpdates (storage : LocalStorage) (document : Json) : List Json :=
  ownUpdates storage.updates [] (entriesOf .submit document)

def shownIds (storage : LocalStorage) (document : Json) : Finset Int :=
  ((entriesOf .register document).filterMap (idAt (js "institutionId")) ++
    (shownUpdates storage document).filterMap shownUpdateId).toFinset

/-- The elements that are no number, `null` and `undefined`: ids that have overflowed,
and updates with the id zero. -/
def blanks (storage : LocalStorage) (document : Json) : Nat :=
  (if (entriesOf .register document).any fun entry => (idAt (js "institutionId") entry).isNone
    then 1 else 0) +
  if (shownUpdates storage document).any fun update => (shownUpdateId update).isNone then 1 else 0

def textAt (key : JsString) (entry : Json) : Option JsString :=
  match entry.field key with
  | some (.str text) => some text
  | _ => none

/-- The spellings of local ids. -/
def localTexts (storage : LocalStorage) : Finset JsString :=
  (storage.registrations.filterMap (textAt (js "institutionId")) ++
    storage.updates.filterMap (textAt (js "institution_id"))).toFinset

/-- The institutions that occur only in shared updates which pass for copies, or whose
id is zero. -/
def hiddenIds (storage : LocalStorage) (document : Json) : Finset Int :=
  sharedIds document \ (localIds storage ∪ shownIds storage document)

/-! ### The merge of updates -/

theorem JsValue.eq_of_sameTruthy {first second : JsValue} (same : first.sameTruthy second = true) :
    first = second := by
  rw [JsValue.sameTruthy, Bool.and_eq_true] at same
  exact JsValue.eq_of_strictEquals same.2

theorem sameAt_trans {key : JsString} {first second third : Json}
    (early : sameAt key first second = true) (late : sameAt key second third = true) :
    sameAt key first third = true := by
  rw [sameAt, JsValue.eq_of_sameTruthy early]
  exact late

/-- Two records with one value have one that is truthy. -/
theorem shareKey_of_sameAt {key : JsString} {first second : Json}
    (same : sameAt key first second = true) : ShareKey key first second := by
  have equal := JsValue.eq_of_sameTruthy same
  rw [sameAt, JsValue.sameTruthy, Bool.and_eq_true, Bool.and_eq_true] at same
  cases found : first.field key with
  | none =>
      rw [valueAt, found] at same
      cases same.1.1
  | some value =>
      rw [valueAt, valueAt, found] at equal
      rw [valueAt, found] at same
      refine ⟨value, same.1.1, found, ?_⟩
      cases other : second.field key with
      | none =>
          rw [other] at equal
          cases equal
      | some _ =>
          rw [other] at equal
          cases equal
          rfl

/-- What has been kept of the updates so far: none of them is in the history, and the
time of each one that is not in the history is that of one that was kept. -/
structure IsKept (history earlier kept : List Json) : Prop where
  members : ∀ update ∈ kept, update ∈ earlier ∧ matchesHistory history update = false
  times : ∀ other ∈ earlier, matchesHistory history other = false →
    ∀ update, sameAt (js "timestamp") other update = true →
      ∃ old ∈ kept, sameAt (js "timestamp") old update = true

section Merge

variable {history earlier kept : List Json}

/-- The page's test, on all entries so far, says whether the update is a copy. -/
theorem IsKept.any_sameRecord (isKept : IsKept history earlier kept) (update : Json)
    (hashes : ∀ other ∈ earlier, ¬ ShareKey (js "gradientHash") other update) :
    (history ++ kept).any (sameRecord · update) = isCopy history earlier update := by
  rw [List.any_append, isCopy]
  refine congrArg (matchesHistory history update || ·) ?_
  rw [Bool.eq_iff_iff, List.any_eq_true, List.any_eq_true]
  constructor
  · rintro ⟨old, member, same⟩
    obtain ⟨before, unmatched⟩ := isKept.members old member
    rcases Bool.or_eq_true_iff.mp same with hash | time
    · exact absurd (shareKey_of_sameAt hash) (hashes old before)
    · exact ⟨old, before, by rw [time, unmatched]; rfl⟩
  · rintro ⟨other, before, same⟩
    obtain ⟨time, unmatched⟩ := Bool.and_eq_true_iff.mp same
    obtain ⟨old, member, sameTime⟩ := isKept.times other before
      (by simpa using unmatched) update time
    exact ⟨old, member, Bool.or_eq_true_iff.mpr (.inr sameTime)⟩

theorem IsKept.step (isKept : IsKept history earlier kept) (update : Json) :
    IsKept history (earlier ++ [update])
      (kept ++ if isCopy history earlier update then [] else [update]) := by
  have older : ∀ old ∈ kept, old ∈ earlier ++ [update] ∧ matchesHistory history old = false :=
    fun old member => (isKept.members old member).imp_left (List.mem_append_left [update])
  cases copy : isCopy history earlier update with
  | true =>
      refine ⟨by simpa using older, ?_⟩
      intro other before unmatched next time
      simp only [if_true, List.append_nil]
      rcases List.mem_append.mp before with before | last
      · exact isKept.times other before unmatched next time
      · -- a copy that is not in the history has the time of an earlier update
        rw [List.mem_singleton.mp last] at unmatched time
        rw [isCopy, unmatched, Bool.false_or, List.any_eq_true] at copy
        obtain ⟨first, listed, same⟩ := copy
        obtain ⟨sameTime, firstUnmatched⟩ := Bool.and_eq_true_iff.mp same
        exact isKept.times first listed (by simpa using firstUnmatched) next
          (sameAt_trans sameTime time)
  | false =>
      have unmatched : matchesHistory history update = false := (Bool.or_eq_false_iff.mp copy).1
      refine ⟨?_, ?_⟩
      · refine List.forall_mem_append.mpr ⟨older, List.forall_mem_singleton.mpr ⟨?_, unmatched⟩⟩
        exact List.mem_append_right earlier List.mem_cons_self
      · intro other before otherUnmatched next time
        rcases List.mem_append.mp before with before | last
        · obtain ⟨old, member, sameTime⟩ := isKept.times other before otherUnmatched next time
          exact ⟨old, List.mem_append_left _ member, sameTime⟩
        · rw [List.mem_singleton.mp last] at time
          exact ⟨update, List.mem_append_right kept List.mem_cons_self, time⟩

theorem IsKept.pushAll_sameRecord (isKept : IsKept history earlier kept) {later : List Json}
    (hashes : (earlier ++ later).Pairwise fun first second =>
      ¬ ShareKey (js "gradientHash") first second) :
    pushAll sameRecord (history ++ kept) later = history ++ kept ++ ownUpdates history earlier later := by
  induction later generalizing earlier kept with
  | nil => exact (List.append_nil _).symm
  | cons update rest inductionHypothesis =>
      have tested := isKept.any_sameRecord update fun other before =>
        (List.pairwise_append.mp hashes).2.2 other before update List.mem_cons_self
      have pushed : pushNew sameRecord (history ++ kept) update =
          history ++ (kept ++ if isCopy history earlier update then [] else [update]) := by
        rw [pushNew, tested]
        cases isCopy history earlier update with
        | true => simp
        | false => simp
      rw [List.append_cons] at hashes
      have merged := inductionHypothesis (isKept.step update) hashes
      rw [ownUpdates, List.append_assoc history, ← List.append_assoc kept, ← List.append_assoc history,
        ← merged, ← pushed]
      rfl

/-- What the page keeps of the shared updates are those that are no copies. -/
theorem pushAll_sameRecord (history : List Json) {updates : List Json}
    (hashes : updates.Pairwise fun first second => ¬ ShareKey (js "gradientHash") first second) :
    pushAll sameRecord history updates = history ++ ownUpdates history [] updates := by
  have nothing : IsKept history [] [] := ⟨by simp, by simp⟩
  simpa using nothing.pushAll_sameRecord hashes

end Merge

/-! ### The elements of the set -/

inductive ShownValue where
  | text (id : JsString)
  | number (id : Int)
  | null
  | undefined
deriving DecidableEq, Repr

namespace ShownValue

def value : ShownValue → JsValue
  | text id => .json (.str id)
  | number id => .json (.num id)
  | null => .json .null
  | undefined => .undefined

theorem strictEquals_value (first second : ShownValue) :
    first.value.strictEquals second.value = decide (first = second) := by
  cases first <;> cases second <;> simp [value, JsValue.strictEquals, Json.strictEquals]

theorem sameValueZero_value (first second : ShownValue) :
    first.value.sameValueZero second.value = decide (first = second) := by
  rw [← strictEquals_value]
  cases first <;> rfl

end ShownValue

theorem setSize_values (shown : List ShownValue) :
    setSize (shown.map ShownValue.value) = shown.toFinset.card := by
  have mapped := pushAll_map ShownValue.sameValueZero_value [] shown
  rw [List.map_nil] at mapped
  rw [setSize, mapped, List.length_map, length_pushAll_nil]

/-! ### The values of entries -/

def localValue (key : JsString) (entry : Json) : ShownValue :=
  (textAt key entry).elim .undefined .text

theorem valueAt_of_text {key id : JsString} {entry : Json}
    (given : entry.field key = some (.str id)) :
    valueAt entry key = (localValue key entry).value := by
  rw [valueAt, localValue, textAt, given]
  rfl

theorem idAt_of_number {key : JsString} {entry : Json} {id : Int}
    (given : entry.field key = some (.num id)) : idAt key entry = some id := by
  simp [idAt, given, numericId]

def registrationValue (registration : Json) : ShownValue :=
  (idAt (js "institutionId") registration).elim .null .number

theorem IsSharedEntry.valueAt_eq {entry : Json} (isShared : IsSharedEntry entry) :
    valueAt entry (js "institutionId") = (registrationValue entry).value := by
  rcases isShared.numbered with blank | ⟨id, given⟩
  · simp [registrationValue, idAt, valueAt, blank, numericId, ShownValue.value]
  · rw [registrationValue, idAt_of_number given, valueAt, given]
    rfl

/-- The id of a submission's event, as the count reads it. -/
def countedId (record : Json) : JsValue :=
  ((valueAt record (js "institutionId")).orElse (valueAt record (js "institution_id"))).orElse .undefined

def updateValue (update : Json) : ShownValue := (shownUpdateId update).elim .undefined .number

theorem IsLocalRecord.countedId_eq {record : Json} (isLocal : IsLocalRecord record) :
    countedId record = (localValue (js "institution_id") record).value := by
  obtain ⟨id, notEmpty, given⟩ := isLocal.text
  have absent : valueAt record (js "institutionId") = .undefined := by
    rw [valueAt, isLocal.single]
    rfl
  have truthy : (JsValue.json (.str id)).truthy = true := by simp [JsValue.truthy, Json.truthy, notEmpty]
  rw [← valueAt_of_text given, countedId, absent, valueAt, given]
  simp only [JsValue.orElse, JsValue.truthy, Option.elim_some] at truthy ⊢
  simp [truthy]

theorem IsSharedEntry.countedId_eq {entry : Json} (isShared : IsSharedEntry entry) :
    countedId entry = (updateValue entry).value := by
  have absent : valueAt entry (js "institution_id") = .undefined := by
    rw [valueAt, isShared.single]
    rfl
  rw [countedId, absent, updateValue, shownUpdateId]
  rcases isShared.numbered with blank | ⟨id, given⟩
  · simp [idAt, valueAt, blank, numericId, ShownValue.value, JsValue.orElse, JsValue.truthy, Json.truthy]
  · rw [idAt_of_number given, valueAt, given]
    by_cases zero : id = 0
    · simp [zero, Option.filter, ShownValue.value, JsValue.orElse, JsValue.truthy, Json.truthy]
    · simp [zero, Option.filter, ShownValue.value, JsValue.orElse, JsValue.truthy, Json.truthy]

/-! ### The count -/

def registerEventOf (registration : Json) : RegisterEvent :=
  ⟨valueAt registration (js "institutionId"), valueAt registration (js "block")⟩

def submitEventOf (update : Json) : SubmitEvent where
  institutionId := (valueAt update (js "institutionId")).orElse (valueAt update (js "institution_id"))
  timestamp := valueAt update (js "timestamp")
  block := (valueAt update (js "blockNum")).orElse (valueAt update (js "block"))
  schema := (valueAt update (js "schema")).orElse (valueAt update (js "desc"))
  gradientHash := valueAt update (js "gradientHash")

theorem mapM_registerEvent {entries : List Json} (records : ∀ entry ∈ entries, IsRecord entry) :
    entries.mapM registerEvent = some (entries.map registerEventOf) := by
  apply mapM_eq_some_map
  intro entry member
  simp only [registerEvent, member_of_isRecord (records entry member)]
  rfl

theorem mapM_submitEvent {entries : List Json} (records : ∀ entry ∈ entries, IsRecord entry) :
    entries.mapM (submitEvent .network) = some (entries.map submitEventOf) := by
  apply mapM_eq_some_map
  intro entry member
  simp only [submitEvent, member_of_isRecord (records entry member)]
  rfl

theorem IsSanitised.sharedList_eq {document : Json} (isSanitised : IsSanitised document)
    (type : ActivityType) :
    sharedList document (listKey type) = some (entriesOf type document) := by
  simp only [sharedList, isSanitised.member_listKey]

/-- The elements of the set, in the order in which the page lists them. -/
def shownValues (storage : LocalStorage) (document : Json) : List ShownValue :=
  pushAll (fun first second => decide (first = second))
      (storage.registrations.map (localValue (js "institutionId")))
      ((entriesOf .register document).map registrationValue) ++
    (storage.updates.map (localValue (js "institution_id")) ++
      (shownUpdates storage document).map updateValue)

theorem mem_of_mem_ownUpdates {history earlier later : List Json} {update : Json}
    (member : update ∈ ownUpdates history earlier later) : update ∈ later := by
  induction later generalizing earlier with
  | nil => cases member
  | cons first rest inductionHypothesis =>
      rcases List.mem_append.mp member with own | follows
      · cases copy : isCopy history earlier first with
        | true =>
            rw [copy] at own
            cases own
        | false =>
            rw [copy] at own
            rw [List.mem_singleton.mp own]
            exact List.mem_cons_self
      · exact List.mem_cons_of_mem first (inductionHypothesis follows)

section Count

variable {storage : LocalStorage} {document : Json}
  (registrations : ∀ registration ∈ storage.registrations,
    IsRecord registration ∧ ∃ id, registration.field (js "institutionId") = some (.str id))
  (updates : ∀ record ∈ storage.updates, IsLocalRecord record)
  (invariant : WrittenInvariant document)

include registrations invariant in
theorem registration_values :
    (pushAll sameRegistration (storage.registrations.map registerEventOf)
        ((entriesOf .register document).map registerEventOf)).map (·.institutionId) =
      (pushAll (fun first second => decide (first = second))
        (storage.registrations.map (localValue (js "institutionId")))
        ((entriesOf .register document).map registrationValue)).map ShownValue.value := by
  have same : ∀ first second : RegisterEvent,
      first.institutionId.strictEquals second.institutionId = sameRegistration first second :=
    fun _ _ => rfl
  rw [← pushAll_map same, ← pushAll_map ShownValue.strictEquals_value, List.map_map, List.map_map,
    List.map_map, List.map_map]
  congr 1
  · apply List.map_congr_left
    intro registration member
    obtain ⟨-, id, given⟩ := registrations registration member
    exact valueAt_of_text given
  · apply List.map_congr_left
    intro entry member
    exact (invariant.entries .register entry member).valueAt_eq

include updates invariant in
theorem update_values :
    (pushAll sameUpdate (storage.updates.map submitEventOf)
        ((entriesOf .submit document).map submitEventOf)).map (·.institutionId.orElse .undefined) =
      (storage.updates.map (localValue (js "institution_id")) ++
        (shownUpdates storage document).map updateValue).map ShownValue.value := by
  have same : ∀ first second : Json,
      sameUpdate (submitEventOf first) (submitEventOf second) = sameRecord first second :=
    fun _ _ => rfl
  rw [pushAll_map same, pushAll_sameRecord _ invariant.hashes, List.map_map, List.map_append,
    List.map_append, List.map_map, List.map_map]
  congr 1
  · apply List.map_congr_left
    intro record member
    exact (updates record member).countedId_eq
  · apply List.map_congr_left
    intro update member
    exact (invariant.entries .submit update (mem_of_mem_ownUpdates member)).countedId_eq

include registrations updates invariant

theorem participants_eq_setSize :
    participants storage document =
      some (setSize ((shownValues storage document).map ShownValue.value)) := by
  have records := invariant.isSanitised.records
  have readRegistrations := mapM_registerEvent fun entry member => (registrations entry member).1
  have readUpdates := mapM_submitEvent fun entry member => (updates entry member).isRecord
  have sharedRegistrations : sharedList document (js "registrations") = _ :=
    invariant.isSanitised.sharedList_eq .register
  have sharedUpdates : sharedList document (js "updates") = _ :=
    invariant.isSanitised.sharedList_eq .submit
  simp only [participants, readRegistrations, readUpdates, sharedRegistrations, sharedUpdates,
    mapM_registerEvent (records .register), mapM_submitEvent (records .submit), Option.bind_eq_bind,
    Option.bind_some, Option.pure_def]
  rw [registration_values registrations invariant, update_values updates invariant,
    ← List.map_append, shownValues]

omit registrations updates invariant

private theorem elim_eq_iff {Inner : Type} {found : Option Inner} {blank shown : ShownValue}
    {image : Inner → ShownValue} :
    found.elim blank image = shown ↔
      (found = none ∧ blank = shown) ∨ ∃ inner, found = some inner ∧ image inner = shown := by
  cases found <;> simp

theorem text_mem_shownValues {id : JsString} :
    .text id ∈ shownValues storage document ↔ id ∈ localTexts storage := by
  simp [shownValues, localTexts, mem_pushAll, localValue, registrationValue, updateValue, elim_eq_iff]

theorem number_mem_shownValues {id : Int} :
    .number id ∈ shownValues storage document ↔ id ∈ shownIds storage document := by
  simp [shownValues, shownIds, mem_pushAll, localValue, registrationValue, updateValue, elim_eq_iff]

theorem null_mem_shownValues :
    .null ∈ shownValues storage document ↔
      (entriesOf .register document).any (fun entry => (idAt (js "institutionId") entry).isNone) = true := by
  simp [shownValues, mem_pushAll, localValue, registrationValue, updateValue, elim_eq_iff]

include registrations updates in
/-- Every local id is a text. -/
theorem undefined_mem_shownValues :
    .undefined ∈ shownValues storage document ↔
      (shownUpdates storage document).any (fun update => (shownUpdateId update).isNone) = true := by
  have registered : ¬ ∃ registration ∈ storage.registrations,
      textAt (js "institutionId") registration = none := by
    rintro ⟨registration, member, missing⟩
    obtain ⟨-, id, given⟩ := registrations registration member
    simp [textAt, given] at missing
  have recorded : ¬ ∃ record ∈ storage.updates, textAt (js "institution_id") record = none := by
    rintro ⟨record, member, missing⟩
    obtain ⟨id, -, given⟩ := (updates record member).text
    simp [textAt, given] at missing
  simp [shownValues, mem_pushAll, localValue, registrationValue, updateValue, elim_eq_iff, registered,
    recorded]

/-- One element or none. -/
private def optional (present : Bool) (shown : ShownValue) : Finset ShownValue :=
  if present then {shown} else ∅

private theorem mem_optional {present : Bool} {shown other : ShownValue} :
    other ∈ optional present shown ↔ present = true ∧ other = shown := by
  cases present <;> simp [optional]

private theorem card_optional (present : Bool) (shown : ShownValue) :
    (optional present shown).card = if present then 1 else 0 := by
  cases present <;> rfl

private theorem disjoint_optional {others : Finset ShownValue} {shown : ShownValue} (present : Bool)
    (absent : shown ∉ others) : Disjoint others (optional present shown) := by
  apply Finset.disjoint_left.mpr
  intro other member inside
  rw [(mem_optional.mp inside).2] at member
  exact absent member

include registrations updates in
/-- A text for each local spelling, a number for each shared id that is shown, and the
blanks. -/
theorem card_shownValues :
    (shownValues storage document).toFinset.card =
      (localTexts storage).card + (shownIds storage document).card + blanks storage document := by
  have split : (shownValues storage document).toFinset =
      (localTexts storage).image .text ∪ (shownIds storage document).image .number ∪
        optional ((entriesOf .register document).any
          fun entry => (idAt (js "institutionId") entry).isNone) .null ∪
        optional ((shownUpdates storage document).any fun update => (shownUpdateId update).isNone)
          .undefined := by
    ext shown
    rw [List.mem_toFinset]
    cases shown with
    | text id =>
        rw [text_mem_shownValues]
        simp [mem_optional]
    | number id =>
        rw [number_mem_shownValues]
        simp [mem_optional]
    | null =>
        rw [null_mem_shownValues]
        simp [mem_optional]
    | undefined =>
        rw [undefined_mem_shownValues registrations updates]
        simp [mem_optional]
  rw [split, Finset.card_union_of_disjoint, Finset.card_union_of_disjoint, Finset.card_union_of_disjoint,
    Finset.card_image_of_injective, Finset.card_image_of_injective, card_optional, card_optional, blanks,
    Nat.add_assoc]
  · exact fun _ _ => ShownValue.number.inj
  · exact fun _ _ => ShownValue.text.inj
  · simp [Finset.disjoint_left]
  · exact disjoint_optional _ (by simp)
  · exact disjoint_optional _ (by simp [mem_optional])

include registrations updates invariant in
theorem participants_eq :
    participants storage document =
      some ((localTexts storage).card + (shownIds storage document).card + blanks storage document) := by
  rw [participants_eq_setSize registrations updates invariant, setSize_values,
    card_shownValues registrations updates]

end Count

theorem shownIds_subset (storage : LocalStorage) (document : Json) :
    shownIds storage document ⊆ sharedIds document := by
  intro id member
  simp only [shownIds, sharedIds, List.mem_toFinset, List.mem_append, List.mem_filterMap] at member ⊢
  rcases member with registered | ⟨update, shown, read⟩
  · exact .inl registered
  · exact .inr ⟨update, mem_of_mem_ownUpdates shown, (Option.filter_eq_some_iff.mp read).1⟩

/-- What occurs is local, or shown, or hidden. -/
theorem institutions_add (storage : LocalStorage) (document : Json) :
    institutions storage document + (localIds storage ∩ shownIds storage document).card =
      (localIds storage).card + (shownIds storage document).card +
        (hiddenIds storage document).card := by
  have covered : localIds storage ∪ sharedIds document =
      (localIds storage ∪ shownIds storage document) ∪ hiddenIds storage document := by
    rw [hiddenIds, Finset.union_sdiff_self_eq_union, Finset.union_assoc,
      Finset.union_eq_right.mpr (shownIds_subset storage document)]
  have apart : Disjoint (localIds storage ∪ shownIds storage document) (hiddenIds storage document) :=
    Finset.disjoint_sdiff
  rw [institutions, covered, Finset.card_union_of_disjoint apart, Nat.add_right_comm,
    Finset.card_union_add_card_inter]

/-- The page shows the number of institutions exactly if it counts as many elements too
many as it hides institutions. Too many are the spellings of a local id beyond the
first, the blanks, and a second element for each institution that is local and shown
from the shared document. -/
theorem participants_eq_institutions_iff (host : Host) (actions : List PageAction) (document : Json)
    (named : ∀ submission, .submit submission ∈ actions → submission.instId ≠ [])
    (written : IsWritten host document) :
    let storage := produced actions
    participants storage document = some (institutions storage document) ↔
      (localTexts storage).card + blanks storage document +
          (localIds storage ∩ shownIds storage document).card =
        (localIds storage).card + (hiddenIds storage document).card := by
  intro storage
  have registrations : ∀ registration ∈ storage.registrations, _ := fun _ => registration_text
  have count := institutions_add storage document
  rw [participants_eq registrations (isLocalRecord_of_mem named) written.invariant, Option.some.injEq]
  omega

theorem participants_eq_institutions_iff_two_banks :
    let host : Host := ⟨fun _ => none, fun _ _ => none⟩
    let server : ServerState := ⟨fun _ => [], defaultDocument⟩
    let own := quietRegistration (js "mtst1qp") 1000 rfl
    let other := quietRegistration (js "mtst1zr") 2000 rfl
    let storage := produced [.register own.attempt]
    let document := (serialWrite host server other.request).document
    IsWritten host document ∧ institutions storage document = 2 ∧
      participants storage document = some (institutions storage document) := by
  intro host server own other storage document
  have fresh : IsWritten host server.document := .initial
  have written : IsWritten host document := fresh.write other.request fresh other.isPageData
  refine ⟨written, by decide +kernel, ?_⟩
  apply (participants_eq_institutions_iff host [.register own.attempt] document (by simp) written).mpr
  decide +kernel

/-- A wallet that has registered, and whose registration has reached the shared
document, is counted as two participants. -/
theorem registered_institution_counted_twice :
    let host : Host := ⟨fun _ => none, fun _ _ => none⟩
    let server : ServerState := ⟨fun _ => [], defaultDocument⟩
    let registration := quietRegistration (js "mtst1qp") 1000 rfl
    let storage := produced [.register registration.attempt]
    let document := (serialWrite host server registration.request).document
    IsWritten host document ∧ participants storage document = some 2 ∧
      institutions storage document = 1 := by
  intro host server registration storage document
  have fresh : IsWritten host server.document := .initial
  exact ⟨fresh.write registration.request fresh registration.isPageData, by decide +kernel,
    by decide +kernel⟩

end MidenWorkspace.Frontend
