import MidenWorkspace.Frontend.Activity

/-!
Contract: the entry that a call adds.

Owns what sanitising makes of the data that the duplicate test looks at, the entry
as the server stores it, and that server-side sanitising does not touch its keys.
-/

namespace MidenWorkspace.Frontend

/-! ### The data of a call, after sanitising -/

theorem sanitizeField_of_ne {key other : JsString} (data : Record) (different : other ≠ key) :
    sanitizeField key data other = data other := by
  unfold sanitizeField
  cases data key <;> simp [different]

/-- Absent or a string. -/
def IsText (value : JsValue) : Prop := value = .undefined ∨ ∃ text, value = .json (.str text)

/-- The text that becomes of a value; an absent value stays absent. -/
def sanitizedValue : JsValue → JsValue
  | .undefined => .undefined
  | value => .json (.str (sanitize value))

theorem sanitizeField_self (key : JsString) (data : Record) :
    sanitizeField key data key = sanitizedValue (data key) := by
  unfold sanitizeField
  cases found : data key with
  | undefined => exact found
  | _ => exact Function.update_self ..

theorem sanitizedValue_isText (value : JsValue) : IsText (sanitizedValue value) := by
  cases value with
  | undefined => exact .inl rfl
  | _ => exact .inr ⟨_, rfl⟩

theorem sanitizeData_gradientHash {host : Host} {data sanitised : Record}
    (done : sanitizeData host data = some sanitised) :
    sanitised (js "gradientHash") = sanitizedValue (data (js "gradientHash")) := by
  obtain ⟨id, -, rfl⟩ := Option.map_eq_some_iff.mp done
  rw [Function.update_of_ne (by decide), sanitizeField_self, sanitizeField_of_ne _ (by decide),
    sanitizeField_of_ne _ (by decide), sanitizeField_of_ne _ (by decide)]

/-- The fields that sanitising rewrites. -/
def rewrittenKeys : List JsString :=
  [js "schema", js "desc", js "institutionName", js "gradientHash", js "institutionId"]

theorem sanitizeData_of_not_mem {host : Host} {data sanitised : Record} {key : JsString}
    (done : sanitizeData host data = some sanitised) (untouched : key ∉ rewrittenKeys) :
    sanitised key = data key := by
  obtain ⟨id, -, rfl⟩ := Option.map_eq_some_iff.mp done
  simp only [rewrittenKeys, List.mem_cons, List.not_mem_nil, or_false, not_or] at untouched
  obtain ⟨schema, desc, name, hash, institution⟩ := untouched
  rw [Function.update_of_ne institution, sanitizeField_of_ne _ hash, sanitizeField_of_ne _ name,
    sanitizeField_of_ne _ desc, sanitizeField_of_ne _ schema]

/-- What the duplicate tests and the server see of the sanitised data. -/
theorem sanitizeData_spec {host : Host} {data sanitised : Record}
    (done : sanitizeData host data = some sanitised) :
    parseInstitutionId host (data (js "institutionId")) = some (sanitised (js "institutionId")) ∧
      IsText (sanitised (js "gradientHash")) ∧ sanitised (js "txId") = data (js "txId") := by
  have hash : IsText (sanitised (js "gradientHash")) :=
    sanitizeData_gradientHash done ▸ sanitizedValue_isText _
  have transaction : sanitised (js "txId") = data (js "txId") :=
    sanitizeData_of_not_mem done (by decide)
  obtain ⟨id, parsed, rfl⟩ := Option.map_eq_some_iff.mp done
  refine ⟨?_, hash, transaction⟩
  rw [Function.update_self, ← parsed]
  congr 1
  rw [sanitizeField_of_ne _ (by decide), sanitizeField_of_ne _ (by decide),
    sanitizeField_of_ne _ (by decide), sanitizeField_of_ne _ (by decide)]

/-- An id is absent, or a number that may have overflowed. -/
theorem parseInstitutionId_cases {host : Host} {value id : JsValue}
    (parsed : parseInstitutionId host value = some id) :
    id = .undefined ∨ (∃ negative, id = .infinity negative) ∨ ∃ number, id = .json (.num number) := by
  unfold parseInstitutionId at parsed
  split at parsed
  · exact .inl (Option.some.inj parsed).symm
  · obtain ⟨text, -, rfl⟩ := Option.map_eq_some_iff.mp parsed
    cases parseInt10 text with
    | nan => exact .inr (.inr ⟨0, rfl⟩)
    | infinity negative => exact .inr (.inl ⟨negative, rfl⟩)
    | finite number => exact .inr (.inr ⟨number, rfl⟩)

/-! ### The entry that is stored -/

/-- The fields by which entries are compared. -/
def IsKey (key : JsString) : Prop :=
  key = js "institutionId" ∨ key = js "gradientHash" ∨ key = js "txId"

instance (key : JsString) : Decidable (IsKey key) := inferInstanceAs (Decidable (_ ∨ _ ∨ _))

/-- The server only touches texts, which are no keys. -/
theorem not_mem_sanitisedKeys (type : ActivityType) {key : JsString} (isKey : IsKey key) :
    key ∉ sanitisedKeys type := by
  cases type <;> rcases isKey with rfl | rfl | rfl <;> decide

theorem field_sanitizeEntry (type : ActivityType) (entry : Json) {key : JsString}
    (isKey : IsKey key) :
    (sanitizeEntry type entry).field key = entry.field key := by
  rw [field_sanitizeEntry_apply, if_neg (not_mem_sanitisedKeys type isKey)]

theorem field_storedEntry_of_not_mem {type : ActivityType} {key : JsString} (data : Record)
    (now : Int)
    (untouched : key ∉ sanitisedKeys type) (untimed : key ≠ js "timestamp") :
    (storedEntry type data now).field key = (data key).toJson := by
  rw [storedEntry, field_sanitizeEntry_apply, if_neg untouched]
  simp only [stampedEntry, Json.field, Function.update_of_ne untimed]

theorem field_storedEntry (type : ActivityType) (data : Record) (now : Int) {key : JsString}
    (isKey : IsKey key) : (storedEntry type data now).field key = (data key).toJson := by
  have untimed : key ≠ js "timestamp" := by rcases isKey with rfl | rfl | rfl <;> decide
  exact field_storedEntry_of_not_mem data now (not_mem_sanitisedKeys type isKey) untimed

def IsRecord (entry : Json) : Prop := ∃ property, entry = .obj property

theorem storedEntry_isRecord (type : ActivityType) (data : Record) (now : Int) :
    IsRecord (storedEntry type data now) := by
  cases type <;> exact ⟨_, rfl⟩

theorem member_of_isRecord {entry : Json} (record : IsRecord entry) (key : JsString) :
    entry.member key = some ((entry.field key).elim .undefined .json) := by
  obtain ⟨property, rfl⟩ := record
  rfl

end MidenWorkspace.Frontend
