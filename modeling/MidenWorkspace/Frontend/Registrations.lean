import MidenWorkspace.Frontend.Convergence

/-!
Contract: which registrations of the register page reach the shared document
(`app/register/page.tsx`, `lib/shared-store.ts`).

Owns the write that the page makes for a confirmed registration, the wallets and the
ids that a document lists, and the run of any number of such writes: which wallets
the document lists at its end.

A browser files a registration under the address of the wallet. The shared document
tells registrations apart by the id that is derived from the address, of which there
are 900000. A write whose id is taken succeeds and adds nothing.
-/

namespace MidenWorkspace.Frontend

open MidenWorkspace.Library

/-- A registration that the page has brought to `confirmed`. -/
structure PageRegistration where
  browser : LocalStorage
  attempt : RegistrationAttempt
  address : JsString
  block : Json
  /-- what the write to the shared document finds -/
  setting : WriteSetting
  connected : attempt.address = some address
  synced : attempt.block = some block
  confirmed : (register browser attempt).isOk = true

namespace PageRegistration

def data (registration : PageRegistration) : Record :=
  .ofFields [(js "institutionId", .json (.str (decimal (deriveInstitutionId registration.address)))),
    (js "institutionName", .json (.str registration.attempt.name)),
    (js "block", .json registration.block),
    (js "walletAddress", .json (.str registration.address))]

def request (registration : PageRegistration) : StoreRequest :=
  SyncCall.request ⟨.register, registration.data⟩ registration.setting

end PageRegistration

/-! ### What a document lists -/

/-- Some registration has the value under the key. -/
def ListsField (document : Json) (key : JsString) (value : Json) : Prop :=
  ∃ entry ∈ entriesOf .register document, entry.field key = some value

def ListsWallet (document : Json) (address : JsString) : Prop :=
  ListsField document (js "walletAddress") (.str address)

def ListsId (document : Json) (id : Nat) : Prop :=
  ListsField document (js "institutionId") (.num id)

theorem Pushed.listsField_iff {earlier later entry : Json}
    (pushed : Pushed .register earlier later entry) (key : JsString) (value : Json) :
    ListsField later key value ↔ ListsField earlier key value ∨ entry.field key = some value := by
  simp only [ListsField, pushed.own, List.mem_append, List.mem_singleton, or_and_right, exists_or,
    exists_eq_left]

/-! ### One registration -/

section Write

variable {host : Host} {server : ServerState} (registration : PageRegistration)

/-- The write adds the registration if no entry has its id, and nothing otherwise. -/
theorem registration_cases (isSanitised : IsSanitised server.document)
    (accepted : accepts host server registration.request = true) :
    let after := (serialWrite host server registration.request).document
    (ListsId server.document (deriveInstitutionId registration.address) ∧ after = server.document) ∨
    (¬ ListsId server.document (deriveInstitutionId registration.address) ∧
      ∃ entry, Pushed .register server.document after entry ∧
        entry.field (js "institutionId") = some (.num (deriveInstitutionId registration.address)) ∧
        entry.field (js "walletAddress") = some (.str registration.address)) := by
  intro after
  rcases registerWrite_cases isSanitised accepted rfl rfl
      (parseInt10_derived registration.address) with
    ⟨found, kept⟩ | ⟨absent, data, done, pushed, numbered⟩
  · exact .inl ⟨found, kept⟩
  · refine .inr ⟨?_, _, pushed, numbered, ?_⟩
    · rintro ⟨entry, member, found⟩
      exact absent entry member found
    · have wallet : data (js "walletAddress") = .json (.str registration.address) :=
        sanitizeData_of_not_mem done (by decide)
      rw [field_storedEntry_of_not_mem data _ (by decide) (by decide), wallet]
      rfl

theorem listsId_write_iff (isSanitised : IsSanitised server.document)
    (accepted : accepts host server registration.request = true) (id : Nat) :
    ListsId (serialWrite host server registration.request).document id ↔
      ListsId server.document id ∨ deriveInstitutionId registration.address = id := by
  rcases registration_cases registration isSanitised accepted with
    ⟨taken, kept⟩ | ⟨-, entry, pushed, numbered, -⟩
  · rw [kept]
    refine (or_iff_left_of_imp ?_).symm
    rintro rfl
    exact taken
  · rw [ListsId, pushed.listsField_iff, numbered]
    simp [ListsId]

theorem listsWallet_write_iff (isSanitised : IsSanitised server.document)
    (accepted : accepts host server registration.request = true) (address : JsString) :
    ListsWallet (serialWrite host server registration.request).document address ↔
      ListsWallet server.document address ∨
        (¬ ListsId server.document (deriveInstitutionId address) ∧ registration.address = address) := by
  rcases registration_cases registration isSanitised accepted with
    ⟨taken, kept⟩ | ⟨free, entry, pushed, -, wallet⟩
  · rw [kept]
    refine (or_iff_left ?_).symm
    rintro ⟨free, rfl⟩
    exact free taken
  · rw [ListsWallet, pushed.listsField_iff, wallet, Option.some.injEq, Json.str.injEq]
    refine or_congr_right ⟨?_, And.right⟩
    rintro rfl
    exact ⟨free, rfl⟩

end Write

/-! ### Registrations one after the other -/

/-- The wallet of the first registration whose id is that of the address. -/
def firstWithIdOf (address : JsString) (registrations : List PageRegistration) : Option JsString :=
  (registrations.find? fun registration =>
    deriveInstitutionId registration.address = deriveInstitutionId address).map
      PageRegistration.address

/-- A run lists the wallets that were listed, and those whose registration is the
first one with its id. -/
theorem listsWallet_run_iff {host : Host} {server : ServerState}
    (registrations : List PageRegistration) (isSanitised : IsSanitised server.document)
    (accepted : WritesAccepted host server (registrations.map PageRegistration.request))
    (address : JsString) :
    ListsWallet (Runs.after (serialWrite host) server
        (registrations.map PageRegistration.request)).document address ↔
      ListsWallet server.document address ∨
        (¬ ListsId server.document (deriveInstitutionId address) ∧
          firstWithIdOf address registrations = some address) := by
  induction registrations generalizing server with
  | nil => simp [firstWithIdOf, Runs.after]
  | cons registration rest inductionHypothesis =>
      have next := serialWrite_extends host registration.request isSanitised
      rw [List.map_cons, Runs.after_cons, inductionHypothesis next.1 accepted.2,
        listsWallet_write_iff registration isSanitised accepted.1,
        listsId_write_iff registration isSanitised accepted.1, or_assoc]
      refine or_congr_right ?_
      by_cases same : deriveInstitutionId registration.address = deriveInstitutionId address
      · simp [firstWithIdOf, same]
      · have other : registration.address ≠ address := fun equal => same (equal ▸ rfl)
        simp [firstWithIdOf, same, other]

/-- After two registrations the document lists both wallets exactly if neither id was
taken by another wallet: not in the document before, and not the second one by the
first. -/
theorem both_wallets_listed_iff (host : Host) (server : ServerState)
    (first second : PageRegistration)
    (isSanitised : IsSanitised server.document) (different : first.address ≠ second.address)
    (accepted : WritesAccepted host server [first.request, second.request]) :
    let reached := Runs.after (serialWrite host) server [first.request, second.request]
    ListsWallet reached.document first.address ∧ ListsWallet reached.document second.address ↔
      (ListsWallet server.document first.address ∨
        ¬ ListsId server.document (deriveInstitutionId first.address)) ∧
      (ListsWallet server.document second.address ∨
        (¬ ListsId server.document (deriveInstitutionId second.address) ∧
          deriveInstitutionId first.address ≠ deriveInstitutionId second.address)) := by
  intro reached
  have listed : ∀ address, ListsWallet reached.document address ↔
      ListsWallet server.document address ∨
        (¬ ListsId server.document (deriveInstitutionId address) ∧
          firstWithIdOf address [first, second] = some address) :=
    listsWallet_run_iff [first, second] isSanitised accepted
  have firstTaken : firstWithIdOf first.address [first, second] = some first.address := by
    simp [firstWithIdOf]
  have secondTaken : firstWithIdOf second.address [first, second] = some second.address ↔
      deriveInstitutionId first.address ≠ deriveInstitutionId second.address := by
    by_cases same : deriveInstitutionId first.address = deriveInstitutionId second.address
    · simp [firstWithIdOf, same, different]
    · simp [firstWithIdOf, same]
  refine and_congr ((listed first.address).trans ?_) ((listed second.address).trans ?_)
  · rw [firstTaken, and_iff_left rfl]
  · rw [secondTaken]

/-- A registration of the wallet in a browser without any, with a configured server. -/
def quietRegistration (address : JsString) (now : Int)
    (confirmed : (register ∅ ⟨some address, true, js "First Bank", true, some (.num 12), now, now⟩).isOk =
      true) : PageRegistration where
  browser := ∅
  attempt := ⟨some address, true, js "First Bank", true, some (.num 12), now, now⟩
  address
  block := .num 12
  setting := ⟨none, now, now, none, ⟨now, some (js "gist"), none, some (js "token"), .replied 200⟩⟩
  connected := rfl
  synced := rfl
  confirmed

theorem both_wallets_listed_iff_two_banks :
    let host : Host := ⟨fun _ => none, fun _ _ => none⟩
    let server : ServerState := ⟨fun _ => [], defaultDocument⟩
    let first := quietRegistration (js "mtst1qp") 1000 rfl
    let second := quietRegistration (js "mtst1zr") 2000 rfl
    let reached := Runs.after (serialWrite host) server [first.request, second.request]
    WritesAccepted host server [first.request, second.request] ∧
      ListsWallet reached.document first.address ∧ ListsWallet reached.document second.address := by
  intro host server first second reached
  have accepted : WritesAccepted host server [first.request, second.request] := by
    unfold WritesAccepted
    decide +kernel
  have absent : ∀ id, ¬ ListsId server.document id := by
    rintro id ⟨entry, member, -⟩
    rw [entriesOf_defaultDocument] at member
    cases member
  refine ⟨accepted, (both_wallets_listed_iff host server first second
    storeInvariant_defaultDocument.toIsSanitised (by decide) accepted).mpr ?_⟩
  exact ⟨.inr (absent _), .inr ⟨absent _, by decide +kernel⟩⟩

/-- The wallets `mtst1qr` and `mtst1s4` share an id: both writes succeed, and the
second wallet is not listed. -/
theorem second_wallet_discarded :
    let host : Host := ⟨fun _ => none, fun _ _ => none⟩
    let server : ServerState := ⟨fun _ => [], defaultDocument⟩
    let first := quietRegistration (js "mtst1qr") 1000 rfl
    let second := quietRegistration (js "mtst1s4") 2000 rfl
    let reached := Runs.after (serialWrite host) server [first.request, second.request]
    IsSanitised server.document ∧ first.address ≠ second.address ∧
      WritesAccepted host server [first.request, second.request] ∧
      (entriesOf .register reached.document).length = 1 ∧
      ¬ ListsWallet reached.document second.address := by
  intro host server first second reached
  have accepted : WritesAccepted host server [first.request, second.request] := by
    unfold WritesAccepted
    decide +kernel
  have isSanitised : IsSanitised server.document := storeInvariant_defaultDocument.toIsSanitised
  refine ⟨isSanitised, by decide, accepted, by decide +kernel, ?_⟩
  intro listed
  rcases (listsWallet_run_iff [first, second] isSanitised accepted second.address).mp listed with
    ⟨entry, member, -⟩ | ⟨-, own⟩
  · rw [entriesOf_defaultDocument] at member
    cases member
  · revert own
    decide +kernel

end MidenWorkspace.Frontend
