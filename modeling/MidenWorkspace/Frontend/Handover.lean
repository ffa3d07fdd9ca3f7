import MidenWorkspace.Frontend.LocalStorage

/-!
Contract: how a registration reaches the submit page.

Owns the browser with its wallet and storage, what the submit page reads when it is
mounted, the addresses whose registration has been confirmed along a run, and
exactly when the page shows the institution of the connected wallet.

The register page files a registration under the wallet's address, and the dashboard
looks it up there. The submit page reads a key that no page writes.
-/

namespace MidenWorkspace.Frontend

open MidenWorkspace.Library

structure Browser where
  storage : LocalStorage
  /-- the address of the connected wallet -/
  wallet : Option JsString

def Browser.initial : Browser := ⟨∅, none⟩

inductive BrowserEvent where
  | connect (address : JsString)
  | disconnect
  /-- the register button, for the connected wallet -/
  | register (attempt : RegistrationAttempt)
  /-- a submission that the wallet has confirmed -/
  | submit (submission : Submission)
  /-- a page that has written to the gist notes the time -/
  | noteGistWrite (now : JsString)
  /-- a visit to any page, which only reads -/
  | visit

/-- An attempt is made for the wallet that is connected. -/
def Browser.attempt (browser : Browser) (attempt : RegistrationAttempt) :
    Except String LocalStorage :=
  Frontend.register browser.storage { attempt with address := browser.wallet }

def browse (browser : Browser) : BrowserEvent → Browser
  | .connect address => { browser with wallet := some address }
  | .disconnect => { browser with wallet := none }
  | .register attempt =>
      { browser with storage := (browser.attempt attempt).toOption.getD browser.storage }
  | .submit submission => { browser with storage := recordSubmission browser.storage submission }
  | .noteGistWrite now =>
      { browser with storage := browser.storage.setItem (js "syndex_gist_last_write") (.str now) }
  | .visit => browser

/-- The address whose registration the event brings to `confirmed`. -/
def Browser.confirms (browser : Browser) : BrowserEvent → Option JsString
  | .register attempt =>
      match browser.attempt attempt with
      | .ok _ => browser.wallet
      | .error _ => none
  | _ => none

/-- The addresses that complete a registration along the events. -/
def Browser.confirmed (browser : Browser) : List BrowserEvent → List JsString
  | [] => []
  | event :: rest => (browser.confirms event).toList ++ (browse browser event).confirmed rest

def institutionIdKey : JsString := js "syndex_institution_id"

/-- `instId` after the mount effect of the submit page. -/
def mountSubmitPage (storage : LocalStorage) : Option JsString :=
  match storage.getItem institutionIdKey with
  | some (.str id) => if id = [] then none else some id
  | _ => none

/-- The lookup of the dashboard, for the address of the connected wallet. -/
def dashboardInstId (storage : LocalStorage) (address : JsString) : Option JsValue :=
  (storage.getItem (registrationKey address)).bind fun registration =>
    registration.member (js "institutionId")

def registeredId (address : JsString) : JsString := decimal (deriveInstitutionId address)

/-! ### One event -/

/-- What an event can do to the storage: file the registration that it confirms, or
write a key that neither page reads a registration from. -/
theorem browse_storage_cases (browser : Browser) (event : BrowserEvent) :
    (∃ attempt address block, browser.confirms event = some address ∧
      (browse browser event).storage = withRegistration browser.storage attempt address block) ∨
    (browser.confirms event = none ∧ ∀ key, registrationPrefix <+: key ∨ key = institutionIdKey →
      (browse browser event).storage.getItem key = browser.storage.getItem key) := by
  cases event with
  | register attempt =>
      cases outcome : browser.attempt attempt with
      | ok next =>
          left
          obtain ⟨address, block, connected, rfl⟩ := register_eq_ok outcome
          refine ⟨{ attempt with address := browser.wallet }, address, block, ?_, ?_⟩
          · simp only [Browser.confirms, outcome]
            exact connected
          · simp only [browse, outcome]
            rfl
      | error message =>
          right
          refine ⟨by simp only [Browser.confirms, outcome], fun key _ => ?_⟩
          simp only [browse, outcome]
          rfl
  | submit submission =>
      right
      refine ⟨rfl, fun key read => ?_⟩
      apply getItem_setItem_of_ne
      rintro rfl
      revert read
      decide
  | noteGistWrite now =>
      right
      refine ⟨rfl, fun key read => ?_⟩
      apply getItem_setItem_of_ne
      rintro rfl
      revert read
      decide
  | connect address => exact .inr ⟨rfl, fun _ _ => rfl⟩
  | disconnect => exact .inr ⟨rfl, fun _ _ => rfl⟩
  | visit => exact .inr ⟨rfl, fun _ _ => rfl⟩

theorem getItem_withRegistration_self (storage : LocalStorage) (attempt : RegistrationAttempt)
    (address : JsString) (block : Json) :
    (withRegistration storage attempt address block).getItem (registrationKey address) =
      some (attempt.registration address block) := by
  rw [withRegistration, getItem_setItem_of_ne _ _ (updatesKey_ne_registrationKey address).symm,
    getItem_setItem_self]

theorem getItem_withRegistration_of_ne {key : JsString} (storage : LocalStorage)
    (attempt : RegistrationAttempt) (address : JsString) (block : Json)
    (notUpdates : key ≠ updatesKey) (notOwn : key ≠ registrationKey address) :
    (withRegistration storage attempt address block).getItem key = storage.getItem key := by
  rw [withRegistration, getItem_setItem_of_ne _ _ notUpdates, getItem_setItem_of_ne _ _ notOwn]

/-- No event writes the key that the submit page reads. -/
theorem browse_institutionIdKey (browser : Browser) (event : BrowserEvent) :
    (browse browser event).storage.getItem institutionIdKey =
      browser.storage.getItem institutionIdKey := by
  rcases browse_storage_cases browser event with ⟨attempt, address, block, -, filed⟩ | ⟨-, kept⟩
  · rw [filed]
    exact getItem_withRegistration_of_ne _ attempt address block (by decide)
      (ne_registrationKey (by decide) address)
  · exact kept institutionIdKey (.inr rfl)

theorem registrationKey_injective {first second : JsString}
    (same : registrationKey first = registrationKey second) : first = second :=
  List.append_cancel_left same

/-- The dashboard finds the registration that an event confirms, and the others as
before. -/
theorem browse_dashboardInstId (browser : Browser) (event : BrowserEvent) (address : JsString) :
    dashboardInstId (browse browser event).storage address =
      if browser.confirms event = some address then some (.json (.str (registeredId address)))
      else dashboardInstId browser.storage address := by
  unfold dashboardInstId
  rcases browse_storage_cases browser event with ⟨attempt, filedFor, block, confirms, filed⟩ | ⟨none, kept⟩
  · rw [filed, confirms]
    by_cases own : filedFor = address
    · subst own
      rw [if_pos rfl, getItem_withRegistration_self]
      rfl
    · have notOwn : registrationKey address ≠ registrationKey filedFor :=
        fun same => own (registrationKey_injective same).symm
      rw [if_neg (fun same => own (Option.some.inj same)), getItem_withRegistration_of_ne _ attempt
        filedFor block (updatesKey_ne_registrationKey address).symm notOwn]
  · have confirmsOther : ¬ browser.confirms event = some address := by
      rw [none]
      exact Option.some_ne_none address ∘ Eq.symm
    rw [if_neg confirmsOther, kept (registrationKey address) (.inl (List.prefix_append _ _))]

/-! ### Runs -/

def Browser.reached (events : List BrowserEvent) : Browser :=
  Runs.after browse Browser.initial events

theorem reached_institutionIdKey (events : List BrowserEvent) :
    (Browser.reached events).storage.getItem institutionIdKey = none :=
  Runs.after_invariant (fun browser : Browser => browser.storage.getItem institutionIdKey = none)
    (fun browser event _ unset => (browse_institutionIdKey browser event).trans unset) rfl

/-- After any events the submit page finds no institution. -/
theorem mountSubmitPage_reached (events : List BrowserEvent) :
    mountSubmitPage (Browser.reached events).storage = none := by
  rw [mountSubmitPage, reached_institutionIdKey]

/-- Along any run the dashboard shows exactly the registrations that have been
confirmed. -/
theorem dashboardInstId_after (browser : Browser) (events : List BrowserEvent)
    (address : JsString) :
    dashboardInstId (Runs.after browse browser events).storage address =
      if address ∈ browser.confirmed events then some (.json (.str (registeredId address)))
      else dashboardInstId browser.storage address := by
  induction events generalizing browser with
  | nil => simp [Browser.confirmed]
  | cons event rest inductionHypothesis =>
      rw [Runs.after_cons, inductionHypothesis, Browser.confirmed, browse_dashboardInstId]
      by_cases later : address ∈ (browse browser event).confirmed rest
      · rw [if_pos later, if_pos (List.mem_append_right _ later)]
      · by_cases now : browser.confirms event = some address
        · have member : address ∈ (browser.confirms event).toList := by
            rw [now]
            exact List.mem_singleton_self address
          rw [if_neg later, if_pos now, if_pos (List.mem_append_left _ member)]
        · have absent :
              address ∉ (browser.confirms event).toList ++ (browse browser event).confirmed rest := by
            simpa [later] using now
          rw [if_neg later, if_neg now, if_neg absent]

theorem dashboardInstId_reached (events : List BrowserEvent) (address : JsString) :
    dashboardInstId (Browser.reached events).storage address =
      if address ∈ Browser.initial.confirmed events then some (.json (.str (registeredId address)))
      else none :=
  dashboardInstId_after Browser.initial events address

/-- The submit page, mounted for `address`, has its registration if there is one,
and whatever it submits ends with the registered id. -/
structure ShowsRegistration (events : List BrowserEvent) (address : JsString) : Prop where
  instId : mountSubmitPage (Browser.reached events).storage =
    if address ∈ Browser.initial.confirmed events then some (registeredId address) else none
  advice_ends : ∀ generatedHash proofHash tape,
    handleSubmit true (mountSubmitPage (Browser.reached events).storage) generatedHash proofHash =
        .ok tape →
      tape.getLast? = some (setBigUint64 (deriveInstitutionId address))

/-- The hand-over works exactly for the wallets that have nothing to hand over. -/
theorem showsRegistration_iff (events : List BrowserEvent) (address : JsString) :
    ShowsRegistration events address ↔ address ∉ Browser.initial.confirmed events := by
  have unset := mountSubmitPage_reached events
  constructor
  · intro shows registered
    have shown := shows.instId
    rw [unset, if_pos registered] at shown
    cases shown
  · intro unregistered
    refine ⟨by rw [unset, if_neg unregistered], ?_⟩
    intro generatedHash proofHash tape submitted
    rw [unset] at submitted
    cases submitted

/-- A wallet registers, the dashboard shows its id, and the submit page has none. -/
theorem registered_wallet_cannot_submit :
    let attempt : RegistrationAttempt := ⟨none, true, js "Bank", true, some (.num 7), 1, 2⟩
    let events : List BrowserEvent := [.connect (js "mtst1"), .register attempt, .visit]
    (Browser.reached events).wallet = some (js "mtst1") ∧
      js "mtst1" ∈ Browser.initial.confirmed events ∧
      dashboardInstId (Browser.reached events).storage (js "mtst1") =
        some (.json (.str (registeredId (js "mtst1")))) ∧
      mountSubmitPage (Browser.reached events).storage = none ∧
      ¬ ShowsRegistration events (js "mtst1") := by
  intro attempt events
  have registered : js "mtst1" ∈ Browser.initial.confirmed events := by decide +kernel
  have onDashboard := dashboardInstId_reached events (js "mtst1")
  rw [if_pos registered] at onDashboard
  refine ⟨rfl, registered, onDashboard, mountSubmitPage_reached events, ?_⟩
  intro shows
  have shown := shows.instId
  rw [mountSubmitPage_reached, if_pos registered] at shown
  cases shown

end MidenWorkspace.Frontend
