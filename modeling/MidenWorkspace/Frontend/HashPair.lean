import MidenWorkspace.Frontend.SubmitPage
import MidenWorkspace.Library.Runs

/-!
Contract: the two hashes that the submit page shows (`app/submit/page.tsx`).

Owns the page's inputs and hashes, the effect that computes the hashes with its
cleanup, every generation of that effect that is still in flight, and the
invariant that the two hashes belong together in every state of every
interleaving.

A generation is one run of the effect. It waits in turn for the file, for the
digest of its input, for its timer and for the digest of its hash; each of these
may arrive at any time and in any order with those of other generations. React runs
the effect at some time after the inputs have changed. SHA-256 and the encoding of
texts are the browser's.
-/

namespace MidenWorkspace.Frontend

open MidenWorkspace.Library

/-! ### Digests -/

structure Crypto where
  /-- `new TextEncoder().encode` -/
  encode : JsString → List UInt8
  /-- `crypto.subtle.digest("SHA-256", ·)` -/
  digest : List UInt8 → Vector UInt8 32

/-- `byte.toString(16).padStart(2, "0")` -/
def hexOfByte (byte : UInt8) : JsString := [hexUnit (byte.toNat / 16), hexUnit (byte.toNat % 16)]

def computeSHA256 (crypto : Crypto) (data : List UInt8) : JsString :=
  (crypto.digest data).toList.flatMap hexOfByte

theorem computeSHA256_length (crypto : Crypto) (data : List UInt8) :
    (computeSHA256 crypto data).length = 64 := by
  have twice : ∀ bytes : List UInt8, (bytes.flatMap hexOfByte).length = 2 * bytes.length := by
    intro bytes
    induction bytes with
    | nil => rfl
    | cons byte rest inductionHypothesis =>
        rw [List.flatMap_cons, List.length_append, inductionHypothesis, List.length_cons]
        simp only [hexOfByte, List.length_cons, List.length_nil]
        omega
  rw [computeSHA256, twice, Vector.length_toList]

/-! ### The page -/

inductive InputMode where
  | describe
  | upload
deriving DecidableEq, Repr

/-- A file that the user has chosen. Two choices are two files, whatever they hold. -/
structure File where
  identity : Nat
  contents : List UInt8
deriving DecidableEq, Repr

/-- The dependencies of the effect. -/
structure Inputs where
  inputMode : InputMode
  patternText : JsString
  file : Option File
deriving DecidableEq, Repr

/-- What a generation is waiting for. -/
inductive Stage where
  | reading (file : File)
  | hashing (data : List UInt8)
  | waiting (gradHash : JsString)
  | proving (gradHash : JsString)
  | settled
deriving DecidableEq, Repr

structure Generation where
  isMounted : Bool
  stage : Stage
deriving DecidableEq, Repr

structure PageState where
  inputs : Inputs
  /-- the inputs for which the effect ran last -/
  dependencies : Option Inputs
  /-- newest first -/
  generations : List Generation
  generatedHash : JsString
  proofHash : JsString
deriving DecidableEq, Repr

def awaitingInput : JsString := js "Awaiting input..."

def awaitingGeneration : JsString := js "Awaiting generation..."

def computing : JsString := js "Computing..."

def PageState.initial : PageState where
  inputs := { inputMode := .describe, patternText := [], file := none }
  dependencies := none
  generations := []
  generatedHash := awaitingInput
  proofHash := awaitingGeneration

/-! ### The effect -/

/-- What the effect waits for first; `none` if there is no input to hash. -/
def firstWait (crypto : Crypto) (inputs : Inputs) : Option Stage :=
  match inputs.inputMode with
  | .describe =>
      if 0 < (trim inputs.patternText).length then some (.hashing (crypto.encode inputs.patternText))
      else none
  | .upload => inputs.file.map .reading

/-- The rest of `updateHash` once `gradHash` is known, and what it waits for next. -/
def publish (isMounted : Bool) (gradHash : JsString) (state : PageState) : PageState × Stage :=
  let shown := if isMounted then { state with generatedHash := gradHash } else state
  if gradHash ≠ awaitingInput then
    (if isMounted then { shown with proofHash := computing } else shown, .waiting gradHash)
  else (if isMounted then { shown with proofHash := awaitingGeneration } else shown, .settled)

/-- The cleanup of the effect that ran last. -/
def unmountNewest : List Generation → List Generation
  | [] => []
  | newest :: older => { newest with isMounted := false } :: older

/-- React runs the effect if its dependencies have changed. -/
def runEffect (crypto : Crypto) (state : PageState) : PageState :=
  if state.dependencies = some state.inputs then state
  else
    let cleaned := unmountNewest state.generations
    let (shown, stage) :=
      match firstWait crypto state.inputs with
      | some stage => (state, stage)
      | none => publish true awaitingInput state
    { shown with dependencies := some state.inputs, generations := ⟨true, stage⟩ :: cleaned }

def setStage (index : Nat) (generation : Generation) (stage : Stage) (state : PageState) :
    PageState :=
  { state with generations := state.generations.set index { generation with stage } }

/-- What a generation waits for arrives. -/
def settle (crypto : Crypto) (index : Nat) (state : PageState) : PageState :=
  match state.generations[index]? with
  | none => state
  | some generation =>
      match generation.stage with
      | .reading file => setStage index generation (.hashing file.contents) state
      | .hashing data =>
          let (shown, stage) := publish generation.isMounted (computeSHA256 crypto data) state
          setStage index generation stage shown
      | .waiting gradHash => setStage index generation (.proving gradHash) state
      | .proving gradHash =>
          let pHash := computeSHA256 crypto (crypto.encode gradHash)
          setStage index generation .settled
            (if generation.isMounted then { state with proofHash := pHash } else state)
      | .settled => state

/-- Reading the file fails, which ends the generation. -/
def failReading (index : Nat) (state : PageState) : PageState :=
  match state.generations[index]? with
  | some ⟨isMounted, .reading file⟩ => setStage index ⟨isMounted, .reading file⟩ .settled state
  | _ => state

/-- The button for another submission. -/
def submitAnother (state : PageState) : PageState :=
  { state with
    inputs := { state.inputs with patternText := [], file := none }
    generatedHash := awaitingInput
    proofHash := awaitingGeneration }

inductive PageEvent where
  /-- the user changes text, file or mode -/
  | edit (inputs : Inputs)
  | submitAnother
  | runEffect
  | settle (index : Nat)
  | failReading (index : Nat)

def pageStep (crypto : Crypto) (state : PageState) : PageEvent → PageState
  | .edit inputs => { state with inputs }
  | .submitAnother => submitAnother state
  | .runEffect => runEffect crypto state
  | .settle index => settle crypto index state
  | .failReading index => failReading index state

/-! ### The invariant -/

/-- If both texts are digests, the second is that of the first. -/
def BelongTogether (crypto : Crypto) (generatedHash proofHash : JsString) : Prop :=
  generatedHash.length = 64 → proofHash.length = 64 →
    proofHash = computeSHA256 crypto (crypto.encode generatedHash)

/-- Only the newest generation is mounted, and the hash whose proof it still owes
is the one on the page, unless that has been reset. -/
structure PageState.Consistent (crypto : Crypto) (state : PageState) : Prop where
  pair : BelongTogether crypto state.generatedHash state.proofHash
  mounted : ∀ (index : Nat) (generation : Generation),
    state.generations[index]? = some generation → generation.isMounted = true → index = 0
  pending : ∀ (index : Nat) (generation : Generation) (gradHash : JsString),
    state.generations[index]? = some generation → generation.isMounted = true →
    generation.stage = .waiting gradHash ∨ generation.stage = .proving gradHash →
      state.generatedHash = gradHash ∨ state.generatedHash.length ≠ 64

theorem initial_consistent (crypto : Crypto) : PageState.Consistent crypto PageState.initial where
  pair := by
    intro full
    cases full
  mounted := by
    intro index generation found
    cases found
  pending := by
    intro index generation gradHash found
    cases found

/-- One generation moves on, with `shown` on the page: only a mounted generation
may have changed the first hash, and then it is the newest. -/
theorem PageState.Consistent.setStage {crypto : Crypto} {state shown : PageState} {index : Nat}
    {generation : Generation} {stage : Stage} (consistent : PageState.Consistent crypto state)
    (found : state.generations[index]? = some generation)
    (sameGenerations : shown.generations = state.generations)
    (pair : BelongTogether crypto shown.generatedHash shown.proofHash)
    (owed : generation.isMounted = true → ∀ gradHash,
      stage = .waiting gradHash ∨ stage = .proving gradHash →
        shown.generatedHash = gradHash ∨ shown.generatedHash.length ≠ 64)
    (unchanged : generation.isMounted = false → shown.generatedHash = state.generatedHash) :
    PageState.Consistent crypto (setStage index generation stage shown) := by
  have inRange : index < state.generations.length := (List.getElem?_eq_some_iff.mp found).1
  have own : (state.generations.set index { generation with stage })[index]? =
      some { generation with stage } := List.getElem?_set_self inRange
  have other : ∀ position, position ≠ index →
      (state.generations.set index { generation with stage })[position]? =
        state.generations[position]? := fun position different =>
    List.getElem?_set_ne different.symm
  refine ⟨pair, ?_, ?_⟩
  · intro position moved foundMoved isMounted
    simp only [Frontend.setStage, sameGenerations] at foundMoved
    by_cases same : position = index
    · subst same
      rw [own] at foundMoved
      rw [← Option.some.inj foundMoved] at isMounted
      exact consistent.mounted position generation found isMounted
    · rw [other position same] at foundMoved
      exact consistent.mounted position moved foundMoved isMounted
  · intro position moved gradHash foundMoved isMounted owes
    simp only [Frontend.setStage, sameGenerations] at foundMoved
    by_cases same : position = index
    · subst same
      rw [own] at foundMoved
      rw [← Option.some.inj foundMoved] at isMounted owes
      exact owed isMounted gradHash owes
    · rw [other position same] at foundMoved
      have newest := consistent.mounted position moved foundMoved isMounted
      have unmounted : generation.isMounted = false := by
        cases flag : generation.isMounted with
        | false => rfl
        | true => exact absurd (newest.trans (consistent.mounted index generation found flag).symm) same
      show shown.generatedHash = gradHash ∨ shown.generatedHash.length ≠ 64
      rw [unchanged unmounted]
      exact consistent.pending position moved gradHash foundMoved isMounted owes

theorem publish_digest (isMounted : Bool) {gradHash : JsString} (full : gradHash.length = 64)
    (state : PageState) :
    publish isMounted gradHash state =
      (if isMounted then { state with generatedHash := gradHash, proofHash := computing } else state,
        .waiting gradHash) := by
  have isDigest : gradHash ≠ awaitingInput := by
    intro same
    rw [same] at full
    cases full
  unfold publish
  cases isMounted with
  | false => simp [isDigest]
  | true => simp [isDigest]

theorem settle_consistent {crypto : Crypto} {state : PageState} (index : Nat)
    (consistent : PageState.Consistent crypto state) :
    PageState.Consistent crypto (settle crypto index state) := by
  unfold settle
  cases found : state.generations[index]? with
  | none => exact consistent
  | some generation =>
      cases reached : generation.stage with
      | reading file =>
          simp only [reached]
          exact consistent.setStage found rfl consistent.pair (by simp) (fun _ => rfl)
      | hashing data =>
          have full := computeSHA256_length crypto data
          simp only [reached, publish_digest generation.isMounted full]
          cases flag : generation.isMounted with
          | false =>
              exact consistent.setStage found rfl consistent.pair (by simp [flag]) (fun _ => rfl)
          | true =>
              refine consistent.setStage found rfl ?_ ?_ (by simp [flag])
              · intro _ proved
                cases proved
              · intro _ gradHash owes
                left
                simpa using owes
      | waiting gradHash =>
          simp only [reached]
          refine consistent.setStage found rfl consistent.pair ?_ (fun _ => rfl)
          intro isMounted other owes
          have same : gradHash = other := by simpa using owes
          rw [← same]
          exact consistent.pending index generation gradHash found isMounted (.inl reached)
      | proving gradHash =>
          simp only [reached]
          cases flag : generation.isMounted with
          | false =>
              exact consistent.setStage found rfl consistent.pair (by simp) (fun _ => rfl)
          | true =>
              refine consistent.setStage found rfl ?_ (by simp) (by simp [flag])
              intro full _
              rcases consistent.pending index generation gradHash found flag (.inr reached) with
                same | reset
              · show computeSHA256 crypto (crypto.encode gradHash) = _
                rw [← same]
                rfl
              · exact absurd full reset
      | settled =>
          simp only [reached]
          exact consistent

theorem failReading_consistent {crypto : Crypto} {state : PageState} (index : Nat)
    (consistent : PageState.Consistent crypto state) :
    PageState.Consistent crypto (failReading index state) := by
  unfold failReading
  split
  · rename_i found
    exact consistent.setStage found rfl consistent.pair (by simp) (fun _ => rfl)
  · exact consistent

/-- The cleanup leaves no generation mounted. -/
theorem unmountNewest_unmounted {crypto : Crypto} {state : PageState}
    (consistent : PageState.Consistent crypto state) (index : Nat) (generation : Generation)
    (found : (unmountNewest state.generations)[index]? = some generation) :
    generation.isMounted = false := by
  cases listed : state.generations with
  | nil =>
      rw [listed] at found
      cases found
  | cons newest older =>
      rw [listed] at found
      cases index with
      | zero =>
          cases found
          rfl
      | succ index =>
          have old : state.generations[index + 1]? = some generation := by
            rw [listed]
            exact found
          cases flag : generation.isMounted with
          | false => rfl
          | true => cases consistent.mounted (index + 1) generation old flag

/-- A new generation owes nothing yet, and no other is mounted. -/
theorem consistent_of_newest {crypto : Crypto} {state : PageState} {newest : Generation}
    {older : List Generation} (listed : state.generations = newest :: older)
    (pair : BelongTogether crypto state.generatedHash state.proofHash)
    (owesNothing : ∀ gradHash, newest.stage ≠ .waiting gradHash ∧ newest.stage ≠ .proving gradHash)
    (unmounted : ∀ (index : Nat) (generation : Generation), older[index]? = some generation →
      generation.isMounted = false) :
    PageState.Consistent crypto state := by
  refine ⟨pair, ?_, ?_⟩
  · intro index generation found isMounted
    rw [listed] at found
    cases index with
    | zero => rfl
    | succ index => cases isMounted.symm.trans (unmounted index generation found)
  · intro index generation gradHash found isMounted owes
    rw [listed] at found
    cases index with
    | zero =>
        cases found
        rcases owes with waiting | proving
        · exact absurd waiting (owesNothing gradHash).1
        · exact absurd proving (owesNothing gradHash).2
    | succ index => cases isMounted.symm.trans (unmounted index generation found)

theorem firstWait_owesNothing {crypto : Crypto} {inputs : Inputs} {stage : Stage}
    (waits : firstWait crypto inputs = some stage) (gradHash : JsString) :
    stage ≠ .waiting gradHash ∧ stage ≠ .proving gradHash := by
  unfold firstWait at waits
  cases mode : inputs.inputMode with
  | describe =>
      simp only [mode] at waits
      split at waits
      · cases waits
        simp
      · cases waits
  | upload =>
      simp only [mode] at waits
      obtain ⟨file, -, rfl⟩ := Option.map_eq_some_iff.mp waits
      simp

theorem runEffect_consistent {crypto : Crypto} {state : PageState}
    (consistent : PageState.Consistent crypto state) :
    PageState.Consistent crypto (runEffect crypto state) := by
  unfold runEffect
  by_cases unchanged : state.dependencies = some state.inputs
  · rw [if_pos unchanged]
    exact consistent
  rw [if_neg unchanged]
  have unmounted := unmountNewest_unmounted consistent
  cases waits : firstWait crypto state.inputs with
  | some stage =>
      refine consistent_of_newest rfl ?_ ?_ unmounted
      · exact consistent.pair
      · exact firstWait_owesNothing waits
  | none =>
      refine consistent_of_newest rfl ?_ ?_ unmounted
      · intro full
        cases full
      · intro gradHash
        exact ⟨Stage.noConfusion, Stage.noConfusion⟩

theorem submitAnother_consistent {crypto : Crypto} {state : PageState}
    (consistent : PageState.Consistent crypto state) :
    PageState.Consistent crypto (submitAnother state) := by
  have reset : (submitAnother state).generatedHash.length ≠ 64 := by
    intro full
    cases full
  refine ⟨fun full => absurd full reset, consistent.mounted, ?_⟩
  intro index generation gradHash _ _ _
  exact .inr reset

theorem pageStep_consistent {crypto : Crypto} {state : PageState} (event : PageEvent)
    (consistent : PageState.Consistent crypto state) :
    PageState.Consistent crypto (pageStep crypto state event) := by
  cases event with
  | edit inputs => exact ⟨consistent.pair, consistent.mounted, consistent.pending⟩
  | submitAnother => exact submitAnother_consistent consistent
  | runEffect => exact runEffect_consistent consistent
  | settle index => exact settle_consistent index consistent
  | failReading index => exact failReading_consistent index consistent

/-- In every state of every interleaving the two hashes belong together, and so do
the two that a submission sends. -/
theorem hashPair_belongTogether (crypto : Crypto) (events : List PageEvent) :
    let state := Runs.after (pageStep crypto) PageState.initial events
    BelongTogether crypto state.generatedHash state.proofHash ∧
      ∀ walletReady instId tape,
        handleSubmit walletReady instId state.generatedHash state.proofHash = .ok tape →
          ∃ id, instId = some id ∧
            advice state.generatedHash (computeSHA256 crypto (crypto.encode state.generatedHash)) id =
              some tape := by
  intro state
  have consistent : PageState.Consistent crypto state :=
    Runs.after_invariant (PageState.Consistent crypto) (fun _ event _ => pageStep_consistent event)
      (initial_consistent crypto)
  refine ⟨consistent.pair, ?_⟩
  intro walletReady instId tape submitted
  obtain ⟨id, registered, generatedFull, proofFull, built⟩ := handleSubmit_eq_ok submitted
  refine ⟨id, registered, ?_⟩
  rw [← consistent.pair generatedFull proofFull]
  exact built

/-- An edit while a proof is being computed: the late proof of the first text is
dropped, and the page waits for that of the second. -/
example : (Runs.after (pageStep ⟨fun text => text.map (·.toUInt8), fun _ => Vector.replicate 32 7⟩)
    PageState.initial
    [.edit ⟨.describe, js "a", none⟩, .runEffect, .settle 0, .settle 0,
      .edit ⟨.describe, js "b", none⟩, .runEffect, .settle 0, .settle 1]).proofHash = computing := by
  decide +kernel

end MidenWorkspace.Frontend
