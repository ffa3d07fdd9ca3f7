import MidenWorkspace.Library.Runs
import MidenWorkspace.Library.Saturating
import MidenWorkspace.Library.XorFold
import MidenWorkspace.Vm.Stack

/-!
Contract: the Syndex SDK client (`syndex-sdk/src/lib.rs`).

Owns the client's operations on the fixed-width integers of the source, the
runs of any number of them, and the invariant that ties institution, history,
model root and participant count together in every state of every run.

An operation takes `&mut self` and may fail after it has written, so it returns
the client beside its result in either case. The system clock is read once per
call; its value is an argument.
-/

namespace MidenWorkspace.Syndex

open MidenWorkspace.Library.Runs
open MidenWorkspace.Library.Saturating
open MidenWorkspace.Library.XorFold
open MidenWorkspace.Vm

structure Institution where
  institutionId : UInt64
  schemaHash : Vector UInt64 4
deriving DecidableEq, Repr

structure GradientUpdate where
  institutionId : UInt64
  gradientHash : Vector UInt64 4
  validityProofHash : Vector UInt64 4
  timestamp : UInt64
deriving DecidableEq, Repr

structure ModelState where
  modelRoot : Vector UInt64 4
  participantCount : UInt32
  lastUpdated : UInt64
deriving DecidableEq, Repr

structure SyndexClient where
  institution : Option Institution
  modelState : ModelState
  gradientHistory : List GradientUpdate
  accountId : UInt64
deriving DecidableEq, Repr

namespace SyndexClient

def new (accountId now : UInt64) : SyndexClient where
  institution := none
  modelState := { modelRoot := Vector.replicate 4 0, participantCount := 0, lastUpdated := now }
  gradientHistory := []
  accountId

def registerInstitution (client : SyndexClient) (institutionId : UInt64)
    (schemaHash : Vector UInt64 4) (now : UInt64) : Except String Unit × SyndexClient :=
  if client.institution.isSome then
    (.error "institution already registered", client)
  else
    (.ok (), { client with
      institution := some { institutionId, schemaHash }
      modelState := { client.modelState with lastUpdated := now } })

def verifyGradientValidity (client : SyndexClient) (update : GradientUpdate) : Bool :=
  match client.institution with
  | none => false
  | some institution =>
      let gradientNonZero := update.gradientHash.any (· != 0)
      let proofNonZero := update.validityProofHash.any (· != 0)
      let institutionMatch := update.institutionId == institution.institutionId
      let withinBounds := update.gradientHash.all (· < 1000000000000)
      let proofNotData := update.validityProofHash != update.gradientHash
      gradientNonZero && proofNonZero && institutionMatch && withinBounds && proofNotData

/-- The history is written before the root, and the root before the check that
it has changed. -/
def submitGradientUpdate (client : SyndexClient) (gradientHash validityProofHash : Vector UInt64 4)
    (now : UInt64) : Except String Unit × SyndexClient :=
  match client.institution with
  | none => (.error "institution not registered", client)
  | some institution =>
      let update : GradientUpdate :=
        { institutionId := institution.institutionId, gradientHash, validityProofHash,
          timestamp := now }
      if !client.verifyGradientValidity update then
        (.error "invalid gradient update", client)
      else
        let pushed := { client with gradientHistory := client.gradientHistory ++ [update] }
        let oldRoot := pushed.modelState.modelRoot
        let folded := { pushed with modelState :=
          { pushed.modelState with modelRoot := oldRoot.zipWith (· ^^^ ·) gradientHash } }
        if folded.modelState.modelRoot = oldRoot then
          (.error "model root unchanged after update", folded)
        else
          (.ok (), { folded with modelState :=
            { folded.modelState with
              participantCount := saturatingAdd folded.modelState.participantCount 1
              lastUpdated := now } })

def pullModel (client : SyndexClient) : ModelState := client.modelState

def generateAdviceStack (client : SyndexClient) : List UInt64 :=
  match client.gradientHistory.getLast?, client.institution with
  | some last, _ =>
      [last.institutionId] ++ last.gradientHash.toList ++ last.validityProofHash.toList
  | none, some institution => [institution.institutionId]
  | none, none => []

end SyndexClient

/-! ### What an operation can do -/

namespace SyndexClient

theorem verifyGradientValidity_iff (client : SyndexClient) (update : GradientUpdate) :
    client.verifyGradientValidity update = true ↔
      ∃ institution, client.institution = some institution ∧
        update.institutionId = institution.institutionId ∧
        (∃ index : Fin 4, update.gradientHash[index] ≠ 0) ∧
        (∃ index : Fin 4, update.validityProofHash[index] ≠ 0) ∧
        (∀ index : Fin 4, update.gradientHash[index] < 1000000000000) ∧
        update.validityProofHash ≠ update.gradientHash := by
  unfold verifyGradientValidity
  cases client.institution with
  | none => simp
  | some institution =>
      simp only [Bool.and_eq_true, Vector.any_eq_true, Vector.all_eq_true, bne_iff_ne, beq_iff_eq,
        decide_eq_true_eq, Option.some.injEq, exists_eq_left', Fin.exists_iff, Fin.forall_iff,
        Fin.getElem_fin]
      tauto

/-- The client after an accepted update. -/
def accept (client : SyndexClient) (update : GradientUpdate) : SyndexClient :=
  { client with
    gradientHistory := client.gradientHistory ++ [update]
    modelState :=
      { modelRoot := client.modelState.modelRoot.zipWith (· ^^^ ·) update.gradientHash
        participantCount := saturatingAdd client.modelState.participantCount 1
        lastUpdated := update.timestamp } }

/-- A gradient that is not zero moves the root. -/
theorem zipWith_xor_ne {root gradient : Vector UInt64 4}
    (nonZero : ∃ index : Fin 4, gradient[index] ≠ 0) : root.zipWith (· ^^^ ·) gradient ≠ root := by
  intro unchanged
  obtain ⟨index, moved⟩ := nonZero
  have same : root[index] ^^^ gradient[index] = root[index] := by
    conv_rhs => rw [← unchanged]
    simp
  exact moved ((xor_eq_left_iff _ _).mp same)

theorem registerInstitution_cases (client : SyndexClient) (institutionId : UInt64)
    (schemaHash : Vector UInt64 4) (now : UInt64) :
    (∃ institution, client.institution = some institution ∧
      client.registerInstitution institutionId schemaHash now =
        (.error "institution already registered", client)) ∨
    (client.institution = none ∧
      client.registerInstitution institutionId schemaHash now =
        (.ok (), { client with
          institution := some { institutionId, schemaHash }
          modelState := { client.modelState with lastUpdated := now } })) := by
  cases registered : client.institution with
  | some institution =>
      left
      refine ⟨institution, rfl, ?_⟩
      simp [registerInstitution, registered]
  | none =>
      right
      refine ⟨rfl, ?_⟩
      simp [registerInstitution, registered]

/-- The exit after the root has been written is never taken. -/
theorem submitGradientUpdate_eq (client : SyndexClient)
    (gradientHash validityProofHash : Vector UInt64 4) (now : UInt64) :
    client.submitGradientUpdate gradientHash validityProofHash now =
      match client.institution with
      | none => (.error "institution not registered", client)
      | some institution =>
          let update : GradientUpdate :=
            { institutionId := institution.institutionId, gradientHash, validityProofHash,
              timestamp := now }
          if client.verifyGradientValidity update then (.ok (), client.accept update)
          else (.error "invalid gradient update", client) := by
  unfold submitGradientUpdate
  cases registered : client.institution with
  | none => rfl
  | some institution =>
      dsimp only
      by_cases valid : client.verifyGradientValidity
          ⟨institution.institutionId, gradientHash, validityProofHash, now⟩ = true
      · obtain ⟨_, -, -, nonZero, -⟩ := (client.verifyGradientValidity_iff _).mp valid
        have moved : client.modelState.modelRoot.zipWith (· ^^^ ·) gradientHash ≠
            client.modelState.modelRoot := zipWith_xor_ne nonZero
        simp only [valid, Bool.not_true, Bool.false_eq_true, if_false, if_true, if_neg moved, accept,
          registered]
      · simp only [valid, Bool.not_false, Bool.false_eq_true, if_false, if_true]

/-- The three ends of a submission. -/
theorem submitGradientUpdate_cases (client : SyndexClient)
    (gradientHash validityProofHash : Vector UInt64 4) (now : UInt64) :
    (client.institution = none ∧
      client.submitGradientUpdate gradientHash validityProofHash now =
        (.error "institution not registered", client)) ∨
    ∃ institution, client.institution = some institution ∧
      let update : GradientUpdate :=
        ⟨institution.institutionId, gradientHash, validityProofHash, now⟩
      (client.verifyGradientValidity update = false ∧
        client.submitGradientUpdate gradientHash validityProofHash now =
          (.error "invalid gradient update", client)) ∨
      (client.verifyGradientValidity update = true ∧
        client.submitGradientUpdate gradientHash validityProofHash now =
          (.ok (), client.accept update)) := by
  rw [submitGradientUpdate_eq]
  cases registered : client.institution with
  | none => exact .inl ⟨rfl, rfl⟩
  | some institution =>
      right
      refine ⟨institution, rfl, ?_⟩
      dsimp only
      split_ifs with valid
      · exact .inr ⟨valid, rfl⟩
      · exact .inl ⟨Bool.not_eq_true _ ▸ valid, rfl⟩

end SyndexClient

/-! ### Runs -/

inductive ClientCall where
  | registerInstitution (institutionId : UInt64) (schemaHash : Vector UInt64 4) (now : UInt64)
  | submitGradientUpdate (gradientHash validityProofHash : Vector UInt64 4) (now : UInt64)
  | pullModel
deriving DecidableEq, Repr

inductive ClientResponse where
  | result (outcome : Except String Unit)
  | model (state : ModelState)

namespace SyndexClient

def perform (client : SyndexClient) : ClientCall → ClientResponse × SyndexClient
  | .registerInstitution institutionId schemaHash now =>
      (client.registerInstitution institutionId schemaHash now).map .result id
  | .submitGradientUpdate gradientHash validityProofHash now =>
      (client.submitGradientUpdate gradientHash validityProofHash now).map .result id
  | .pullModel => (.model client.pullModel, client)

def step (client : SyndexClient) (call : ClientCall) : SyndexClient := (client.perform call).2

/-- The client after `calls`, in order. -/
def reached (accountId start : UInt64) (calls : List ClientCall) : SyndexClient :=
  after step (new accountId start) calls

/-- A call leaves the client alone, registers the first institution, or accepts
a valid update. -/
theorem step_cases (client : SyndexClient) (call : ClientCall) :
    client.step call = client ∨
    (client.institution = none ∧ ∃ institutionId schemaHash now,
      call = .registerInstitution institutionId schemaHash now ∧
      client.step call = { client with
        institution := some { institutionId, schemaHash }
        modelState := { client.modelState with lastUpdated := now } }) ∨
    ∃ update, client.verifyGradientValidity update = true ∧ client.step call = client.accept update := by
  cases call with
  | registerInstitution institutionId schemaHash now =>
      rcases client.registerInstitution_cases institutionId schemaHash now with
        ⟨_, -, refused⟩ | ⟨unregistered, registered⟩
      · left
        rw [step, perform, refused]
        rfl
      · right
        left
        refine ⟨unregistered, institutionId, schemaHash, now, rfl, ?_⟩
        rw [step, perform, registered]
        rfl
  | submitGradientUpdate gradientHash validityProofHash now =>
      rw [step, perform]
      rcases client.submitGradientUpdate_cases gradientHash validityProofHash now with
        ⟨-, refused⟩ | ⟨institution, -, ⟨-, refused⟩ | ⟨valid, accepted⟩⟩
      · rw [refused]
        exact .inl rfl
      · rw [refused]
        exact .inl rfl
      · rw [accepted]
        exact .inr (.inr ⟨_, valid, rfl⟩)
  | pullModel => exact .inl rfl

/-! ### The invariant of one client -/

/-- How the fields of a client hang together. -/
structure Consistent (client : SyndexClient) : Prop where
  history_valid : ∀ update ∈ client.gradientHistory, client.verifyGradientValidity update = true
  root_folds : ∀ index : Fin 4, client.modelState.modelRoot[index] =
    xorFold (client.gradientHistory.map (·.gradientHash[index]))
  count_caps : client.modelState.participantCount.toNat = min client.gradientHistory.length cap

theorem new_consistent (accountId now : UInt64) : (new accountId now).Consistent where
  history_valid := by simp [new]
  root_folds := by
    intro index
    match index with
    | 0 | 1 | 2 | 3 => rfl
  count_caps := rfl

theorem Consistent.accept {client : SyndexClient} (consistent : client.Consistent)
    {update : GradientUpdate} (valid : client.verifyGradientValidity update = true) :
    (client.accept update).Consistent where
  history_valid := by
    intro earlier member
    rcases List.mem_append.mp member with old | last
    · exact consistent.history_valid earlier old
    · rw [List.mem_singleton.mp last]
      exact valid
  root_folds := by
    intro index
    have folded := consistent.root_folds index
    simp only [Fin.getElem_fin] at folded
    simp only [SyndexClient.accept, List.map_append, List.map_cons, List.map_nil, xorFold_concat,
      Fin.getElem_fin, Vector.getElem_zipWith, folded]
  count_caps := by
    have counted := consistent.count_caps
    have one : (1 : UInt32).toNat = 1 := rfl
    simp only [SyndexClient.accept, toNat_saturatingAdd, List.length_append, List.length_singleton]
    omega

/-- Before the registration there is no history. -/
theorem Consistent.history_eq_nil {client : SyndexClient} (consistent : client.Consistent)
    (unregistered : client.institution = none) : client.gradientHistory = [] := by
  rw [List.eq_nil_iff_forall_not_mem]
  intro update member
  have valid := consistent.history_valid update member
  simp [verifyGradientValidity, unregistered] at valid

theorem step_consistent (client : SyndexClient) (call : ClientCall)
    (consistent : client.Consistent) : (client.step call).Consistent := by
  rcases client.step_cases call with same | ⟨unregistered, _, _, _, -, registered⟩ |
    ⟨update, valid, accepted⟩
  · rw [same]
    exact consistent
  · rw [registered]
    refine ⟨?_, consistent.root_folds, consistent.count_caps⟩
    simp [consistent.history_eq_nil unregistered]
  · rw [accepted]
    exact consistent.accept valid

/-- Every element of the history is below `10 ^ 12`, which XOR does not keep, and
so below `2 ^ 40`, which it does. -/
theorem Consistent.root_lt {client : SyndexClient} (consistent : client.Consistent)
    (index : Fin 4) : client.modelState.modelRoot[index].toNat < 2 ^ 40 := by
  rw [consistent.root_folds index]
  apply xorFold_lt
  intro word member
  obtain ⟨update, inHistory, rfl⟩ := List.mem_map.mp member
  obtain ⟨_, -, -, -, -, bounded, -⟩ :=
    (client.verifyGradientValidity_iff update).mp (consistent.history_valid update inHistory)
  have small := UInt64.lt_iff_toNat_lt.mp (bounded index)
  exact small.trans (by decide)

/-- `later` is `earlier` with more updates at the end of its history. -/
structure Extends (earlier later : SyndexClient) : Prop where
  institution_kept : ∀ institution, earlier.institution = some institution →
    later.institution = some institution
  history_grows : earlier.gradientHistory <+: later.gradientHistory

theorem step_extends (client : SyndexClient) (call : ClientCall) :
    client.Extends (client.step call) := by
  rcases client.step_cases call with same | ⟨unregistered, _, _, _, -, registered⟩ |
    ⟨update, -, accepted⟩
  · rw [same]
    exact ⟨fun _ kept => kept, List.prefix_refl _⟩
  · rw [registered]
    exact ⟨fun _ kept => by simp [unregistered] at kept, List.prefix_refl _⟩
  · rw [accepted]
    exact ⟨fun _ kept => kept, List.prefix_append _ _⟩

/-! ### The invariant of every run -/

theorem registerInstitution_ok_iff (client : SyndexClient) (institutionId : UInt64)
    (schemaHash : Vector UInt64 4) (now : UInt64) :
    (client.registerInstitution institutionId schemaHash now).1 = .ok () ↔
      client.institution = none := by
  unfold registerInstitution
  cases client.institution <;> simp

theorem step_registerInstitution {client : SyndexClient} (unregistered : client.institution = none)
    (institutionId : UInt64) (schemaHash : Vector UInt64 4) (now : UInt64) :
    (client.step (.registerInstitution institutionId schemaHash now)).institution =
      some { institutionId, schemaHash } := by
  simp [step, perform, registerInstitution, unregistered]

section Run

variable (accountId start : UInt64) (calls : List ClientCall)

theorem reached_consistent : (reached accountId start calls).Consistent :=
  after_invariant Consistent (fun client call _ => step_consistent client call)
    (new_consistent accountId start)

theorem reached_extends (more : List ClientCall) :
    (reached accountId start calls).Extends (reached accountId start (calls ++ more)) := by
  unfold reached
  rw [after_append]
  exact after_moves Extends (fun _ => ⟨fun _ kept => kept, List.prefix_refl _⟩)
    (fun first second => ⟨fun _ kept => second.institution_kept _ (first.institution_kept _ kept),
      first.history_grows.trans second.history_grows⟩)
    step_extends _ more

/-- `calls` has a registration with these arguments that succeeds where it
stands. -/
def RegisteredBy (institution : Institution) : Prop :=
  ∃ before now more,
    calls = before ++ .registerInstitution institution.institutionId institution.schemaHash now :: more ∧
    ((reached accountId start before).registerInstitution institution.institutionId
      institution.schemaHash now).1 = .ok ()

theorem institution_of_registeredBy {institution : Institution}
    (registered : RegisteredBy accountId start calls institution) :
    (reached accountId start calls).institution = some institution := by
  obtain ⟨before, now, more, rfl, succeeded⟩ := registered
  have unregistered := (registerInstitution_ok_iff _ _ _ _).mp succeeded
  have set := step_registerInstitution unregistered institution.institutionId
    institution.schemaHash now
  have kept := (reached_extends accountId start (before ++ [.registerInstitution
    institution.institutionId institution.schemaHash now]) more).institution_kept institution
  rw [List.append_assoc] at kept
  apply kept
  rw [reached, after_append]
  exact set

theorem registeredBy_of_institution {institution : Institution}
    (set : (reached accountId start calls).institution = some institution) :
    RegisteredBy accountId start calls institution := by
  induction calls using List.reverseRecOn with
  | nil => cases set
  | append_singleton calls call inductionHypothesis =>
      have last : reached accountId start (calls ++ [call]) =
          (reached accountId start calls).step call := by
        rw [reached, after_append]
        rfl
      have earlier : (reached accountId start calls).institution = some institution →
          RegisteredBy accountId start (calls ++ [call]) institution := by
        intro registered
        obtain ⟨before, now, more, rfl, succeeded⟩ := inductionHypothesis registered
        exact ⟨before, now, more ++ [call], by simp, succeeded⟩
      rw [last] at set
      rcases (reached accountId start calls).step_cases call with same |
        ⟨unregistered, institutionId, schemaHash, now, rfl, registered⟩ | ⟨update, -, accepted⟩
      · exact earlier (same ▸ set)
      · rw [registered] at set
        obtain rfl := Option.some.inj set
        exact ⟨calls, now, [], rfl, (registerInstitution_ok_iff _ _ _ _).mpr unregistered⟩
      · rw [accepted] at set
        exact earlier set

/-- What holds of the client after any calls, and of what more calls make of it. -/
structure RunInvariant : Prop where
  -- the institution is the one that registered successfully, and stays
  registers_iff : ∀ institutionId schemaHash now,
    ((reached accountId start calls).registerInstitution institutionId schemaHash now).1 = .ok () ↔
      (reached accountId start calls).institution = none
  institution_iff : ∀ institution,
    (reached accountId start calls).institution = some institution ↔
      RegisteredBy accountId start calls institution
  institution_kept : ∀ more institution,
    (reached accountId start calls).institution = some institution →
      (reached accountId start (calls ++ more)).institution = some institution
  -- the history grows at its end and holds valid updates of that institution
  history_grows : ∀ more, (reached accountId start calls).gradientHistory <+:
    (reached accountId start (calls ++ more)).gradientHistory
  history_valid : ∀ update ∈ (reached accountId start calls).gradientHistory,
    (∃ institution, (reached accountId start calls).institution = some institution ∧
      update.institutionId = institution.institutionId) ∧
    (reached accountId start calls).verifyGradientValidity update = true
  -- the root is the XOR of the history, in any order
  root_folds : ∀ index : Fin 4, (reached accountId start calls).modelState.modelRoot[index] =
    xorFold ((reached accountId start calls).gradientHistory.map (·.gradientHash[index]))
  root_order_free : ∀ otherId otherStart otherCalls,
    ((reached otherId otherStart otherCalls).gradientHistory.map (·.gradientHash)).Perm
      ((reached accountId start calls).gradientHistory.map (·.gradientHash)) →
    (reached otherId otherStart otherCalls).modelState.modelRoot =
      (reached accountId start calls).modelState.modelRoot
  count_caps : (reached accountId start calls).modelState.participantCount.toNat =
    min (reached accountId start calls).gradientHistory.length (2 ^ 32 - 1)
  -- every element of the root is a canonical field element
  root_canonical : ∀ index : Fin 4,
    (reached accountId start calls).modelState.modelRoot[index].toNat < 2 ^ 40 ∧
    (Felt.new (reached accountId start calls).modelState.modelRoot[index].toNat).val =
      (reached accountId start calls).modelState.modelRoot[index].toNat

variable {accountId start calls} in
theorem modelRoot_eq_of_perm {otherId otherStart : UInt64} {otherCalls : List ClientCall}
    (permuted : ((reached otherId otherStart otherCalls).gradientHistory.map (·.gradientHash)).Perm
      ((reached accountId start calls).gradientHistory.map (·.gradientHash))) :
    (reached otherId otherStart otherCalls).modelState.modelRoot =
      (reached accountId start calls).modelState.modelRoot := by
  apply Vector.ext
  intro index bound
  have other := (reached_consistent otherId otherStart otherCalls).root_folds ⟨index, bound⟩
  have this := (reached_consistent accountId start calls).root_folds ⟨index, bound⟩
  have column := xorFold_perm (permuted.map fun hash => hash.get ⟨index, bound⟩)
  simp only [List.map_map] at column
  exact other.trans (column.trans this.symm)

/-- The state invariant of the SDK client. -/
theorem reached_runInvariant : RunInvariant accountId start calls where
  registers_iff := registerInstitution_ok_iff _
  institution_iff := fun _ => ⟨registeredBy_of_institution accountId start calls,
    institution_of_registeredBy accountId start calls⟩
  institution_kept := fun more => (reached_extends accountId start calls more).institution_kept
  history_grows := fun more => (reached_extends accountId start calls more).history_grows
  history_valid := by
    intro update member
    have valid := (reached_consistent accountId start calls).history_valid update member
    obtain ⟨institution, registered, same, -⟩ := (verifyGradientValidity_iff _ update).mp valid
    exact ⟨⟨institution, registered, same⟩, valid⟩
  root_folds := (reached_consistent accountId start calls).root_folds
  root_order_free := fun _ _ _ => modelRoot_eq_of_perm
  count_caps := (reached_consistent accountId start calls).count_caps
  root_canonical := by
    intro index
    have small := (reached_consistent accountId start calls).root_lt index
    exact ⟨small, Felt.new_val_of_lt (small.trans (by decide))⟩

end Run

end SyndexClient

end MidenWorkspace.Syndex
