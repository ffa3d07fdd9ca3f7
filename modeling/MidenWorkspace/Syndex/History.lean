import MidenWorkspace.Syndex.Sdk

/-!
Contract: what failed and accepted calls leave of a Syndex client over a run.

Owns the atomicity of every failed operation, the gradients that a run accepts,
and exactly when the model root of a run never returns to an earlier value.

The root is an XOR, so a block of accepted gradients whose XOR is zero takes it
back to where it was. One gradient never does that: a zero gradient is refused.
Two may, since nothing refuses a gradient that has been accepted before.
-/

namespace MidenWorkspace.Syndex.SyndexClient

open MidenWorkspace.Library.Runs
open MidenWorkspace.Library.XorFold

/-! ### Failed operations -/

/-- A failed operation leaves every field of the client as it was, and no
submission fails after it has written. -/
structure FailsAtomically (client : SyndexClient) : Prop where
  registration : ∀ institutionId schemaHash now failure,
    (client.registerInstitution institutionId schemaHash now).1 = .error failure →
      (client.registerInstitution institutionId schemaHash now).2 = client
  submission : ∀ gradientHash validityProofHash now failure,
    (client.submitGradientUpdate gradientHash validityProofHash now).1 = .error failure →
      (client.submitGradientUpdate gradientHash validityProofHash now).2 = client
  late_exit_unreachable : ∀ gradientHash validityProofHash now,
    (client.submitGradientUpdate gradientHash validityProofHash now).1 ≠
      .error "model root unchanged after update"

theorem failsAtomically (client : SyndexClient) : client.FailsAtomically where
  registration := by
    intro institutionId schemaHash now failure failed
    rcases client.registerInstitution_cases institutionId schemaHash now with
      ⟨_, -, refused⟩ | ⟨-, succeeded⟩
    · rw [refused]
    · rw [succeeded] at failed
      cases failed
  submission := by
    intro gradientHash validityProofHash now failure failed
    rcases client.submitGradientUpdate_cases gradientHash validityProofHash now with
      ⟨-, unregistered⟩ | ⟨institution, -, ⟨-, invalid⟩ | ⟨-, accepted⟩⟩
    · rw [unregistered]
    · rw [invalid]
    · rw [accepted] at failed
      cases failed
  late_exit_unreachable := by
    intro gradientHash validityProofHash now late
    rcases client.submitGradientUpdate_cases gradientHash validityProofHash now with
      ⟨-, unregistered⟩ | ⟨institution, -, ⟨-, invalid⟩ | ⟨-, accepted⟩⟩
    · rw [unregistered] at late
      exact absurd (Except.error.inj late) (by decide)
    · rw [invalid] at late
      exact absurd (Except.error.inj late) (by decide)
    · rw [accepted] at late
      cases late

/-- Whatever has been called before, a call that fails changes nothing. -/
theorem reached_failsAtomically (accountId start : UInt64) (calls : List ClientCall) :
    (reached accountId start calls).FailsAtomically :=
  (reached accountId start calls).failsAtomically

/-! ### Accepted gradients -/

/-- The gradient of a submission that is valid for the registered institution. -/
def acceptedGradient (client : SyndexClient) : ClientCall → Option (Vector UInt64 4)
  | .submitGradientUpdate gradientHash validityProofHash now =>
      match client.institution with
      | none => none
      | some institution =>
          if client.verifyGradientValidity
              { institutionId := institution.institutionId, gradientHash, validityProofHash,
                timestamp := now } then
            some gradientHash
          else none
  | .registerInstitution .. | .pullModel => none

/-- A submission succeeds exactly if it has an accepted gradient. -/
theorem acceptedGradient_cases (client : SyndexClient)
    (gradientHash validityProofHash : Vector UInt64 4) (now : UInt64) :
    (client.acceptedGradient (.submitGradientUpdate gradientHash validityProofHash now) = none ∧
      ∃ failure, client.submitGradientUpdate gradientHash validityProofHash now =
        (.error failure, client)) ∨
    (client.acceptedGradient (.submitGradientUpdate gradientHash validityProofHash now) =
        some gradientHash ∧
      ∃ update, update.gradientHash = gradientHash ∧
        client.submitGradientUpdate gradientHash validityProofHash now =
          (.ok (), client.accept update)) := by
  rcases client.submitGradientUpdate_cases gradientHash validityProofHash now with
    ⟨unregistered, refused⟩ | ⟨institution, registered, ⟨invalid, refused⟩ | ⟨valid, accepted⟩⟩
  · refine .inl ⟨?_, _, refused⟩
    simp [acceptedGradient, unregistered]
  · refine .inl ⟨?_, _, refused⟩
    simp [acceptedGradient, registered, invalid]
  · refine .inr ⟨?_, _, rfl, accepted⟩
    simp [acceptedGradient, registered, valid]

/-- The gradients of the submissions that are accepted where they stand, in order. -/
def acceptedGradients (client : SyndexClient) : List ClientCall → List (Vector UInt64 4)
  | [] => []
  | call :: rest =>
      (client.acceptedGradient call).toList ++ acceptedGradients (client.step call) rest

def gradients (client : SyndexClient) : List (Vector UInt64 4) :=
  client.gradientHistory.map (·.gradientHash)

theorem gradients_step (client : SyndexClient) (call : ClientCall) :
    (client.step call).gradients = client.gradients ++ (client.acceptedGradient call).toList := by
  cases call with
  | registerInstitution institutionId schemaHash now =>
      rcases client.registerInstitution_cases institutionId schemaHash now with
        ⟨_, -, refused⟩ | ⟨-, registered⟩
      · simp [acceptedGradient, step, perform, refused]
      · simp [acceptedGradient, step, perform, registered, gradients]
  | submitGradientUpdate gradientHash validityProofHash now =>
      rcases client.acceptedGradient_cases gradientHash validityProofHash now with
        ⟨none, _, failed⟩ | ⟨some, update, rfl, accepted⟩
      · simp [none, step, perform, failed]
      · simp [some, step, perform, accepted, gradients, accept]
  | pullModel => simp [acceptedGradient, step, perform]

theorem gradients_after (client : SyndexClient) (calls : List ClientCall) :
    (after step client calls).gradients = client.gradients ++ client.acceptedGradients calls := by
  induction calls generalizing client with
  | nil => simp [acceptedGradients]
  | cons call rest inductionHypothesis =>
      rw [after_cons, inductionHypothesis, gradients_step, acceptedGradients, List.append_assoc]

/-! ### Roots along a run -/

section Run

variable (accountId start : UInt64)

/-- The run ends with a submission that is accepted. -/
def EndsAccepted (calls : List ClientCall) : Prop :=
  ∃ before gradientHash validityProofHash now,
    calls = before ++ [.submitGradientUpdate gradientHash validityProofHash now] ∧
    ((reached accountId start before).submitGradientUpdate gradientHash validityProofHash now).1 =
      .ok ()

/-- No accepted submission of the run is undone by later ones. -/
structure NeverCancels (calls : List ClientCall) : Prop where
  root_nonzero : ∀ done, done <+: calls → (reached accountId start done).gradientHistory ≠ [] →
    (reached accountId start done).pullModel.modelRoot ≠ #v[0, 0, 0, 0]
  roots_differ : ∀ earlier later, later <+: calls → earlier <+: later → earlier ≠ later →
    EndsAccepted accountId start earlier → EndsAccepted accountId start later →
    (reached accountId start later).pullModel.modelRoot ≠
      (reached accountId start earlier).pullModel.modelRoot

/-- The XOR of the gradients is zero in every place. -/
def Cancels (block : List (Vector UInt64 4)) : Prop :=
  ∀ index : Fin 4, xorFold (block.map (·.get index)) = 0

theorem reached_gradients (calls : List ClientCall) :
    (reached accountId start calls).gradients = (new accountId start).acceptedGradients calls :=
  gradients_after (new accountId start) calls

theorem reached_root (calls : List ClientCall) (index : Fin 4) :
    (reached accountId start calls).modelState.modelRoot.get index =
      xorFold (((new accountId start).acceptedGradients calls).map (·.get index)) := by
  rw [← reached_gradients, gradients, List.map_map]
  exact (reached_consistent accountId start calls).root_folds index

theorem acceptedGradients_append (client : SyndexClient) (first second : List ClientCall) :
    client.acceptedGradients (first ++ second) =
      client.acceptedGradients first ++ (after step client first).acceptedGradients second := by
  induction first generalizing client with
  | nil => rfl
  | cons call rest inductionHypothesis =>
      rw [List.cons_append, acceptedGradients, inductionHypothesis, acceptedGradients, after_cons,
        List.append_assoc]

/-- Between two states of a run the root moves by the gradients accepted there. -/
theorem root_eq_iff (earlier more : List ClientCall) :
    (reached accountId start (earlier ++ more)).pullModel.modelRoot =
        (reached accountId start earlier).pullModel.modelRoot ↔
      Cancels ((reached accountId start earlier).acceptedGradients more) := by
  have column : ∀ index : Fin 4,
      (reached accountId start (earlier ++ more)).modelState.modelRoot.get index =
        (reached accountId start earlier).modelState.modelRoot.get index ^^^
          xorFold (((reached accountId start earlier).acceptedGradients more).map (·.get index)) := by
    intro index
    rw [reached_root, reached_root, acceptedGradients_append, List.map_append, xorFold_append]
    rfl
  constructor
  · intro same index
    have kept := column index
    have equal : (reached accountId start (earlier ++ more)).modelState.modelRoot.get index =
        (reached accountId start earlier).modelState.modelRoot.get index :=
      congrArg (·.get index) same
    exact (xor_eq_left_iff _ _).mp (kept.symm.trans equal)
  · intro cancels
    apply Vector.ext
    intro index bound
    have kept := column ⟨index, bound⟩
    rw [cancels ⟨index, bound⟩, UInt64.xor_zero] at kept
    exact kept

theorem acceptedGradients_concat (calls : List ClientCall) (call : ClientCall) :
    (new accountId start).acceptedGradients (calls ++ [call]) =
      (new accountId start).acceptedGradients calls ++
        ((reached accountId start calls).acceptedGradient call).toList := by
  rw [acceptedGradients_append]
  simp only [acceptedGradients, List.append_nil]
  rfl

/-- A run that ends with an accepted submission has one gradient more than the
run before it. -/
theorem EndsAccepted.exists_concat {calls : List ClientCall}
    (ends : EndsAccepted accountId start calls) :
    ∃ before call gradient, calls = before ++ [call] ∧
      (new accountId start).acceptedGradients calls =
        (new accountId start).acceptedGradients before ++ [gradient] := by
  obtain ⟨before, gradientHash, validityProofHash, now, rfl, succeeded⟩ := ends
  refine ⟨before, _, gradientHash, rfl, ?_⟩
  rw [acceptedGradients_concat]
  rcases (reached accountId start before).acceptedGradient_cases gradientHash validityProofHash now
    with ⟨-, _, failed⟩ | ⟨some, -⟩
  · rw [failed] at succeeded
    cases succeeded
  · rw [some, Option.toList_some]

theorem endsAccepted_of_acceptedGradient {before : List ClientCall} {call : ClientCall}
    {gradient : Vector UInt64 4}
    (outcome : (reached accountId start before).acceptedGradient call = some gradient) :
    EndsAccepted accountId start (before ++ [call]) := by
  cases call with
  | registerInstitution institutionId schemaHash now => cases outcome
  | submitGradientUpdate gradientHash validityProofHash now =>
      refine ⟨before, gradientHash, validityProofHash, now, rfl, ?_⟩
      rcases (reached accountId start before).acceptedGradient_cases gradientHash
        validityProofHash now with ⟨none, -⟩ | ⟨-, update, -, accepted⟩
      · rw [none] at outcome
        cases outcome
      · rw [accepted]
  | pullModel => cases outcome

/-- Every number of accepted gradients is reached by an accepted submission. -/
theorem exists_endsAccepted {calls : List ClientCall} {block : List (Vector UInt64 4)}
    (within : block <+: (new accountId start).acceptedGradients calls) (some : block ≠ []) :
    ∃ done, done <+: calls ∧ EndsAccepted accountId start done ∧
      (new accountId start).acceptedGradients done = block := by
  induction calls using List.reverseRecOn with
  | nil => exact absurd (List.prefix_nil.mp within) some
  | append_singleton calls call inductionHypothesis =>
      have earlier : block <+: (new accountId start).acceptedGradients calls →
          ∃ done, done <+: calls ++ [call] ∧ EndsAccepted accountId start done ∧
            (new accountId start).acceptedGradients done = block := by
        intro before
        obtain ⟨done, isPrefix, ends, same⟩ := inductionHypothesis before
        exact ⟨done, isPrefix.trans (List.prefix_append calls [call]), ends, same⟩
      rw [acceptedGradients_concat] at within
      cases outcome : (reached accountId start calls).acceptedGradient call with
      | none =>
          rw [outcome, Option.toList_none, List.append_nil] at within
          exact earlier within
      | some gradient =>
          rw [outcome, Option.toList_some] at within
          rcases List.prefix_concat_iff.mp within with whole | before
          · refine ⟨calls ++ [call], List.prefix_refl _, ?_, ?_⟩
            · exact endsAccepted_of_acceptedGradient accountId start outcome
            · rw [acceptedGradients_concat, outcome, Option.toList_some, whole]
          · exact earlier before

/-- A block of accepted gradients leads from one accepted submission, or from the
start, to another, and if it cancels it takes the root back. -/
private theorem not_cancels {calls : List ClientCall}
    (never : NeverCancels accountId start calls) {block : List (Vector UInt64 4)}
    (notEmpty : block ≠ []) (within : block <:+: (new accountId start).acceptedGradients calls) :
    ¬ Cancels block := by
  intro cancels
  obtain ⟨earlierGradients, laterGradients, split⟩ := within
  have upTo : earlierGradients ++ block <+: (new accountId start).acceptedGradients calls :=
    ⟨laterGradients, split⟩
  obtain ⟨later, laterWithin, laterEnds, laterSame⟩ :=
    exists_endsAccepted accountId start upTo (by simp [notEmpty])
  by_cases first : earlierGradients = []
  · rw [first, List.nil_append] at laterSame
    have grown : (reached accountId start later).gradientHistory ≠ [] := by
      intro empty
      have none := reached_gradients accountId start later
      rw [gradients, empty, laterSame] at none
      exact notEmpty none.symm
    apply never.root_nonzero later laterWithin grown
    apply (root_eq_iff accountId start [] later).mpr
    rwa [show (reached accountId start []).acceptedGradients later = block from laterSame]
  · have before : earlierGradients <+: (new accountId start).acceptedGradients later := by
      rw [laterSame]
      exact List.prefix_append earlierGradients block
    obtain ⟨earlier, ⟨more, rfl⟩, earlierEnds, earlierSame⟩ :=
      exists_endsAccepted accountId start before first
    rw [acceptedGradients_append, earlierSame, List.append_cancel_left_eq] at laterSame
    have different : earlier ≠ earlier ++ more := by
      intro same
      rw [List.self_eq_append_right.mp same] at laterSame
      exact notEmpty laterSame.symm
    apply never.roots_differ earlier (earlier ++ more) laterWithin (List.prefix_append _ _)
      different earlierEnds laterEnds
    apply (root_eq_iff accountId start earlier more).mpr
    rwa [show (reached accountId start earlier).acceptedGradients more = block from laterSame]

/-- The part of a run after `earlier` accepts something if it ends with an accepted
submission. -/
theorem acceptedGradients_ne_nil {earlier more : List ClientCall} (later : more ≠ [])
    (ends : EndsAccepted accountId start (earlier ++ more)) :
    (reached accountId start earlier).acceptedGradients more ≠ [] := by
  intro none
  obtain ⟨before, call, gradient, split, grown⟩ := ends.exists_concat
  -- all but the last call are a prefix of the run that still has `earlier` in it
  obtain ⟨front, last, rfl⟩ := List.eq_nil_or_concat' more |>.resolve_left later
  rw [← List.append_assoc] at split
  obtain ⟨rfl, -⟩ := List.append_singleton_inj.mp split
  have all := acceptedGradients_append (new accountId start) earlier (front ++ [last])
  rw [grown, acceptedGradients_append,
    show (after step (new accountId start) earlier).acceptedGradients (front ++ [last]) = []
      from none, List.append_nil] at all
  simpa using congrArg List.length all

/-- The root never returns to an earlier value, the initial one among them, exactly
if no consecutive accepted gradients cancel. -/
theorem neverCancels_iff (calls : List ClientCall) :
    NeverCancels accountId start calls ↔
      ∀ block, block ≠ [] → block <:+: (new accountId start).acceptedGradients calls →
        ¬ Cancels block := by
  constructor
  · intro never block notEmpty within
    exact not_cancels accountId start never notEmpty within
  · intro apart
    have moves : ∀ earlier more, earlier ++ more <+: calls →
        (reached accountId start earlier).acceptedGradients more ≠ [] →
        (reached accountId start (earlier ++ more)).pullModel.modelRoot ≠
          (reached accountId start earlier).pullModel.modelRoot := by
      intro earlier more within notEmpty same
      obtain ⟨rest, rfl⟩ := within
      apply apart _ notEmpty ?_ ((root_eq_iff accountId start earlier more).mp same)
      rw [acceptedGradients_append, acceptedGradients_append]
      exact ⟨_, _, rfl⟩
    constructor
    · intro done within grown
      refine moves [] done within ?_
      rw [show (reached accountId start []).acceptedGradients done = _ from
        (reached_gradients accountId start done).symm]
      simpa [gradients] using grown
    · intro earlier later within continues different _ laterEnds
      obtain ⟨more, rfl⟩ := continues
      apply moves earlier more within
      apply acceptedGradients_ne_nil accountId start _ laterEnds
      intro none
      exact different (by rw [none, List.append_nil])

/-- The same gradient submitted twice. -/
theorem repeated_gradient_cancels :
    let calls : List ClientCall := [.registerInstitution 1 #v[1, 2, 3, 4] 0,
      .submitGradientUpdate #v[10, 20, 30, 40] #v[50, 60, 70, 80] 1,
      .submitGradientUpdate #v[10, 20, 30, 40] #v[50, 60, 70, 80] 2]
    ((reached 1 0 calls).gradientHistory.length = 2 ∧
      (reached 1 0 calls).pullModel.modelRoot = #v[0, 0, 0, 0]) ∧
    ¬ NeverCancels 1 0 calls := by
  intro calls
  have run : (reached 1 0 calls).gradientHistory.length = 2 ∧
      (reached 1 0 calls).pullModel.modelRoot = #v[0, 0, 0, 0] := by decide +kernel
  refine ⟨run, fun never => never.root_nonzero calls (List.prefix_refl calls) ?_ run.2⟩
  intro empty
  rw [empty] at run
  exact absurd run.1 (by decide)

end Run

end MidenWorkspace.Syndex.SyndexClient
