import Mathlib.Algebra.Order.BigOperators.Group.List
import Mathlib.Algebra.Order.Ring.Nat
import MidenWorkspace.Sealed.Vault

/-!
Contract: the reputation score as a number, and what time and issuance do to it.

Owns the score over the naturals, that the saturating score is this number capped
at the largest 32-bit word, that no subtraction on the way underflows, and the two
directions in which a threshold proof moves: more credentials keep it, and for a
vault without credentials of the future time can only take it away.

In the source `current_timestamp - cred.timestamp` panics below zero. The checked
score has that panic as `none`.
-/

namespace MidenWorkspace.Sealed.SealedClient

open MidenWorkspace.Library.Runs
open MidenWorkspace.Library.Saturating

/-! ### The score over the naturals -/

/-- Dated at or before `now`, and at most a year before it. -/
def countsAt (now : Nat) (credential : Credential) : Bool :=
  credential.timestamp.toNat ≤ now ∧ now - credential.timestamp.toNat ≤ 31536000

def naturalScore (credentials : List Credential) (now : Nat) : Nat :=
  ((credentials.filter (countsAt now)).map weightedScore).sum

theorem inWindow_eq (currentTimestamp : UInt64) (credential : Credential) :
    inWindow currentTimestamp credential = countsAt currentTimestamp.toNat credential := by
  rw [inWindow, countsAt, decide_eq_decide]
  constructor
  · intro ⟨dated, recent⟩
    have difference := UInt64.toNat_sub_of_le _ _ dated
    rw [UInt64.le_iff_toNat_le] at dated recent
    rw [difference] at recent
    exact ⟨dated, recent⟩
  · intro ⟨dated, recent⟩
    have ordered := UInt64.le_iff_toNat_le.mpr dated
    refine ⟨ordered, ?_⟩
    rw [UInt64.le_iff_toNat_le, UInt64.toNat_sub_of_le _ _ ordered]
    exact recent

theorem exactScore_eq (client : SealedClient) (currentTimestamp : UInt64) :
    client.exactScore currentTimestamp = naturalScore client.credentials currentTimestamp.toNat := by
  rw [exactScore, naturalScore, funext (inWindow_eq currentTimestamp)]

theorem naturalScore_perm {first second : List Credential} (permuted : first.Perm second)
    (now : Nat) : naturalScore first now = naturalScore second now :=
  ((permuted.filter (countsAt now)).map weightedScore).sum_eq

/-! ### No underflow -/

/-- `left - right`, or `none` where the source panics. -/
def checkedSub (left right : UInt64) : Option UInt64 :=
  if right ≤ left then some (left - right) else none

/-- The test before a credential is counted; `&&` does not evaluate the difference
for a credential of the future. -/
def checkedWindow (currentTimestamp : UInt64) (credential : Credential) : Option Bool :=
  if credential.timestamp ≤ currentTimestamp then
    (checkedSub currentTimestamp credential.timestamp).map (· ≤ 31536000)
  else some false

def checkedReputationScore (client : SealedClient) (currentTimestamp : UInt64) : Option UInt32 :=
  client.credentials.foldlM
    (fun total credential => (checkedWindow currentTimestamp credential).map fun counted =>
      if counted then saturatingAdd total (saturatingMul credential.score credential.weight)
      else total)
    0

theorem checkedWindow_eq (currentTimestamp : UInt64) (credential : Credential) :
    checkedWindow currentTimestamp credential = some (inWindow currentTimestamp credential) := by
  unfold checkedWindow inWindow
  by_cases dated : credential.timestamp ≤ currentTimestamp
  · simp [checkedSub, dated]
  · simp [dated]

theorem checkedReputationScore_eq (client : SealedClient) (currentTimestamp : UInt64) :
    client.checkedReputationScore currentTimestamp =
      some (client.computeReputationScore currentTimestamp) := by
  simp only [checkedReputationScore, checkedWindow_eq, Option.map_some]
  exact List.foldlM_pure

/-! ### The law of the score -/

structure ScoreLaw (client : SealedClient) (now : UInt64) : Prop where
  capped : (client.computeReputationScore now).toNat =
    min (2 ^ 32 - 1) (naturalScore client.credentials now.toNat)
  no_underflow : client.checkedReputationScore now = some (client.computeReputationScore now)
  order_free : ∀ other : SealedClient, other.credentials.Perm client.credentials →
    other.computeReputationScore now = client.computeReputationScore now

theorem capped_score (client : SealedClient) (now : UInt64) :
    (client.computeReputationScore now).toNat =
      min (2 ^ 32 - 1) (naturalScore client.credentials now.toNat) := by
  rw [toNat_computeReputationScore, exactScore_eq, cap]

theorem computeReputationScore_law (client : SealedClient) (now : UInt64) :
    ScoreLaw client now where
  capped := capped_score client now
  no_underflow := client.checkedReputationScore_eq now
  order_free := by
    intro other permuted
    apply UInt32.toNat_inj.mp
    rw [capped_score, capped_score, naturalScore_perm permuted]

/-! ### Threshold proofs over time and issuance -/

theorem naturalScore_append (first second : List Credential) (now : Nat) :
    naturalScore (first ++ second) now = naturalScore first now + naturalScore second now := by
  rw [naturalScore, List.filter_append, List.map_append, List.sum_append]
  rfl

/-- A credential that counts later counts now, if it is not dated after now. -/
theorem countsAt_of_later {now later : Nat} {credential : Credential} (le : now ≤ later)
    (dated : credential.timestamp.toNat ≤ now) (counts : countsAt later credential = true) :
    countsAt now credential = true := by
  simp only [countsAt, decide_eq_true_eq] at counts ⊢
  omega

theorem naturalScore_antitone {credentials : List Credential} {now later : Nat} (le : now ≤ later)
    (dated : ∀ credential ∈ credentials, credential.timestamp.toNat ≤ now) :
    naturalScore credentials later ≤ naturalScore credentials now := by
  -- the later window picks from what the earlier one has picked
  have narrows : credentials.filter (countsAt later) =
      (credentials.filter (countsAt now)).filter (countsAt later) := by
    rw [List.filter_filter]
    apply List.filter_congr
    intro credential member
    cases counts : countsAt later credential with
    | false => rfl
    | true => rw [countsAt_of_later le (dated credential member) counts]; rfl
  have sublist : (credentials.filter (countsAt later)).map weightedScore |>.Sublist
      ((credentials.filter (countsAt now)).map weightedScore) := by
    rw [narrows]
    exact List.filter_sublist.map weightedScore
  exact sublist.sum_le_sum fun _ _ => Nat.zero_le _

theorem proveThreshold_isOk_iff (client : SealedClient) (threshold : UInt32) (now : UInt64) :
    (client.proveThreshold threshold now).isOk = true ↔
      threshold ≤ client.computeReputationScore now := by
  unfold proveThreshold
  by_cases enough : threshold ≤ client.computeReputationScore now
  · simp [enough, Except.isOk, Except.toBool]
  · simp [enough, Except.isOk, Except.toBool]

theorem computeReputationScore_le_after (client : SealedClient) (calls : List Credential)
    (now : UInt64) :
    client.computeReputationScore now ≤ (after step client calls).computeReputationScore now := by
  rw [UInt32.le_iff_toNat_le, capped_score, capped_score, credentials_after, naturalScore_append]
  omega

/-- More credentials and a lower threshold keep a proof. A vault without
credentials of the future scores less as time goes on. -/
structure MonotoneProofs (client : SealedClient) : Prop where
  issuance : ∀ (calls : List Credential) (now : UInt64) (threshold lower : UInt32),
    lower ≤ threshold → (client.proveThreshold threshold now).isOk = true →
      ((after step client calls).proveThreshold lower now).isOk = true
  time : ∀ now later : UInt64,
    (∀ credential ∈ client.credentials, credential.timestamp ≤ now) → now ≤ later →
      client.computeReputationScore later ≤ client.computeReputationScore now

theorem thresholdProofs_monotone (client : SealedClient) : MonotoneProofs client where
  issuance := by
    intro calls now threshold lower le proved
    rw [proveThreshold_isOk_iff] at proved ⊢
    calc lower ≤ threshold := le
      _ ≤ client.computeReputationScore now := proved
      _ ≤ (after step client calls).computeReputationScore now :=
        client.computeReputationScore_le_after calls now
  time := by
    intro now later dated le
    have shrinks : naturalScore client.credentials later.toNat ≤
        naturalScore client.credentials now.toNat :=
      naturalScore_antitone (UInt64.le_iff_toNat_le.mp le) fun credential member =>
        UInt64.le_iff_toNat_le.mp (dated credential member)
    rw [UInt32.le_iff_toNat_le, capped_score, capped_score]
    omega

end MidenWorkspace.Sealed.SealedClient
