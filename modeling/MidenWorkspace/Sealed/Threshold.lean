import MidenWorkspace.Library.MerkleTree
import MidenWorkspace.Sealed.Contract
import MidenWorkspace.Sealed.Sdk

/-!
Contract: when `prove_threshold` accepts, against the SDK and against an
arbitrary tape.

Owns:
- the tape that encodes a client's vault, and the score the contract computes
  from it, as a sum over the vault;
- the exact inputs on which the contract and the SDK decide alike;
- the exact tapes that the contract refuses.

The two scores differ in what they count: the SDK counts credentials at most a
year old, the contract those whose field difference `timestamp - now` is at least
a year.
-/

namespace MidenWorkspace.Sealed

open Fin.CommRing
open MidenWorkspace.Vm
open MidenWorkspace.Protocol
open MidenWorkspace.Library
open MidenWorkspace.Library.Structured

/-! ### The contract's score of a list of credentials -/

/-- The window flag of the scoring loop, on canonical representatives. -/
def AdviceCredential.counted (now : Felt) (credential : AdviceCredential) : Bool :=
  31536000 ≤ (credential.timestamp.val + modulus - now.val) % modulus

/-- Score times weight, without reduction. -/
def AdviceCredential.product (credential : AdviceCredential) : Nat :=
  credential.score.val * credential.weight.val

theorem counted_iff (now : Felt) (credential : AdviceCredential) :
    credential.counted now = decide (yearSeconds ≤ credential.timestamp - now) := by
  have canonical := now.isLt
  have year : yearSeconds.val = 31536000 := by decide
  unfold AdviceCredential.counted
  rw [decide_eq_decide, Fin.le_def, Fin.sub_def, year]
  simp only
  rw [show modulus - now.val + credential.timestamp.val =
    credential.timestamp.val + modulus - now.val by omega]

theorem contribution_val (now : Felt) (credential : AdviceCredential) :
    (credential.contribution now).val =
      (if credential.counted now then credential.product else 0) % modulus := by
  rw [counted_iff, AdviceCredential.contribution, AdviceCredential.product]
  by_cases counts : yearSeconds ≤ credential.timestamp - now
  · simp [counts, Fin.val_mul]
  · simp [counts]

/-- The total is the plain sum over the counted credentials, reduced once. -/
theorem totalScore_val (now : Felt) (credentials : List AdviceCredential) :
    (totalScore now credentials).val =
      ((credentials.filter (AdviceCredential.counted now)).map AdviceCredential.product).sum %
        modulus := by
  induction credentials with
  | nil => rfl
  | cons credential others inductionHypothesis =>
      rw [totalScore_cons, Fin.val_add, inductionHypothesis, contribution_val, ← Nat.add_mod]
      by_cases counts : credential.counted now = true
      · rw [if_pos counts, List.filter_cons_of_pos counts, List.map_cons, List.sum_cons]
      · rw [if_neg counts, List.filter_cons_of_neg counts, Nat.zero_add]

section Acceptance

variable {σ : Type} (merkle : MerkleLibrary σ) (caller : OperandStack) (store : σ)
  (storage : Storage StorageSlotId)

/-- `prove_threshold` completes on this stack and tape. -/
def Accepts (tape : List Felt) : Prop :=
  ∃ final, (machine (kernelEnvironment merkle)).Completes proveThreshold
    ⟨caller, tape, store, storage⟩ final

theorem accepts_iff (tape : List Felt) :
    Accepts merkle caller store storage tape ↔
      ∃ total rest, scoreOfTape tape = some (total, rest) ∧ total ≤ caller.get 0 := by
  have outcome := yields_proveThreshold merkle caller store storage tape
  constructor
  · rintro ⟨final, completes⟩
    have same := completes.unique outcome
    match scored : scoreOfTape tape with
    | none => simp [scored] at same
    | some (total, rest) =>
        refine ⟨total, rest, rfl, ?_⟩
        by_contra below
        simp [scored, below] at same
  · rintro ⟨total, rest, scored, enough⟩
    rw [scored] at outcome
    simp only [enough, if_true] at outcome
    exact ⟨_, outcome⟩

end Acceptance

/-! ### The tape of a client's vault -/

def Credential.toAdvice (credential : Credential) : AdviceCredential :=
  ⟨Felt.new credential.score.toNat, Felt.new credential.weight.toNat,
    Felt.new credential.timestamp.toNat⟩

namespace SealedClient

/-- Count, current time, then score, weight and time of each credential. -/
def adviceTape (client : SealedClient) (now : UInt64) : List Felt :=
  Felt.new client.credentials.length :: Felt.new now.toNat ::
    (client.credentials.map Credential.toAdvice).flatMap AdviceCredential.toList

/-- The contract's window, on the SDK's integers. -/
def contractCounts (now : UInt64) (credential : Credential) : Bool :=
  31536000 ≤ (credential.timestamp.toNat + modulus - now.toNat) % modulus

/-- The contract's score: the credentials in its window, summed in the field. A
count of `modulus` or more wraps on the tape, and only a part of the vault is
read. -/
def contractScore (client : SealedClient) (now : UInt64) : Nat :=
  (((client.credentials.take (client.credentials.length % modulus)).filter
    (contractCounts now)).map weightedScore).sum % modulus

end SealedClient

private theorem word_lt_modulus (value : UInt32) : value.toNat < modulus :=
  value.toNat_lt.trans (by decide)

theorem toAdvice_product (credential : Credential) :
    credential.toAdvice.product = SealedClient.weightedScore credential := by
  simp only [AdviceCredential.product, Credential.toAdvice, SealedClient.weightedScore,
    Felt.new_val_of_lt (word_lt_modulus _)]

theorem toAdvice_counted {now : UInt64} {credential : Credential}
    (nowCanonical : now.toNat < modulus) (canonical : credential.timestamp.toNat < modulus) :
    credential.toAdvice.counted (Felt.new now.toNat) =
      SealedClient.contractCounts now credential := by
  simp only [AdviceCredential.counted, Credential.toAdvice, SealedClient.contractCounts,
    Felt.new_val_of_lt nowCanonical, Felt.new_val_of_lt canonical]

/-- The total over any part of a vault, on the SDK's integers. -/
theorem totalScore_toAdvice {now : UInt64} (nowCanonical : now.toNat < modulus)
    {credentials : List Credential}
    (canonical : ∀ credential ∈ credentials, credential.timestamp.toNat < modulus) :
    (totalScore (Felt.new now.toNat) (credentials.map Credential.toAdvice)).val =
      ((credentials.filter (SealedClient.contractCounts now)).map SealedClient.weightedScore).sum %
        modulus := by
  have sameWindow : (credentials.map Credential.toAdvice).filter
      (AdviceCredential.counted (Felt.new now.toNat)) =
      (credentials.filter (SealedClient.contractCounts now)).map Credential.toAdvice := by
    rw [List.filter_map]
    refine congrArg (List.map Credential.toAdvice) (List.filter_congr ?_)
    intro credential member
    rw [Function.comp_apply, toAdvice_counted nowCanonical (canonical credential member)]
  rw [totalScore_val, sameWindow, List.map_map]
  simp only [Function.comp_def, toAdvice_product]

/-- The scorer reads the vault off its tape and computes the contract's score. -/
theorem scoreOfTape_adviceTape (client : SealedClient) {now : UInt64}
    (nowCanonical : now.toNat < modulus)
    (canonical : ∀ credential ∈ client.credentials, credential.timestamp.toNat < modulus) :
    ∃ total rest, scoreOfTape (client.adviceTape now) = some (total, rest) ∧
      total.val = client.contractScore now := by
  obtain ⟨read, unread, vault, readLength⟩ : ∃ read unread, client.credentials = read ++ unread ∧
      read.length = client.credentials.length % modulus :=
    ⟨_, _, (List.take_append_drop (client.credentials.length % modulus) _).symm, by
      rw [List.length_take, min_eq_left (Nat.mod_le _ _)]⟩
  have readBack := readCredentials_toList (read.map Credential.toAdvice)
    ((unread.map Credential.toAdvice).flatMap AdviceCredential.toList)
  rw [List.length_map, readLength, ← List.flatMap_append, ← List.map_append, ← vault] at readBack
  refine ⟨totalScore (Felt.new now.toNat) (read.map Credential.toAdvice),
    (unread.map Credential.toAdvice).flatMap AdviceCredential.toList, ?_, ?_⟩
  · simp only [SealedClient.adviceTape, scoreOfTape, Felt.new_val, readBack, Option.bind_eq_bind,
      Option.bind_some, Option.pure_def]
  · have readCanonical : ∀ credential ∈ read, credential.timestamp.toNat < modulus := by
      intro credential member
      exact canonical credential (by rw [vault]; exact List.mem_append_left unread member)
    have taken : client.credentials.take (client.credentials.length % modulus) = read := by
      rw [← readLength, vault, List.take_left]
    rw [totalScore_toAdvice nowCanonical readCanonical, SealedClient.contractScore, taken]

/-- Contract and SDK decide alike exactly where the contract's score and the
SDK's lie on the threshold's two sides: the contract accepts scores up to the
threshold, the SDK scores from the threshold on. -/
theorem proveThreshold_agrees_with_sdk_iff {σ : Type} (merkle : MerkleLibrary σ) (store : σ)
    (storage : Storage StorageSlotId) (client : SealedClient) (threshold : UInt32) (now : UInt64)
    (nowCanonical : now.toNat < modulus)
    (canonical : ∀ credential ∈ client.credentials, credential.timestamp.toNat < modulus)
    (caller : OperandStack) (onTop : caller.get 0 = Felt.new threshold.toNat) :
    (Accepts merkle caller store storage (client.adviceTape now) ↔
        client.proveThreshold threshold now = .ok true) ↔
      client.contractScore now ≤ threshold.toNat ∧ threshold.toNat ≤ client.exactScore now ∨
        threshold.toNat < client.contractScore now ∧ client.exactScore now < threshold.toNat := by
  obtain ⟨total, rest, scored, value⟩ := scoreOfTape_adviceTape client nowCanonical canonical
  have contractSide : Accepts merkle caller store storage (client.adviceTape now) ↔
      client.contractScore now ≤ threshold.toNat := by
    rw [accepts_iff, scored, onTop, ← value]
    have topValue : (Felt.new threshold.toNat).val = threshold.toNat :=
      Felt.new_val_of_lt (word_lt_modulus threshold)
    constructor
    · rintro ⟨_, _, same, enough⟩
      cases same
      rwa [Fin.le_def, topValue] at enough
    · intro enough
      exact ⟨total, rest, rfl, by rwa [Fin.le_def, topValue]⟩
  rw [contractSide, SealedClient.proveThreshold_eq_ok_iff]
  omega

theorem proveThreshold_agrees_with_sdk_one_credential :
    let client : SealedClient := ⟨[⟨#v[1, 2, 3, 4], "Rating", 10, 5, #v[0, 0, 0, 0], 2⟩], 7, 0⟩
    (Accepts MerkleLibrary.empty (OperandStack.zeros.set 0 20) () (fun _ => none)
          (client.adviceTape 6) ↔
        client.proveThreshold 20 6 = .ok true) ↔
      client.contractScore 6 ≤ 20 ∧ 20 ≤ client.exactScore 6 ∨
        20 < client.contractScore 6 ∧ client.exactScore 6 < 20 :=
  proveThreshold_agrees_with_sdk_iff MerkleLibrary.empty () (fun _ => none) _ 20 6 (by decide)
    (by simp [modulus]) (OperandStack.zeros.set 0 20) rfl

/-- An empty vault passes any threshold of the contract; the SDK refuses it. -/
theorem proveThreshold_accepts_empty_vault :
    Accepts MerkleLibrary.empty (OperandStack.zeros.set 0 1) () (fun _ => none)
        ((SealedClient.new 7).adviceTape 0) ∧
      (SealedClient.new 7).proveThreshold 1 0 ≠ .ok true := by
  constructor
  · rw [accepts_iff]
    exact ⟨0, [], by decide, by decide⟩
  · decide

/-! ### Arbitrary tapes -/

/-- The credentials that a tape claims, by position. -/
def claimedCredentials (tape : List Felt) : List AdviceCredential :=
  (List.range (tape.getD 0 0).val).map fun k =>
    ⟨tape.getD (2 + 3 * k) 0, tape.getD (3 + 3 * k) 0, tape.getD (4 + 3 * k) 0⟩

/-- The score that a tape claims. -/
def claimedScore (tape : List Felt) : Nat :=
  (((claimedCredentials tape).filter (AdviceCredential.counted (tape.getD 1 0))).map
    AdviceCredential.product).sum % modulus

private theorem readCredentials_eq (count : Nat) {tape : List Felt}
    (enough : 3 * count ≤ tape.length) :
    readCredentials count tape =
      some ((List.range count).map fun k =>
          ⟨tape.getD (3 * k) 0, tape.getD (3 * k + 1) 0, tape.getD (3 * k + 2) 0⟩,
        tape.drop (3 * count)) := by
  induction count generalizing tape with
  | zero => rfl
  | succ count inductionHypothesis =>
      match tape, enough with
      | score :: weight :: timestamp :: rest, enough =>
          have below : 3 * count ≤ rest.length := by
            simp only [List.length_cons] at enough
            omega
          rw [readCredentials, inductionHypothesis below, List.range_succ_eq_map]
          simp [Nat.mul_add, Function.comp_def]

theorem scoreOfTape_of_long {tape : List Felt}
    (enough : 2 + 3 * (tape.getD 0 0).val ≤ tape.length) :
    ∃ total rest, scoreOfTape tape = some (total, rest) ∧ total.val = claimedScore tape := by
  match tape, enough with
  | [_], enough =>
      rw [List.length_singleton] at enough
      omega
  | count :: now :: body, enough =>
      have readable : 3 * count.val ≤ body.length := by
        simp only [List.length_cons, List.getD_cons_zero] at enough
        omega
      have positions : claimedCredentials (count :: now :: body) =
          (List.range count.val).map fun k =>
            ⟨body.getD (3 * k) 0, body.getD (3 * k + 1) 0, body.getD (3 * k + 2) 0⟩ := by
        simp only [claimedCredentials, List.getD_cons_zero, Nat.add_comm _ (3 * _),
          List.getD_cons_succ]
      refine ⟨_, _, by rw [scoreOfTape, readCredentials_eq count.val readable]; rfl, ?_⟩
      rw [totalScore_val, claimedScore, positions, List.getD_cons_succ, List.getD_cons_zero]

theorem scoreOfTape_of_short {tape : List Felt}
    (short : tape.length < 2 + 3 * (tape.getD 0 0).val) : scoreOfTape tape = none := by
  match tape, short with
  | [], _ | [_], _ => rfl
  | count :: now :: body, short =>
      have unreadable : readCredentials count.val body = none := by
        rw [readCredentials_eq_none_iff]
        simp only [List.length_cons, List.getD_cons_zero] at short
        omega
      rw [scoreOfTape, unreadable]
      rfl

/-- What stops `prove_threshold`, whatever the account holds: a tape too short
for its own count, or a claimed score above the threshold. -/
theorem proveThreshold_refuses_iff {σ : Type} (merkle : MerkleLibrary σ) (caller : OperandStack)
    (store : σ) (storage : Storage StorageSlotId) (tape : List Felt) :
    ¬ Accepts merkle caller store storage tape ↔
      tape.length < 2 + 3 * (tape.getD 0 0).val ∨ (caller.get 0).val < claimedScore tape := by
  rw [accepts_iff]
  by_cases short : tape.length < 2 + 3 * (tape.getD 0 0).val
  · refine iff_of_true ?_ (.inl short)
    rintro ⟨total, rest, scored, -⟩
    rw [scoreOfTape_of_short short] at scored
    cases scored
  · obtain ⟨total, rest, scored, value⟩ := scoreOfTape_of_long (Nat.le_of_not_lt short)
    simp only [scored, Option.some.injEq, Prod.mk.injEq, short, false_or, ← value]
    constructor
    · intro refused
      by_contra enough
      exact refused ⟨total, rest, ⟨rfl, rfl⟩, Fin.le_def.mpr (Nat.le_of_not_lt enough)⟩
    · rintro below ⟨_, _, ⟨rfl, -⟩, enough⟩
      exact absurd below (Nat.not_lt.mpr (Fin.le_def.mp enough))

/-- With an empty credential tree in every slot, a tape of two zeros proves a
positive threshold. -/
theorem proveThreshold_accepts_empty_tree :
    ∃ tape : List Felt, ∀ (merge : Word → Word → Word) (depth : Nat),
      Accepts MerkleLibrary.empty (OperandStack.zeros.set 0 1) ()
        (fun _ => some ⟨.value, MerkleTree.root merge depth fun _ => Word.empty⟩) tape := by
  refine ⟨[0, 0], fun merge depth => ?_⟩
  rw [accepts_iff]
  exact ⟨0, [], by decide, by decide⟩

end MidenWorkspace.Sealed
