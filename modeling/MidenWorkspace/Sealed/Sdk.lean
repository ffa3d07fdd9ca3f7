import MidenWorkspace.Library.Saturating

/-!
Contract: the Sealed SDK client (`sealed-sdk/src/lib.rs`).

Owns the client's vault, issuance, the mock root, the reputation score and the
threshold proof, on the fixed-width integers of the source, and the law that the
saturating score is the exact weighted sum of the credentials in the window,
capped at the largest 32-bit word.
-/

namespace MidenWorkspace.Sealed

open MidenWorkspace.Library.Saturating

structure Credential where
  issuerAddress : Vector UInt64 4
  credentialType : String
  score : UInt32
  timestamp : UInt64
  signature : Vector UInt64 4
  weight : UInt32
deriving DecidableEq, Repr

structure SealedClient where
  credentials : List Credential
  accountId : UInt64
  merkleRoot : UInt64
deriving DecidableEq, Repr

namespace SealedClient

def new (accountId : UInt64) : SealedClient where
  credentials := []
  accountId
  merkleRoot := accountId

/-- The XOR of issuer, score and time over all credentials, seeded with the
account. -/
def computeMockRoot (client : SealedClient) : UInt64 :=
  client.credentials.foldl
    (fun acc credential =>
      acc ^^^ credential.issuerAddress[0] ^^^ credential.score.toUInt64 ^^^ credential.timestamp)
    client.accountId

def issueCredential (client : SealedClient) (credential : Credential) :
    Except String SealedClient :=
  if credential.signature = #v[0, 0, 0, 0] ∧ credential.issuerAddress ≠ #v[1, 2, 3, 4] ∧
      credential.issuerAddress ≠ #v[5, 6, 7, 8] then
    .error "Invalid signature"
  else
    let pushed := { client with credentials := client.credentials ++ [credential] }
    .ok { pushed with merkleRoot := pushed.computeMockRoot }

/-- The credential is dated at most 365 days before `currentTimestamp`. -/
def inWindow (currentTimestamp : UInt64) (credential : Credential) : Bool :=
  credential.timestamp ≤ currentTimestamp ∧ currentTimestamp - credential.timestamp ≤ 31536000

def computeReputationScore (client : SealedClient) (currentTimestamp : UInt64) : UInt32 :=
  client.credentials.foldl
    (fun total credential =>
      if inWindow currentTimestamp credential then
        saturatingAdd total (saturatingMul credential.score credential.weight)
      else total)
    0

def proveThreshold (client : SealedClient) (threshold : UInt32) (currentTimestamp : UInt64) :
    Except String Bool :=
  let totalScore := client.computeReputationScore currentTimestamp
  if threshold ≤ totalScore then .ok true
  else .error "Proof rejected: score below threshold (Miden node: ERR_ASSERT_FAILED)"

/-! ### What the checks and the root look at -/

/-- Signed, or from one of the two test issuers that may leave the signature out. -/
def IsAuthentic (credential : Credential) : Prop :=
  credential.signature ≠ #v[0, 0, 0, 0] ∨
    credential.issuerAddress = #v[1, 2, 3, 4] ∨ credential.issuerAddress = #v[5, 6, 7, 8]

/-- What one credential adds to the root. -/
def rootTerm (credential : Credential) : UInt64 :=
  credential.issuerAddress[0] ^^^ credential.score.toUInt64 ^^^ credential.timestamp

/-! ### The exact score -/

/-- Score times weight of one credential, without overflow. -/
def weightedScore (credential : Credential) : Nat :=
  credential.score.toNat * credential.weight.toNat

/-- The weighted sum over the credentials in the window, without overflow. -/
def exactScore (client : SealedClient) (currentTimestamp : UInt64) : Nat :=
  ((client.credentials.filter (inWindow currentTimestamp)).map weightedScore).sum

theorem toNat_computeReputationScore (client : SealedClient) (currentTimestamp : UInt64) :
    (client.computeReputationScore currentTimestamp).toNat =
      min cap (client.exactScore currentTimestamp) := by
  have folded := toNat_foldl_saturatingAdd (inWindow currentTimestamp)
    (fun credential => saturatingMul credential.score credential.weight) weightedScore
    (fun credential => toNat_saturatingMul credential.score credential.weight)
    client.credentials 0
  simpa [computeReputationScore, exactScore] using folded

/-- A threshold is a 32-bit word, so the cap does not show in a proof. -/
theorem proveThreshold_eq_ok_iff (client : SealedClient) (threshold : UInt32)
    (currentTimestamp : UInt64) :
    client.proveThreshold threshold currentTimestamp = .ok true ↔
      threshold.toNat ≤ client.exactScore currentTimestamp := by
  have small : threshold.toNat ≤ cap := Nat.le_sub_one_of_lt threshold.toNat_lt
  have score := client.toNat_computeReputationScore currentTimestamp
  have compared : threshold ≤ client.computeReputationScore currentTimestamp ↔
      threshold.toNat ≤ client.exactScore currentTimestamp := by
    rw [UInt32.le_iff_toNat_le, score]
    omega
  by_cases enough : threshold ≤ client.computeReputationScore currentTimestamp
  · simp [proveThreshold, enough, compared.mp enough]
  · simp [proveThreshold, enough, mt compared.mpr enough]

end SealedClient

end MidenWorkspace.Sealed
