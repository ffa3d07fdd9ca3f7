import MidenWorkspace.Library.Runs
import MidenWorkspace.Library.XorFold
import MidenWorkspace.Sealed.Sdk

/-!
Contract: the Sealed SDK client over any number of issuances.

Owns the runs of `issueCredential` on a new client, the mock root as an XOR of one
term per credential, and the invariant of every run: what the vault holds, which
credentials it refuses, how the root depends on vault and account, and exactly
which accepted credentials it reflects.

The root is an XOR checksum: a credential whose issuer, score and time cancel is
accepted and leaves no trace in it.
-/

namespace MidenWorkspace.Sealed.SealedClient

open MidenWorkspace.Library.Runs
open MidenWorkspace.Library.XorFold

/-! ### Issuing -/

/-- The result of the call, and the client that it leaves behind. -/
def perform (client : SealedClient) (credential : Credential) : Except String Unit × SealedClient :=
  match client.issueCredential credential with
  | .ok issued => (.ok (), issued)
  | .error rejected => (.error rejected, client)

def step (client : SealedClient) (credential : Credential) : SealedClient :=
  (client.perform credential).2

def reached (accountId : UInt64) (calls : List Credential) : SealedClient :=
  after step (new accountId) calls

/-- The inputs whose call succeeds where it stands, in order. -/
def acceptedInputs (client : SealedClient) : List Credential → List Credential
  | [] => []
  | credential :: rest =>
      match (client.perform credential).1 with
      | .ok () => credential :: acceptedInputs (client.step credential) rest
      | .error _ => acceptedInputs (client.step credential) rest

/-- The client after an accepted credential. -/
def accept (client : SealedClient) (credential : Credential) : SealedClient :=
  let pushed := { client with credentials := client.credentials ++ [credential] }
  { pushed with merkleRoot := pushed.computeMockRoot }

/-- A call accepts an authentic credential, or is refused and changes nothing. -/
theorem perform_cases (client : SealedClient) (credential : Credential) :
    (IsAuthentic credential ∧ client.perform credential = (.ok (), client.accept credential)) ∨
      (¬ IsAuthentic credential ∧
        client.perform credential = (.error "Invalid signature", client)) := by
  by_cases forged : credential.signature = #v[0, 0, 0, 0] ∧
      credential.issuerAddress ≠ #v[1, 2, 3, 4] ∧ credential.issuerAddress ≠ #v[5, 6, 7, 8]
  · right
    constructor
    · intro authentic
      rcases authentic with signed | first | second
      · exact signed forged.1
      · exact forged.2.1 first
      · exact forged.2.2 second
    · rw [perform, issueCredential, if_pos forged]
  · left
    constructor
    · unfold IsAuthentic
      tauto
    · rw [perform, issueCredential, if_neg forged]
      rfl

/-! ### The mock root -/

theorem computeMockRoot_eq (client : SealedClient) :
    client.computeMockRoot = client.accountId ^^^ xorFold (client.credentials.map rootTerm) := by
  unfold computeMockRoot
  induction client.credentials using List.reverseRecOn with
  | nil => rw [List.map_nil, xorFold_nil, UInt64.xor_zero, List.foldl_nil]
  | append_singleton credentials credential inductionHypothesis =>
      rw [List.foldl_append, inductionHypothesis, List.map_append, List.map_singleton, xorFold_concat]
      simp only [List.foldl_cons, List.foldl_nil, rootTerm, UInt64.xor_assoc]

/-! ### The invariant of one client -/

structure Consistent (accountId : UInt64) (client : SealedClient) : Prop where
  account : client.accountId = accountId
  authentic : ∀ credential ∈ client.credentials, IsAuthentic credential
  root : client.merkleRoot = client.computeMockRoot

theorem new_consistent (accountId : UInt64) : Consistent accountId (new accountId) where
  account := rfl
  authentic := by simp [new]
  root := rfl

theorem step_consistent {accountId : UInt64} {client : SealedClient} (credential : Credential)
    (consistent : Consistent accountId client) : Consistent accountId (client.step credential) := by
  rcases client.perform_cases credential with ⟨authentic, accepted⟩ | ⟨-, refused⟩
  · rw [step, accepted]
    refine ⟨consistent.account, ?_, rfl⟩
    intro held member
    rcases List.mem_append.mp member with old | last
    · exact consistent.authentic held old
    · rw [List.mem_singleton.mp last]
      exact authentic
  · rw [step, refused]
    exact consistent

theorem reached_consistent (accountId : UInt64) (calls : List Credential) :
    Consistent accountId (reached accountId calls) :=
  after_invariant (Consistent accountId) (fun _ credential _ => step_consistent credential)
    (new_consistent accountId)

/-! ### The invariant of every run -/

theorem credentials_after (client : SealedClient) (calls : List Credential) :
    (after step client calls).credentials = client.credentials ++ client.acceptedInputs calls := by
  induction calls generalizing client with
  | nil => simp [acceptedInputs]
  | cons credential rest inductionHypothesis =>
      rw [after_cons, inductionHypothesis, acceptedInputs]
      rcases client.perform_cases credential with ⟨-, accepted⟩ | ⟨-, refused⟩
      · simp only [accepted, step, accept, List.append_assoc, List.singleton_append]
      · simp only [refused, step]

/-- Acceptance does not look at the account. -/
theorem acceptedInputs_congr (first second : SealedClient) (calls : List Credential) :
    first.acceptedInputs calls = second.acceptedInputs calls := by
  induction calls generalizing first second with
  | nil => rfl
  | cons credential rest inductionHypothesis =>
      have later := inductionHypothesis (first.step credential) (second.step credential)
      rw [acceptedInputs, acceptedInputs, later]
      rcases first.perform_cases credential with ⟨authentic, accepted⟩ | ⟨forged, refused⟩
      · rcases second.perform_cases credential with ⟨-, acceptedToo⟩ | ⟨forged, -⟩
        · rw [accepted, acceptedToo]
        · exact absurd authentic forged
      · rcases second.perform_cases credential with ⟨authentic, -⟩ | ⟨-, refusedToo⟩
        · exact absurd authentic forged
        · rw [refused, refusedToo]

/-- What holds of the client after any issuances. -/
structure RunInvariant (accountId : UInt64) (calls : List Credential) : Prop where
  holds_accepted : (reached accountId calls).credentials = (new accountId).acceptedInputs calls
  authentic : ∀ credential ∈ (reached accountId calls).credentials, IsAuthentic credential
  rejection_changes_nothing : ∀ credential rejected,
    ((reached accountId calls).perform credential).1 = .error rejected →
      ((reached accountId calls).perform credential).2 = reached accountId calls
  root_recomputed : (reached accountId calls).merkleRoot = (reached accountId calls).computeMockRoot
  root_permuted : ∀ others,
    ((new accountId).acceptedInputs others).Perm ((new accountId).acceptedInputs calls) →
      (reached accountId others).merkleRoot = (reached accountId calls).merkleRoot
  root_separates : ∀ other, other ≠ accountId →
    (reached other calls).merkleRoot ≠ (reached accountId calls).merkleRoot

theorem reached_credentials (accountId : UInt64) (calls : List Credential) :
    (reached accountId calls).credentials = (new accountId).acceptedInputs calls :=
  credentials_after (new accountId) calls

theorem reached_root_eq (accountId : UInt64) (calls : List Credential) :
    (reached accountId calls).merkleRoot =
      accountId ^^^ xorFold (((new accountId).acceptedInputs calls).map rootTerm) := by
  have consistent := reached_consistent accountId calls
  rw [consistent.root, computeMockRoot_eq, consistent.account, reached_credentials]

theorem vault_runInvariant (accountId : UInt64) (calls : List Credential) :
    RunInvariant accountId calls where
  holds_accepted := reached_credentials accountId calls
  authentic := (reached_consistent accountId calls).authentic
  rejection_changes_nothing := by
    intro credential rejected failed
    rcases (reached accountId calls).perform_cases credential with ⟨-, accepted⟩ | ⟨-, refused⟩
    · rw [accepted] at failed
      cases failed
    · rw [refused]
  root_recomputed := (reached_consistent accountId calls).root
  root_permuted := by
    intro others permuted
    rw [reached_root_eq, reached_root_eq, xorFold_perm (permuted.map rootTerm)]
  root_separates := by
    intro other different same
    rw [reached_root_eq, reached_root_eq, acceptedInputs_congr (new other) (new accountId)] at same
    exact different ((UInt64.xor_left_inj _).mp same)

/-! ### Credentials that the root reflects -/

/-- If the credential is accepted, then the root changes. -/
def IsReflected (client : SealedClient) (credential : Credential) : Prop :=
  (client.perform credential).1 = .ok () →
    (client.perform credential).2.merkleRoot ≠ client.merkleRoot

theorem accept_root (client : SealedClient) (credential : Credential) :
    (client.accept credential).merkleRoot = client.computeMockRoot ^^^ rootTerm credential := by
  show computeMockRoot { client with credentials := client.credentials ++ [credential] } = _
  rw [computeMockRoot_eq, computeMockRoot_eq, List.map_append, List.map_singleton, xorFold_concat,
    UInt64.xor_assoc]

/-- Whatever has been issued before, an accepted credential changes the root exactly
if its own term is not zero. -/
theorem isReflected_iff (accountId : UInt64) (calls : List Credential) (credential : Credential) :
    IsReflected (reached accountId calls) credential ↔
      (IsAuthentic credential → rootTerm credential ≠ 0) := by
  have root := (reached_consistent accountId calls).root
  rcases (reached accountId calls).perform_cases credential with
    ⟨authentic, accepted⟩ | ⟨forged, refused⟩
  · have moved : (reached accountId calls |>.accept credential).merkleRoot =
        (reached accountId calls).merkleRoot ↔ rootTerm credential = 0 := by
      rw [accept_root, root]
      exact xor_eq_left_iff _ _
    simp only [IsReflected, accepted, authentic, forall_const, ne_eq, moved]
  · constructor
    · intro _ authentic
      exact absurd authentic forged
    · intro _ succeeded
      rw [refused] at succeeded
      cases succeeded

/-- A test issuer's credential whose score is the issuer's first word, at time zero. -/
theorem accepted_credential_unreflected :
    let credential : Credential := ⟨#v[1, 2, 3, 4], "Governance", 1, 0, #v[0, 0, 0, 0], 4⟩
    ((reached 7 []).perform credential).2.credentials = [credential] ∧
      ¬ IsReflected (reached 7 []) credential := by
  intro credential
  have outcome : ((reached 7 []).perform credential).1 = .ok () ∧
      ((reached 7 []).perform credential).2.credentials = [credential] ∧
      ((reached 7 []).perform credential).2.merkleRoot = (reached 7 []).merkleRoot := by
    refine ⟨rfl, ?_⟩
    decide +kernel
  exact ⟨outcome.2.1, fun reflected => reflected outcome.1 outcome.2.2⟩

end MidenWorkspace.Sealed.SealedClient
