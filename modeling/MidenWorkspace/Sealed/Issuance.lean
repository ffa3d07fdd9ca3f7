import MidenWorkspace.Sealed.Contract
import MidenWorkspace.Vm.MerkleStore

/-!
Contract: runs of `issue_credential` against the tree they should maintain.

Owns:
- what a run of issuances has to leave behind: the caller's stack, the root of the
  updated tree in the credential slot, every other slot;
- the runs for which it does.

`push.0 exec.get_item` supplies one cell of a two-cell slot identifier; the
other is taken from the leaf below it. Every issuance that gets through returns
with two cells more than it was entered with.
-/

namespace MidenWorkspace.Sealed

open Fin.CommRing
open MidenWorkspace.Vm
open MidenWorkspace.Protocol
open MidenWorkspace.Library
open MidenWorkspace.Library.Structured

/-! ### Runs of issuances -/

/-- One issuance: the leaf and its position, and what lies behind them on the
tape. -/
structure IssueCall (depth : Nat) where
  leaf : Word
  index : Fin (2 ^ depth)
  beyond : List Felt

/-- Leaf, index and depth, in the order in which they are popped. -/
def IssueCall.tape {depth : Nat} (call : IssueCall depth) : List Felt :=
  call.leaf.toList ++ [Felt.new call.index.val, Felt.new depth] ++ call.beyond

section Runs

variable {σ : Type} (merkle : MerkleLibrary σ) (merge : Word → Word → Word) {depth : Nat}
  (slot : StorageSlotId)

/-- Every issuance of the run completes, restores the stack and writes the root of
the tree with its leaf into the credential slot and nothing else. -/
def IssuesCorrectly : (Nat → Word) → List (IssueCall depth) → State StorageSlotId σ → Prop
  | leaves, [], state => state.storage slot = some ⟨.value, MerkleTree.root merge depth leaves⟩
  | leaves, call :: rest, state =>
      ∃ final,
        (machine (kernelEnvironment merkle)).runBlock issueCredential
          { state with advice := call.tape } = .ok final ∧
        final.stack = state.stack ∧
        final.storage slot = some ⟨.value, MerkleTree.root merge depth
          (Function.update leaves call.index call.leaf)⟩ ∧
        (∀ other, other ≠ slot → final.storage other = state.storage other) ∧
        IssuesCorrectly (Function.update leaves call.index call.leaf) rest final

/-- An issuance that gets through leaves two cells above its caller's stack. -/
theorem issueCredential_framed {state final : State StorageSlotId σ}
    (ran : (machine (kernelEnvironment merkle)).runBlock issueCredential state = .ok final) :
    state.stack.Framed 2 final.stack :=
  completes_framed (kernelEnvironment_framed merkle) (by rfl)
    (Machine.yields_block_iff.mpr ran)

/-- Only the empty run is correct: the first issuance already fails or leaves
the stack two cells deeper. -/
theorem issuesCorrectly_iff (leaves : Nat → Word) (calls : List (IssueCall depth))
    (state : State StorageSlotId σ)
    (rooted : state.storage slot = some ⟨.value, MerkleTree.root merge depth leaves⟩) :
    IssuesCorrectly merkle merge slot leaves calls state ↔ calls = [] := by
  cases calls with
  | nil => exact iff_of_true rooted rfl
  | cons call rest =>
      refine iff_of_false ?_ (by simp)
      rintro ⟨final, ran, restored, -⟩
      have deeper := (issueCredential_framed merkle ran).depth
      rw [restored] at deeper
      simp only at deeper
      omega

end Runs

theorem issuesCorrectly_iff_one_call :
    let merge : Word → Word → Word := fun left right => ⟨left.e0 + right.e0, 1, 2, 3⟩
    let root := MerkleTree.root merge 1 fun _ => Word.empty
    let call : IssueCall 1 := ⟨⟨5, 6, 7, 8⟩, 0, []⟩
    IssuesCorrectly MerkleLibrary.empty merge ⟨0, 9⟩ (fun _ => Word.empty) [call]
        ⟨.zeros, [], (), fun _ => some ⟨.value, root⟩⟩ ↔
      [call] = [] :=
  issuesCorrectly_iff MerkleLibrary.empty _ ⟨0, 9⟩ _ [_] _ rfl

/-- A first issuance into an empty tree of one level, whose root lies in the only
slot and whose nodes the store serves: the slot identifier is completed by the
leaf, and the read finds no slot. -/
theorem issueCredential_misses_credential_slot :
    let merge : Word → Word → Word := fun left right => ⟨left.e0 + right.e0, 1, 2, 3⟩
    let tree : StoredTree := ⟨1, fun _ => Word.empty⟩
    let storage : Storage StorageSlotId :=
      fun slot => if slot = ⟨0, 9⟩ then some ⟨.value, tree.root merge⟩ else none
    let call : IssueCall 1 := ⟨⟨5, 6, 7, 8⟩, 0, []⟩
    lookupTree merge [tree] (tree.root merge) 1 0 = some tree ∧
      (machine (kernelEnvironment (treeLibrary merge))).runBlock issueCredential
        ⟨.zeros, call.tape, [tree], storage⟩ = .error .unknownStorageSlot := by
  exact ⟨rfl, rfl⟩

end MidenWorkspace.Sealed
