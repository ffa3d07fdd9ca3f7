import MidenWorkspace.Library.MerkleTree
import MidenWorkspace.Vm.Assembly

/-!
Contract: a Merkle library over a store of whole trees.

Owns the trees that such a store holds, and how the library looks a node up,
replaces a leaf and computes a root from a path.
-/

namespace MidenWorkspace.Vm

open MidenWorkspace.Library

structure StoredTree where
  depth : Nat
  leaves : Nat → Word

def StoredTree.root (merge : Word → Word → Word) (tree : StoredTree) : Word :=
  MerkleTree.root merge tree.depth tree.leaves

/-- The stored tree with the given root and depth, if the index lies in it. -/
def lookupTree (merge : Word → Word → Word) (store : List StoredTree) (root : Word)
    (depth index : Felt) : Option StoredTree :=
  store.find? fun tree => tree.root merge = root ∧ tree.depth = depth.val ∧ index.val < 2 ^ depth.val

/-- The library that looks nodes and paths up in whole trees. -/
def treeLibrary (merge : Word → Word → Word) : MerkleLibrary (List StoredTree) where
  getTreeNode store root depth index :=
    match lookupTree merge store root depth index with
    | none => .error .merkleStoreLookupFailed
    | some tree => .ok (tree.leaves index.val)
  updateMerkleNode store root depth index value :=
    match lookupTree merge store root depth index with
    | none => .error .merkleStoreUpdateFailed
    | some tree =>
        .ok (⟨tree.depth, Function.update tree.leaves index.val value⟩ :: store,
          MerkleTree.path merge tree.depth tree.leaves index.val)
  computeRoot path index node := some (MerkleTree.rootAlong merge path index node)

end MidenWorkspace.Vm
