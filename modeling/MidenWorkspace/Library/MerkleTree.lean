import Mathlib.Algebra.Ring.Nat
import Mathlib.Logic.Function.Basic
import Mathlib.Tactic.SplitIfs

/-!
Contract: complete binary Merkle trees over an arbitrary node type and an
arbitrary merge function.

Owns the root of a tree given by its leaves, the sibling path of a leaf, and the
root that a path claims for a leaf.

Does not own: any property of the merge function. In particular nothing here
says that different trees have different roots.
-/

namespace MidenWorkspace.Library.MerkleTree

universe u

variable {α : Type u} (merge : α → α → α)

/-- The nodes one level up. -/
def parents (nodes : Nat → α) (index : Nat) : α :=
  merge (nodes (2 * index)) (nodes (2 * index + 1))

/-- The root of the tree of the given depth over `leaves`. -/
def root : Nat → (Nat → α) → α
  | 0, leaves => leaves 0
  | depth + 1, leaves => root depth (parents merge leaves)

/-- The node that is merged with the one at `index`. -/
def sibling (nodes : Nat → α) (index : Nat) : α :=
  if index % 2 = 0 then nodes (index + 1) else nodes (index - 1)

/-- The siblings met on the way from a leaf to the root. -/
def path : Nat → (Nat → α) → Nat → List α
  | 0, _, _ => []
  | depth + 1, leaves, index =>
      sibling leaves index :: path depth (parents merge leaves) (index / 2)

/-- One step up. -/
def climb (index : Nat) (node other : α) : α :=
  if index % 2 = 0 then merge node other else merge other node

/-- The root that a path claims for a node. -/
def rootAlong : List α → Nat → α → α
  | [], _, node => node
  | other :: rest, index, node => rootAlong rest (index / 2) (climb merge index node other)

end MidenWorkspace.Library.MerkleTree
