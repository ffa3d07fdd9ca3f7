import MidenWorkspace.Vm.Stack

/-!
Contract: VM operations on the processor state.

Owns the errors, the state, the account storage, the parts of the Merkle
library that the processor calls, and `Operation.execute`, one branch per
branch of `execute_op` that the modelled procedures reach.

The Merkle store and the path computation belong to the cryptography library
and the account procedures to the transaction kernel. Both are parameters of
the machine: `MerkleLibrary` and the host call of `Environment`.
-/

namespace MidenWorkspace.Vm

open Fin.CommRing

/-- The errors with which an execution stops. -/
inductive ExecutionError where
  | failedAssertion
  | notBinaryValue (value : Felt)
  | notBinaryValueLoop (value : Felt)
  | notU32Values (values : List Felt)
  | adviceStackReadFailed
  | merkleStoreLookupFailed
  | merkleStoreUpdateFailed
  | invalidMerklePathLength (length : Nat) (depth : Felt)
  | merklePathVerificationFailed
  | unknownStorageSlot
  | settingValueItemOnNonValueSlot
  | kernelProcedureOffsetOutOfBounds
deriving DecidableEq, Repr

inductive StorageSlotType where
  | value
  | map
deriving DecidableEq, Repr

/-- A storage slot: a value, or the root of a storage map. -/
structure StorageSlot where
  slotType : StorageSlotType
  content : Word
deriving DecidableEq, Repr

/-- Account storage over slot keys `κ`. -/
abbrev Storage (κ : Type) := κ → Option StorageSlot

/-- The processor state seen by a procedure of an account whose slots are
named by `κ` and whose advice provider holds a Merkle store `σ`. -/
structure State (κ σ : Type) where
  stack : OperandStack
  advice : List Felt
  store : σ
  storage : Storage κ

/-- The functions of the Merkle library reached from the processor. -/
structure MerkleLibrary (σ : Type) where
  /-- `AdviceProvider::get_tree_node`: root, depth, index. -/
  getTreeNode : σ → Word → Felt → Felt → Except ExecutionError Word
  /-- `AdviceProvider::update_merkle_node`: the store with the updated tree
  added, and the path of the updated node. -/
  updateMerkleNode : σ → Word → Felt → Felt → Word → Except ExecutionError (σ × List Word)
  /-- `MerklePath::compute_root`: path, index, node. -/
  computeRoot : List Word → Nat → Word → Option Word

/-- The library over a store without any tree. -/
def MerkleLibrary.empty : MerkleLibrary Unit where
  getTreeNode _ _ _ _ := .error .merkleStoreLookupFailed
  updateMerkleNode _ _ _ _ _ := .error .merkleStoreUpdateFailed
  computeRoot _ _ _ := none

/-- What the machine takes from outside: the Merkle library and the effect of
the host procedures `η`. -/
structure Environment (κ σ η : Type) where
  merkle : MerkleLibrary σ
  call : η → State κ σ → Except ExecutionError (State κ σ)

inductive SystemEvent where
  | merkleNodeToStack
deriving DecidableEq, Repr

/-- The VM operations that the modelled instructions lower to. -/
inductive Operation (η : Type) where
  | noop
  | assert
  | add
  | neg
  | mul
  | incr
  | and
  | or
  | not
  | eq
  | eqz
  | u32split
  | u32sub
  | pad
  | drop
  | dup (n : Nat)
  | swap
  | swapW
  | swapW2
  | swapW3
  | swapDW
  | movUp (n : Nat)
  | movDn (n : Nat)
  | push (value : Felt)
  | advPop
  | advPopW
  | emit (event : SystemEvent)
  | mrUpdate
  | call (procedure : η)
deriving DecidableEq, Repr

/-- The event identifier that lies on the stack while an event is handled. -/
def SystemEvent.eventId : SystemEvent → Felt
  | .merkleNodeToStack => 0

namespace Operation

variable {κ σ η : Type}

/-- `pop2_applyfn_push`: `b` is on top, `a` below it. -/
def popTwoPush (f : Felt → Felt → Felt) (stack : OperandStack) : OperandStack :=
  stack.drop.set 0 (f (stack.get 1) (stack.get 0))

def assertBinary (value : Felt) : Except ExecutionError Unit :=
  if value ≠ 0 ∧ value ≠ 1 then .error (.notBinaryValue value) else .ok ()

/-- `pop2_applyfn_push_op` for the two boolean connectives. -/
def popTwoBoolean (f : Bool → Bool → Bool) (stack : OperandStack) :
    Except ExecutionError OperandStack := do
  assertBinary (stack.get 0)
  assertBinary (stack.get 1)
  return stack.drop.set 0 (Felt.ofBool (f (stack.get 1 = 1) (stack.get 0 = 1)))

def u32Max : Nat := 2 ^ 32 - 1

/-- `op_u32split`: the low limb ends on top. -/
def splitTop (stack : OperandStack) : OperandStack :=
  let top := stack.get 0
  ((stack.push 0).set 0 (Felt.new (top.val % 2 ^ 32))).set 1 (Felt.new (top.val / 2 ^ 32))

/-- `op_u32sub` on `[b, a]`: the borrow of `a - b` on top, the difference
below. -/
def subU32 (stack : OperandStack) : Except ExecutionError OperandStack :=
  let b := stack.get 0
  let a := stack.get 1
  let invalid := [b, a].filter fun value => u32Max < value.val
  if invalid ≠ [] then .error (.notU32Values invalid)
  else
    let result := (a.val + 2 ^ 64 - b.val) % 2 ^ 64
    .ok ((stack.set 0 (Felt.new (result / 2 ^ 63))).set 1 (Felt.new (result % 2 ^ 32)))

/-- `copy_merkle_node_to_adv_stack`: the event identifier is still on top. -/
def copyMerkleNodeToAdviceStack (merkle : MerkleLibrary σ) (state : State κ σ) :
    Except ExecutionError (State κ σ) := do
  let depth := state.stack.get 1
  let index := state.stack.get 2
  let root := state.stack.getWord 3
  let node ← merkle.getTreeNode state.store root depth index
  return { state with advice := node.toList ++ state.advice }

/-- `op_mrupdate`: checks the old value against the claimed root along the
path, then replaces it on the stack by the new root. -/
def updateMerkleRoot (merkle : MerkleLibrary σ) (state : State κ σ) :
    Except ExecutionError (State κ σ) := do
  let oldValue := state.stack.getWord 0
  let depth := state.stack.get 4
  let index := state.stack.get 5
  let claimedOldRoot := state.stack.getWord 6
  let newValue := state.stack.getWord 10
  let (store, path) ← merkle.updateMerkleNode state.store claimedOldRoot depth index newValue
  if path.length ≠ depth.val then
    throw (.invalidMerklePathLength path.length depth)
  if merkle.computeRoot path index.val oldValue ≠ some claimedOldRoot then
    throw .merklePathVerificationFailed
  match merkle.computeRoot path index.val newValue with
  | none => throw .merklePathVerificationFailed
  | some newRoot => return { state with stack := state.stack.setWord 0 newRoot, store }

/-- `execute_op`, together with the system events and host calls. -/
def execute (environment : Environment κ σ η) (operation : Operation η) (state : State κ σ) :
    Except ExecutionError (State κ σ) :=
  let stack := state.stack
  match operation with
  | .noop => .ok state
  | .assert =>
      if stack.get 0 ≠ 1 then .error .failedAssertion
      else .ok { state with stack := stack.drop }
  | .add => .ok { state with stack := popTwoPush (· + ·) stack }
  | .neg => .ok { state with stack := stack.set 0 (-stack.get 0) }
  | .mul => .ok { state with stack := popTwoPush (· * ·) stack }
  | .incr => .ok { state with stack := stack.set 0 (stack.get 0 + 1) }
  | .and => do return { state with stack := ← popTwoBoolean (· && ·) stack }
  | .or => do return { state with stack := ← popTwoBoolean (· || ·) stack }
  | .not =>
      if stack.get 0 = 0 then .ok { state with stack := stack.set 0 1 }
      else if stack.get 0 = 1 then .ok { state with stack := stack.set 0 0 }
      else .error (.notBinaryValue (stack.get 0))
  | .eq => .ok { state with stack := popTwoPush (fun a b => Felt.ofBool (a = b)) stack }
  | .eqz => .ok { state with stack := stack.set 0 (Felt.ofBool (stack.get 0 = 0)) }
  | .u32split => .ok { state with stack := splitTop stack }
  | .u32sub => do return { state with stack := ← subU32 stack }
  | .pad => .ok { state with stack := stack.push 0 }
  | .drop => .ok { state with stack := stack.drop }
  | .dup n => .ok { state with stack := stack.push (stack.get n) }
  | .swap => .ok { state with stack := stack.swap 0 1 }
  | .swapW => .ok { state with stack := stack.swapCells 4 4 (by decide) (by decide) }
  | .swapW2 => .ok { state with stack := stack.swapCells 4 8 (by decide) (by decide) }
  | .swapW3 => .ok { state with stack := stack.swapCells 4 12 (by decide) (by decide) }
  | .swapDW => .ok { state with stack := stack.swapCells 8 8 (by decide) (by decide) }
  | .movUp n => .ok { state with stack := stack.movUp n }
  | .movDn n => .ok { state with stack := stack.movDn n }
  | .push value => .ok { state with stack := stack.push value }
  | .advPop =>
      match state.advice with
      | [] => .error .adviceStackReadFailed
      | value :: rest => .ok { state with stack := stack.push value, advice := rest }
  | .advPopW =>
      match state.advice with
      | e0 :: e1 :: e2 :: e3 :: rest =>
          .ok { state with stack := stack.setWord 0 ⟨e0, e1, e2, e3⟩, advice := rest }
      | _ => .error .adviceStackReadFailed
  | .emit .merkleNodeToStack => copyMerkleNodeToAdviceStack environment.merkle state
  | .mrUpdate => updateMerkleRoot environment.merkle state
  | .call procedure => environment.call procedure state

end Operation

end MidenWorkspace.Vm
