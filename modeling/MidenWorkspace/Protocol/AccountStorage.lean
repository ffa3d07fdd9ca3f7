import Mathlib.Logic.Function.Basic
import MidenWorkspace.Vm.Frame

/-!
Contract: reading and writing account storage from an account procedure.

Owns:
- the storage functions `getItem` and `setItem` with the kernel's two panics;
- `active_account::get_item` and `native_account::set_item` as the code they
  are, over the kernel procedure that they reach by `syscall`;
- the convention that addresses a slot by one index cell.

Does not own: the memory layout of the kernel. `exec_kernel_proc` is modelled by
its documented effect on the sixteen cells it receives, for the two offsets that
the wrappers pass; the caller is taken to be the native account itself, so the
origin checks of the kernel pass.
-/

namespace MidenWorkspace.Protocol

open Fin.CommRing
open MidenWorkspace.Vm
open MidenWorkspace.Library.Structured

section Items

variable {κ : Type}

def getItem (storage : Storage κ) (slot : κ) : Except ExecutionError Word :=
  match storage slot with
  | none => .error .unknownStorageSlot
  | some found => .ok found.content

/-- The old value and the storage with the new one. -/
def setItem [DecidableEq κ] (storage : Storage κ) (slot : κ) (value : Word) :
    Except ExecutionError (Word × Storage κ) :=
  match storage slot with
  | none => .error .unknownStorageSlot
  | some found =>
      if found.slotType = .value then
        .ok (found.content, Function.update storage slot (some ⟨.value, value⟩))
      else .error .settingValueItemOnNonValueSlot

/-- The slot exists and takes values. -/
def IsValueSlot (storage : Storage κ) (slot : κ) : Prop :=
  ∃ content, storage slot = some ⟨.value, content⟩

theorem setItem_of_value [DecidableEq κ] {storage : Storage κ} {slot : κ} {content : Word}
    (found : storage slot = some ⟨.value, content⟩) (value : Word) :
    setItem storage slot value =
      .ok (content, Function.update storage slot (some ⟨.value, value⟩)) := by
  simp [setItem, found]

theorem setItem_ok_iff [DecidableEq κ] {storage after : Storage κ} {slot : κ} {old value : Word} :
    setItem storage slot value = .ok (old, after) ↔
      storage slot = some ⟨.value, old⟩ ∧
        after = Function.update storage slot (some ⟨.value, value⟩) := by
  unfold setItem
  rcases storage slot with _ | ⟨slotType, content⟩
  · simp
  · cases slotType <;> simp [eq_comm]

/-- A write goes through exactly on a value slot. -/
theorem setItem_completes_iff [DecidableEq κ] {storage : Storage κ} {slot : κ} (value : Word) :
    (∃ result, setItem storage slot value = .ok result) ↔ IsValueSlot storage slot := by
  constructor
  · rintro ⟨⟨old, after⟩, written⟩
    exact ⟨old, (setItem_ok_iff.mp written).1⟩
  · rintro ⟨content, found⟩
    exact ⟨_, setItem_of_value found value⟩

theorem getItem_of_setItem_self [DecidableEq κ] {storage after : Storage κ} {slot : κ}
    {old value : Word} (ran : setItem storage slot value = .ok (old, after)) :
    getItem after slot = .ok value := by
  obtain ⟨-, rfl⟩ := setItem_ok_iff.mp ran
  simp only [getItem, Function.update_self]

theorem getItem_of_setItem_of_ne [DecidableEq κ] {storage after : Storage κ} {slot other : κ}
    {old value : Word} (ran : setItem storage slot value = .ok (old, after))
    (different : other ≠ slot) : getItem after other = getItem storage other := by
  obtain ⟨-, rfl⟩ := setItem_ok_iff.mp ran
  simp only [getItem, Function.update_of_ne different]

/-- A write keeps the kind of every slot. -/
theorem isValueSlot_of_setItem [DecidableEq κ] {storage after : Storage κ} {slot : κ}
    {old value : Word} (ran : setItem storage slot value = .ok (old, after)) (other : κ) :
    IsValueSlot after other ↔ IsValueSlot storage other := by
  obtain ⟨found, rfl⟩ := setItem_ok_iff.mp ran
  unfold IsValueSlot
  by_cases same : other = slot
  · subst same
    simp [found]
  · simp [same]

end Items

/-! ### Slots addressed by their identifier -/

/-- The first two elements of the hashed slot name. -/
structure StorageSlotId where
  suffix : Felt
  prefixFelt : Felt
deriving DecidableEq, Repr

inductive KernelProcedure where
  | execKernelProc
deriving DecidableEq, Repr

def accountGetItemOffset : Felt := 8

def accountSetItemOffset : Felt := 10

variable {σ : Type}

/-- The call context hands sixteen cells back: the word, and of the padding
what is left after the consumed cells, filled up with zeros. -/
def returnWord (word : Word) (consumed : Nat) (stack : OperandStack) : OperandStack :=
  ⟨word.toList ++ ((stack.cells.take minStackDepth).drop consumed ++ List.replicate 12 0).take 12 ++
      stack.cells.drop minStackDepth, by
    simp only [Word.toList, List.length_append, List.length_cons, List.length_nil,
      List.length_take, List.length_replicate, List.length_drop, minStackDepth]
    omega⟩

/-- `exec_kernel_proc` for `account_get_item` and `account_set_item`. -/
def execKernelProc (state : State StorageSlotId σ) :
    Except ExecutionError (State StorageSlotId σ) :=
  let offset := state.stack.get 0
  let slot : StorageSlotId := ⟨state.stack.get 1, state.stack.get 2⟩
  if offset = accountGetItemOffset then do
    let value ← getItem state.storage slot
    -- three cells of padding are dropped to truncate the stack
    return { state with stack := returnWord value 6 state.stack }
  else if offset = accountSetItemOffset then do
    let (oldValue, storage) ← setItem state.storage slot (state.stack.getWord 3)
    return { state with stack := returnWord oldValue 7 state.stack, storage }
  else .error .kernelProcedureOffsetOutOfBounds

/-- The machine of an account whose slots are named by identifiers. -/
def kernelEnvironment (merkle : MerkleLibrary σ) :
    Environment StorageSlotId σ KernelProcedure where
  merkle
  call
    | .execKernelProc => execKernelProc

/-- `active_account::get_item`: `[suffix, prefix] ⇒ [VALUE]`. -/
def activeGetItem : List (Instruction KernelProcedure) :=
  [.push 0, .movDn 2, .push accountGetItemOffset,
    -- pad the stack
    .padW, .swapW1, .padW, .padW, .swapDw,
    .call .execKernelProc,
    -- clean the stack
    .swapDw, .dropW, .dropW, .swapW1, .dropW]

/-- `native_account::set_item`: `[suffix, prefix, VALUE] ⇒ [OLD_VALUE]`. -/
def nativeSetItem : List (Instruction KernelProcedure) :=
  [.push accountSetItemOffset,
    .push 0, .movDn 7, .padW, .padW, .swapDw,
    .call .execKernelProc,
    .swapW3, .dropW, .dropW, .dropW]

/-- The kernel call works on the sixteen topmost cells. -/
def kernelArity : KernelProcedure → Nat × Nat
  | .execKernelProc => (16, 16)

theorem kernelEnvironment_framed (merkle : MerkleLibrary σ) :
    (kernelEnvironment merkle).Framed kernelArity := by
  have returned : ∀ (word : Word) (consumed : Nat) {caller stack : OperandStack} {height : Nat},
      16 ≤ height → caller.Framed height stack →
      caller.Framed height (returnWord word consumed stack) := by
    rintro word consumed caller stack height enough ⟨top, rfl, rfl⟩
    refine ⟨word.toList ++ ((top.take 16).drop consumed ++ List.replicate 12 0).take 12 ++
      top.drop 16, ?_, ?_⟩
    · simp only [Word.toList, List.length_append, List.length_cons, List.length_nil,
        List.length_take, List.length_replicate, List.length_drop]
      omega
    · apply OperandStack.ext
      simp only [returnWord, OperandStack.above, minStackDepth, List.append_assoc,
        List.take_append_of_le_length enough, List.drop_append_of_le_length enough]
  rintro ⟨⟩ caller height after state final moved framed ran
  obtain ⟨below, rfl, rfl⟩ := moveHeight_eq_some moved
  simp only [kernelEnvironment, execKernelProc] at ran
  split at ran
  · cases read : getItem state.storage ⟨state.stack.get 1, state.stack.get 2⟩ with
    | error failure => simp [read, bind, Except.bind] at ran
    | ok value =>
        rw [read] at ran
        cases ran
        exact returned value 6 (Nat.le_add_left _ _) framed
  · split at ran
    · cases written : setItem state.storage ⟨state.stack.get 1, state.stack.get 2⟩
          (state.stack.getWord 3) with
      | error failure => simp [written, bind, Except.bind] at ran
      | ok result =>
          rw [written] at ran
          cases ran
          exact returned result.1 7 (Nat.le_add_left _ _) framed
    · cases ran

/-! ### Slots addressed by an index cell -/

inductive IndexedProcedure where
  | getItem
  | setItem
deriving DecidableEq, Repr

/-- `[index | S] ⇒ [WORD | S]`. -/
def indexedGetItem (state : State Felt σ) : Except ExecutionError (State Felt σ) := do
  let word ← getItem state.storage (state.stack.get 0)
  let stack := state.stack.drop
  return { state with
    stack := (((stack.push word.e3).push word.e2).push word.e1).push word.e0 }

/-- `[index, WORD | S] ⇒ [OLD_WORD | S]`. -/
def indexedSetItem (state : State Felt σ) : Except ExecutionError (State Felt σ) := do
  let (oldWord, storage) ← setItem state.storage (state.stack.get 0) (state.stack.getWord 1)
  return { state with stack := state.stack.drop.setWord 0 oldWord, storage }

/-- The machine of an account whose slots are addressed by one index cell. -/
def indexedEnvironment (merkle : MerkleLibrary σ) : Environment Felt σ IndexedProcedure where
  merkle
  call
    | .getItem => indexedGetItem
    | .setItem => indexedSetItem

def indexedArity : IndexedProcedure → Nat × Nat
  | .getItem => (1, 4)
  | .setItem => (5, 4)

section Indexed

variable (merkle : MerkleLibrary σ) (caller : OperandStack) (advice : List Felt) (store : σ)
  (storage : Storage Felt) (top : List Felt)

@[simp] theorem step_indexedGetItem (index : Felt) :
    (machine (indexedEnvironment merkle)).step (.call .getItem)
        ⟨.above (index :: top) caller, advice, store, storage⟩ =
      (getItem storage index).map fun word =>
        ⟨.above (word.e0 :: word.e1 :: word.e2 :: word.e3 :: top) caller, advice, store, storage⟩ := by
  rw [step_call]
  change (getItem storage index >>= _) = _
  cases getItem storage index with
  | error failure => rfl
  | ok word =>
      simp only [bind, Except.bind, pure, Except.pure, OperandStack.drop_above]
      rfl

@[simp] theorem step_indexedSetItem (index w0 w1 w2 w3 : Felt) :
    (machine (indexedEnvironment merkle)).step (.call .setItem)
        ⟨.above (index :: w0 :: w1 :: w2 :: w3 :: top) caller, advice, store, storage⟩ =
      (setItem storage index ⟨w0, w1, w2, w3⟩).map fun (oldWord, after) =>
        ⟨.above (oldWord.e0 :: oldWord.e1 :: oldWord.e2 :: oldWord.e3 :: top) caller,
          advice, store, after⟩ := by
  rw [step_call]
  change (setItem storage index ⟨w0, w1, w2, w3⟩ >>= _) = _
  cases setItem storage index ⟨w0, w1, w2, w3⟩ with
  | error failure => rfl
  | ok result =>
      simp only [bind, Except.bind, pure, Except.pure, OperandStack.drop_above]
      rfl

end Indexed

theorem indexedEnvironment_framed (merkle : MerkleLibrary σ) :
    (indexedEnvironment merkle).Framed indexedArity := by
  rintro procedure caller height after state final moved framed ran
  obtain ⟨below, rfl, rfl⟩ := moveHeight_eq_some moved
  cases procedure with
  | getItem =>
      simp only [indexedEnvironment, indexedGetItem] at ran
      cases read : getItem state.storage (state.stack.get 0) with
      | error failure => simp [read, bind, Except.bind] at ran
      | ok word =>
          rw [read] at ran
          cases ran
          exact (((framed.drop.push _).push _).push _).push _
  | setItem =>
      simp only [indexedEnvironment, indexedSetItem] at ran
      cases written : setItem state.storage (state.stack.get 0) (state.stack.getWord 1) with
      | error failure => simp [written, bind, Except.bind] at ran
      | ok result =>
          rw [written] at ran
          cases ran
          exact framed.drop.setWord (Nat.le_add_left _ _) result.1

/-- No call changes which slots exist and take values. -/
theorem indexedEnvironment_isValueSlot (merkle : MerkleLibrary σ) {procedure : IndexedProcedure}
    {state final : State Felt σ} (slot : Felt)
    (ran : (indexedEnvironment merkle).call procedure state = .ok final) :
    IsValueSlot final.storage slot ↔ IsValueSlot state.storage slot := by
  cases procedure with
  | getItem =>
      simp only [indexedEnvironment, indexedGetItem] at ran
      cases read : getItem state.storage (state.stack.get 0) with
      | error failure => simp [read, bind, Except.bind] at ran
      | ok word =>
          rw [read] at ran
          cases ran
          rfl
  | setItem =>
      simp only [indexedEnvironment, indexedSetItem] at ran
      cases written : setItem state.storage (state.stack.get 0) (state.stack.getWord 1) with
      | error failure => simp [written, bind, Except.bind] at ran
      | ok result =>
          rw [written] at ran
          cases ran
          exact isValueSlot_of_setItem written slot

end MidenWorkspace.Protocol
