import MidenWorkspace.Protocol.AccountStorage
import MidenWorkspace.Vm.Comparison

/-!
Contract: the procedures of `syndex.masm`.

Owns the three exported procedures, instruction by instruction, and the outcome
of `register_institution` and `submit_gradient_update` on every stack, tape and
storage.

Storage is addressed by one index cell, as the comments of the contract have it,
and `adv_push.n` is `n` times `adv_push`. No procedure touches a Merkle tree, so
the machine runs over the empty Merkle library.

The last write of `register_institution` pushes a zero above its slot index, and
`movup.4` then lifts that zero: slot 0 is written a second time and slot 3 never.
In `submit_gradient_update` every index lies one cell too deep, so each of the
three writes takes a value for its index.
-/

namespace MidenWorkspace.Syndex

open Fin.CommRing
open MidenWorkspace.Vm
open MidenWorkspace.Protocol
open MidenWorkspace.Library.Structured

abbrev SyndexInstruction := Instruction IndexedProcedure

abbrev SyndexState := State Felt Unit

/-- The machine on which the contract runs. -/
def syndexMachine : Machine SyndexInstruction SyndexState ExecutionError :=
  machine (indexedEnvironment MerkleLibrary.empty)

/-- Every write drops the old word that `set_item` returns. -/
def setItemAndDrop : List SyndexInstruction := [.call .setItem, .dropW]

/-! ### `register_institution` -/

/-- Schema hash, then institution id. -/
def readRegistration : List SyndexInstruction :=
  [.advPush, .advPush, .advPush, .advPush, .advPush]

/-- `institution_id > 0` and `institution_id < 1000000`. -/
def assertIdRange : List SyndexInstruction :=
  [.dup 0, .push 0, .gt, .assert, .dup 0, .push 1000000, .lt, .assert]

/-- Persist the schema hash at slot 0. -/
def storeSchemaHash : List SyndexInstruction :=
  [.push 0, .movUp 5, .movUp 3, .movUp 3, .movUp 3] ++ setItemAndDrop

/-- Persist the institution id at slot 1. -/
def storeInstitutionId : List SyndexInstruction :=
  [.push 1, .swap 1, .swap 1, .padW, .movUp 4] ++ setItemAndDrop

/-- Initialize the model root at slot 2. -/
def initializeModelRoot : List SyndexInstruction :=
  [.push 2, .push 0, .push 0, .push 0, .push 0, .movUp 4] ++ setItemAndDrop

/-- Initialize the participant count at slot 3. -/
def initializeParticipantCount : List SyndexInstruction :=
  [.push 3, .push 0, .padW, .movUp 4] ++ setItemAndDrop

def registerInstitution : List SyndexInstruction :=
  [.debugStack] ++ readRegistration ++ assertIdRange ++ storeSchemaHash ++ storeInstitutionId ++
    initializeModelRoot ++ initializeParticipantCount ++ [.debugStack]

/-! ### `submit_gradient_update` -/

/-- Increment the nullifier count of slot 4. -/
def incrementNullifierCount : List SyndexInstruction :=
  [.push 4, .call .getItem, .drop, .drop, .drop,
    .push 1, .add,
    .push 4, .swap 1, .padW, .movUp 4] ++ setItemAndDrop

/-- Gradient hash, validity proof hash, institution id. -/
def readUpdate : List SyndexInstruction :=
  [.advPush, .advPush, .advPush, .advPush,
    .advPush, .advPush, .advPush, .advPush,
    .advPush]

/-- Verify the institution id against slot 1, then drop the proof. -/
def verifyInstitutionId : List SyndexInstruction :=
  [.push 1, .call .getItem, .movUp 4, .movUp 4, .assertEq, .drop, .drop, .drop, .dropW]

/-- XOR the gradient into the model root of slot 2. -/
def foldModelRoot : List SyndexInstruction :=
  [.push 2, .call .getItem,
    .movUp 4, .xor, .movUp 4, .xor, .movUp 4, .xor, .movUp 4, .xor,
    .swap 3, .swap 1,
    .push 2, .movUp 4, .movUp 4, .movUp 4, .movUp 4] ++ setItemAndDrop

/-- Increment the participant count of slot 3. -/
def incrementParticipantCount : List SyndexInstruction :=
  [.push 3, .call .getItem, .drop, .drop, .drop, .addImm 1,
    .push 3, .swap 1, .padW, .movUp 4] ++ setItemAndDrop

def submitGradientUpdate : List SyndexInstruction :=
  [.debugStack] ++ incrementNullifierCount ++ readUpdate ++ verifyInstitutionId ++ foldModelRoot ++
    incrementParticipantCount ++ [.debugStack]

/-! ### `pull_model` -/

def pullModel : List SyndexInstruction :=
  [.debugStack,
    .push 2, .call .getItem,
    .push 3, .call .getItem,
    .drop, .drop, .drop,
    .debugStack]

/-! ### Registration -/

section Registration

variable (caller : OperandStack) (advice : List Felt) (storage : Storage Felt)

private theorem runBlock_debugStack (state : SyndexState) :
    syndexMachine.runBlock [.debugStack] state = .ok state := rfl

private theorem runBlock_readRegistration (a0 a1 a2 a3 id : Felt) :
    syndexMachine.runBlock readRegistration
        ⟨.above [] caller, a0 :: a1 :: a2 :: a3 :: id :: advice, (), storage⟩ =
      .ok ⟨.above [id, a3, a2, a1, a0] caller, advice, (), storage⟩ := rfl

private theorem runBlock_readRegistration_short (short : advice.length < 5) :
    syndexMachine.runBlock readRegistration ⟨.above [] caller, advice, (), storage⟩ =
      .error .adviceStackReadFailed := by
  match advice, short with
  | [], _ | [_], _ | [_, _], _ | [_, _, _], _ | [_, _, _, _], _ => rfl

theorem runBlock_assertIdRange (id : Felt) (top : List Felt) :
    syndexMachine.runBlock assertIdRange ⟨.above (id :: top) caller, advice, (), storage⟩ =
      if 0 < id ∧ id < 1000000 then .ok ⟨.above (id :: top) caller, advice, (), storage⟩
      else .error .failedAssertion := by
  simp only [syndexMachine, assertIdRange, Machine.runBlock, step_dup_zero, step_push, step_gt_above,
    step_assert_flag]
  by_cases positive : 0 < id
  · by_cases small : id < 1000000
    · simp only [positive, small, decide_true, if_true, step_dup_zero, step_push, step_lt_above,
        step_assert_flag, and_self]
    · simp only [positive, small, decide_true, decide_false, if_true, step_dup_zero, step_push,
        step_lt_above, step_assert_flag, and_false, if_false, Bool.false_eq_true]
  · simp only [positive, decide_false, Bool.false_eq_true, if_false, false_and]

theorem runBlock_setItemAndDrop (index w0 w1 w2 w3 : Felt) (top : List Felt) :
    syndexMachine.runBlock setItemAndDrop
        ⟨.above (index :: w0 :: w1 :: w2 :: w3 :: top) caller, advice, (), storage⟩ =
      (setItem storage index ⟨w0, w1, w2, w3⟩).map fun (_, after) =>
        ⟨.above top caller, advice, (), after⟩ := by
  simp only [syndexMachine, setItemAndDrop, Machine.runBlock, step_indexedSetItem]
  cases setItem storage index ⟨w0, w1, w2, w3⟩ with
  | error failure => rfl
  | ok result => simp only [Except.map, step_dropW]

/-- A write that is prepared by moving cells only. -/
private theorem runBlock_prepared {prepare : List SyndexInstruction} {before top : List Felt}
    {index w0 w1 w2 w3 : Felt}
    (prepared : syndexMachine.runBlock prepare ⟨.above before caller, advice, (), storage⟩ =
      .ok ⟨.above (index :: w0 :: w1 :: w2 :: w3 :: top) caller, advice, (), storage⟩) :
    syndexMachine.runBlock (prepare ++ setItemAndDrop)
        ⟨.above before caller, advice, (), storage⟩ =
      (setItem storage index ⟨w0, w1, w2, w3⟩).map fun (_, after) =>
        ⟨.above top caller, advice, (), after⟩ := by
  rw [Machine.runBlock_append_ok prepared, runBlock_setItemAndDrop]

/-- The id lies where the last element of the schema hash should be. -/
private theorem runBlock_storeSchemaHash (id a3 a2 a1 a0 : Felt) :
    syndexMachine.runBlock storeSchemaHash
        ⟨.above [id, a3, a2, a1, a0] caller, advice, (), storage⟩ =
      (setItem storage 0 ⟨id, a3, a0, a2⟩).map fun (_, after) =>
        ⟨.above [a1] caller, advice, (), after⟩ := by
  unfold storeSchemaHash
  exact runBlock_prepared caller advice storage rfl

/-- The written word is the padding; the cell below the index stays. -/
private theorem runBlock_storeInstitutionId (a : Felt) :
    syndexMachine.runBlock storeInstitutionId ⟨.above [a] caller, advice, (), storage⟩ =
      (setItem storage 1 Word.empty).map fun (_, after) =>
        ⟨.above [a] caller, advice, (), after⟩ := by
  unfold storeInstitutionId
  exact runBlock_prepared caller advice storage rfl

private theorem runBlock_initializeModelRoot (a : Felt) :
    syndexMachine.runBlock initializeModelRoot ⟨.above [a] caller, advice, (), storage⟩ =
      (setItem storage 2 Word.empty).map fun (_, after) =>
        ⟨.above [a] caller, advice, (), after⟩ := by
  unfold initializeModelRoot
  exact runBlock_prepared caller advice storage rfl

/-- The index written to is the zero pushed above the intended one. -/
private theorem runBlock_initializeParticipantCount (a : Felt) :
    syndexMachine.runBlock initializeParticipantCount ⟨.above [a] caller, advice, (), storage⟩ =
      (setItem storage 0 Word.empty).map fun (_, after) =>
        ⟨.above [3, a] caller, advice, (), after⟩ := by
  unfold initializeParticipantCount
  exact runBlock_prepared caller advice storage rfl

/-- The four writes of a registration, in order. -/
def registrationWrites (storage : Storage Felt) (id a0 a2 a3 : Felt) :
    Except ExecutionError (Storage Felt) := do
  let (_, first) ← setItem storage 0 ⟨id, a3, a0, a2⟩
  let (_, second) ← setItem first 1 Word.empty
  let (_, third) ← setItem second 2 Word.empty
  let (_, fourth) ← setItem third 0 Word.empty
  return fourth

/-- `register_institution` on every stack, storage and tape of five elements. -/
theorem runBlock_registerInstitution (a0 a1 a2 a3 id : Felt) :
    syndexMachine.runBlock registerInstitution
        ⟨caller, a0 :: a1 :: a2 :: a3 :: id :: advice, (), storage⟩ =
      if 0 < id ∧ id < 1000000 then
        (registrationWrites storage id a0 a2 a3).map fun after =>
          ⟨.above [3, a1] caller, advice, (), after⟩
      else .error .failedAssertion := by
  change syndexMachine.runBlock registerInstitution ⟨.above [] caller, _, (), storage⟩ = _
  simp only [registerInstitution, Machine.runBlock_append, runBlock_debugStack, bind, Except.bind,
    runBlock_readRegistration, runBlock_assertIdRange]
  by_cases inRange : 0 < id ∧ id < 1000000
  · simp only [if_pos inRange, runBlock_storeSchemaHash, registrationWrites, bind, Except.bind]
    cases setItem storage 0 ⟨id, a3, a0, a2⟩ with
    | error failure => rfl
    | ok first =>
        simp only [Except.map, runBlock_storeInstitutionId]
        cases setItem first.2 1 Word.empty with
        | error failure => rfl
        | ok second =>
            simp only [Except.map, runBlock_initializeModelRoot]
            cases setItem second.2 2 Word.empty with
            | error failure => rfl
            | ok third =>
                simp only [Except.map, runBlock_initializeParticipantCount]
                cases setItem third.2 0 Word.empty with
                | error failure => rfl
                | ok fourth => rfl
  · simp only [if_neg inRange]

theorem runBlock_registerInstitution_short (short : advice.length < 5) :
    syndexMachine.runBlock registerInstitution ⟨caller, advice, (), storage⟩ =
      .error .adviceStackReadFailed := by
  change syndexMachine.runBlock registerInstitution ⟨.above [] caller, _, (), storage⟩ = _
  simp only [registerInstitution, Machine.runBlock_append, runBlock_debugStack, bind, Except.bind,
    runBlock_readRegistration_short caller advice storage short]

end Registration

/-! ### Submission -/

/-- What the two increments do. `padw` puts four zeros above the count, so the
count itself is taken for the index and the zeros for the word. -/
def incrementItem (storage : Storage Felt) (slot : Felt) :
    Except ExecutionError (Storage Felt) := do
  let word ← getItem storage slot
  let (_, after) ← setItem storage (word.e3 + 1) Word.empty
  return after

/-- What the fold does. All four elements of the gradient meet the first element of
the root, and its second element is taken for the index of the slot to write. -/
def foldRoot (storage : Storage Felt) (gradient : Word) : Except ExecutionError (Storage Felt) := do
  let root ← getItem storage 2
  let folded ← gradient.toList.foldlM xorElements root.e0
  let (_, after) ← setItem storage root.e1 ⟨root.e3, root.e2, folded, 2⟩
  return after

/-- The storage accesses of a submission, in order. -/
def submissionWrites (storage : Storage Felt) (gradient : Word) (id : Felt) :
    Except ExecutionError (Storage Felt) := do
  let counted ← incrementItem storage 4
  let registered ← getItem counted 1
  if id = registered.e3 then
    let updated ← foldRoot counted gradient
    incrementItem updated 3
  else throw .failedAssertion

section Submission

variable (caller : OperandStack) (advice : List Felt) (storage : Storage Felt) (top : List Felt)

/-- Code that starts by reading a slot goes on with the word above the cells. -/
private theorem runBlock_readSlot (slot : Felt) (block : List SyndexInstruction) :
    syndexMachine.runBlock (.push slot :: .call .getItem :: block)
        ⟨.above top caller, advice, (), storage⟩ =
      (getItem storage slot).bind fun word => syndexMachine.runBlock block
        ⟨.above (word.e0 :: word.e1 :: word.e2 :: word.e3 :: top) caller, advice, (), storage⟩ := by
  have pushed := step_push (indexedEnvironment MerkleLibrary.empty) caller advice () storage top slot
  have read := step_indexedGetItem MerkleLibrary.empty caller advice () storage top slot
  exact (Machine.runBlock_cons_ok pushed).trans (Machine.runBlock_cons_map read block)

/-- The code drops the old value that a write returns, and goes on with the storage. -/
private theorem map_written {Result : Type} (written : Except ExecutionError (Word × Storage Felt))
    (next : Storage Felt → Result) :
    (written.map fun (_, after) => next after) =
      Except.map next (do let (_, after) ← written; return after) := by
  cases written <;> rfl

private theorem runBlock_incrementSlot {increment : List SyndexInstruction}
    (increments : ∀ count, syndexMachine.runBlock increment
        ⟨.above (count :: top) caller, advice, (), storage⟩ =
      .ok ⟨.above ((count + 1) :: top) caller, advice, (), storage⟩) (slot : Felt) :
    syndexMachine.runBlock (.push slot :: .call .getItem :: .drop :: .drop :: .drop ::
        (increment ++ (.push slot :: .swap 1 :: .padW :: .movUp 4 :: setItemAndDrop)))
        ⟨.above top caller, advice, (), storage⟩ =
      (incrementItem storage slot).map fun after =>
        ⟨.above (slot :: top) caller, advice, (), after⟩ := by
  have prepared : ∀ count, syndexMachine.runBlock [.push slot, .swap 1, .padW, .movUp 4]
      ⟨.above (count :: top) caller, advice, (), storage⟩ =
      .ok ⟨.above (count :: 0 :: 0 :: 0 :: 0 :: slot :: top) caller, advice, (), storage⟩ :=
    fun _ => rfl
  rw [runBlock_readSlot, incrementItem]
  cases getItem storage slot with
  | error failure => rfl
  | ok word =>
      have dropped (block : List SyndexInstruction) :
          syndexMachine.runBlock (.drop :: .drop :: .drop :: block)
            ⟨.above (word.e0 :: word.e1 :: word.e2 :: word.e3 :: top) caller, advice, (), storage⟩ =
          syndexMachine.runBlock block ⟨.above (word.e3 :: top) caller, advice, (), storage⟩ := by
        simp only [syndexMachine, Machine.runBlock, step_drop]
      simp only [Except.bind, dropped]
      rw [Machine.runBlock_append_ok (increments word.e3)]
      refine (runBlock_prepared caller advice storage (prepared (word.e3 + 1))).trans ?_
      exact map_written (setItem storage (word.e3 + 1) Word.empty) _

private theorem runBlock_incrementNullifierCount :
    syndexMachine.runBlock incrementNullifierCount ⟨.above top caller, advice, (), storage⟩ =
      (incrementItem storage 4).map fun after => ⟨.above (4 :: top) caller, advice, (), after⟩ := by
  have increments : ∀ count, syndexMachine.runBlock [.push 1, .add]
      ⟨.above (count :: top) caller, advice, (), storage⟩ =
      .ok ⟨.above ((count + 1) :: top) caller, advice, (), storage⟩ := by
    intro count
    simp only [syndexMachine, Machine.runBlock, step_push, step_add]
  exact runBlock_incrementSlot caller advice storage top increments 4

private theorem runBlock_incrementParticipantCount :
    syndexMachine.runBlock incrementParticipantCount ⟨.above top caller, advice, (), storage⟩ =
      (incrementItem storage 3).map fun after => ⟨.above (3 :: top) caller, advice, (), after⟩ := by
  have increments : ∀ count, syndexMachine.runBlock [.addImm 1]
      ⟨.above (count :: top) caller, advice, (), storage⟩ =
      .ok ⟨.above ((count + 1) :: top) caller, advice, (), storage⟩ := by
    intro count
    simp only [syndexMachine, Machine.runBlock, step_addImm_one]
  exact runBlock_incrementSlot caller advice storage top increments 3

/-- The last element of slot 1 is compared. -/
private theorem runBlock_verifyInstitutionId (id p3 p2 p1 p0 : Felt) :
    syndexMachine.runBlock verifyInstitutionId
        ⟨.above (id :: p3 :: p2 :: p1 :: p0 :: top) caller, advice, (), storage⟩ =
      (getItem storage 1).bind fun registered =>
        if id = registered.e3 then .ok ⟨.above top caller, advice, (), storage⟩
        else .error .failedAssertion := by
  refine (runBlock_readSlot caller advice storage (id :: p3 :: p2 :: p1 :: p0 :: top) 1 _).trans ?_
  cases getItem storage 1 with
  | error failure => rfl
  | ok registered =>
      have lifted : syndexMachine.runBlock [.movUp 4, .movUp 4]
          ⟨.above (registered.e0 :: registered.e1 :: registered.e2 :: registered.e3 :: id :: p3 ::
            p2 :: p1 :: p0 :: top) caller, advice, (), storage⟩ =
          .ok ⟨.above (registered.e3 :: id :: registered.e0 :: registered.e1 :: registered.e2 ::
            p3 :: p2 :: p1 :: p0 :: top) caller, advice, (), storage⟩ := rfl
      refine (Machine.runBlock_append_ok lifted).trans ?_
      simp only [syndexMachine, Machine.runBlock, step_assertEq_above, Except.bind]
      by_cases same : id = registered.e3
      · simp only [if_pos same, step_drop, step_dropW]
      · simp only [if_neg same]

/-- Each turn of the fold lifts one element of the gradient onto the same cell. -/
private theorem runBlock_foldElements (elements : List Felt) (folded r1 r2 r3 : Felt) :
    syndexMachine.runBlock (elements.flatMap fun _ => [.movUp 4, .xor])
        ⟨.above (folded :: r1 :: r2 :: r3 :: (elements ++ top)) caller, advice, (), storage⟩ =
      (elements.foldlM xorElements folded).map fun result =>
        ⟨.above (result :: r1 :: r2 :: r3 :: top) caller, advice, (), storage⟩ := by
  induction elements generalizing folded with
  | nil => rfl
  | cons element rest inductionHypothesis =>
      have lifted : syndexMachine.runBlock [.movUp 4]
          ⟨.above (folded :: r1 :: r2 :: r3 :: element :: (rest ++ top)) caller, advice, (), storage⟩ =
          .ok ⟨.above (element :: folded :: r1 :: r2 :: r3 :: (rest ++ top)) caller, advice, (),
            storage⟩ := rfl
      rw [List.foldlM_cons]
      refine (Machine.runBlock_append_ok lifted).trans ?_
      have turned := step_xor_above (indexedEnvironment MerkleLibrary.empty) caller advice () storage
        (r1 :: r2 :: r3 :: (rest ++ top)) element folded
      refine (Machine.runBlock_cons_map turned _).trans ?_
      cases xorElements folded element with
      | error failure => rfl
      | ok result => exact inductionHypothesis result

private theorem runBlock_foldModelRoot (gradient : Word) :
    syndexMachine.runBlock foldModelRoot
        ⟨.above (gradient.toList ++ top) caller, advice, (), storage⟩ =
      (foldRoot storage gradient).map fun after => ⟨.above top caller, advice, (), after⟩ := by
  have prepared : ∀ folded r1 r2 r3 : Felt, syndexMachine.runBlock
      [.swap 3, .swap 1, .push 2, .movUp 4, .movUp 4, .movUp 4, .movUp 4]
      ⟨.above (folded :: r1 :: r2 :: r3 :: top) caller, advice, (), storage⟩ =
      .ok ⟨.above (r1 :: r3 :: r2 :: folded :: 2 :: top) caller, advice, (), storage⟩ :=
    fun _ _ _ _ => rfl
  show syndexMachine.runBlock (.push 2 :: .call .getItem ::
    ((gradient.toList.flatMap fun _ => [.movUp 4, .xor]) ++
      (.swap 3 :: .swap 1 :: .push 2 :: .movUp 4 :: .movUp 4 :: .movUp 4 :: .movUp 4 ::
        setItemAndDrop))) ⟨.above (gradient.toList ++ top) caller, advice, (), storage⟩ = _
  rw [runBlock_readSlot, foldRoot]
  cases getItem storage 2 with
  | error failure => rfl
  | ok root =>
      show syndexMachine.runBlock _ ⟨.above (root.e0 :: root.e1 :: root.e2 :: root.e3 ::
        (gradient.toList ++ top)) caller, advice, (), storage⟩ = _
      rw [Machine.runBlock_append, runBlock_foldElements]
      show _ = Except.map _ (gradient.toList.foldlM xorElements root.e0 >>= _)
      cases gradient.toList.foldlM xorElements root.e0 with
      | error failure => rfl
      | ok folded =>
          refine (runBlock_prepared caller advice storage (prepared folded _ _ _)).trans ?_
          exact map_written (setItem storage root.e1 ⟨root.e3, root.e2, folded, 2⟩) _

private theorem runBlock_readSubmission (gradient proof : Word) (id : Felt) :
    syndexMachine.runBlock readUpdate
        ⟨.above top caller, gradient.toList.reverse ++ proof.toList.reverse ++ id :: advice, (),
          storage⟩ =
      .ok ⟨.above (id :: proof.e0 :: proof.e1 :: proof.e2 :: proof.e3 :: (gradient.toList ++ top))
        caller, advice, (), storage⟩ := rfl

/-- `submit_gradient_update` on every stack, storage and tape of nine elements. -/
theorem runBlock_submitGradientUpdate (gradient proof : Word) (id : Felt) :
    syndexMachine.runBlock submitGradientUpdate
        ⟨caller, gradient.toList.reverse ++ proof.toList.reverse ++ id :: advice, (), storage⟩ =
      (submissionWrites storage gradient id).map fun after =>
        ⟨.above [3, 4] caller, advice, (), after⟩ := by
  change syndexMachine.runBlock submitGradientUpdate ⟨.above [] caller, _, (), storage⟩ = _
  simp only [submitGradientUpdate, Machine.runBlock_append, runBlock_debugStack, bind, Except.bind,
    runBlock_incrementNullifierCount, submissionWrites]
  cases incrementItem storage 4 with
  | error failure => rfl
  | ok counted =>
      simp only [Except.map, runBlock_readSubmission, runBlock_verifyInstitutionId, Except.bind]
      cases getItem counted 1 with
      | error failure => rfl
      | ok registered =>
          by_cases same : id = registered.e3
          · simp only [if_pos same, runBlock_foldModelRoot]
            cases foldRoot counted gradient with
            | error failure => rfl
            | ok updated =>
                simp only [Except.map, runBlock_incrementParticipantCount]
                cases incrementItem updated 3 <;> rfl
          · simp only [if_neg same]
            rfl

end Submission

end MidenWorkspace.Syndex
