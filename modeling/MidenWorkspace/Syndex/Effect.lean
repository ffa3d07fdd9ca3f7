import MidenWorkspace.Syndex.Registration

/-!
Contract: what a registration and a submission are documented to do to the
account, and on which inputs they do it.

Owns the documented effect of `register_institution` and `submit_gradient_update`,
as the comments of the contract and the docs page have it, what the two procedures
do instead, and the exact inputs on which both agree.

Neither procedure restores the caller's stack: each leaves two cells above it. So
they agree with their documentation only where it asks for an abort, and a
submission does not even abort on every wrong id: while the nullifier count is 0,
its increment clears slot 1, where the id is stored.
-/

namespace MidenWorkspace.Syndex

open Fin.CommRing
open MidenWorkspace.Vm
open MidenWorkspace.Protocol
open MidenWorkspace.Library.Structured

/-- Surplus cells are seen in the depth. -/
theorem above_ne (cell : Felt) (top : List Felt) (caller : OperandStack) :
    OperandStack.above (cell :: top) caller ≠ caller := by
  intro same
  have depth := congrArg OperandStack.depth same
  rw [OperandStack.above_depth, List.length_cons] at depth
  omega

/-! ### Registration -/

section Registration

variable (storage : Storage Felt) (caller : OperandStack) (a0 a1 a2 a3 id : Felt) (rest : List Felt)

/-- Schema hash at slot 0, id at slot 1, zeros at slots 2 and 3; nothing else
changes, and the caller's stack is restored. An id out of range aborts. -/
def RegistersAsDocumented : Prop :=
  let outcome := runCall storage ⟨.registerInstitution, caller, a0 :: a1 :: a2 :: a3 :: id :: rest⟩
  (0 < id.val ∧ id.val < 1000000 →
    ∃ after, outcome = .ok ⟨caller, rest, (), after⟩ ∧
      getItem after 0 = .ok ⟨a3, a2, a1, a0⟩ ∧ getItem after 1 = .ok ⟨0, 0, 0, id⟩ ∧
      getItem after 2 = .ok Word.empty ∧ getItem after 3 = .ok Word.empty ∧
      ∀ slot, slot ∉ [0, 1, 2, 3] → after slot = storage slot) ∧
  (id.val = 0 ∨ 1000000 ≤ id.val → ∃ failure, outcome = .error failure)

/-- What a registration leaves: slots 0, 1 and 2 are cleared. -/
def clearedStorage : Storage Felt :=
  fun slot => if slot ∈ [0, 1, 2] then some ⟨.value, Word.empty⟩ else storage slot

variable {storage} in
theorem registrationWrites_eq_cleared (slots : RegistrationSlots storage) :
    registrationWrites storage id a0 a2 a3 = .ok (clearedStorage storage) := by
  obtain ⟨after, written⟩ := (registrationWrites_completes_iff storage id a0 a2 a3).mpr slots
  rw [written]
  obtain ⟨⟨_, first⟩, wroteFirst, written⟩ := bind_eq_ok_iff.mp written
  obtain ⟨⟨_, second⟩, wroteSecond, written⟩ := bind_eq_ok_iff.mp written
  obtain ⟨⟨_, third⟩, wroteThird, written⟩ := bind_eq_ok_iff.mp written
  obtain ⟨⟨_, fourth⟩, wroteFourth, written⟩ := bind_eq_ok_iff.mp written
  cases written
  obtain ⟨-, rfl⟩ := setItem_ok_iff.mp wroteFirst
  obtain ⟨-, rfl⟩ := setItem_ok_iff.mp wroteSecond
  obtain ⟨-, rfl⟩ := setItem_ok_iff.mp wroteThird
  obtain ⟨-, rfl⟩ := setItem_ok_iff.mp wroteFourth
  -- the second write to slot 0 covers the first
  refine congrArg Except.ok (funext fun slot => ?_)
  by_cases zero : slot = 0
  · simp [clearedStorage, zero]
  by_cases two : slot = 2
  · simp [clearedStorage, two]
  by_cases one : slot = 1
  · simp [clearedStorage, one]
  · simp [clearedStorage, zero, one, two]

variable {storage id} in
/-- What a registration does: it clears slots 0, 1 and 2, leaves slot 3 alone, and
returns with the last index and one element of the hash above the caller's stack. -/
theorem runCall_registerInstitution (slots : RegistrationSlots storage)
    (inRange : 0 < id.val ∧ id.val < 1000000) :
    runCall storage ⟨.registerInstitution, caller, a0 :: a1 :: a2 :: a3 :: id :: rest⟩ =
      .ok ⟨.above [3, a1] caller, rest, (), clearedStorage storage⟩ := by
  refine (runBlock_registerInstitution caller rest storage a0 a1 a2 a3 id).trans ?_
  rw [if_pos ((inRange_iff id).mpr inRange), registrationWrites_eq_cleared a0 a2 a3 id slots]
  rfl

/-- A registration does what is documented exactly where an abort is. -/
theorem registersAsDocumented_iff :
    RegistersAsDocumented storage caller a0 a1 a2 a3 id rest ↔ id.val = 0 ∨ 1000000 ≤ id.val := by
  have ran : runCall storage ⟨.registerInstitution, caller, a0 :: a1 :: a2 :: a3 :: id :: rest⟩ = _ :=
    runBlock_registerInstitution caller rest storage a0 a1 a2 a3 id
  by_cases inRange : 0 < id.val ∧ id.val < 1000000
  · rw [if_pos ((inRange_iff id).mpr inRange)] at ran
    refine iff_of_false ?_ (by omega)
    intro documented
    obtain ⟨after, completed, -⟩ := documented.1 inRange
    rw [ran] at completed
    cases written : registrationWrites storage id a0 a2 a3 with
    | error failure =>
        rw [written] at completed
        cases completed
    | ok reached =>
        rw [written] at completed
        have sameStack := congrArg State.stack (Except.ok.inj completed)
        exact above_ne 3 [a1] caller sameStack
  · rw [if_neg (mt (inRange_iff id).mp inRange)] at ran
    refine iff_of_true ⟨fun within => absurd within inRange, fun _ => ⟨_, ran⟩⟩ (by omega)

/-- Registering institution 42 on a fresh account stores neither the hash nor the
id. -/
theorem registerInstitution_stores_nothing :
    let storage : Storage Felt := fun _ => some ⟨.value, Word.empty⟩
    ∃ final, runCall storage ⟨.registerInstitution, .zeros, [1, 2, 3, 4, 42]⟩ = .ok final ∧
      final.stack.depth = 18 ∧ getItem final.storage 0 = .ok Word.empty ∧
      getItem final.storage 1 = .ok Word.empty ∧
      ¬ RegistersAsDocumented storage .zeros 1 2 3 4 42 [] := by
  intro storage
  have slots : RegistrationSlots storage := ⟨⟨_, rfl⟩, ⟨_, rfl⟩, ⟨_, rfl⟩⟩
  have ran := runCall_registerInstitution .zeros 1 2 3 4 [] slots (show 0 < (42 : Felt).val ∧ _ by decide)
  refine ⟨_, ran, by decide, rfl, rfl, ?_⟩
  intro documented
  obtain ⟨after, completed, -⟩ := documented.1 (by decide)
  rw [ran] at completed
  exact above_ne 3 [2] .zeros (congrArg State.stack (Except.ok.inj completed))

end Registration

/-! ### Submission -/

/-- Element by element, on canonical representatives. -/
def xorWord (first second : Word) : Word :=
  ⟨.new (first.e0.val ^^^ second.e0.val), .new (first.e1.val ^^^ second.e1.val),
    .new (first.e2.val ^^^ second.e2.val), .new (first.e3.val ^^^ second.e3.val)⟩

section Writes

variable {storage after : Storage Felt} {slot : Felt} {word gradient root : Word}

theorem incrementItem_eq_ok_iff (read : getItem storage slot = .ok word) :
    incrementItem storage slot = .ok after ↔
      ∃ old, setItem storage (word.e3 + 1) Word.empty = .ok (old, after) := by
  rw [incrementItem, read]
  show setItem storage (word.e3 + 1) Word.empty >>= _ = _ ↔ _
  rw [bind_eq_ok_iff]
  constructor
  · rintro ⟨⟨old, reached⟩, written, same⟩
    cases same
    exact ⟨old, written⟩
  · rintro ⟨old, written⟩
    exact ⟨⟨old, after⟩, written, rfl⟩

theorem foldRoot_eq_ok_iff (read : getItem storage 2 = .ok root) :
    foldRoot storage gradient = .ok after ↔
      ∃ folded old, gradient.toList.foldlM xorElements root.e0 = .ok folded ∧
        setItem storage root.e1 ⟨root.e3, root.e2, folded, 2⟩ = .ok (old, after) := by
  rw [foldRoot, read]
  show gradient.toList.foldlM xorElements root.e0 >>= _ = _ ↔ _
  rw [bind_eq_ok_iff]
  constructor
  · rintro ⟨folded, combined, written⟩
    obtain ⟨⟨old, reached⟩, written, same⟩ := bind_eq_ok_iff.mp written
    cases same
    exact ⟨folded, old, combined, written⟩
  · rintro ⟨folded, old, combined, written⟩
    exact ⟨folded, combined, bind_eq_ok_iff.mpr ⟨⟨old, after⟩, written, rfl⟩⟩

theorem submissionWrites_eq_ok_iff {id : Felt} :
    submissionWrites storage gradient id = .ok after ↔
      ∃ counted registered updated, incrementItem storage 4 = .ok counted ∧
        getItem counted 1 = .ok registered ∧ id = registered.e3 ∧
        foldRoot counted gradient = .ok updated ∧ incrementItem updated 3 = .ok after := by
  unfold submissionWrites
  rw [bind_eq_ok_iff]
  constructor
  · rintro ⟨counted, incremented, written⟩
    obtain ⟨registered, read, written⟩ := bind_eq_ok_iff.mp written
    by_cases same : id = registered.e3
    · rw [if_pos same] at written
      obtain ⟨updated, folded, written⟩ := bind_eq_ok_iff.mp written
      exact ⟨counted, registered, updated, incremented, read, same, folded, written⟩
    · rw [if_neg same] at written
      cases written
  · rintro ⟨counted, registered, updated, incremented, read, same, folded, written⟩
    refine ⟨counted, incremented, bind_eq_ok_iff.mpr ⟨registered, read, ?_⟩⟩
    rw [if_pos same]
    exact bind_eq_ok_iff.mpr ⟨updated, folded, written⟩

end Writes

section Submission

/-- The state of the account and the parts of the tape that a submission reads. -/
structure SubmissionInput where
  storage : Storage Felt
  caller : OperandStack
  storedId : Felt
  root : Word
  count : Felt
  nullifiers : Felt
  slotOne : getItem storage 1 = .ok ⟨0, 0, 0, storedId⟩
  slotTwo : getItem storage 2 = .ok root
  slotThree : getItem storage 3 = .ok ⟨0, 0, 0, count⟩
  slotFour : getItem storage 4 = .ok ⟨0, 0, 0, nullifiers⟩
  gradient : Word
  proof : Word
  id : Felt
  rest : List Felt

namespace SubmissionInput

variable (input : SubmissionInput)

/-- Words lie on the tape with the element first that comes to lie deepest. -/
def call : SyndexCall :=
  ⟨.submitGradientUpdate, input.caller,
    input.gradient.toList.reverse ++ input.proof.toList.reverse ++ input.id :: input.rest⟩

/-- The gradient is folded into the root and both counts go up by one; nothing else
changes, and the caller's stack is restored. A foreign id aborts. -/
def UpdatesAsDocumented : Prop :=
  (input.id = input.storedId →
    ∃ after, runCall input.storage input.call = .ok ⟨input.caller, input.rest, (), after⟩ ∧
      getItem after 2 = .ok (xorWord input.root input.gradient) ∧
      getItem after 3 = .ok ⟨0, 0, 0, input.count + 1⟩ ∧
      getItem after 4 = .ok ⟨0, 0, 0, input.nullifiers + 1⟩ ∧
      ∀ slot, slot ∉ [2, 3, 4] → after slot = input.storage slot) ∧
  (input.id ≠ input.storedId → ∃ failure, runCall input.storage input.call = .error failure)

/-- With no nullifier yet, slot 1 is cleared before the id is read from it, so that
the id 0 passes; the rest of the call then goes through if the elements that meet
in the fold are flags and the values taken for indices name value slots. -/
def PassesWithZeroId : Prop :=
  input.nullifiers = 0 ∧ input.id = 0 ∧ IsValueSlot input.storage 1 ∧
    (∀ element ∈ input.root.e0 :: input.gradient.toList, IsFlag element) ∧
    IsValueSlot input.storage input.root.e1 ∧
    IsValueSlot input.storage ((if input.root.e1 = 3 then 2 else input.count) + 1)

theorem runCall_eq :
    runCall input.storage input.call =
      (submissionWrites input.storage input.gradient input.id).map fun after =>
        ⟨.above [3, 4] input.caller, input.rest, (), after⟩ :=
  runBlock_submitGradientUpdate input.caller input.rest input.storage input.gradient input.proof
    input.id

/-- The participant count is overwritten if the root names slot 3. -/
theorem readCount {counted updated : Storage Felt} {folded : Felt} {cleared old : Word}
    (clears : setItem input.storage 1 Word.empty = .ok (cleared, counted))
    (writes : setItem counted input.root.e1 ⟨input.root.e3, input.root.e2, folded, 2⟩ =
      .ok (old, updated)) :
    ∃ word, getItem updated 3 = .ok word ∧
      word.e3 = if input.root.e1 = 3 then 2 else input.count := by
  by_cases same : input.root.e1 = 3
  · rw [if_pos same]
    rw [same] at writes
    exact ⟨_, getItem_of_setItem_self writes, rfl⟩
  · rw [if_neg same]
    refine ⟨⟨0, 0, 0, input.count⟩, ?_, rfl⟩
    rw [getItem_of_setItem_of_ne writes (Ne.symm same),
      getItem_of_setItem_of_ne clears (show (3 : Felt) ≠ 1 by decide)]
    exact input.slotThree

/-- After slot 1 has been cleared and the id has passed. -/
theorem foldAndCount_completes_iff {counted : Storage Felt} {cleared : Word}
    (clears : setItem input.storage 1 Word.empty = .ok (cleared, counted)) :
    (∃ updated after, foldRoot counted input.gradient = .ok updated ∧
      incrementItem updated 3 = .ok after) ↔
      (∀ element ∈ input.root.e0 :: input.gradient.toList, IsFlag element) ∧
      IsValueSlot input.storage input.root.e1 ∧
      IsValueSlot input.storage ((if input.root.e1 = 3 then 2 else input.count) + 1) := by
  have readRoot : getItem counted 2 = .ok input.root := by
    rw [getItem_of_setItem_of_ne clears (show (2 : Felt) ≠ 1 by decide)]
    exact input.slotTwo
  have flags_iff := foldlM_xorElements_completes_iff input.gradient.e0
    [input.gradient.e1, input.gradient.e2, input.gradient.e3] input.root.e0
  have sameKind := isValueSlot_of_setItem clears
  constructor
  · rintro ⟨updated, after, folds, increments⟩
    obtain ⟨folded, old, combined, writes⟩ := (foldRoot_eq_ok_iff readRoot).mp folds
    obtain ⟨word, read, last⟩ := input.readCount clears writes
    obtain ⟨previous, clearsLast⟩ := (incrementItem_eq_ok_iff read).mp increments
    rw [last] at clearsLast
    refine ⟨flags_iff.mp ⟨folded, combined⟩, ?_, ?_⟩
    · exact (sameKind _).mp ((setItem_completes_iff _).mp ⟨_, writes⟩)
    · exact (sameKind _).mp ((isValueSlot_of_setItem writes _).mp
        ((setItem_completes_iff _).mp ⟨_, clearsLast⟩))
  · rintro ⟨flags, indexSlot, lastSlot⟩
    obtain ⟨folded, combined⟩ := flags_iff.mpr flags
    obtain ⟨⟨old, updated⟩, writes⟩ := (setItem_completes_iff
      ⟨input.root.e3, input.root.e2, folded, 2⟩).mpr ((sameKind _).mpr indexSlot)
    obtain ⟨word, read, last⟩ := input.readCount clears writes
    rw [← last] at lastSlot
    obtain ⟨⟨previous, after⟩, clearsLast⟩ := (setItem_completes_iff Word.empty).mpr
      ((isValueSlot_of_setItem writes _).mpr ((sameKind _).mpr lastSlot))
    exact ⟨updated, after, (foldRoot_eq_ok_iff readRoot).mpr ⟨folded, old, combined, writes⟩,
      (incrementItem_eq_ok_iff read).mpr ⟨previous, clearsLast⟩⟩

/-- A foreign id passes exactly if it is 0 and slot 1 has just been cleared. -/
theorem completes_iff_of_foreign (foreign : input.id ≠ input.storedId) :
    (∃ after, submissionWrites input.storage input.gradient input.id = .ok after) ↔
      input.PassesWithZeroId := by
  constructor
  · rintro ⟨after, written⟩
    obtain ⟨counted, registered, updated, increments, read, same, folds, increments'⟩ :=
      submissionWrites_eq_ok_iff.mp written
    obtain ⟨old, clears⟩ := (incrementItem_eq_ok_iff input.slotFour).mp increments
    change setItem input.storage (input.nullifiers + 1) Word.empty = .ok (old, counted) at clears
    by_cases first : input.nullifiers + 1 = 1
    · rw [first] at clears
      cases (getItem_of_setItem_self clears).symm.trans read
      refine ⟨add_eq_right.mp first, same, (setItem_completes_iff _).mp ⟨_, clears⟩, ?_⟩
      exact (input.foldAndCount_completes_iff clears).mp ⟨updated, after, folds, increments'⟩
    · -- slot 1 still holds the stored id
      rw [getItem_of_setItem_of_ne clears (Ne.symm first), input.slotOne] at read
      cases read
      exact absurd same foreign
  · rintro ⟨none, zero, slot, others⟩
    obtain ⟨⟨old, counted⟩, clears⟩ := (setItem_completes_iff Word.empty).mpr slot
    obtain ⟨updated, after, folds, increments⟩ := (input.foldAndCount_completes_iff clears).mpr others
    refine ⟨after, submissionWrites_eq_ok_iff.mpr ⟨counted, Word.empty, updated, ?_,
      getItem_of_setItem_self clears, zero, folds, increments⟩⟩
    apply (incrementItem_eq_ok_iff input.slotFour).mpr
    refine ⟨old, ?_⟩
    show setItem input.storage (input.nullifiers + 1) Word.empty = _
    rw [none, zero_add]
    exact clears

/-- A submission does what is documented exactly if the id is foreign and the call
does not let it pass. -/
theorem updatesAsDocumented_iff :
    input.UpdatesAsDocumented ↔ input.id ≠ input.storedId ∧ ¬ input.PassesWithZeroId := by
  have ran := input.runCall_eq
  by_cases foreign : input.id ≠ input.storedId
  · rw [← input.completes_iff_of_foreign foreign, and_iff_right foreign]
    constructor
    · rintro documented ⟨after, written⟩
      obtain ⟨failure, aborted⟩ := documented.2 foreign
      rw [ran, written] at aborted
      cases aborted
    · intro stuck
      refine ⟨fun own => absurd own foreign, fun _ => ?_⟩
      cases written : submissionWrites input.storage input.gradient input.id with
      | error failure =>
          rw [written] at ran
          exact ⟨failure, ran⟩
      | ok after => exact absurd ⟨after, written⟩ stuck
  · refine iff_of_false ?_ fun both => foreign both.1
    intro documented
    obtain ⟨after, completed, -⟩ := documented.1 (not_ne_iff.mp foreign)
    rw [ran] at completed
    cases written : submissionWrites input.storage input.gradient input.id with
    | error failure =>
        rw [written] at completed
        cases completed
    | ok reached =>
        rw [written] at completed
        exact above_ne 3 [4] input.caller (congrArg State.stack (Except.ok.inj completed))

/-- The first submission to an account of institution 42, with any id on the tape. -/
def firstOf42 (id : Felt) : SubmissionInput where
  storage := fun slot => some ⟨.value, if slot = 1 then ⟨0, 0, 0, 42⟩ else Word.empty⟩
  caller := .zeros
  storedId := 42
  root := Word.empty
  count := 0
  nullifiers := 0
  slotOne := rfl
  slotTwo := rfl
  slotThree := rfl
  slotFour := rfl
  gradient := ⟨1, 0, 1, 1⟩
  proof := Word.empty
  id
  rest := []

/-- It is refused to institution 42 and granted to institution 0. -/
theorem submitGradientUpdate_refuses_own_id :
    runCall (firstOf42 42).storage (firstOf42 42).call = .error .failedAssertion ∧
      ¬ (firstOf42 42).UpdatesAsDocumented ∧
      (∃ final, runCall (firstOf42 0).storage (firstOf42 0).call = .ok final) ∧
      ¬ (firstOf42 0).UpdatesAsDocumented := by
  have refused : runCall (firstOf42 42).storage (firstOf42 42).call = .error .failedAssertion := by
    rw [runCall_eq]
    rfl
  have granted : ∃ final, runCall (firstOf42 0).storage (firstOf42 0).call = .ok final := by
    have passes : (firstOf42 0).PassesWithZeroId :=
      ⟨rfl, rfl, ⟨_, rfl⟩, by simp [firstOf42, Word.toList, Word.empty, IsFlag], ⟨_, rfl⟩, ⟨_, rfl⟩⟩
    obtain ⟨after, written⟩ := ((firstOf42 0).completes_iff_of_foreign (by decide)).mpr passes
    rw [runCall_eq, written]
    exact ⟨_, rfl⟩
  refine ⟨refused, ?_, granted, ?_⟩
  · intro documented
    obtain ⟨after, completed, -⟩ := documented.1 rfl
    cases refused.symm.trans completed
  · intro documented
    obtain ⟨failure, aborted⟩ := documented.2 (by decide)
    obtain ⟨final, completed⟩ := granted
    cases aborted.symm.trans completed

end SubmissionInput

end Submission

end MidenWorkspace.Syndex
