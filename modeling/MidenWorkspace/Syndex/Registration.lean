import MidenWorkspace.Syndex.Contract

/-!
Contract: registration over whole runs of calls on one account.

Owns:
- calls of the three procedures, each with a stack and a tape of its own, and the
  storage they leave; a call that aborts leaves the storage as it was;
- exactly when a registration completes;
- exactly which runs register at most once.

Nothing that `register_institution` checks depends on an earlier registration.
It asserts the range of the id and writes to slots 0, 1 and 2; whether those
exist and take values is fixed for the life of the account.
-/

namespace MidenWorkspace.Syndex

open Fin.CommRing
open MidenWorkspace.Vm
open MidenWorkspace.Protocol
open MidenWorkspace.Library.Structured

inductive SyndexProcedure where
  | registerInstitution
  | submitGradientUpdate
  | pullModel
deriving DecidableEq, Repr

def SyndexProcedure.body : SyndexProcedure → List SyndexInstruction
  | .registerInstitution => Syndex.registerInstitution
  | .submitGradientUpdate => Syndex.submitGradientUpdate
  | .pullModel => Syndex.pullModel

structure SyndexCall where
  procedure : SyndexProcedure
  stack : OperandStack
  tape : List Felt

def runCall (storage : Storage Felt) (call : SyndexCall) : Except ExecutionError SyndexState :=
  syndexMachine.runBlock call.procedure.body ⟨call.stack, call.tape, (), storage⟩

/-- The storage after a call: an aborted transaction changes nothing. -/
def storageAfter (storage : Storage Felt) (call : SyndexCall) : Storage Felt :=
  match runCall storage call with
  | .ok final => final.storage
  | .error _ => storage

def storageAfterAll (storage : Storage Felt) (calls : List SyndexCall) : Storage Felt :=
  calls.foldl storageAfter storage

theorem aborts_of_not_completes {storage : Storage Felt} {call : SyndexCall}
    (stuck : ¬ ∃ final, runCall storage call = .ok final) :
    (∃ failure, runCall storage call = .error failure) ∧ storageAfter storage call = storage := by
  unfold storageAfter
  cases ran : runCall storage call with
  | error failure => exact ⟨⟨failure, rfl⟩, rfl⟩
  | ok final => exact absurd ⟨final, ran⟩ stuck

/-- Once a registration has completed, every later one aborts and leaves the
storage alone. -/
def RegistersOnce (storage : Storage Felt) (calls : List SyndexCall) : Prop :=
  ∀ before first between second after,
    calls = before ++ first :: (between ++ second :: after) →
    first.procedure = .registerInstitution →
    (∃ final, runCall (storageAfterAll storage before) first = .ok final) →
    second.procedure = .registerInstitution →
    let reached := storageAfterAll storage (before ++ first :: between)
    (∃ failure, runCall reached second = .error failure) ∧ storageAfter reached second = reached

/-! ### When a registration completes -/

/-- A tape with a schema hash and an id in range. -/
def AdmissibleTape (tape : List Felt) : Prop :=
  5 ≤ tape.length ∧ 0 < (tape.getD 4 0).val ∧ (tape.getD 4 0).val < 1000000

instance (tape : List Felt) : Decidable (AdmissibleTape tape) :=
  inferInstanceAs (Decidable (_ ∧ _ ∧ _))

theorem inRange_iff (id : Felt) : 0 < id ∧ id < 1000000 ↔ 0 < id.val ∧ id.val < 1000000 := by
  have limit : (1000000 : Felt).val = 1000000 := by decide
  rw [Fin.lt_def, Fin.lt_def, limit]
  rfl

private theorem admissibleTape_cons (a0 a1 a2 a3 id : Felt) (rest : List Felt) :
    AdmissibleTape (a0 :: a1 :: a2 :: a3 :: id :: rest) ↔ 0 < id ∧ id < 1000000 := by
  rw [inRange_iff]
  simp only [AdmissibleTape, List.length_cons, List.getD_cons_succ, List.getD_cons_zero]
  omega

/-- The slots that a registration writes to take values. -/
def RegistrationSlots (storage : Storage Felt) : Prop :=
  IsValueSlot storage 0 ∧ IsValueSlot storage 1 ∧ IsValueSlot storage 2

theorem registrationWrites_completes_iff (storage : Storage Felt) (id a0 a2 a3 : Felt) :
    (∃ after, registrationWrites storage id a0 a2 a3 = .ok after) ↔ RegistrationSlots storage := by
  constructor
  · rintro ⟨after, written⟩
    obtain ⟨⟨_, first⟩, wroteFirst, written⟩ := bind_eq_ok_iff.mp written
    obtain ⟨⟨_, second⟩, wroteSecond, written⟩ := bind_eq_ok_iff.mp written
    obtain ⟨⟨_, third⟩, wroteThird, -⟩ := bind_eq_ok_iff.mp written
    refine ⟨(setItem_completes_iff _).mp ⟨_, wroteFirst⟩, ?_, ?_⟩
    · exact (isValueSlot_of_setItem wroteFirst 1).mp ((setItem_completes_iff _).mp ⟨_, wroteSecond⟩)
    · exact (isValueSlot_of_setItem wroteFirst 2).mp ((isValueSlot_of_setItem wroteSecond 2).mp
        ((setItem_completes_iff _).mp ⟨_, wroteThird⟩))
  · rintro ⟨zero, one, two⟩
    obtain ⟨⟨_, first⟩, wroteFirst⟩ := (setItem_completes_iff ⟨id, a3, a0, a2⟩).mpr zero
    have oneFirst := (isValueSlot_of_setItem wroteFirst 1).mpr one
    obtain ⟨⟨_, second⟩, wroteSecond⟩ := (setItem_completes_iff Word.empty).mpr oneFirst
    have twoSecond := (isValueSlot_of_setItem wroteSecond 2).mpr
      ((isValueSlot_of_setItem wroteFirst 2).mpr two)
    obtain ⟨⟨_, third⟩, wroteThird⟩ := (setItem_completes_iff Word.empty).mpr twoSecond
    have zeroThird := (isValueSlot_of_setItem wroteThird 0).mpr
      ((isValueSlot_of_setItem wroteSecond 0).mpr ((isValueSlot_of_setItem wroteFirst 0).mpr zero))
    obtain ⟨⟨_, fourth⟩, wroteFourth⟩ := (setItem_completes_iff Word.empty).mpr zeroThird
    exact ⟨fourth, by
      simp only [registrationWrites, wroteFirst, wroteSecond, wroteThird, wroteFourth, bind,
        Except.bind, pure, Except.pure]⟩

/-- A registration completes on an admissible tape, whatever was registered
before. -/
theorem registerInstitution_completes_iff (storage : Storage Felt) (stack : OperandStack)
    (tape : List Felt) :
    (∃ final, runCall storage ⟨.registerInstitution, stack, tape⟩ = .ok final) ↔
      AdmissibleTape tape ∧ RegistrationSlots storage := by
  match tape with
  | a0 :: a1 :: a2 :: a3 :: id :: rest =>
      have ran : runCall storage ⟨.registerInstitution, stack, a0 :: a1 :: a2 :: a3 :: id :: rest⟩ =
        _ := runBlock_registerInstitution stack rest storage a0 a1 a2 a3 id
      rw [ran, admissibleTape_cons, ← registrationWrites_completes_iff storage id a0 a2 a3]
      by_cases accepted : 0 < id ∧ id < 1000000
      · rw [if_pos accepted]
        cases registrationWrites storage id a0 a2 a3 with
        | error failure => simp [Except.map]
        | ok after => simp [Except.map, accepted]
      · rw [if_neg accepted]
        simp only [reduceCtorEq, exists_false, accepted, false_and]
  | [] | [_] | [_, _] | [_, _, _] | [_, _, _, _] =>
      refine iff_of_false ?_ (by simp [AdmissibleTape])
      rintro ⟨final, ran⟩
      cases ran.symm.trans (runBlock_registerInstitution_short stack _ storage (by simp))

/-! ### Runs -/

/-- No call changes which slots take values. -/
theorem storageAfter_isValueSlot (storage : Storage Felt) (call : SyndexCall) (slot : Felt) :
    IsValueSlot (storageAfter storage call) slot ↔ IsValueSlot storage slot := by
  unfold storageAfter
  cases ran : runCall storage call with
  | error failure => rfl
  | ok final =>
      exact completes_storage (fun reached => IsValueSlot reached slot ↔ IsValueSlot storage slot)
        (fun kept called => (indexedEnvironment_isValueSlot MerkleLibrary.empty slot called).trans kept)
        Iff.rfl (Machine.yields_block_iff.mpr ran)

theorem storageAfterAll_registrationSlots (storage : Storage Felt) (calls : List SyndexCall) :
    RegistrationSlots (storageAfterAll storage calls) ↔ RegistrationSlots storage := by
  unfold storageAfterAll
  induction calls generalizing storage with
  | nil => rfl
  | cons call rest inductionHypothesis =>
      rw [List.foldl_cons, inductionHypothesis]
      simp only [RegistrationSlots, storageAfter_isValueSlot]

/-- The call is a registration with an admissible tape. -/
def AdmissibleRegistration (call : SyndexCall) : Prop :=
  call.procedure = .registerInstitution ∧ AdmissibleTape call.tape

instance (call : SyndexCall) : Decidable (AdmissibleRegistration call) :=
  inferInstanceAs (Decidable (_ ∧ _))

/-- On an account with the registration slots, the registrations that complete
are the admissible ones, at every point of every run. -/
theorem registration_completes_iff {storage : Storage Felt} (slots : RegistrationSlots storage)
    (before : List SyndexCall) {call : SyndexCall}
    (registration : call.procedure = .registerInstitution) :
    (∃ final, runCall (storageAfterAll storage before) call = .ok final) ↔
      AdmissibleTape call.tape := by
  obtain ⟨procedure, stack, tape⟩ := call
  obtain rfl : procedure = .registerInstitution := registration
  rw [registerInstitution_completes_iff, storageAfterAll_registrationSlots]
  exact and_iff_left slots

theorem registration_aborts {storage : Storage Felt} (slots : ¬ RegistrationSlots storage)
    (before : List SyndexCall) {call : SyndexCall}
    (registration : call.procedure = .registerInstitution) :
    ¬ ∃ final, runCall (storageAfterAll storage before) call = .ok final := by
  obtain ⟨procedure, stack, tape⟩ := call
  obtain rfl : procedure = .registerInstitution := registration
  rw [registerInstitution_completes_iff, storageAfterAll_registrationSlots]
  exact fun both => slots both.2

/-- Two elements of a list satisfy a predicate exactly if the list can be cut
around them. -/
private theorem two_le_length_filter_iff {α : Type} (p : α → Bool) (l : List α) :
    2 ≤ (l.filter p).length ↔
      ∃ before x between y after, l = before ++ x :: (between ++ y :: after) ∧ p x ∧ p y := by
  constructor
  · intro two
    match kept : l.filter p, two with
    | x :: y :: rest, _ =>
        obtain ⟨before, tail, rfl, -, holdsFirst, keptTail⟩ := List.filter_eq_cons_iff.mp kept
        obtain ⟨between, after, rfl, -, holdsSecond, -⟩ := List.filter_eq_cons_iff.mp keptTail
        exact ⟨before, x, between, y, after, rfl, holdsFirst, holdsSecond⟩
  · rintro ⟨before, x, between, y, after, rfl, holdsFirst, holdsSecond⟩
    simp only [List.filter_append, List.filter_cons_of_pos holdsFirst,
      List.filter_cons_of_pos holdsSecond, List.length_append, List.length_cons]
    omega

/-- A run registers at most once exactly if the account lacks a slot that a
registration writes, or at most one registration of the run is admissible. -/
theorem registersOnce_iff (storage : Storage Felt) (calls : List SyndexCall) :
    RegistersOnce storage calls ↔
      ¬ RegistrationSlots storage ∨
        (calls.filter fun call => decide (AdmissibleRegistration call)).length ≤ 1 := by
  by_cases slots : RegistrationSlots storage
  · have notTwo : (calls.filter fun call => decide (AdmissibleRegistration call)).length ≤ 1 ↔
        ¬ 2 ≤ (calls.filter fun call => decide (AdmissibleRegistration call)).length := by
      omega
    rw [notTwo, two_le_length_filter_iff]
    simp only [slots, not_true_eq_false, false_or, decide_eq_true_eq]
    constructor
    · rintro once ⟨before, first, between, second, after, cut, ⟨isFirst, tapeFirst⟩,
        isSecond, tapeSecond⟩
      obtain ⟨⟨failure, aborted⟩, -⟩ := once before first between second after cut isFirst
        ((registration_completes_iff slots before isFirst).mpr tapeFirst) isSecond
      obtain ⟨final, completed⟩ :=
        (registration_completes_iff slots (before ++ first :: between) isSecond).mpr tapeSecond
      cases aborted.symm.trans completed
    · intro notTwice before first between second after cut isFirst completed isSecond
      have tapeFirst := (registration_completes_iff slots before isFirst).mp completed
      have refused : ¬ AdmissibleTape second.tape := fun tapeSecond =>
        notTwice ⟨before, first, between, second, after, cut, ⟨isFirst, tapeFirst⟩,
          isSecond, tapeSecond⟩
      rw [← registration_completes_iff slots (before ++ first :: between) isSecond] at refused
      exact aborts_of_not_completes refused
  · refine iff_of_true ?_ (.inl slots)
    intro before first between second after cut isFirst completed
    exact absurd completed (registration_aborts slots before isFirst)

/-- A second registration completes as the first one did. -/
theorem registerInstitution_twice :
    let call : SyndexCall := ⟨.registerInstitution, .zeros, [1, 2, 3, 4, 42]⟩
    let storage : Storage Felt := fun _ => some ⟨.value, Word.empty⟩
    (∃ final, runCall storage call = .ok final) ∧
      ∃ final, runCall (storageAfter storage call) call = .ok final := by
  intro call storage
  have admissible : AdmissibleTape call.tape := by decide
  have slots : RegistrationSlots storage := ⟨⟨_, rfl⟩, ⟨_, rfl⟩, ⟨_, rfl⟩⟩
  exact ⟨(registration_completes_iff slots [] rfl).mpr admissible,
    (registration_completes_iff slots [call] rfl).mpr admissible⟩

end MidenWorkspace.Syndex
