import Mathlib.Algebra.BigOperators.Group.List.Basic
import MidenWorkspace.Protocol.AccountStorage
import MidenWorkspace.Vm.Comparison

/-!
Contract: the procedures of `sealed_account.masm` and what the scoring loop
computes.

Owns:
- the three exported procedures, instruction by instruction;
- the credentials that the scorer reads off an advice tape;
- the state at the loop's test after any number of turns, on every caller stack;
- the outcome of `compute_reputation_score` and of `prove_threshold` on every
  caller stack and every tape.

The scorer reads `count` first and the current time second. Its flag compares
`timestamp - now`, taken in the field, with the length of a year, and
`prove_threshold` asserts that the threshold is at least the total: both follow
the operand order of `sub` and `gte`, not the comments beside them.
-/

namespace MidenWorkspace.Sealed

open Fin.CommRing
open MidenWorkspace.Vm
open MidenWorkspace.Protocol
open MidenWorkspace.Library.Structured

/-! ### Procedures -/

def issueCredential : List (Instruction KernelProcedure) :=
  [.padW, .advPushW] ++
  [.push 0] ++ activeGetItem ++
  -- leaf index, then tree depth
  [.advPush, .advPush,
    .movUp 9, .movUp 9, .movUp 9, .movUp 9,
    .movUp 5, .movDn 4,
    .mtreeSet,
    .dropW] ++
  [.push 0] ++ nativeSetItem ++
  [.dropW]

/-- The 365-day window in seconds. -/
def yearSeconds : Felt := 31536000

def scoreLoopBody : List (Instruction KernelProcedure) :=
  [.advPush, .advPush, .advPush,
    .dup 4, .sub,
    .push yearSeconds, .gte,
    .swap 2, .swap 1, .mul, .mul,
    .movUp 3, .add,
    .movDn 2,
    .subImm 1, .dup 0, .eqImm 0, .not]

def computeReputationScore : Code (Instruction KernelProcedure) :=
  .seq (.block [.push 0, .advPush, .advPush, .swap 1, .dup 0, .eqImm 0, .not])
    (.seq (.whileTrue (.block scoreLoopBody)) (.block [.drop, .drop]))

def proveThreshold : Code (Instruction KernelProcedure) :=
  .seq computeReputationScore (.block [.gte, .assert])

/-! ### Credentials on the tape -/

/-- What the scorer reads for one credential. -/
structure AdviceCredential where
  score : Felt
  weight : Felt
  timestamp : Felt
deriving DecidableEq, Repr

def AdviceCredential.toList (credential : AdviceCredential) : List Felt :=
  [credential.score, credential.weight, credential.timestamp]

/-- The next `count` credentials of a tape and the tape behind them. -/
def readCredentials : Nat → List Felt → Option (List AdviceCredential × List Felt)
  | 0, tape => some ([], tape)
  | count + 1, score :: weight :: timestamp :: tape => do
      let (credentials, rest) ← readCredentials count tape
      return (⟨score, weight, timestamp⟩ :: credentials, rest)
  | _, _ => none

/-- What the loop adds for one credential. -/
def AdviceCredential.contribution (now : Felt) (credential : AdviceCredential) : Felt :=
  Felt.ofBool (yearSeconds ≤ credential.timestamp - now) * (credential.score * credential.weight)

def totalScore (now : Felt) (credentials : List AdviceCredential) : Felt :=
  (credentials.map (AdviceCredential.contribution now)).sum

/-- The total that a tape leads to and the tape left over; `none` if the tape
runs out. -/
def scoreOfTape : List Felt → Option (Felt × List Felt)
  | count :: now :: tape => do
      let (credentials, rest) ← readCredentials count.val tape
      return (totalScore now credentials, rest)
  | _ => none

theorem readCredentials_toList (credentials : List AdviceCredential) (rest : List Felt) :
    readCredentials credentials.length (credentials.flatMap AdviceCredential.toList ++ rest) =
      some (credentials, rest) := by
  induction credentials with
  | nil => rfl
  | cons credential others inductionHypothesis =>
      simp [AdviceCredential.toList, readCredentials, inductionHypothesis]

/-- A tape too short for its count is exactly one that cannot be read. -/
theorem readCredentials_eq_none_iff (count : Nat) (tape : List Felt) :
    readCredentials count tape = none ↔ tape.length < 3 * count := by
  induction count generalizing tape with
  | zero => simp [readCredentials]
  | succ count inductionHypothesis =>
      match tape with
      | [] | [_] | [_, _] =>
          simp only [readCredentials, List.length_cons, List.length_nil, true_iff]
          omega
      | score :: weight :: timestamp :: tape =>
          have later : readCredentials (count + 1) (score :: weight :: timestamp :: tape) = none ↔
              readCredentials count tape = none := by
            cases read : readCredentials count tape <;> simp [readCredentials, read]
          rw [later, inductionHypothesis, List.length_cons, List.length_cons, List.length_cons]
          omega

/-- Reading back: the credentials that were read stand in front of the rest. -/
theorem readCredentials_eq_some {count : Nat} {tape rest : List Felt}
    {credentials : List AdviceCredential}
    (read : readCredentials count tape = some (credentials, rest)) :
    credentials.length = count ∧ tape = credentials.flatMap AdviceCredential.toList ++ rest := by
  induction count generalizing tape credentials rest with
  | zero =>
      cases read
      exact ⟨rfl, rfl⟩
  | succ count inductionHypothesis =>
      match tape with
      | [] | [_] | [_, _] => cases read
      | score :: weight :: timestamp :: tape =>
          obtain ⟨⟨others, behind⟩, readOthers, same⟩ := Option.bind_eq_some_iff.mp read
          obtain ⟨length, split⟩ := inductionHypothesis readOthers
          cases same
          exact ⟨by rw [List.length_cons, length], by rw [split]; rfl⟩

theorem length_flatMap_toList (credentials : List AdviceCredential) :
    (credentials.flatMap AdviceCredential.toList).length = 3 * credentials.length := by
  induction credentials with
  | nil => rfl
  | cons credential others inductionHypothesis =>
      have three : credential.toList.length = 3 := rfl
      rw [List.flatMap_cons, List.length_append, inductionHypothesis, three, List.length_cons]
      omega

/-- A tape that is long enough starts with `count` credentials. -/
theorem exists_credentials {count : Nat} {tape : List Felt} (enough : 3 * count ≤ tape.length) :
    ∃ credentials : List AdviceCredential, credentials.length = count ∧
      tape = credentials.flatMap AdviceCredential.toList ++ tape.drop (3 * count) := by
  have readable : readCredentials count tape ≠ none := by
    rw [Ne, readCredentials_eq_none_iff]
    exact Nat.not_lt.mpr enough
  obtain ⟨⟨credentials, rest⟩, read⟩ := Option.ne_none_iff_exists'.mp readable
  obtain ⟨length, split⟩ := readCredentials_eq_some read
  refine ⟨credentials, length, ?_⟩
  have consumed : (credentials.flatMap AdviceCredential.toList).length = 3 * count := by
    rw [length_flatMap_toList, length]
  conv_rhs => rw [split, ← consumed, List.drop_left]
  exact split

/-! ### The scoring loop -/

section Scorer

variable {σ : Type} (merkle : MerkleLibrary σ) (caller : OperandStack) (store : σ)
  (storage : Storage StorageSlotId)

/-- One turn: the credential's contribution is added, the count goes down, and
the flag for the next turn lies on top. -/
theorem runBlock_scoreLoopBody (count now total : Felt) (credential : AdviceCredential)
    (tape : List Felt) :
    (machine (kernelEnvironment merkle)).runBlock scoreLoopBody
        ⟨.above [count, now, total] caller, credential.toList ++ tape, store, storage⟩ =
      .ok ⟨.above [Felt.ofBool (!decide (count - 1 = 0)), count - 1, now,
        credential.contribution now + total] caller, tape, store, storage⟩ := by
  simp [scoreLoopBody, Machine.runBlock, AdviceCredential.toList, AdviceCredential.contribution]

/-- A turn on a tape with fewer than three elements stops at an `adv_push`. -/
theorem runBlock_scoreLoopBody_short (count now total : Felt) {tape : List Felt}
    (short : tape.length < 3) :
    (machine (kernelEnvironment merkle)).runBlock scoreLoopBody
        ⟨.above [count, now, total] caller, tape, store, storage⟩ =
      .error .adviceStackReadFailed := by
  match tape, short with
  | [], _ | [_], _ | [_, _], _ => simp [scoreLoopBody, Machine.runBlock]

theorem totalScore_cons (now : Felt) (credential : AdviceCredential)
    (credentials : List AdviceCredential) :
    totalScore now (credential :: credentials) =
      credential.contribution now + totalScore now credentials := by
  simp [totalScore]

/-- The state in which the loop is tested: the flag, the credentials still to read,
the current time and the total so far, above the caller's cells. -/
def loopHead (remaining : Nat) (now total : Felt) (tape : List Felt) : State StorageSlotId σ :=
  ⟨.above [Felt.ofBool (!decide (remaining = 0)), Felt.new remaining, now, total] caller, tape, store,
    storage⟩

theorem totalScore_concat (now : Felt) (credentials : List AdviceCredential)
    (credential : AdviceCredential) :
    totalScore now (credentials ++ [credential]) =
      credential.contribution now + totalScore now credentials := by
  simp [totalScore, add_comm]

/-- After each turn one credential less is left and its contribution is in the
total. Induction on the credentials from the end, as the turns are taken. -/
theorem turns_scoreLoop (now total : Felt) (credentials : List AdviceCredential) (left : Nat)
    (small : credentials.length + left < modulus) (tape : List Felt) :
    (machine (kernelEnvironment merkle)).Turns (.block scoreLoopBody)
      (loopHead caller store storage (credentials.length + left) now total
        (credentials.flatMap AdviceCredential.toList ++ tape))
      credentials.length
      (loopHead caller store storage left now (totalScore now credentials + total) tape) := by
  induction credentials using List.reverseRecOn generalizing left tape with
  | nil =>
      have unchanged : totalScore now [] + total = total := by simp [totalScore]
      rw [unchanged, List.length_nil, Nat.zero_add]
      exact .none
  | append_singleton credentials credential inductionHypothesis =>
      have length : (credentials ++ [credential]).length + left = credentials.length + (left + 1) := by
        rw [List.length_append, List.length_singleton]
        omega
      rw [length] at small ⊢
      rw [List.flatMap_append, List.flatMap_singleton, List.append_assoc, List.length_append,
        List.length_singleton]
      have turned := inductionHypothesis (left + 1) small (credential.toList ++ tape)
      have leftSmall : left + 1 < modulus := by omega
      have counted : Felt.new (left + 1) - 1 = Felt.new left := by
        have nonzero : Felt.new (left + 1) ≠ 0 := by
          intro zero
          have value := congrArg Fin.val zero
          rw [Felt.new_val_of_lt leftSmall] at value
          cases value
        apply Fin.ext
        rw [Fin.val_sub_one_of_ne_zero nonzero, Felt.new_val_of_lt leftSmall,
          Felt.new_val_of_lt (by omega), Nat.add_sub_cancel]
      have flag : decide (Felt.new left = 0) = decide (left = 0) := by
        rw [decide_eq_decide, Fin.ext_iff, Felt.new_val_of_lt (by omega)]
        rfl
      have tested := popCondition_above caller (credential.toList ++ tape) store storage
        [Felt.new (left + 1), now, totalScore now credentials + total] true
      have ran := runBlock_scoreLoopBody merkle caller store storage (Felt.new (left + 1)) now
        (totalScore now credentials + total) credential tape
      rw [counted, flag, ← add_assoc, ← totalScore_concat] at ran
      exact .next turned tested (Machine.yields_block_iff.mpr ran)

theorem enters_scoreLoop (count now : Felt) (body : List Felt) :
    (machine (kernelEnvironment merkle)).Completes
      (.block [.push 0, .advPush, .advPush, .swap 1, .dup 0, .eqImm 0, .not])
      ⟨caller, count :: now :: body, store, storage⟩
      (loopHead caller store storage count.val now 0 body) := by
  have flag : decide (count.val = 0) = decide (count = 0) := by
    rw [decide_eq_decide, Fin.ext_iff]
    rfl
  have value : Felt.new count.val = count := Fin.ext (Felt.new_val_of_lt count.isLt)
  apply Machine.yields_block_iff.mpr
  rw [loopHead, flag, value]
  show (machine (kernelEnvironment merkle)).runBlock _
    ⟨.above [] caller, count :: now :: body, store, storage⟩ = _
  simp [-OperandStack.above_nil, Machine.runBlock]

/-- The loop ends behind the credentials that the count announces. -/
theorem completes_scoreLoop (now : Felt) (credentials : List AdviceCredential)
    (small : credentials.length < modulus) (rest : List Felt) :
    (machine (kernelEnvironment merkle)).Completes (.whileTrue (.block scoreLoopBody))
      (loopHead caller store storage credentials.length now 0
        (credentials.flatMap AdviceCredential.toList ++ rest))
      ⟨.above [0, now, totalScore now credentials] caller, rest, store, storage⟩ := by
  have turned := turns_scoreLoop merkle caller store storage now 0 credentials 0 small rest
  rw [Nat.add_zero, add_zero] at turned
  apply turned.then_loop
  apply Machine.completes_while_of_exit
  exact popCondition_above caller rest store storage [0, now, totalScore now credentials] false

/-- A tape that is too short holds some credentials, after which a turn stops at an
`adv_push`. -/
theorem aborts_scoreLoop (count now : Felt) {body : List Felt}
    (short : body.length < 3 * count.val) :
    (machine (kernelEnvironment merkle)).Aborts (.whileTrue (.block scoreLoopBody))
      (loopHead caller store storage count.val now 0 body) .adviceStackReadFailed := by
  obtain ⟨credentials, length, split⟩ := exists_credentials (Nat.mul_div_le body.length 3)
  obtain ⟨left, remaining⟩ : ∃ left, count.val = credentials.length + (left + 1) :=
    ⟨count.val - credentials.length - 1, by omega⟩
  have turned := turns_scoreLoop merkle caller store storage now 0 credentials (left + 1)
    (remaining ▸ count.isLt) (body.drop (3 * (body.length / 3)))
  rw [← remaining, ← split] at turned
  apply turned.then_loop
  have tested := popCondition_above caller (body.drop (3 * (body.length / 3))) store storage
    [Felt.new (left + 1), now, totalScore now credentials + 0] true
  refine Machine.Aborts.while_turn tested (Machine.yields_block_iff.mpr ?_)
  apply runBlock_scoreLoopBody_short
  rw [List.length_drop]
  omega

/-- `compute_reputation_score` on every caller stack and every tape. -/
theorem yields_computeReputationScore (tape : List Felt) :
    (machine (kernelEnvironment merkle)).Yields computeReputationScore
      ⟨caller, tape, store, storage⟩
      (match scoreOfTape tape with
        | none => .error .adviceStackReadFailed
        | some (total, rest) => .ok ⟨.above [total] caller, rest, store, storage⟩) := by
  match tape with
  | [] | [_] =>
      refine Machine.Aborts.seq (Machine.yields_block_iff.mpr ?_)
      rw [← OperandStack.above_nil caller]
      simp [-OperandStack.above_nil, Machine.runBlock]
  | count :: now :: tape =>
      refine (enters_scoreLoop merkle caller store storage count now tape).seq ?_
      cases read : readCredentials count.val tape with
      | none =>
          have short := (readCredentials_eq_none_iff count.val tape).mp read
          simp only [scoreOfTape, read]
          exact Machine.Aborts.seq (aborts_scoreLoop merkle caller store storage count now short)
      | some result =>
          obtain ⟨announced, split⟩ := readCredentials_eq_some read
          have looped := completes_scoreLoop merkle caller store storage now result.1
            (announced ▸ count.isLt) result.2
          rw [announced, ← split] at looped
          refine Machine.Completes.seq looped (Machine.yields_block_iff.mpr ?_)
          simp [Machine.runBlock, scoreOfTape, read]

/-- `prove_threshold` on every stack and every tape: the threshold on top has to
be at least the total. -/
theorem yields_proveThreshold (tape : List Felt) :
    (machine (kernelEnvironment merkle)).Yields proveThreshold ⟨caller, tape, store, storage⟩
      (match scoreOfTape tape with
        | none => .error .adviceStackReadFailed
        | some (total, rest) =>
            if total ≤ caller.get 0 then .ok ⟨caller.drop, rest, store, storage⟩
            else .error .failedAssertion) := by
  have scored := yields_computeReputationScore merkle caller store storage tape
  cases outcome : scoreOfTape tape with
  | none =>
      rw [outcome] at scored
      exact Machine.Aborts.seq scored
  | some result =>
      rw [outcome] at scored
      refine Machine.Completes.seq scored (Machine.yields_block_iff.mpr ?_)
      have compared : Operation.popTwoPush (fun a b => Felt.ofBool (b ≤ a))
          (.above [result.1] caller) = caller.set 0 (Felt.ofBool (result.1 ≤ caller.get 0)) := by
        unfold Operation.popTwoPush
        rw [OperandStack.drop_above]
        rfl
      simp only [Machine.runBlock, step_gte, compared, step_assert, OperandStack.get_set_zero,
        OperandStack.drop_set_zero]
      by_cases enough : result.1 ≤ caller.get 0
      · simp [enough]
      · simp [enough]

end Scorer

end MidenWorkspace.Sealed
