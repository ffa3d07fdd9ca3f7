import MidenWorkspace.Sealed.Threshold

/-!
Contract: the law of the scoring loop, and the window it applies.

Owns:
- the law of `compute_reputation_score` as a whole: how many turns it takes, what
  it consumes, what it pushes and why it can fail;
- the triples that the loop counts against those at most a year old.

The loop subtracts `now` from the timestamp, not the timestamp from `now`, and
asks whether the difference is at least a year. A credential of the past wraps to a
difference close to the modulus and always counts; one dated exactly now does not.
-/

namespace MidenWorkspace.Sealed

open Fin.CommRing
open MidenWorkspace.Vm
open MidenWorkspace.Protocol
open MidenWorkspace.Library.Structured

/-! ### The law of the scorer -/

section Loop

variable {σ : Type} (merkle : MerkleLibrary σ) (caller : OperandStack) (store : σ)
  (storage : Storage StorageSlotId)

/-- The field sum of score, weight and validity. -/
def weightedTotal (valid : Felt → Felt → Felt) (now : Felt) (credentials : List AdviceCredential) :
    Felt :=
  (credentials.map fun credential =>
    credential.score * credential.weight * valid now credential.timestamp).sum

/-- The flag that the loop computes from the two times. -/
def validity (now timestamp : Felt) : Felt := Felt.ofBool (yearSeconds ≤ timestamp - now)

theorem totalScore_eq_weightedTotal (now : Felt) (credentials : List AdviceCredential) :
    totalScore now credentials = weightedTotal validity now credentials := by
  unfold totalScore weightedTotal
  congr 1
  apply List.map_congr_left
  intro credential _
  rw [AdviceCredential.contribution, validity, mul_comm]

theorem weightedTotal_perm (valid : Felt → Felt → Felt) (now : Felt)
    {first second : List AdviceCredential} (permuted : first.Perm second) :
    weightedTotal valid now first = weightedTotal valid now second :=
  (permuted.map _).sum_eq

/-- What `compute_reputation_score` does on a tape that starts with `count` and
`now`, with `body` behind them. -/
structure LoopLaw (valid : Felt → Felt → Felt) (count now : Felt) (body : List Felt) : Prop where
  enters : ∃ entry exit, computeReputationScore =
      .seq (.block entry) (.seq (.whileTrue (.block scoreLoopBody)) (.block exit)) ∧
    (machine (kernelEnvironment merkle)).Completes (.block entry)
      ⟨caller, count :: now :: body, store, storage⟩
      (loopHead caller store storage count.val now 0 body)
  -- after any number of turns the flag is 0 or 1 and the counter has not wrapped
  turns : ∀ credentials rest, credentials.length ≤ count.val →
    body = credentials.flatMap AdviceCredential.toList ++ rest →
      (machine (kernelEnvironment merkle)).Turns (.block scoreLoopBody)
        (loopHead caller store storage count.val now 0 body) credentials.length
        (loopHead caller store storage (count.val - credentials.length) now
          (weightedTotal valid now credentials) rest)
  stops : ∀ total rest, (machine (kernelEnvironment merkle)).test
      (loopHead caller store storage 0 now total rest) =
    .ok (false, ⟨.above [0, now, total] caller, rest, store, storage⟩)
  completes : 3 * count.val ≤ body.length →
    ∃ credentials : List AdviceCredential, credentials.length = count.val ∧
      body = credentials.flatMap AdviceCredential.toList ++ body.drop (3 * count.val) ∧
      ∀ permuted : List AdviceCredential, permuted.Perm credentials →
        (machine (kernelEnvironment merkle)).Completes computeReputationScore
          ⟨caller, count :: now :: (permuted.flatMap AdviceCredential.toList ++
            body.drop (3 * count.val)), store, storage⟩
          ⟨.above [weightedTotal valid now credentials] caller, body.drop (3 * count.val), store, storage⟩
  aborts : body.length < 3 * count.val →
    (machine (kernelEnvironment merkle)).Aborts computeReputationScore
      ⟨caller, count :: now :: body, store, storage⟩ .adviceStackReadFailed

theorem completes_of_credentials (count now : Felt) (credentials : List AdviceCredential)
    (announced : credentials.length = count.val) (rest : List Felt) :
    (machine (kernelEnvironment merkle)).Completes computeReputationScore
      ⟨caller, count :: now :: (credentials.flatMap AdviceCredential.toList ++ rest), store, storage⟩
      ⟨.above [totalScore now credentials] caller, rest, store, storage⟩ := by
  have scored := yields_computeReputationScore merkle caller store storage
    (count :: now :: (credentials.flatMap AdviceCredential.toList ++ rest))
  have read := readCredentials_toList credentials rest
  rw [announced] at read
  simpa only [scoreOfTape, read, Option.bind_eq_bind, Option.bind_some, Option.pure_def] using scored

theorem aborts_of_short (count now : Felt) {body : List Felt}
    (short : body.length < 3 * count.val) :
    (machine (kernelEnvironment merkle)).Aborts computeReputationScore
      ⟨caller, count :: now :: body, store, storage⟩ .adviceStackReadFailed := by
  have scored := yields_computeReputationScore merkle caller store storage (count :: now :: body)
  have unread := (readCredentials_eq_none_iff count.val body).mpr short
  simpa only [scoreOfTape, unread, Option.bind_eq_bind, Option.bind_none] using scored

end Loop

/-- The loop law, with one flag for every stack, store and tape. -/
theorem computeReputationScore_loopLaw :
    ∃ valid : Felt → Felt → Felt, (∀ now timestamp, valid now timestamp = 0 ∨ valid now timestamp = 1) ∧
      ∀ {σ : Type} (merkle : MerkleLibrary σ) (caller : OperandStack) (store : σ)
        (storage : Storage StorageSlotId) (count now : Felt) (body : List Felt),
        LoopLaw merkle caller store storage valid count now body := by
  refine ⟨validity, ?_, ?_⟩
  · intro now timestamp
    unfold validity
    cases decide (yearSeconds ≤ timestamp - now) with
    | false => exact .inl rfl
    | true => exact .inr rfl
  intro σ merkle caller store storage count now body
  refine ⟨⟨_, _, rfl, enters_scoreLoop merkle caller store storage count now body⟩, ?_, ?_, ?_, ?_⟩
  · intro credentials rest within split
    have length : credentials.length + (count.val - credentials.length) = count.val := by omega
    have turned := turns_scoreLoop merkle caller store storage now 0 credentials
      (count.val - credentials.length) (by rw [length]; exact count.isLt) rest
    rwa [length, ← split, add_zero, totalScore_eq_weightedTotal] at turned
  · intro total rest
    exact popCondition_above caller rest store storage [0, now, total] false
  · intro enough
    obtain ⟨credentials, announced, split⟩ := exists_credentials enough
    refine ⟨credentials, announced, split, ?_⟩
    intro permuted permutation
    have completes := completes_of_credentials merkle caller store storage count now permuted
      (permutation.length_eq.trans announced) (body.drop (3 * count.val))
    rwa [totalScore_eq_weightedTotal, weightedTotal_perm validity now permutation] at completes
  · intro short
    exact aborts_of_short merkle caller store storage count now short

/-! ### The window -/

namespace AdviceCredential

/-- Score times weight, in the field. -/
def worth (credential : AdviceCredential) : Felt := credential.score * credential.weight

/-- Dated at most a year before `now`, and not after it. -/
def inYear (now : Felt) (credential : AdviceCredential) : Bool :=
  credential.timestamp.val ≤ now.val ∧ now.val - credential.timestamp.val ≤ 31536000

/-- Dated more than a year before `now`, or a year or more after it. -/
def isStray (now : Felt) (credential : AdviceCredential) : Bool :=
  credential.timestamp.val + 31536000 < now.val ∨ now.val + 31536000 ≤ credential.timestamp.val

def isDatedNow (now : Felt) (credential : AdviceCredential) : Bool := credential.timestamp = now

end AdviceCredential

/-- The field sum of the worth of the credentials that pass `test`. -/
def worthOf (test : AdviceCredential → Bool) (credentials : List AdviceCredential) : Felt :=
  ((credentials.filter test).map AdviceCredential.worth).sum

theorem worthOf_cons (test : AdviceCredential → Bool) (credential : AdviceCredential)
    (others : List AdviceCredential) :
    worthOf test (credential :: others) =
      (if test credential then credential.worth else 0) + worthOf test others := by
  unfold worthOf
  by_cases passes : test credential = true
  · rw [List.filter_cons_of_pos passes, if_pos passes, List.map_cons, List.sum_cons]
  · rw [List.filter_cons_of_neg passes, if_neg passes, zero_add]

/-- The wrapped difference is at least a year for every time of the past, and for
the times a year or more ahead. -/
private theorem year_le_difference_iff {time current : Nat} (small : time < 2 ^ 63)
    (currentSmall : current < 2 ^ 63) :
    31536000 ≤ (time + modulus - current) % modulus ↔
      time < current ∨ current + 31536000 ≤ time := by
  have value : modulus = 18446744069414584321 := rfl
  rw [value]
  omega

theorem contribution_eq_worth (now : Felt) (credential : AdviceCredential) :
    credential.contribution now = if credential.counted now then credential.worth else 0 := by
  rw [counted_iff, AdviceCredential.contribution, AdviceCredential.worth]
  by_cases counted : yearSeconds ≤ credential.timestamp - now
  · rw [decide_eq_true counted, Felt.ofBool_true, one_mul, if_pos rfl]
  · rw [decide_eq_false counted, Felt.ofBool_false, zero_mul, if_neg Bool.false_ne_true]

/-- A time that counts is in the window or strays from it, unless it is the present
one. -/
private theorem window_partition (year time current : Nat) (positive : 0 < year) (worth : Felt) :
    (if decide (time < current ∨ current + year ≤ time) then worth else 0) +
        (if decide (time = current) then worth else 0) =
      (if decide (time ≤ current ∧ current - time ≤ year) then worth else 0) +
        (if decide (time + year < current ∨ current + year ≤ time) then worth else 0) := by
  simp only [decide_eq_true_eq]
  rcases lt_trichotomy time current with past | same | future
  · have notSame : time ≠ current := by omega
    by_cases old : time + year < current
    · have expired : ¬ (time ≤ current ∧ current - time ≤ year) := by omega
      rw [if_pos (.inl past), if_neg notSame, if_neg expired, if_pos (.inl old), add_comm]
    · have recent : time ≤ current ∧ current - time ≤ year := by omega
      have kept : ¬ (time + year < current ∨ current + year ≤ time) := by omega
      rw [if_pos (.inl past), if_neg notSame, if_pos recent, if_neg kept]
  · have recent : time ≤ current ∧ current - time ≤ year := by omega
    have uncounted : ¬ (time < current ∨ current + year ≤ time) := by omega
    have kept : ¬ (time + year < current ∨ current + year ≤ time) := by omega
    rw [if_neg uncounted, if_pos same, if_pos recent, if_neg kept, add_comm]
  · have notSame : time ≠ current := by omega
    have outside : ¬ (time ≤ current ∧ current - time ≤ year) := by omega
    rw [if_neg notSame, if_neg outside]
    by_cases far : current + year ≤ time
    · rw [if_pos (.inr far), if_pos (.inr far), add_comm]
    · have uncounted : ¬ (time < current ∨ current + year ≤ time) := by omega
      have kept : ¬ (time + year < current ∨ current + year ≤ time) := by omega
      rw [if_neg uncounted, if_neg kept]

/-- The loop counts what is in the year or strays from it, but for what is dated
exactly now. -/
theorem contribution_add_datedNow {now : Felt} {credential : AdviceCredential}
    (nowSmall : now.val < 2 ^ 63) (small : credential.timestamp.val < 2 ^ 63) :
    credential.contribution now + (if credential.isDatedNow now then credential.worth else 0) =
      (if credential.inYear now then credential.worth else 0) +
        (if credential.isStray now then credential.worth else 0) := by
  have counted : credential.counted now = decide (credential.timestamp.val < now.val ∨
      now.val + 31536000 ≤ credential.timestamp.val) :=
    decide_eq_decide.mpr (year_le_difference_iff small nowSmall)
  have dated : credential.isDatedNow now = decide (credential.timestamp.val = now.val) :=
    decide_eq_decide.mpr Fin.ext_iff
  rw [contribution_eq_worth, counted, dated, AdviceCredential.inYear, AdviceCredential.isStray]
  rw [window_partition 31536000 credential.timestamp.val now.val (by decide) credential.worth]

theorem totalScore_add_datedNow {now : Felt} {credentials : List AdviceCredential}
    (nowSmall : now.val < 2 ^ 63)
    (small : ∀ credential ∈ credentials, credential.timestamp.val < 2 ^ 63) :
    totalScore now credentials + worthOf (AdviceCredential.isDatedNow now) credentials =
      worthOf (AdviceCredential.inYear now) credentials +
        worthOf (AdviceCredential.isStray now) credentials := by
  induction credentials with
  | nil => simp [totalScore, worthOf]
  | cons credential others inductionHypothesis =>
      have here := contribution_add_datedNow nowSmall (small credential List.mem_cons_self)
      have later := inductionHypothesis fun other member => small other (List.mem_cons_of_mem _ member)
      rw [totalScore_cons, worthOf_cons, worthOf_cons, worthOf_cons, add_add_add_comm, here, later,
        add_add_add_comm]

/-- The total is that of the credentials at most a year old exactly if what the loop
counts besides makes up for what it leaves out. -/
theorem computeReputationScore_window_iff {σ : Type} (merkle : MerkleLibrary σ)
    (caller : OperandStack) (store : σ) (storage : Storage StorageSlotId) (count now : Felt)
    (credentials : List AdviceCredential) (rest : List Felt)
    (announced : credentials.length = count.val) (nowSmall : now.val < 2 ^ 63)
    (small : ∀ credential ∈ credentials, credential.timestamp.val < 2 ^ 63) :
    (machine (kernelEnvironment merkle)).Completes computeReputationScore
        ⟨caller, count :: now :: (credentials.flatMap AdviceCredential.toList ++ rest), store, storage⟩
        ⟨.above [worthOf (AdviceCredential.inYear now) credentials] caller, rest, store, storage⟩ ↔
      worthOf (AdviceCredential.isStray now) credentials =
        worthOf (AdviceCredential.isDatedNow now) credentials := by
  have completes := completes_of_credentials merkle caller store storage count now credentials
    announced rest
  have balance := totalScore_add_datedNow nowSmall small
  have sameTotal : totalScore now credentials = worthOf (AdviceCredential.inYear now) credentials ↔
      worthOf (AdviceCredential.isStray now) credentials =
        worthOf (AdviceCredential.isDatedNow now) credentials := by
    constructor
    · intro same
      rw [same] at balance
      exact (add_left_cancel balance).symm
    · intro same
      rw [same] at balance
      exact add_right_cancel balance
  rw [← sameTotal]
  constructor
  · intro windowed
    have same := congrArg (fun state => state.stack.get 0) (Except.ok.inj (completes.unique windowed))
    exact same
  · intro same
    rw [← same]
    exact completes

theorem computeReputationScore_window_one_credential :
    let credential : AdviceCredential := ⟨10, 2, 5⟩
    (machine (kernelEnvironment MerkleLibrary.empty)).Completes computeReputationScore
      ⟨OperandStack.zeros, 1 :: 6 :: ([credential].flatMap AdviceCredential.toList ++ []), (),
        fun _ => none⟩
      ⟨.above [worthOf (AdviceCredential.inYear 6) [credential]] OperandStack.zeros, [], (),
        fun _ => none⟩ :=
  (computeReputationScore_window_iff MerkleLibrary.empty OperandStack.zeros () (fun _ => none) 1 6
    [⟨10, 2, 5⟩] [] rfl (by decide) (by decide)).mpr (by decide)

/-- A credential more than a year old is counted. -/
theorem computeReputationScore_counts_expired :
    let credential : AdviceCredential := ⟨10, 2, 0⟩
    worthOf (AdviceCredential.inYear 31536001) [credential] = 0 ∧
      (machine (kernelEnvironment MerkleLibrary.empty)).Completes computeReputationScore
        ⟨OperandStack.zeros, 1 :: 31536001 :: ([credential].flatMap AdviceCredential.toList ++ []), (),
          fun _ => none⟩
        ⟨.above [20] OperandStack.zeros, [], (), fun _ => none⟩ := by
  refine ⟨by decide, ?_⟩
  have total : totalScore 31536001 [⟨10, 2, 0⟩] = 20 := by decide
  rw [← total]
  exact completes_of_credentials MerkleLibrary.empty OperandStack.zeros () (fun _ => none) 1 31536001
    [⟨10, 2, 0⟩] rfl []

/-! ### The decision -/

section Decision

variable {σ : Type} (merkle : MerkleLibrary σ) (caller : OperandStack) (store : σ)
  (storage : Storage StorageSlotId)

/-- `prove_threshold` decides whether the total that the scorer left in `scored` is
at least the threshold on top of the stack, and gives the caller's cells back. -/
structure DecidesThreshold (tape : List Felt) (scored : State StorageSlotId σ) : Prop where
  completes_iff : Accepts merkle caller store storage tape ↔ caller.get 0 ≤ scored.stack.get 0
  frame : ∀ final, (machine (kernelEnvironment merkle)).Completes proveThreshold
      ⟨caller, tape, store, storage⟩ final → final = { scored with stack := caller.drop }
  aborts : scored.stack.get 0 < caller.get 0 →
    (machine (kernelEnvironment merkle)).Aborts proveThreshold ⟨caller, tape, store, storage⟩
      .failedAssertion

/-- The decision is the documented one exactly if the score that the tape claims is
the threshold itself. -/
theorem decidesThreshold_iff {tape : List Felt} {scored : State StorageSlotId σ}
    (scores : (machine (kernelEnvironment merkle)).Completes computeReputationScore
      ⟨caller, tape, store, storage⟩ scored) :
    DecidesThreshold merkle caller store storage tape scored ↔
      claimedScore tape = (caller.get 0).val := by
  have outcome := yields_computeReputationScore merkle caller store storage tape
  have long : ¬ tape.length < 2 + 3 * (tape.getD 0 0).val := by
    intro short
    rw [scoreOfTape_of_short short] at outcome
    cases scores.unique outcome
  obtain ⟨total, rest, read, value⟩ := scoreOfTape_of_long (Nat.le_of_not_lt long)
  rw [read] at outcome
  obtain rfl := Except.ok.inj (scores.unique outcome)
  have accepted : Accepts merkle caller store storage tape ↔ total ≤ caller.get 0 := by
    rw [accepts_iff, read]
    simp
  have onTop : (OperandStack.above [total] caller).get 0 = total := rfl
  rw [← value]
  constructor
  · intro decides
    have completes := decides.completes_iff
    rw [onTop, accepted] at completes
    -- of two elements one is at most the other, and then each is at most the other
    rcases le_total total (caller.get 0) with below | above
    · exact congrArg Fin.val (le_antisymm below (completes.mp below))
    · exact congrArg Fin.val (le_antisymm (completes.mpr above) above)
  · intro same
    have equal : total = caller.get 0 := Fin.ext same
    refine ⟨?_, ?_, ?_⟩
    · rw [accepted, onTop, equal]
    · intro final completes
      have proved := yields_proveThreshold merkle caller store storage tape
      simp only [read, equal, le_refl, if_true] at proved
      exact Except.ok.inj (completes.unique proved)
    · intro below
      rw [onTop, equal] at below
      exact absurd below (lt_irrefl _)

theorem decidesThreshold_iff_one_credential :
    let scored : State StorageSlotId Unit :=
      ⟨.above [20] (OperandStack.zeros.set 0 20), [], (), fun _ => none⟩
    DecidesThreshold MerkleLibrary.empty (OperandStack.zeros.set 0 20) () (fun _ => none)
      [1, 6, 10, 2, 5] scored := by
  have total : totalScore 6 [⟨10, 2, 5⟩] = 20 := by decide
  have scores := completes_of_credentials MerkleLibrary.empty (OperandStack.zeros.set 0 20) ()
    (fun _ => none) 1 6 [⟨10, 2, 5⟩] rfl []
  rw [total] at scores
  exact (decidesThreshold_iff MerkleLibrary.empty (OperandStack.zeros.set 0 20) () (fun _ => none)
    scores).mpr (by decide)

/-- A total of zero passes the threshold one. -/
theorem proveThreshold_accepts_lower_total :
    let caller := OperandStack.zeros.set 0 1
    (machine (kernelEnvironment MerkleLibrary.empty)).Completes computeReputationScore
        ⟨caller, [0, 0], (), fun _ => none⟩ ⟨.above [0] caller, [], (), fun _ => none⟩ ∧
      (0 : Felt) < caller.get 0 ∧ Accepts MerkleLibrary.empty caller () (fun _ => none) [0, 0] := by
  intro caller
  refine ⟨?_, by decide, ?_⟩
  · exact completes_of_credentials MerkleLibrary.empty caller () (fun _ => none) 0 0 [] rfl []
  · rw [accepts_iff]
    exact ⟨0, [], by decide, by decide⟩

end Decision

end MidenWorkspace.Sealed
