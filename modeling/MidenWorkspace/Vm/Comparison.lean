import MidenWorkspace.Vm.Assembly

/-!
Contract: the lowered comparisons and boolean instructions compute what the
assembler documents.

`lt`, `gt` and `gte` split both elements into 32-bit limbs and combine two limb
comparisons. The laws proved here say that the flag left on the stack is the
comparison of the canonical representatives, for every stack, including one at
the minimal depth. `not`, `xor`, `assert` and `assert_eq` follow.
-/

namespace MidenWorkspace.Vm

open Fin.CommRing
open MidenWorkspace.Library.Structured

section Limbs

variable {κ σ η : Type} (environment : Environment κ σ η)
  (advice : List Felt) (store : σ) (storage : Storage κ)

theorem OperandStack.drop_of_deep {cell : Felt} {rest : List Felt}
    (floor : minStackDepth ≤ (cell :: rest).length) (deep : minStackDepth ≤ rest.length) :
    OperandStack.drop ⟨cell :: rest, floor⟩ = ⟨rest, deep⟩ := by
  unfold drop
  rw [dif_pos (by rw [List.length_cons]; omega)]
  rfl

/-- The two cells below the dropped one do not matter once the top is
overwritten. -/
theorem OperandStack.set_drop_congr {x y x' y' value : Felt} {rest : List Felt}
    (floor : minStackDepth ≤ (x :: y :: rest).length)
    (floor' : minStackDepth ≤ (x' :: y' :: rest).length) :
    (OperandStack.drop ⟨x :: y :: rest, floor⟩).set 0 value =
      (OperandStack.drop ⟨x' :: y' :: rest, floor'⟩).set 0 value := by
  by_cases deep : minStackDepth ≤ (y :: rest).length
  · rw [drop_of_deep floor deep, drop_of_deep floor' (by simpa using deep)]
    rfl
  · unfold drop
    rw [dif_neg (by simp only [List.length_cons] at deep ⊢; omega),
      dif_neg (by simp only [List.length_cons] at deep ⊢; omega)]
    rfl

def lowLimb (value : Felt) : Nat := value.val % 2 ^ 32

def highLimb (value : Felt) : Nat := value.val / 2 ^ 32

theorem lowLimb_lt (value : Felt) : lowLimb value < 2 ^ 32 := Nat.mod_lt _ (by decide)

theorem highLimb_lt (value : Felt) : highLimb value < 2 ^ 32 := by
  have canonical : value.val < 18446744069414584321 := value.isLt
  unfold highLimb
  omega

theorem val_eq_limbs (value : Felt) : value.val = 2 ^ 32 * highLimb value + lowLimb value :=
  (Nat.div_add_mod value.val (2 ^ 32)).symm

private theorem limb_val {limb : Nat} (small : limb < 2 ^ 32) : (Felt.new limb).val = limb :=
  Felt.new_val_of_lt (small.trans (by decide))

private theorem limb_eq_zero {limb : Nat} (small : limb < 2 ^ 32) :
    Felt.new limb = 0 ↔ limb = 0 := by
  rw [Fin.ext_iff, limb_val small]
  rfl

/-- A depth floor, stated on the cells below the ones a law names. -/
private theorem floor_succ {count : Nat} (floor : minStackDepth ≤ count) :
    minStackDepth ≤ count + 1 := Nat.le_succ_of_le floor

/-! ### Limb subtraction -/

/-- The borrow of a limb subtraction is the strict comparison. -/
theorem subU32_limbs {x y : Nat} (xSmall : x < 2 ^ 32) (ySmall : y < 2 ^ 32) {rest : List Felt}
    (floor : minStackDepth ≤ rest.length + 2) :
    Operation.subU32 ⟨Felt.new x :: Felt.new y :: rest, floor⟩ =
      .ok ⟨Felt.ofBool (y < x) :: Felt.new ((y + 2 ^ 32 - x) % 2 ^ 32) :: rest, floor⟩ := by
  have valid : [Felt.new x, Felt.new y].filter (fun value => Operation.u32Max < value.val) = [] := by
    simp only [List.filter_eq_nil_iff, List.mem_cons, List.not_mem_nil, or_false]
    rintro value (rfl | rfl)
    · simp only [limb_val xSmall, Operation.u32Max, decide_eq_true_eq]
      omega
    · simp only [limb_val ySmall, Operation.u32Max, decide_eq_true_eq]
      omega
  have borrow : Felt.new ((y + 2 ^ 64 - x) % 2 ^ 64 / 2 ^ 63) = Felt.ofBool (y < x) := by
    by_cases less : y < x
    · have one : (y + 2 ^ 64 - x) % 2 ^ 64 / 2 ^ 63 = 1 := by omega
      rw [one]
      simp only [less, decide_true]
      rfl
    · have zero : (y + 2 ^ 64 - x) % 2 ^ 64 / 2 ^ 63 = 0 := by omega
      rw [zero]
      simp only [less, decide_false]
      rfl
  have difference : (y + 2 ^ 64 - x) % 2 ^ 64 % 2 ^ 32 = (y + 2 ^ 32 - x) % 2 ^ 32 := by omega
  change (if [Felt.new x, Felt.new y].filter (fun value => Operation.u32Max < value.val) ≠ [] then _
    else _) = _
  rw [valid, if_neg (by simp)]
  simp only [OperandStack.get, List.getD_cons_zero, List.getD_cons_succ, limb_val xSmall,
    limb_val ySmall, borrow, difference]
  rfl

private theorem difference_eq_zero {x y : Nat} (xSmall : x < 2 ^ 32) (ySmall : y < 2 ^ 32) :
    decide (Felt.new ((y + 2 ^ 32 - x) % 2 ^ 32) = 0) = decide (x = y) := by
  have small : (y + 2 ^ 32 - x) % 2 ^ 32 < 2 ^ 32 := Nat.mod_lt _ (by decide)
  rw [decide_eq_decide, limb_eq_zero small]
  omega

/-- Running a limb subtraction in front of other operations. -/
theorem executeAll_u32sub {x y : Nat} (xSmall : x < 2 ^ 32) (ySmall : y < 2 ^ 32)
    {rest : List Felt} (floor : minStackDepth ≤ rest.length + 2)
    (after : List (Operation η)) :
    executeAll environment (.u32sub :: after)
        ⟨⟨Felt.new x :: Felt.new y :: rest, floor⟩, advice, store, storage⟩ =
      executeAll environment after
        ⟨⟨Felt.ofBool (y < x) :: Felt.new ((y + 2 ^ 32 - x) % 2 ^ 32) :: rest, floor⟩,
          advice, store, storage⟩ := by
  simp only [executeAll, Operation.execute, subU32_limbs xSmall ySmall floor]
  rfl

theorem executeAll_swap_eqz (flag difference : Felt) {rest : List Felt}
    (floor : minStackDepth ≤ rest.length + 2)
    (after : List (Operation η)) :
    executeAll environment (.swap :: .eqz :: after)
        ⟨⟨flag :: difference :: rest, floor⟩, advice, store, storage⟩ =
      executeAll environment after
        ⟨⟨Felt.ofBool (difference = 0) :: flag :: rest, floor⟩, advice, store, storage⟩ := rfl

theorem checkLtAndEq_limbs {x y : Nat} (xSmall : x < 2 ^ 32) (ySmall : y < 2 ^ 32)
    (rest : List Felt) (floor : minStackDepth ≤ rest.length + 2) :
    executeAll environment Instruction.checkLtAndEq
        ⟨⟨Felt.new x :: Felt.new y :: rest, floor⟩, advice, store, storage⟩ =
      .ok ⟨⟨Felt.ofBool (x = y) :: Felt.ofBool (y < x) :: rest, floor⟩, advice, store, storage⟩ := by
  unfold Instruction.checkLtAndEq
  rw [executeAll_u32sub environment advice store storage xSmall ySmall,
    executeAll_swap_eqz, difference_eq_zero xSmall ySmall]
  rfl

/-! ### The parts of a comparison -/

theorem splitElements_limbs (b a : Felt) {rest : List Felt}
    (floor : minStackDepth ≤ rest.length + 2) :
    executeAll environment Instruction.splitElements
        ⟨⟨b :: a :: rest, floor⟩, advice, store, storage⟩ =
      .ok ⟨⟨Felt.new (lowLimb b) :: Felt.new (highLimb b) :: Felt.new (lowLimb a) ::
        Felt.new (highLimb a) :: rest, floor_succ (floor_succ floor)⟩,
        advice, store, storage⟩ := rfl

private theorem executeAll_swap_drop (flag difference : Felt) {rest : List Felt}
    (floor : minStackDepth ≤ rest.length + 1) (after : List (Operation η)) :
    executeAll environment (.swap :: .drop :: after)
        ⟨⟨flag :: difference :: rest, floor_succ floor⟩, advice, store, storage⟩ =
      executeAll environment after ⟨⟨flag :: rest, floor⟩, advice, store, storage⟩ := by
  have swapped : OperandStack.swap ⟨flag :: difference :: rest, floor_succ floor⟩ 0 1 =
      ⟨difference :: flag :: rest, floor_succ floor⟩ := rfl
  have deep : minStackDepth ≤ (flag :: rest).length := floor
  simp only [executeAll, Operation.execute, swapped, bind, Except.bind,
    OperandStack.drop_of_deep _ deep]

theorem checkGtHighBits_limbs {bLow bHigh aLow aHigh : Nat} (bSmall : bHigh < 2 ^ 32)
    (aSmall : aHigh < 2 ^ 32) {rest : List Felt} (floor : minStackDepth ≤ rest.length + 4) :
    executeAll environment Instruction.checkGtHighBits
        ⟨⟨Felt.new bLow :: Felt.new bHigh :: Felt.new aLow :: Felt.new aHigh :: rest, floor⟩,
          advice, store, storage⟩ =
      .ok ⟨⟨Felt.new aLow :: Felt.new bLow :: Felt.ofBool (aHigh = bHigh) ::
        Felt.ofBool (bHigh < aHigh) :: rest, floor⟩, advice, store, storage⟩ := by
  generalize Felt.new bLow = lower, Felt.new aLow = upper
  have lifted : executeAll environment [.swap, .movUp 3]
      ⟨⟨lower :: Felt.new bHigh :: upper :: Felt.new aHigh :: rest, floor⟩,
        advice, store, storage⟩ =
      .ok ⟨⟨Felt.new aHigh :: Felt.new bHigh :: lower :: upper :: rest, floor⟩,
        advice, store, storage⟩ := rfl
  rw [Instruction.checkGtHighBits, List.append_assoc, executeAll_append environment lifted,
    executeAll_append environment
      (checkLtAndEq_limbs environment advice store storage aSmall bSmall (_ :: _ :: rest) floor)]
  rfl

theorem checkLtHighBits_limbs {bLow bHigh aLow aHigh : Nat} (bSmall : bHigh < 2 ^ 32)
    (aSmall : aHigh < 2 ^ 32) {rest : List Felt} (floor : minStackDepth ≤ rest.length + 4) :
    executeAll environment Instruction.checkLtHighBits
        ⟨⟨Felt.new bLow :: Felt.new bHigh :: Felt.new aLow :: Felt.new aHigh :: rest, floor⟩,
          advice, store, storage⟩ =
      .ok ⟨⟨Felt.new bLow :: Felt.new aLow :: Felt.ofBool (bHigh = aHigh) ::
        Felt.ofBool (aHigh < bHigh) :: rest, floor⟩, advice, store, storage⟩ := by
  generalize Felt.new bLow = lower, Felt.new aLow = upper
  have lifted : executeAll environment [.movUp 3, .movUp 2]
      ⟨⟨lower :: Felt.new bHigh :: upper :: Felt.new aHigh :: rest, floor⟩,
        advice, store, storage⟩ =
      .ok ⟨⟨Felt.new bHigh :: Felt.new aHigh :: lower :: upper :: rest, floor⟩,
        advice, store, storage⟩ := rfl
  rw [Instruction.checkLtHighBits, List.append_assoc, executeAll_append environment lifted,
    executeAll_append environment
      (checkLtAndEq_limbs environment advice store storage bSmall aSmall (_ :: _ :: rest) floor)]
  rfl

/-- Two flags, combined; at the minimal depth a zero comes in from below. -/
theorem popTwoBoolean_flags (f : Bool → Bool → Bool) (x y : Bool) {rest : List Felt}
    (floor : minStackDepth ≤ rest.length + 2) :
    Operation.popTwoBoolean f ⟨Felt.ofBool x :: Felt.ofBool y :: rest, floor⟩ =
      .ok ((OperandStack.drop ⟨Felt.ofBool x :: Felt.ofBool y :: rest, floor⟩).set 0
        (Felt.ofBool (f y x))) := by
  cases x <;> cases y <;> rfl

theorem popTwoBoolean_deep (f : Bool → Bool → Bool) (x y : Bool) {rest : List Felt}
    (floor : minStackDepth ≤ rest.length + 1) :
    Operation.popTwoBoolean f
        ⟨Felt.ofBool x :: Felt.ofBool y :: rest, floor_succ floor⟩ =
      .ok ⟨Felt.ofBool (f y x) :: rest, floor⟩ := by
  have deep : minStackDepth ≤ (Felt.ofBool y :: rest).length := floor
  rw [popTwoBoolean_flags, OperandStack.drop_of_deep _ deep]
  rfl

private theorem executeAll_or (x y : Bool) {rest : List Felt}
    (floor : minStackDepth ≤ rest.length + 1) (after : List (Operation η)) :
    executeAll environment (.or :: after)
        ⟨⟨Felt.ofBool x :: Felt.ofBool y :: rest, floor_succ floor⟩,
          advice, store, storage⟩ =
      executeAll environment after
        ⟨⟨Felt.ofBool (y || x) :: rest, floor⟩, advice, store, storage⟩ := by
  simp only [executeAll, Operation.execute, popTwoBoolean_deep _ _ _ floor, bind, Except.bind,
    pure, Except.pure]

theorem checkLt_limbs {x y : Nat} (xSmall : x < 2 ^ 32) (ySmall : y < 2 ^ 32)
    (rest : List Felt) (floor : minStackDepth ≤ rest.length + 1) :
    executeAll environment Instruction.checkLt
        ⟨⟨Felt.new x :: Felt.new y :: rest, floor_succ floor⟩,
          advice, store, storage⟩ =
      .ok ⟨⟨Felt.ofBool (y < x) :: rest, floor⟩, advice, store, storage⟩ := by
  unfold Instruction.checkLt
  rw [executeAll_u32sub environment advice store storage xSmall ySmall,
    executeAll_swap_drop environment advice store storage _ _ floor]
  rfl

theorem checkLte_limbs {x y : Nat} (xSmall : x < 2 ^ 32) (ySmall : y < 2 ^ 32)
    (rest : List Felt) (floor : minStackDepth ≤ rest.length + 1) :
    executeAll environment Instruction.checkLte
        ⟨⟨Felt.new x :: Felt.new y :: rest, floor_succ floor⟩,
          advice, store, storage⟩ =
      .ok ⟨⟨Felt.ofBool (y ≤ x) :: rest, floor⟩, advice, store, storage⟩ := by
  have combined : (decide (y < x) || decide (x = y)) = decide (y ≤ x) := by
    simp only [← Bool.decide_or, decide_eq_decide]
    omega
  unfold Instruction.checkLte
  rw [executeAll_u32sub environment advice store storage xSmall ySmall, executeAll_swap_eqz,
    difference_eq_zero xSmall ySmall, executeAll_or environment advice store storage _ _ floor,
    combined]
  rfl

/-- The strict comparison of the high limbs decides, and on equal high limbs
the comparison of the low limbs does. -/
theorem setResult_flags (low equal less : Bool) {rest : List Felt}
    (floor : minStackDepth ≤ rest.length + 2) :
    executeAll environment Instruction.setResult
        ⟨⟨Felt.ofBool low :: Felt.ofBool equal :: Felt.ofBool less :: rest,
          floor_succ floor⟩, advice, store, storage⟩ =
      .ok ⟨(OperandStack.drop ⟨Felt.ofBool (equal && low) :: Felt.ofBool less :: rest, floor⟩).set 0
        (Felt.ofBool (less || (equal && low))), advice, store, storage⟩ := by
  have deep : minStackDepth ≤ (Felt.ofBool less :: rest).length + 1 := floor
  unfold Instruction.setResult
  simp only [executeAll, Operation.execute, popTwoBoolean_deep _ _ _ deep,
    bind, Except.bind, pure, Except.pure, popTwoBoolean_flags]

theorem lt_iff_limbs (a b : Felt) :
    a < b ↔ highLimb a < highLimb b ∨ highLimb b = highLimb a ∧ lowLimb a < lowLimb b := by
  have aLow := lowLimb_lt a
  have bLow := lowLimb_lt b
  rw [Fin.lt_def, val_eq_limbs a, val_eq_limbs b]
  omega

theorem le_iff_limbs (a b : Felt) :
    b ≤ a ↔ highLimb b < highLimb a ∨ highLimb a = highLimb b ∧ lowLimb b ≤ lowLimb a := by
  have aLow := lowLimb_lt a
  have bLow := lowLimb_lt b
  rw [Fin.le_def, val_eq_limbs a, val_eq_limbs b]
  omega

/-- A comparison assembled from a part for the high limbs and a part for the
low limbs: the two elements give way to one flag. -/
private theorem compare_of_parts {highBits lowBits : List (Operation η)} {b a first second : Felt}
    {low equal less flag : Bool} {rest : List Felt} (floor : minStackDepth ≤ rest.length + 2)
    (high : executeAll environment highBits
        ⟨⟨Felt.new (lowLimb b) :: Felt.new (highLimb b) :: Felt.new (lowLimb a) ::
          Felt.new (highLimb a) :: rest, floor_succ (floor_succ floor)⟩, advice, store, storage⟩ =
      .ok ⟨⟨first :: second :: Felt.ofBool equal :: Felt.ofBool less :: rest,
        floor_succ (floor_succ floor)⟩, advice, store, storage⟩)
    (lower : executeAll environment lowBits
        ⟨⟨first :: second :: Felt.ofBool equal :: Felt.ofBool less :: rest,
          floor_succ (floor_succ floor)⟩, advice, store, storage⟩ =
      .ok ⟨⟨Felt.ofBool low :: Felt.ofBool equal :: Felt.ofBool less :: rest,
        floor_succ floor⟩, advice, store, storage⟩)
    (decides : (less || (equal && low)) = flag) :
    executeAll environment
        (Instruction.splitElements ++ highBits ++ lowBits ++ Instruction.setResult)
        ⟨⟨b :: a :: rest, floor⟩, advice, store, storage⟩ =
      .ok ⟨Operation.popTwoPush (fun _ _ => Felt.ofBool flag) ⟨b :: a :: rest, floor⟩,
        advice, store, storage⟩ := by
  rw [List.append_assoc, List.append_assoc,
    executeAll_append environment (splitElements_limbs environment advice store storage b a floor),
    executeAll_append environment high, executeAll_append environment lower,
    setResult_flags environment advice store storage _ _ _ floor, decides]
  exact congrArg (fun stack => Except.ok (State.mk stack advice store storage))
    (OperandStack.set_drop_congr floor floor)

end Limbs

/-! ### Comparisons -/

section Steps

variable {κ σ η : Type} (environment : Environment κ σ η)

/-- Every operand stack shows its two topmost cells. -/
private theorem OperandStack.exists_two_cells (stack : OperandStack) :
    ∃ (b a : Felt) (rest : List Felt) (floor : minStackDepth ≤ rest.length + 2),
      stack = ⟨b :: a :: rest, floor⟩ := by
  match stack with
  | ⟨b :: a :: rest, floor⟩ => exact ⟨b, a, rest, floor, rfl⟩

theorem step_lt (state : State κ σ) :
    (machine environment).step .lt state =
      .ok { state with
        stack := Operation.popTwoPush (fun a b => Felt.ofBool (a < b)) state.stack } := by
  obtain ⟨stack, advice, store, storage⟩ := state
  obtain ⟨b, a, rest, floor, rfl⟩ := OperandStack.exists_two_cells stack
  apply compare_of_parts environment advice store storage floor
    (checkLtHighBits_limbs environment advice store storage (highLimb_lt b) (highLimb_lt a) _)
    (checkLt_limbs environment advice store storage (lowLimb_lt b) (lowLimb_lt a) (_ :: _ :: rest)
      (floor_succ floor))
  simp only [← Bool.decide_and, ← Bool.decide_or, ← lt_iff_limbs]
  rfl

theorem step_gt (state : State κ σ) :
    (machine environment).step .gt state =
      .ok { state with
        stack := Operation.popTwoPush (fun a b => Felt.ofBool (b < a)) state.stack } := by
  obtain ⟨stack, advice, store, storage⟩ := state
  obtain ⟨b, a, rest, floor, rfl⟩ := OperandStack.exists_two_cells stack
  apply compare_of_parts environment advice store storage floor
    (checkGtHighBits_limbs environment advice store storage (highLimb_lt b) (highLimb_lt a) _)
    (checkLt_limbs environment advice store storage (lowLimb_lt a) (lowLimb_lt b) (_ :: _ :: rest)
      (floor_succ floor))
  simp only [← Bool.decide_and, ← Bool.decide_or, ← lt_iff_limbs]
  rfl

/-- `gte` reads `[b, a]` and says whether `a ≥ b`. -/
theorem step_gte (state : State κ σ) :
    (machine environment).step .gte state =
      .ok { state with
        stack := Operation.popTwoPush (fun a b => Felt.ofBool (b ≤ a)) state.stack } := by
  obtain ⟨stack, advice, store, storage⟩ := state
  obtain ⟨b, a, rest, floor, rfl⟩ := OperandStack.exists_two_cells stack
  apply compare_of_parts environment advice store storage floor
    (checkGtHighBits_limbs environment advice store storage (highLimb_lt b) (highLimb_lt a) _)
    (checkLte_limbs environment advice store storage (lowLimb_lt a) (lowLimb_lt b) (_ :: _ :: rest)
      (floor_succ floor))
  simp only [← Bool.decide_and, ← Bool.decide_or, ← le_iff_limbs]
  rfl

variable (caller : OperandStack) (advice : List Felt) (store : σ) (storage : Storage κ)
  (top : List Felt)

@[simp] theorem step_lt_above (b a : Felt) :
    (machine environment).step .lt ⟨.above (b :: a :: top) caller, advice, store, storage⟩ =
      .ok ⟨.above (Felt.ofBool (a < b) :: top) caller, advice, store, storage⟩ := by
  rw [step_lt, popTwoPush_above]

@[simp] theorem step_gt_above (b a : Felt) :
    (machine environment).step .gt ⟨.above (b :: a :: top) caller, advice, store, storage⟩ =
      .ok ⟨.above (Felt.ofBool (b < a) :: top) caller, advice, store, storage⟩ := by
  rw [step_gt, popTwoPush_above]

@[simp] theorem step_gte_above (b a : Felt) :
    (machine environment).step .gte ⟨.above (b :: a :: top) caller, advice, store, storage⟩ =
      .ok ⟨.above (Felt.ofBool (b ≤ a) :: top) caller, advice, store, storage⟩ := by
  rw [step_gte, popTwoPush_above]

/-! ### Flags and assertions -/

@[simp] theorem step_not_flag (flag : Bool) :
    (machine environment).step .not
        ⟨.above (Felt.ofBool flag :: top) caller, advice, store, storage⟩ =
      .ok ⟨.above (Felt.ofBool (!flag) :: top) caller, advice, store, storage⟩ := by
  cases flag <;> rfl

theorem step_assert (state : State κ σ) :
    (machine environment).step .assert state =
      if state.stack.get 0 = 1 then .ok { state with stack := state.stack.drop }
      else .error .failedAssertion := by
  rw [step_of_lower_singleton environment rfl]
  simp only [Operation.execute, ne_eq, ite_not]

@[simp] theorem step_assert_flag (flag : Bool) :
    (machine environment).step .assert
        ⟨.above (Felt.ofBool flag :: top) caller, advice, store, storage⟩ =
      if flag then .ok ⟨.above top caller, advice, store, storage⟩
      else .error .failedAssertion := by
  cases flag <;> simp [step_assert]

@[simp] theorem step_assertEq_above (b a : Felt) :
    (machine environment).step .assertEq ⟨.above (b :: a :: top) caller, advice, store, storage⟩ =
      if a = b then .ok ⟨.above top caller, advice, store, storage⟩
      else .error .failedAssertion := by
  have compared : (machine environment).step .assertEq
      ⟨.above (b :: a :: top) caller, advice, store, storage⟩ =
      (machine environment).step .assert
        ⟨.above (Felt.ofBool (a = b) :: top) caller, advice, store, storage⟩ := by
    show executeAll environment [.assert] ⟨Operation.popTwoPush _ _, advice, store, storage⟩ = _
    rw [popTwoPush_above]
    rfl
  rw [compared, step_assert_flag]
  simp only [decide_eq_true_eq]

/-- `xor` of two flags. Other elements are refused. -/
def xorElements (a b : Felt) : Except ExecutionError Felt := do
  Operation.assertBinary a
  Operation.assertBinary b
  return Felt.ofBool (xor (a = 1) (b = 1))

def IsFlag (value : Felt) : Prop := value = 0 ∨ value = 1

instance (value : Felt) : Decidable (IsFlag value) := inferInstanceAs (Decidable (_ ∨ _))

/-- A flag, or an element that is refused. -/
theorem assertBinary_cases (value : Felt) :
    (∃ flag, value = Felt.ofBool flag) ∨
      Operation.assertBinary value = .error (.notBinaryValue value) := by
  by_cases zero : value = 0
  · exact .inl ⟨false, zero⟩
  by_cases one : value = 1
  · exact .inl ⟨true, one⟩
  · exact .inr (if_pos ⟨zero, one⟩)

theorem assertBinary_ofBool (flag : Bool) : Operation.assertBinary (Felt.ofBool flag) = .ok () := by
  cases flag <;> rfl

theorem xorElements_ofBool (x y : Bool) :
    xorElements (Felt.ofBool x) (Felt.ofBool y) = .ok (Felt.ofBool (xor x y)) := by
  cases x <;> cases y <;> rfl

theorem xorElements_completes_iff (a b : Felt) :
    (∃ result, xorElements a b = .ok result) ↔ IsFlag a ∧ IsFlag b := by
  have refuses : ∀ value failure, Operation.assertBinary value = .error failure → ¬ IsFlag value := by
    rintro value failure refused (rfl | rfl) <;> cases refused
  rcases assertBinary_cases a with ⟨x, rfl⟩ | refusedA
  · rcases assertBinary_cases b with ⟨y, rfl⟩ | refusedB
    · refine iff_of_true ⟨_, xorElements_ofBool x y⟩ ?_
      cases x <;> cases y <;> decide
    · refine iff_of_false ?_ fun flags => refuses b _ refusedB flags.2
      rintro ⟨result, combined⟩
      rw [xorElements, assertBinary_ofBool, refusedB] at combined
      cases combined
  · refine iff_of_false ?_ fun flags => refuses a _ refusedA flags.1
    rintro ⟨result, combined⟩
    rw [xorElements, refusedA] at combined
    cases combined

/-- The result is a flag again. -/
theorem isFlag_of_xorElements {a b result : Felt} (combined : xorElements a b = .ok result) :
    IsFlag result := by
  obtain ⟨flagA, flagB⟩ := (xorElements_completes_iff a b).mp ⟨result, combined⟩
  rcases flagA with rfl | rfl <;> rcases flagB with rfl | rfl <;> cases combined <;> decide

/-- A fold of `xor` goes through exactly if it meets flags only. -/
theorem foldlM_xorElements_completes_iff (element : Felt) (rest : List Felt) (start : Felt) :
    (∃ result, (element :: rest).foldlM xorElements start = .ok result) ↔
      ∀ value ∈ start :: element :: rest, IsFlag value := by
  induction rest generalizing element start with
  | nil =>
      have single : [element].foldlM xorElements start = xorElements start element := by
        rw [List.foldlM_cons]
        cases xorElements start element <;> rfl
      simp [single, xorElements_completes_iff]
  | cons following rest inductionHypothesis =>
      rw [List.foldlM_cons, List.forall_mem_cons, List.forall_mem_cons]
      constructor
      · rintro ⟨result, folded⟩
        obtain ⟨next, combined, folded⟩ := bind_eq_ok_iff.mp folded
        have flags := (xorElements_completes_iff start element).mp ⟨next, combined⟩
        have later := (inductionHypothesis following next).mp ⟨result, folded⟩
        exact ⟨flags.1, flags.2, (List.forall_mem_cons.mp later).2⟩
      · rintro ⟨first, second, others⟩
        obtain ⟨next, combined⟩ := (xorElements_completes_iff start element).mpr ⟨first, second⟩
        have flags := List.forall_mem_cons.mpr ⟨isFlag_of_xorElements combined, others⟩
        obtain ⟨result, folded⟩ := (inductionHypothesis following next).mpr flags
        exact ⟨result, bind_eq_ok_iff.mpr ⟨next, combined, folded⟩⟩

theorem popTwoBoolean_above (f : Bool → Bool → Bool) (b a : Felt) :
    Operation.popTwoBoolean f (.above (b :: a :: top) caller) = (do
      Operation.assertBinary b
      Operation.assertBinary a
      return .above (Felt.ofBool (f (a = 1) (b = 1)) :: top) caller) := by
  unfold Operation.popTwoBoolean
  rw [OperandStack.drop_above]
  rfl

private theorem popTwoBoolean_above_flags (f : Bool → Bool → Bool) (x y : Bool) :
    Operation.popTwoBoolean f (.above (Felt.ofBool x :: Felt.ofBool y :: top) caller) =
      .ok (.above (Felt.ofBool (f y x) :: top) caller) := by
  rw [popTwoBoolean_above, assertBinary_ofBool, assertBinary_ofBool]
  cases x <;> cases y <;> rfl

/-- The disjunction, without the conjunction. -/
private theorem executeAll_xor_flags (x y : Bool) :
    executeAll environment [.or, .movDn 2, .and, .not, .and]
        ⟨.above (Felt.ofBool x :: Felt.ofBool y :: Felt.ofBool y :: Felt.ofBool x :: top) caller,
          advice, store, storage⟩ =
      .ok ⟨.above (Felt.ofBool (xor x y) :: top) caller, advice, store, storage⟩ := by
  have sunk : ∀ flag : Felt,
      (OperandStack.above (flag :: Felt.ofBool y :: Felt.ofBool x :: top) caller).movDn 2 =
        .above (Felt.ofBool y :: Felt.ofBool x :: flag :: top) caller := fun _ => rfl
  have both : executeAll environment [.or, .movDn 2, .and]
      ⟨.above (Felt.ofBool x :: Felt.ofBool y :: Felt.ofBool y :: Felt.ofBool x :: top) caller,
        advice, store, storage⟩ =
      .ok ⟨.above (Felt.ofBool (x && y) :: Felt.ofBool (y || x) :: top) caller,
        advice, store, storage⟩ := by
    simp only [executeAll, Operation.execute, popTwoBoolean_above_flags, sunk, bind, Except.bind, pure,
      Except.pure]
  have negated : Operation.execute environment .not
      ⟨.above (Felt.ofBool (x && y) :: Felt.ofBool (y || x) :: top) caller, advice, store, storage⟩ =
      .ok ⟨.above (Felt.ofBool (!(x && y)) :: Felt.ofBool (y || x) :: top) caller,
        advice, store, storage⟩ := by
    cases x && y <;> rfl
  refine (executeAll_append environment both [.not, .and]).trans ?_
  rw [executeAll, negated]
  simp only [executeAll, Operation.execute, popTwoBoolean_above_flags, bind, Except.bind, pure,
    Except.pure]
  cases x <;> cases y <;> rfl

@[simp] theorem step_xor_above (b a : Felt) :
    (machine environment).step .xor ⟨.above (b :: a :: top) caller, advice, store, storage⟩ =
      (xorElements a b).map fun result =>
        ⟨.above (result :: top) caller, advice, store, storage⟩ := by
  show executeAll environment [.or, .movDn 2, .and, .not, .and]
    ⟨.above (a :: b :: b :: a :: top) caller, advice, store, storage⟩ = _
  rcases assertBinary_cases a with ⟨x, rfl⟩ | refused
  · rcases assertBinary_cases b with ⟨y, rfl⟩ | refused
    · rw [xorElements_ofBool]
      exact executeAll_xor_flags environment caller advice store storage top x y
    · simp only [executeAll, Operation.execute, popTwoBoolean_above, xorElements, assertBinary_ofBool,
        refused, bind, Except.bind, Except.map]
  · simp only [executeAll, Operation.execute, popTwoBoolean_above, xorElements, refused, bind,
      Except.bind, Except.map]

end Steps

end MidenWorkspace.Vm
