import Mathlib.Data.ZMod.Defs
import Mathlib.Tactic.Ring
import Mathlib.Tactic.Ring.RingNF

/-!
Contract: field elements, words and the operand stack of the VM.

Owns:
- the base field `Felt`, its canonical representatives and its words;
- the operand stack with the depth floor that `decrement_stack_size` keeps;
- the laws of every stack primitive on cells laid over a caller's stack.

`OperandStack` carries the depth floor as a field: dropping at depth 16 brings
a zero in from the bottom, so no operation can build a shallower stack.

Does not own: the size of the processor's stack buffer. No procedure modelled
here comes near it.
-/

namespace MidenWorkspace.Vm

open Fin.CommRing

/-- The order of the base field, `2^64 - 2^32 + 1`. -/
def modulus : Nat := 0xffffffff00000001

example : modulus = 2 ^ 64 - 2 ^ 32 + 1 := by decide

@[simp] theorem modulus_ne_one : modulus ≠ 1 := by decide

instance : NeZero modulus := ⟨by decide⟩

/-- A field element, given by its canonical representative. -/
abbrev Felt := Fin modulus

namespace Felt

/-- The element represented by `value`, reduced modulo the field order. -/
def new (value : Nat) : Felt := ⟨value % modulus, Nat.mod_lt _ (by decide)⟩

@[simp] theorem new_val (value : Nat) : (new value).val = value % modulus := rfl

theorem new_val_of_lt {value : Nat} (canonical : value < modulus) :
    (new value).val = value :=
  Nat.mod_eq_of_lt canonical

/-- The `0`/`1` flag of a decision. -/
def ofBool (flag : Bool) : Felt := if flag then 1 else 0

@[simp] theorem ofBool_true : ofBool true = 1 := rfl

@[simp] theorem ofBool_false : ofBool false = 0 := rfl

end Felt

/-- Four field elements; `e0` is the element that lies on top of the stack. -/
structure Word where
  e0 : Felt
  e1 : Felt
  e2 : Felt
  e3 : Felt
deriving DecidableEq, Repr

namespace Word

/-- The word of four zeros. -/
def empty : Word := ⟨0, 0, 0, 0⟩

/-- The elements of a word, top of the stack first. -/
def toList (word : Word) : List Felt := [word.e0, word.e1, word.e2, word.e3]

end Word

/-- `MIN_STACK_DEPTH`. -/
def minStackDepth : Nat := 16

/-- The operand stack, top first. -/
@[ext] structure OperandStack where
  cells : List Felt
  depth_ge : minStackDepth ≤ cells.length

/-! ### Moving one cell of a list -/

/-- Bring the element at position `n` to the front (`rotate_left(n + 1)`). -/
@[simp] def liftCell : Nat → List Felt → List Felt
  | 0, cells => cells
  | _ + 1, [] => []
  | n + 1, cell :: rest =>
      match liftCell n rest with
      | [] => [cell]
      | lifted :: others => lifted :: cell :: others

/-- Push the front element down to position `n` (`rotate_right(n + 1)`). -/
@[simp] def sinkCell : Nat → List Felt → List Felt
  | n + 1, cell :: next :: rest => next :: sinkCell n (cell :: rest)
  | _, cells => cells

theorem liftCell_length (n : Nat) (cells : List Felt) :
    (liftCell n cells).length = cells.length := by
  induction n generalizing cells with
  | zero => rfl
  | succ n inductionHypothesis =>
      cases cells with
      | nil => rfl
      | cons cell rest =>
          have restLength := inductionHypothesis rest
          simp only [liftCell]
          cases lifted : liftCell n rest with
          | nil =>
              rw [lifted] at restLength
              simp [← restLength]
          | cons first others =>
              rw [lifted] at restLength
              simp [← restLength]

theorem sinkCell_length (n : Nat) (cells : List Felt) :
    (sinkCell n cells).length = cells.length := by
  induction n generalizing cells with
  | zero => cases cells <;> rfl
  | succ n inductionHypothesis =>
      match cells with
      | [] => rfl
      | [_] => rfl
      | cell :: next :: rest => simp [sinkCell, inductionHypothesis]

theorem liftCell_append_of_lt {n : Nat} {top : List Felt} (inTop : n < top.length)
    (below : List Felt) : liftCell n (top ++ below) = liftCell n top ++ below := by
  induction n generalizing top with
  | zero => rfl
  | succ n inductionHypothesis =>
      match top, inTop with
      | cell :: rest, inTop =>
          have inRest : n < rest.length := by simpa using inTop
          have sameLength := liftCell_length n rest
          simp only [List.cons_append, liftCell, inductionHypothesis inRest]
          cases lifted : liftCell n rest with
          | nil =>
              rw [lifted, List.length_nil] at sameLength
              omega
          | cons first others => rfl

/-- A cell lifted out of the lower part passes over the cells in front of it. -/
theorem liftCell_length_add {n : Nat} {cells others : List Felt} {lifted : Felt}
    (split : liftCell n cells = lifted :: others) (front : List Felt) :
    liftCell (front.length + n) (front ++ cells) = lifted :: (front ++ others) := by
  induction front with
  | nil =>
      rw [List.length_nil, Nat.zero_add]
      exact split
  | cons cell rest inductionHypothesis =>
      rw [List.length_cons, Nat.add_right_comm, List.cons_append, liftCell, inductionHypothesis]
      rfl

namespace OperandStack

def depth (stack : OperandStack) : Nat := stack.cells.length

/-- The cell at position `index`, counted from the top. -/
def get (stack : OperandStack) (index : Nat) : Felt := stack.cells.getD index 0

def set (stack : OperandStack) (index : Nat) (value : Felt) : OperandStack :=
  ⟨stack.cells.set index value, by simpa using stack.depth_ge⟩

/-- Grow the stack by one cell (`increment_size`, then `set(0, value)`). -/
def push (stack : OperandStack) (value : Felt) : OperandStack :=
  ⟨value :: stack.cells, Nat.le_succ_of_le stack.depth_ge⟩

/-- `decrement_size`: at the minimal depth a zero comes in from the bottom. -/
def drop (stack : OperandStack) : OperandStack :=
  if deep : minStackDepth < stack.cells.length then
    ⟨stack.cells.tail, by rw [List.length_tail]; omega⟩
  else
    ⟨stack.cells.tail ++ [0], by
      have floor := stack.depth_ge
      rw [List.length_append, List.length_tail, List.length_singleton]
      omega⟩

def swap (stack : OperandStack) (left right : Nat) : OperandStack :=
  (stack.set left (stack.get right)).set right (stack.get left)

/-- Exchange the top `count` cells with the `count` cells from `position` on
(`swapw_nth` and `op_swap_double_word`). -/
def swapCells (stack : OperandStack) (count position : Nat) (apart : count ≤ position)
    (inReach : position + count ≤ minStackDepth) : OperandStack :=
  ⟨(stack.cells.drop position).take count ++ (stack.cells.drop count).take (position - count) ++
      stack.cells.take count ++ stack.cells.drop (position + count), by
    have floor := stack.depth_ge
    simp only [List.length_append, List.length_take, List.length_drop]
    omega⟩

def movUp (stack : OperandStack) (n : Nat) : OperandStack :=
  ⟨liftCell n stack.cells, by rw [liftCell_length]; exact stack.depth_ge⟩

def movDn (stack : OperandStack) (n : Nat) : OperandStack :=
  ⟨sinkCell n stack.cells, by rw [sinkCell_length]; exact stack.depth_ge⟩

theorem swap_eq_movUp (stack : OperandStack) : stack.swap 0 1 = stack.movUp 1 := by
  match stack with
  | ⟨_ :: _ :: _, _⟩ => rfl

/-- The double words on top change places. -/
theorem cells_swapCells_eight {stack : OperandStack} {first second rest : List Felt}
    (split : stack.cells = first ++ (second ++ rest)) (firstLength : first.length = 8)
    (secondLength : second.length = 8) :
    (stack.swapCells 8 8 (by decide) (by decide)).cells = second ++ (first ++ rest) := by
  simp [swapCells, split, List.take_append, List.drop_append, firstLength, secondLength]

theorem cells_movUp (stack : OperandStack) (n : Nat) :
    (stack.movUp n).cells = liftCell n stack.cells := rfl

theorem exists_double_words (stack : OperandStack) :
    ∃ first second rest : List Felt, first.length = 8 ∧ second.length = 8 ∧
      stack.cells = first ++ (second ++ rest) := by
  have floor : 16 ≤ stack.cells.length := stack.depth_ge
  refine ⟨stack.cells.take 8, (stack.cells.drop 8).take 8, (stack.cells.drop 8).drop 8, ?_, ?_, ?_⟩
  · rw [List.length_take]
    omega
  · rw [List.length_take, List.length_drop]
    omega
  · rw [List.take_append_drop, List.take_append_drop]

/-- A cell of the second double word is lifted by bringing that double word to the top
and back, with the cell on top of it. -/
theorem movUp_through_swapCells {n : Nat} (deep : 8 ≤ n) (valid : n ≤ 15) (stack : OperandStack) :
    (((stack.swapCells 8 8 (by decide) (by decide)).movUp (n - 8)).swapCells 8 8
      (by decide) (by decide)).movUp 8 = stack.movUp n := by
  obtain ⟨first, second, rest, firstLength, secondLength, whole⟩ := stack.exists_double_words
  have inSecond : n - 8 < second.length := by omega
  have sameLength := liftCell_length (n - 8) second
  obtain ⟨lifted, others, moved⟩ : ∃ lifted others, liftCell (n - 8) second = lifted :: others := by
    apply List.exists_cons_of_length_pos
    omega
  rw [moved] at sameLength
  have up : ((stack.swapCells 8 8 (by decide) (by decide)).movUp (n - 8)).cells =
      (lifted :: others) ++ (first ++ rest) := by
    rw [cells_movUp, cells_swapCells_eight whole firstLength secondLength,
      liftCell_append_of_lt inSecond, moved]
  have back := cells_swapCells_eight up (sameLength.trans secondLength) firstLength
  -- Both sides lift `lifted` over the first double word.
  have onTop : liftCell 0 ((lifted :: others) ++ rest) = lifted :: (others ++ rest) := rfl
  have inTail : liftCell (n - 8) (second ++ rest) = lifted :: (others ++ rest) := by
    rw [liftCell_append_of_lt inSecond, moved, List.cons_append]
  have fromTop := liftCell_length_add onTop first
  have fromTail := liftCell_length_add inTail first
  rw [firstLength] at fromTop
  rw [firstLength, Nat.add_sub_cancel' deep] at fromTail
  apply OperandStack.ext
  rw [cells_movUp, cells_movUp, back, whole, fromTop, fromTail]

/-- The word that starts at position `index`. -/
def getWord (stack : OperandStack) (index : Nat) : Word :=
  ⟨stack.get index, stack.get (index + 1), stack.get (index + 2), stack.get (index + 3)⟩

/-- Overwrite the word that starts at position `index`. -/
def setWord (stack : OperandStack) (index : Nat) (word : Word) : OperandStack :=
  (((stack.set index word.e0).set (index + 1) word.e1).set (index + 2) word.e2).set
    (index + 3) word.e3

/-- The given cells laid over a caller's stack. -/
def above (top : List Felt) (caller : OperandStack) : OperandStack :=
  ⟨top ++ caller.cells, by
    have floor := caller.depth_ge
    rw [List.length_append]
    omega⟩

/-- The stack of a fresh context. -/
def zeros : OperandStack := ⟨List.replicate minStackDepth 0, by decide⟩

/-! ### Primitives on cells over a caller's stack -/

variable (caller : OperandStack)

@[simp] theorem above_nil : above [] caller = caller := rfl

@[simp] theorem above_depth (top : List Felt) :
    (above top caller).depth = top.length + caller.depth := by
  simp [above, depth]

@[simp] theorem drop_above (cell : Felt) (top : List Felt) :
    (above (cell :: top) caller).drop = above top caller := by
  have floor := caller.depth_ge
  unfold drop
  rw [dif_pos (by simp only [above, List.cons_append, List.length_cons, List.length_append]; omega)]
  rfl

@[simp] theorem get_above_zero (cell : Felt) (top : List Felt) :
    (above (cell :: top) caller).get 0 = cell := rfl

@[simp] theorem get_above_succ (cell : Felt) (top : List Felt) (index : Nat) :
    (above (cell :: top) caller).get (index + 1) = (above top caller).get index := rfl

@[simp] theorem movUp_above {n : Nat} {top : List Felt} (inTop : n < top.length) :
    (above top caller).movUp n = above (liftCell n top) caller := by
  apply OperandStack.ext
  exact liftCell_append_of_lt inTop caller.cells

@[simp] theorem movDn_above {n : Nat} {top : List Felt} (inTop : n < top.length) :
    (above top caller).movDn n = above (sinkCell n top) caller := by
  apply OperandStack.ext
  simp only [movDn, above]
  induction n generalizing top with
  | zero => cases top <;> cases caller.cells <;> rfl
  | succ n inductionHypothesis =>
      match top, inTop with
      | [_], inTop => simp at inTop
      | cell :: next :: rest, inTop =>
          simp only [List.cons_append, sinkCell]
          rw [← List.cons_append, inductionHypothesis (by simpa using inTop)]

theorem get_set_zero (value : Felt) : (caller.set 0 value).get 0 = value := by
  match caller with
  | ⟨_ :: _, _⟩ => rfl

/-- A cell about to be dropped may hold anything. -/
theorem drop_set_zero (value : Felt) : (caller.set 0 value).drop = caller.drop := by
  match caller with
  | ⟨_ :: _, _⟩ => rfl

/-- Dropping never leaves the minimal depth. -/
theorem drop_depth : caller.drop.depth = max minStackDepth (caller.depth - 1) := by
  have floor := caller.depth_ge
  have positive : 0 < minStackDepth := by decide
  unfold drop depth
  by_cases deep : minStackDepth < caller.cells.length
  · rw [dif_pos deep]
    simp only [List.length_tail]
    omega
  · rw [dif_neg deep]
    simp only [List.length_append, List.length_tail, List.length_singleton]
    omega

end OperandStack

end MidenWorkspace.Vm
