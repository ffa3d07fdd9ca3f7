import Mathlib.Algebra.Ring.Nat
import Mathlib.Data.List.Basic
import Mathlib.Data.Nat.Digits.Defs

/-!
Contract: numerals with a fixed number of digits.

Owns the last digits of a number, least significant first, that `Nat.ofDigits` undoes
them up to the digits that are cut off, and that they undo `Nat.ofDigits`.
-/

namespace MidenWorkspace.Library.Positional

/-- The last `count` digits of `value`, least significant first. -/
def digits (base : Nat) : Nat → Nat → List Nat
  | 0, _ => []
  | count + 1, value => value % base :: digits base count (value / base)

@[simp] theorem digits_length (base count value : Nat) :
    (digits base count value).length = count := by
  induction count generalizing value with
  | zero => rfl
  | succ count inductionHypothesis => simp [digits, inductionHypothesis]

theorem lt_of_mem_digits {base count value digit : Nat} (positive : 0 < base)
    (member : digit ∈ digits base count value) : digit < base := by
  induction count generalizing value with
  | zero => cases member
  | succ count inductionHypothesis =>
      rcases List.mem_cons.mp member with rfl | higher
      · exact Nat.mod_lt value positive
      · exact inductionHypothesis higher

theorem ofDigits_digits (base count value : Nat) :
    Nat.ofDigits base (digits base count value) = value % base ^ count := by
  induction count generalizing value with
  | zero => simp [digits, Nat.mod_one]
  | succ count inductionHypothesis =>
      rw [digits, Nat.ofDigits_cons, inductionHypothesis, Nat.pow_succ', Nat.mod_mul]

theorem digits_zero (base count : Nat) : digits base count 0 = .replicate count 0 := by
  induction count with
  | zero => rfl
  | succ count inductionHypothesis =>
      rw [digits, Nat.zero_mod, Nat.zero_div, inductionHypothesis, List.replicate_succ]

/-- The digits of a numeral that is not too long, with leading zeros. -/
theorem digits_ofDigits {base count : Nat} {numerals : List Nat}
    (small : ∀ digit ∈ numerals, digit < base) (short : numerals.length ≤ count) :
    digits base count (Nat.ofDigits base numerals) =
      numerals ++ .replicate (count - numerals.length) 0 := by
  induction numerals generalizing count with
  | nil => exact digits_zero base count
  | cons digit higher inductionHypothesis =>
      obtain ⟨fewer, rfl⟩ : ∃ fewer, count = fewer + 1 :=
        ⟨count - 1, by rw [List.length_cons] at short; omega⟩
      have isDigit := small digit List.mem_cons_self
      rw [Nat.ofDigits_cons, digits, Nat.add_mul_mod_self_left, Nat.mod_eq_of_lt isDigit,
        Nat.add_mul_div_left _ _ (by omega), Nat.div_eq_of_lt isDigit, Nat.zero_add,
        inductionHypothesis (fun other member => small other (List.mem_cons_of_mem _ member))
          (by rw [List.length_cons] at short; omega), List.length_cons, Nat.add_sub_add_right,
        List.cons_append]

end MidenWorkspace.Library.Positional
