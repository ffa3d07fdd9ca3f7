import Mathlib.Data.List.TakeWhile
import Mathlib.Data.Nat.Digits.Defs
import MidenWorkspace.Frontend.SubmitPage

/-!
Contract: institution ids and their texts (`lib/utils.ts`).

Owns `deriveInstitutionId` on the 32-bit integers of the language, the decimal text
of a number, and that `parseInt` reads the text back.
-/

namespace MidenWorkspace.Frontend

open MidenWorkspace.Library.Positional

/-- What a bitwise operator makes of a number. -/
def toInt32 (value : Int) : Int := value.bmod (2 ^ 32)

def deriveInstitutionId (walletAddress : JsString) : Nat :=
  let hash := walletAddress.foldl
    (fun hash unit => toInt32 ((toInt32 (hash * 2 ^ 5) - hash) + unit.toNat)) 0
  hash.natAbs % 900000 + 100000

theorem deriveInstitutionId_range (walletAddress : JsString) :
    100000 ≤ deriveInstitutionId walletAddress ∧ deriveInstitutionId walletAddress < 1000000 := by
  refine ⟨Nat.le_add_left _ _, ?_⟩
  exact Nat.add_lt_add_right (Nat.mod_lt _ (by decide)) 100000

/-- `value.toString()` for a natural number. -/
def decimal (value : Nat) : JsString :=
  if value = 0 then js "0" else ((Nat.digits 10 value).map hexUnit).reverse

example : decimal 902100 = js "902100" := by decide +kernel

/-! ### Reading a decimal text back -/

private theorem isDecimal_range {unit : UInt16} (digit : isDigitIn 10 unit = true) :
    48 ≤ unit.toNat ∧ unit.toNat ≤ 57 := by
  simp only [isDigitIn, digitValue] at digit
  split_ifs at digit with number lower upper
  · exact number
  · simp only [Option.any_some, decide_eq_true_eq] at digit
    omega
  · simp only [Option.any_some, decide_eq_true_eq] at digit
    omega
  · cases digit

section DecimalText

variable {text : JsString} (digits : ∀ unit ∈ text, isDigitIn 10 unit = true)
include digits

private theorem splitSign_of_digits : splitSign text = (false, text) := by
  unfold splitSign
  split
  · exact absurd (isDecimal_range (digits 45 List.mem_cons_self)) (by decide)
  · exact absurd (isDecimal_range (digits 43 List.mem_cons_self)) (by decide)
  · rfl

/-- A text of decimal digits is a numeral without a sign, as it stands. -/
theorem parseInt10_of_digits (notEmpty : text ≠ []) (small : valueOfDigits 10 text < 2 ^ 53) :
    parseInt10 text = .finite (valueOfDigits 10 text) := by
  obtain ⟨first, rest, rfl⟩ := List.exists_cons_of_ne_nil notEmpty
  have all : (first :: rest).takeWhile (isDigitIn 10) = first :: rest :=
    List.takeWhile_eq_self_iff.mpr digits
  simp only [parseInt10, trimStart_of_digits digits, splitSign_of_digits digits, parseDigits, all,
    roundToDouble, if_pos small]
  rfl

end DecimalText

private theorem digits_lt_ten {value digit : Nat} (member : digit ∈ Nat.digits 10 value) :
    digit < 10 :=
  Nat.digits_lt_base (by decide) member

theorem decimal_ne_nil (value : Nat) : decimal value ≠ [] := by
  rw [decimal]
  split_ifs with zero
  · decide
  · rw [Ne, List.reverse_eq_nil_iff, List.map_eq_nil_iff]
    exact Nat.digits_ne_nil_iff_ne_zero.mpr zero

theorem isDigitIn_of_mem_decimal {value : Nat} {unit : UInt16} (member : unit ∈ decimal value) :
    isDigitIn 10 unit = true := by
  rw [decimal] at member
  split_ifs at member with zero
  · rw [List.mem_singleton.mp member]
    decide
  · obtain ⟨digit, listed, rfl⟩ := List.mem_map.mp (List.mem_reverse.mp member)
    have small := digits_lt_ten listed
    rw [isDigitIn, digitValue_hexUnit digit (by omega)]
    exact decide_eq_true small

theorem valueOfDigits_decimal (value : Nat) : valueOfDigits 10 (decimal value) = value := by
  rw [decimal]
  split_ifs with zero
  · rw [zero]
    decide
  · rw [valueOfDigits_reverse (by decide) fun _ => digits_lt_ten, Nat.ofDigits_digits]

theorem parseInt10_decimal {value : Nat} (small : value < 2 ^ 53) :
    parseInt10 (decimal value) = .finite value := by
  have reads := valueOfDigits_decimal value
  rw [parseInt10_of_digits (fun _ => isDigitIn_of_mem_decimal) (decimal_ne_nil value)
    (by rwa [reads]), reads]

/-- The store reads the text of an institution's id as the id. -/
theorem parseInt10_derived (walletAddress : JsString) :
    parseInt10 (decimal (deriveInstitutionId walletAddress)) =
      .finite (deriveInstitutionId walletAddress) := by
  apply parseInt10_decimal
  have range := (deriveInstitutionId_range walletAddress).2
  omega

end MidenWorkspace.Frontend
