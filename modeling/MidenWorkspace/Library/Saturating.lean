import Mathlib.Data.UInt
import Mathlib.Algebra.Ring.Nat
import Mathlib.Data.List.Basic
import Mathlib.Order.MinMax

/-!
Contract: saturating arithmetic on 32-bit words.

Owns `saturatingAdd` and `saturatingMul`, what they are on naturals, and the law
that a sum accumulated with saturation at every step is the exact sum, capped
once at the end.
-/

namespace MidenWorkspace.Library.Saturating

/-- The largest 32-bit word, as a natural. -/
def cap : Nat := 2 ^ 32 - 1

def saturatingAdd (left right : UInt32) : UInt32 :=
  UInt32.ofNat (min cap (left.toNat + right.toNat))

def saturatingMul (left right : UInt32) : UInt32 :=
  UInt32.ofNat (min cap (left.toNat * right.toNat))

private theorem toNat_ofNat_min (value : Nat) :
    (UInt32.ofNat (min cap value)).toNat = min cap value :=
  UInt32.toNat_ofNat_of_lt' (lt_of_le_of_lt (min_le_left cap value) (by decide))

@[simp] theorem toNat_saturatingAdd (left right : UInt32) :
    (saturatingAdd left right).toNat = min cap (left.toNat + right.toNat) :=
  toNat_ofNat_min _

@[simp] theorem toNat_saturatingMul (left right : UInt32) :
    (saturatingMul left right).toNat = min cap (left.toNat * right.toNat) :=
  toNat_ofNat_min _

section Fold

variable {α : Type*} (counts : α → Bool) (term : α → UInt32) (exact : α → Nat)

/-- Adding up with saturation, over the elements that count. -/
theorem toNat_foldl_saturatingAdd
    (capped : ∀ element, (term element).toNat = min cap (exact element))
    (elements : List α) (start : UInt32) :
    (elements.foldl
        (fun total element => if counts element then saturatingAdd total (term element) else total)
        start).toNat =
      min cap (start.toNat + ((elements.filter counts).map exact).sum) := by
  induction elements generalizing start with
  | nil =>
      have bounded : start.toNat ≤ cap := Nat.le_sub_one_of_lt start.toNat_lt
      simpa using bounded
  | cons element rest inductionHypothesis =>
      rw [List.foldl_cons, inductionHypothesis]
      by_cases counted : counts element = true
      · rw [if_pos counted, List.filter_cons_of_pos counted, List.map_cons, List.sum_cons,
          toNat_saturatingAdd, capped]
        omega
      · rw [if_neg counted, List.filter_cons_of_neg counted]

end Fold

end MidenWorkspace.Library.Saturating
