import Mathlib.Data.UInt
import Mathlib.Algebra.Ring.Nat
import Mathlib.Data.List.Induction

/-!
Contract: the XOR of a list of 64-bit words.

Owns when an XOR leaves a word as it is; `xorFold`, how it grows by one word and splits over
two lists, that the order of the words does not matter, and that words below a power of two
stay below it.
-/

namespace MidenWorkspace.Library.XorFold

def xorFold (words : List UInt64) : UInt64 :=
  words.foldl (· ^^^ ·) 0

@[simp] theorem xorFold_nil : xorFold [] = 0 := rfl

theorem xorFold_concat (words : List UInt64) (word : UInt64) :
    xorFold (words ++ [word]) = xorFold words ^^^ word :=
  List.foldl_append

/-- Only zero leaves a word as it is. -/
theorem xor_eq_left_iff (word mask : UInt64) : word ^^^ mask = word ↔ mask = 0 := by
  conv_lhs => rhs; rw [← UInt64.xor_zero (a := word)]
  exact UInt64.xor_right_inj word

theorem xorFold_append (first second : List UInt64) :
    xorFold (first ++ second) = xorFold first ^^^ xorFold second := by
  induction second using List.reverseRecOn with
  | nil => rw [List.append_nil, xorFold_nil, UInt64.xor_zero]
  | append_singleton second word inductionHypothesis =>
      rw [← List.append_assoc, xorFold_concat, inductionHypothesis, xorFold_concat,
        UInt64.xor_assoc]

theorem xorFold_perm {first second : List UInt64} (permuted : first.Perm second) :
    xorFold first = xorFold second :=
  permuted.foldl_eq' (fun a _ b _ folded => by
    rw [UInt64.xor_assoc, UInt64.xor_comm a b, ← UInt64.xor_assoc]) 0

theorem xorFold_lt {words : List UInt64} {bits : Nat}
    (small : ∀ word ∈ words, word.toNat < 2 ^ bits) : (xorFold words).toNat < 2 ^ bits := by
  induction words using List.reverseRecOn with
  | nil => exact Nat.two_pow_pos bits
  | append_singleton words word inductionHypothesis =>
      rw [xorFold_concat, UInt64.toNat_xor]
      apply Nat.xor_lt_two_pow
      · exact inductionHypothesis fun earlier member => small earlier (List.mem_append_left _ member)
      · exact small word (List.mem_append_right _ (List.mem_singleton_self word))

end MidenWorkspace.Library.XorFold
