import Mathlib.Algebra.BigOperators.Group.Finset.Basic
import Mathlib.Algebra.BigOperators.Ring.Finset
import Mathlib.Data.Int.ModEq
import Mathlib.Data.List.GetD
import MidenWorkspace.Frontend.Institution
import MidenWorkspace.Syndex.Registration

/-!
Contract: the institution id that the register page derives, up to the contract
that checks it.

Owns the hash loop of `deriveInstitutionId` as a polynomial in 31 modulo `2 ^ 32`,
the exactness of every number on the way, and that the contract's range assertions
hold for the id.

The loop shifts on 32-bit integers and adds on doubles. A turn starts from a 32-bit
value, so nothing in it comes near `2 ^ 53`, and each truncation only drops a
multiple of `2 ^ 32`.
-/

namespace MidenWorkspace.Syndex

open Finset
open MidenWorkspace.Frontend
open MidenWorkspace.Vm
open MidenWorkspace.Protocol
open MidenWorkspace.Library.Structured

/-! ### The hash loop -/

/-- One turn: `hash = ((hash << 5) - hash) + unit`, then `hash = hash & hash`. -/
def hashTurn (hash : Int) (unit : UInt16) : Int :=
  toInt32 ((toInt32 (hash * 2 ^ 5) - hash) + unit.toNat)

/-- The numbers that a turn computes, in order. -/
def turnValues (hash : Int) (unit : UInt16) : List Int :=
  [toInt32 (hash * 2 ^ 5), toInt32 (hash * 2 ^ 5) - hash,
    (toInt32 (hash * 2 ^ 5) - hash) + unit.toNat, hashTurn hash unit]

def hashOf (walletAddress : JsString) : Int := walletAddress.foldl hashTurn 0

/-- The numbers between the loop and the id. -/
def resultValues (hash : Int) : List Nat :=
  [hash.natAbs, hash.natAbs % 900000, hash.natAbs % 900000 + 100000]

theorem deriveInstitutionId_eq (walletAddress : JsString) :
    deriveInstitutionId walletAddress = (hashOf walletAddress).natAbs % 900000 + 100000 := rfl

theorem hashOf_concat (walletAddress : JsString) (unit : UInt16) :
    hashOf (walletAddress ++ [unit]) = hashTurn (hashOf walletAddress) unit :=
  List.foldl_append

theorem toInt32_modEq (value : Int) : toInt32 value ≡ value [ZMOD 2 ^ 32] :=
  Int.bmod_emod

theorem toInt32_range (value : Int) : -2 ^ 31 ≤ toInt32 value ∧ toInt32 value < 2 ^ 31 :=
  ⟨Int.le_bmod (by decide), Int.bmod_lt (by decide)⟩

theorem hashOf_range (walletAddress : JsString) :
    -2 ^ 31 ≤ hashOf walletAddress ∧ hashOf walletAddress < 2 ^ 31 := by
  rcases List.eq_nil_or_concat' walletAddress with rfl | ⟨front, last, rfl⟩
  · decide
  · rw [hashOf_concat]
    exact toInt32_range _

/-- A turn is multiplication by 31 and addition, up to multiples of `2 ^ 32`. -/
theorem hashTurn_modEq (hash : Int) (unit : UInt16) :
    hashTurn hash unit ≡ hash * 31 + unit.toNat [ZMOD 2 ^ 32] := by
  have shifted := ((toInt32_modEq (hash * 2 ^ 5)).sub_right hash).add_right (unit.toNat : Int)
  have product : hash * 2 ^ 5 - hash + (unit.toNat : Int) = hash * 31 + unit.toNat := by ring
  rw [product] at shifted
  exact (toInt32_modEq _).trans shifted

/-- The sum of `unit * 31 ^ (n - 1 - index)` over the code units, counted from 0. -/
def addressPolynomial (walletAddress : JsString) : Nat :=
  ∑ index ∈ range walletAddress.length,
    (walletAddress.getD index 0).toNat * 31 ^ (walletAddress.length - 1 - index)

theorem addressPolynomial_concat (walletAddress : JsString) (unit : UInt16) :
    addressPolynomial (walletAddress ++ [unit]) = addressPolynomial walletAddress * 31 + unit.toNat := by
  unfold addressPolynomial
  rw [List.length_append, List.length_singleton, sum_range_succ, sum_mul]
  congr 1
  · apply sum_congr rfl
    intro index member
    have inside := mem_range.mp member
    have exponent : walletAddress.length + 1 - 1 - index = walletAddress.length - 1 - index + 1 := by
      omega
    rw [List.getD_append _ _ _ _ inside, exponent, pow_succ, mul_assoc]
  · simp

theorem hashOf_modEq (walletAddress : JsString) :
    hashOf walletAddress ≡ addressPolynomial walletAddress [ZMOD 2 ^ 32] := by
  induction walletAddress using List.reverseRecOn with
  | nil => rfl
  | append_singleton front unit inductionHypothesis =>
      rw [hashOf_concat, addressPolynomial_concat]
      push_cast
      exact (hashTurn_modEq _ unit).trans ((inductionHypothesis.mul_right 31).add_right _)

/-! ### Exactness -/

/-- A turn from a 32-bit value stays far below the first inexact integer. -/
theorem natAbs_lt_of_mem_turnValues {hash : Int} (signed : -2 ^ 31 ≤ hash ∧ hash < 2 ^ 31)
    (unit : UInt16) {value : Int} (member : value ∈ turnValues hash unit) :
    value.natAbs < 2 ^ 53 := by
  have shifted := toInt32_range (hash * 2 ^ 5)
  have next : -2 ^ 31 ≤ hashTurn hash unit ∧ hashTurn hash unit < 2 ^ 31 := toInt32_range _
  have small := unit.toNat_lt
  simp only [turnValues, List.mem_cons, List.not_mem_nil, or_false] at member
  rcases member with rfl | rfl | rfl | rfl <;> omega

theorem lt_of_mem_resultValues {hash : Int} (signed : -2 ^ 31 ≤ hash ∧ hash < 2 ^ 31) {value : Nat}
    (member : value ∈ resultValues hash) : value < 2 ^ 53 := by
  simp only [resultValues, List.mem_cons, List.not_mem_nil, or_false] at member
  rcases member with rfl | rfl | rfl <;> omega

/-! ### The contract's assertions -/

/-- The assertions leave the state as it is for every id in range. -/
theorem runBlock_assertIdRange_of_range {id : Nat} (range : 0 < id ∧ id < 1000000)
    (caller : OperandStack) (advice : List Felt) (storage : Storage Felt) (top : List Felt) :
    syndexMachine.runBlock assertIdRange ⟨.above (Felt.new id :: top) caller, advice, (), storage⟩ =
      .ok ⟨.above (Felt.new id :: top) caller, advice, (), storage⟩ := by
  have value : (Felt.new id).val = id := Felt.new_val_of_lt (range.2.trans (by decide))
  have inRange : 0 < Felt.new id ∧ Felt.new id < 1000000 := by
    rw [inRange_iff, value]
    exact range
  rw [runBlock_assertIdRange, if_pos inRange]

/-- What holds of the id of every address. -/
structure DerivedId (walletAddress : JsString) : Prop where
  -- the id comes from the hash after the loop
  computed : deriveInstitutionId walletAddress = (hashOf walletAddress).natAbs % 900000 + 100000
  -- the hash is the signed 32-bit representative of the polynomial
  congruent : hashOf walletAddress ≡ addressPolynomial walletAddress [ZMOD 2 ^ 32]
  signed : -2 ^ 31 ≤ hashOf walletAddress ∧ hashOf walletAddress < 2 ^ 31
  -- every number on the way is an exact double
  exact_turns : ∀ done unit, done ++ [unit] <+: walletAddress →
    ∀ value ∈ turnValues (hashOf done) unit, value.natAbs < 2 ^ 53
  exact_result : ∀ value ∈ resultValues (hashOf walletAddress), value < 2 ^ 53
  -- the id passes the range assertions of the contract
  range : 100000 ≤ deriveInstitutionId walletAddress ∧ deriveInstitutionId walletAddress ≤ 999999
  asserted : ∀ caller advice storage top,
    syndexMachine.runBlock assertIdRange
        ⟨.above (Felt.new (deriveInstitutionId walletAddress) :: top) caller, advice, (), storage⟩ =
      .ok ⟨.above (Felt.new (deriveInstitutionId walletAddress) :: top) caller, advice, (), storage⟩

theorem deriveInstitutionId_law (walletAddress : JsString) : DerivedId walletAddress where
  computed := deriveInstitutionId_eq walletAddress
  congruent := hashOf_modEq walletAddress
  signed := hashOf_range walletAddress
  exact_turns := fun done unit _ _ => natAbs_lt_of_mem_turnValues (hashOf_range done) unit
  exact_result := fun _ => lt_of_mem_resultValues (hashOf_range walletAddress)
  range := by
    have range := deriveInstitutionId_range walletAddress
    omega
  asserted := by
    have range := deriveInstitutionId_range walletAddress
    exact runBlock_assertIdRange_of_range (by omega)

end MidenWorkspace.Syndex
