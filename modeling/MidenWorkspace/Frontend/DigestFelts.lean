import MidenWorkspace.Frontend.SubmitPage
import MidenWorkspace.Vm.Stack

/-!
Contract: the digests of the submit page as field elements.

Owns the numerals of a text, the digest that the advice bytes stand for, the
reduction of a group of sixteen digits to the field of the VM, and exactly which
digests the reduction keeps.

A group is any 64-bit word, and the modulus is `2 ^ 64 - 2 ^ 32 + 1`. The bytes
always keep the digest. The field elements lose it for a group whose upper half is
all ones and whose lower half is not zero.
-/

namespace MidenWorkspace.Frontend

open MidenWorkspace.Library.Positional
open MidenWorkspace.Vm

/-! ### Numerals in a text -/

/-- The digits of a text, least significant first. -/
def numerals (text : JsString) : List Nat :=
  (text.map fun unit => (digitValue unit).getD 0).reverse

theorem numerals_append (front back : JsString) :
    numerals (front ++ back) = numerals back ++ numerals front := by
  rw [numerals, List.map_append, List.reverse_append]
  rfl

theorem numerals_length (text : JsString) : (numerals text).length = text.length := by
  rw [numerals, List.length_reverse, List.length_map]

theorem numerals_lt {radix : Nat} {text : JsString}
    (digits : ∀ unit ∈ text, isDigitIn radix unit = true) :
    ∀ digit ∈ numerals text, digit < radix := by
  intro digit member
  obtain ⟨unit, inText, rfl⟩ := List.mem_map.mp (List.mem_reverse.mp member)
  obtain ⟨value, found, small⟩ := Option.any_eq_true _ _ |>.mp (digits unit inText)
  rw [found, Option.getD_some]
  exact of_decide_eq_true small

theorem valueOfDigits_eq (radix : Nat) (text : JsString) :
    valueOfDigits radix text = Nat.ofDigits radix (numerals text) := by
  induction text using List.reverseRecOn with
  | nil => rfl
  | append_singleton front unit inductionHypothesis =>
      have last : numerals [unit] = [(digitValue unit).getD 0] := rfl
      rw [valueOfDigits, List.foldl_append, numerals_append, last, List.singleton_append,
        Nat.ofDigits_cons, ← inductionHypothesis, Nat.add_comm, Nat.mul_comm]
      rfl

/-- The hexadecimal digits of a text, whatever their case. -/
def digest (text : JsString) : List (Option Nat) := text.map digitValue

theorem digest_eq_of_numerals {first second : JsString}
    (firstDigits : ∀ unit ∈ first, isDigitIn 16 unit = true)
    (secondDigits : ∀ unit ∈ second, isDigitIn 16 unit = true)
    (same : numerals first = numerals second) : digest first = digest second := by
  have restored : ∀ text : JsString, (∀ unit ∈ text, isDigitIn 16 unit = true) →
      digest text = (numerals text).reverse.map some := by
    intro text digits
    rw [numerals, List.reverse_reverse, List.map_map]
    apply List.map_congr_left
    intro unit member
    obtain ⟨value, found, -⟩ := Option.any_eq_true _ _ |>.mp (digits unit member)
    rw [Function.comp_apply, found]
    rfl
  rw [restored first firstDigits, restored second secondDigits, same]

/-! ### Groups of digits -/

theorem groups_flatten {text : JsString} (isHex : IsHex 64 text) :
    (groups text).flatten = text := by
  have last : (text.drop 48).take 16 = text.drop 48 :=
    List.take_of_length_le (by rw [List.length_drop, isHex.length])
  have split : ∀ place, (text.drop place).take 16 ++ text.drop (place + 16) = text.drop place := by
    intro place
    rw [← List.drop_drop, List.take_append_drop]
  show (text.drop 0).take 16 ++ ((text.drop 16).take 16 ++ ((text.drop 32).take 16 ++
    ((text.drop 48).take 16 ++ []))) = text
  rw [List.append_nil, last, split 32, split 16, split 0, List.drop_zero]

theorem IsHex.value_lt {count : Nat} {text : JsString} (isHex : IsHex count text) :
    valueOfDigits 16 text < 16 ^ count := by
  rw [valueOfDigits_eq, ← isHex.length, ← numerals_length]
  exact Nat.ofDigits_lt_base_pow_length (by decide) (numerals_lt isHex.digits)

theorem IsHex.numerals_eq {count : Nat} {first second : JsString} (isHex : IsHex count first)
    (other : IsHex count second) (same : valueOfDigits 16 first = valueOfDigits 16 second) :
    numerals first = numerals second := by
  rw [valueOfDigits_eq, valueOfDigits_eq] at same
  apply Nat.ofDigits_inj_of_len_eq (by decide) _ (numerals_lt isHex.digits)
    (numerals_lt other.digits) same
  rw [numerals_length, numerals_length, isHex.length, other.length]

/-! ### Canonical groups -/

/-- The upper half is all ones and the lower half is not zero. -/
def overflows (group : JsString) : Bool :=
  numerals (group.take 8) = List.replicate 8 15 ∧ numerals (group.drop 8) ≠ List.replicate 8 0

theorem IsHex.take_drop {text : JsString} (isHex : IsHex 16 text) :
    IsHex 8 (text.take 8) ∧ IsHex 8 (text.drop 8) := by
  have length := isHex.length
  refine ⟨⟨?_, fun unit member => isHex.digits unit (List.mem_of_mem_take member)⟩,
    ⟨?_, fun unit member => isHex.digits unit (List.mem_of_mem_drop member)⟩⟩
  · rw [List.length_take, length]
    rfl
  · rw [List.length_drop, length]

private theorem isHex_replicate (unit : UInt16) (digit : isDigitIn 16 unit = true) :
    IsHex 8 (List.replicate 8 unit) where
  length := List.length_replicate
  digits := fun _ member => List.eq_of_mem_replicate member ▸ digit

/-- Eight digits are all ones exactly if their value is `2 ^ 32 - 1`. -/
theorem IsHex.numerals_eq_ones_iff {text : JsString} (isHex : IsHex 8 text) :
    numerals text = List.replicate 8 15 ↔ valueOfDigits 16 text = 2 ^ 32 - 1 := by
  constructor
  · intro ones
    rw [valueOfDigits_eq, ones]
    decide
  · intro full
    exact isHex.numerals_eq (isHex_replicate 102 (by decide)) (full.trans (by decide))

theorem IsHex.numerals_eq_zeros_iff {text : JsString} (isHex : IsHex 8 text) :
    numerals text = List.replicate 8 0 ↔ valueOfDigits 16 text = 0 := by
  constructor
  · intro zeros
    rw [valueOfDigits_eq, zeros]
    decide
  · intro empty
    exact isHex.numerals_eq (isHex_replicate 48 (by decide)) (empty.trans (by decide))

/-- A group is below the modulus unless it overflows. -/
theorem IsHex.value_lt_modulus_iff {group : JsString} (isHex : IsHex 16 group) :
    valueOfDigits 16 group < modulus ↔ overflows group = false := by
  obtain ⟨upper, lower⟩ := isHex.take_drop
  have split : valueOfDigits 16 group =
      valueOfDigits 16 (group.drop 8) + 2 ^ 32 * valueOfDigits 16 (group.take 8) := by
    rw [valueOfDigits_eq 16 group]
    conv_lhs => rw [← List.take_append_drop 8 group]
    rw [numerals_append, Nat.ofDigits_append, ← valueOfDigits_eq, ← valueOfDigits_eq,
      numerals_length, lower.length]
    rfl
  have upperSmall : valueOfDigits 16 (group.take 8) < 2 ^ 32 := upper.value_lt
  have lowerSmall : valueOfDigits 16 (group.drop 8) < 2 ^ 32 := lower.value_lt
  rw [overflows, decide_eq_false_iff_not, Ne, upper.numerals_eq_ones_iff,
    lower.numerals_eq_zeros_iff, split, modulus]
  omega

/-! ### The encoding of a digest -/

/-- The elements of the advice that a digest stands for, after reduction. -/
def adviceFelts (text : JsString) : Option (List Felt) :=
  (hexToFelts text).map fun values => values.map fun value => Felt.new value.toNat

/-- The digest that advice bytes stand for. -/
def decodedDigest (bytes : List (List UInt8)) : JsString :=
  bytes.flatMap fun word => hexOfWord (littleEndian word)

/-- The text's advice bytes decode to its digest. -/
def DecodesBack (text : JsString) : Prop :=
  ∃ values, hexToFelts text = some values ∧
    digest (decodedDigest (values.map setBigUint64)) = digest text

structure EncodesFaithfully (generatedHash proofHash : JsString) : Prop where
  -- eight values, each a canonical element of the field
  canonical : ∃ gradientFelts proofFelts, hexToFelts generatedHash = some gradientFelts ∧
    hexToFelts proofHash = some proofFelts ∧ (gradientFelts ++ proofFelts).length = 8 ∧
    ∀ value ∈ gradientFelts ++ proofFelts, 0 ≤ value ∧ value < modulus
  -- different digests have different elements
  separates : adviceFelts generatedHash = adviceFelts proofHash →
    digest generatedHash = digest proofHash
  decodes : DecodesBack generatedHash ∧ DecodesBack proofHash

/-- Eight bytes hold a group whole. -/
theorem digest_decoded_group {group : JsString} (isHex : IsHex 16 group) :
    digest (hexOfWord (littleEndian (setBigUint64 (valueOfDigits 16 group : Int)))) =
      digest group := by
  have small : valueOfDigits 16 group < 2 ^ 64 := isHex.value_lt
  have word : (littleEndian (setBigUint64 (valueOfDigits 16 group : Int))).toNat =
      valueOfDigits 16 group := by
    have kept : ((valueOfDigits 16 group : Int) % 2 ^ 64).toNat = valueOfDigits 16 group := by omega
    rw [littleEndian_setBigUint64, kept, UInt64.toNat_ofNat_of_lt' small]
  have isWord := isHex_hexOfWord (littleEndian (setBigUint64 (valueOfDigits 16 group : Int)))
  apply digest_eq_of_numerals isWord.digits isHex.digits
  apply isWord.numerals_eq isHex
  rw [valueOfDigits_hexOfWord, word]

/-- The bytes of the advice keep every digest. -/
theorem decodesBack {text : JsString} (isHex : IsHex 64 text) : DecodesBack text := by
  refine ⟨_, hexToFelts_of_isHex isHex, ?_⟩
  have whole : digest text = (groups text).flatMap digest := by
    conv_lhs => rw [← groups_flatten isHex]
    exact List.map_flatten
  rw [whole, decodedDigest, digest, List.map_flatMap, List.flatMap_map, List.flatMap_map]
  exact List.flatMap_congr fun group member => digest_decoded_group (isHex.of_mem_groups member)

/-- Elements below the modulus are the values they were reduced from. -/
private theorem eq_of_map_felt {first second : List Nat}
    (firstCanonical : ∀ value ∈ first, value < modulus)
    (secondCanonical : ∀ value ∈ second, value < modulus)
    (same : first.map Felt.new = second.map Felt.new) : first = second := by
  have restored : ∀ values : List Nat, (∀ value ∈ values, value < modulus) →
      (values.map Felt.new).map Fin.val = values := by
    intro values canonical
    rw [List.map_map]
    conv_rhs => rw [← List.map_id values]
    exact List.map_congr_left fun value member => Felt.new_val_of_lt (canonical value member)
  rw [← restored first firstCanonical, same, restored second secondCanonical]

theorem adviceFelts_of_isHex {text : JsString} (isHex : IsHex 64 text) :
    adviceFelts text = some (((groups text).map (valueOfDigits 16)).map Felt.new) := by
  rw [adviceFelts, hexToFelts_of_isHex isHex, Option.map_some, List.map_map, List.map_map]
  rfl

/-- On digests whose groups are canonical, reduction loses nothing. -/
theorem digest_eq_of_adviceFelts {first second : JsString} (isHex : IsHex 64 first)
    (isHexSecond : IsHex 64 second)
    (below : ∀ group ∈ groups first ++ groups second, valueOfDigits 16 group < modulus)
    (same : adviceFelts first = adviceFelts second) : digest first = digest second := by
  rw [adviceFelts_of_isHex isHex, adviceFelts_of_isHex isHexSecond, Option.some.injEq] at same
  have values : (groups first).map (valueOfDigits 16) = (groups second).map (valueOfDigits 16) := by
    apply eq_of_map_felt _ _ same
    · exact List.forall_mem_map.mpr fun group member => below group (List.mem_append_left _ member)
    · exact List.forall_mem_map.mpr fun group member => below group (List.mem_append_right _ member)
  have integers : (groups first).map (fun group => (valueOfDigits 16 group : Int)) =
      (groups second).map fun group => (valueOfDigits 16 group : Int) := by
    have cast := congrArg (List.map fun value : Nat => (value : Int)) values
    rwa [List.map_map, List.map_map] at cast
  -- both digests are decoded from the same values
  obtain ⟨firstValues, firstRead, firstDecoded⟩ := decodesBack isHex
  obtain ⟨secondValues, secondRead, secondDecoded⟩ := decodesBack isHexSecond
  rw [hexToFelts_of_isHex isHex, Option.some.injEq] at firstRead
  rw [hexToFelts_of_isHex isHexSecond, Option.some.injEq] at secondRead
  rw [← firstDecoded, ← secondDecoded, ← firstRead, ← secondRead, integers]

/-- The encoding of two digests is faithful exactly if no group of either
overflows. -/
theorem encodesFaithfully_iff {generatedHash proofHash : JsString} (isHex : IsHex 64 generatedHash)
    (isHexProof : IsHex 64 proofHash) :
    EncodesFaithfully generatedHash proofHash ↔
      ∀ group ∈ groups generatedHash ++ groups proofHash, overflows group = false := by
  have gradientRead := hexToFelts_of_isHex isHex
  have proofRead := hexToFelts_of_isHex isHexProof
  have isGroup : ∀ group ∈ groups generatedHash ++ groups proofHash, IsHex 16 group := by
    intro group member
    rcases List.mem_append.mp member with gradient | proof
    · exact isHex.of_mem_groups gradient
    · exact isHexProof.of_mem_groups proof
  constructor
  · intro faithful group member
    obtain ⟨gradientFelts, proofFelts, gradient, proof, -, canonical⟩ := faithful.canonical
    rw [gradientRead, Option.some.injEq] at gradient
    rw [proofRead, Option.some.injEq] at proof
    rw [← gradient, ← proof, ← List.map_append] at canonical
    have below := (canonical _ (List.mem_map_of_mem member)).2
    exact (isGroup group member).value_lt_modulus_iff.mp (by exact_mod_cast below)
  · intro fits
    have below : ∀ group ∈ groups generatedHash ++ groups proofHash,
        valueOfDigits 16 group < modulus := fun group member =>
      (isGroup group member).value_lt_modulus_iff.mpr (fits group member)
    refine ⟨⟨_, _, gradientRead, proofRead, rfl, ?_⟩,
      digest_eq_of_adviceFelts isHex isHexProof below, decodesBack isHex, decodesBack isHexProof⟩
    rw [← List.map_append]
    intro value member
    obtain ⟨group, inside, rfl⟩ := List.mem_map.mp member
    exact ⟨Int.natCast_nonneg _, by exact_mod_cast below group inside⟩

private theorem isHex_of_all {text : JsString} (length : text.length = 64)
    (digits : text.all (isDigitIn 16) = true) : IsHex 64 text :=
  ⟨length, List.all_eq_true.mp digits⟩

/-- The largest canonical group, and a digest of zeros. -/
theorem encodesFaithfully_iff_largest :
    EncodesFaithfully (js "ffffffff00000000" ++ List.replicate 48 48) (List.replicate 64 48) :=
  (encodesFaithfully_iff (isHex_of_all (by decide) (by decide))
    (isHex_of_all (by decide) (by decide))).mpr (by decide +kernel)

/-- The SHA-256 digest of the pattern text `card skimming pattern 2266532713` overflows
in its first group, and has the elements of another digest. -/
theorem digests_share_felts :
    let generatedHash := js "ffffffff7f1e74a912eb37bc9b7fe3aa7ed1b843ee1726c9ba5fa05d8d8629f0"
    let proofHash := js "000000007f1e74a812eb37bc9b7fe3aa7ed1b843ee1726c9ba5fa05d8d8629f0"
    IsHex 64 generatedHash ∧ IsHex 64 proofHash ∧ digest generatedHash ≠ digest proofHash ∧
      (adviceFelts generatedHash).isSome = true ∧ adviceFelts generatedHash = adviceFelts proofHash ∧
      ¬ EncodesFaithfully generatedHash proofHash := by
  intro generatedHash proofHash
  have same : (adviceFelts generatedHash).isSome = true ∧
      adviceFelts generatedHash = adviceFelts proofHash := by decide +kernel
  have differ : digest generatedHash ≠ digest proofHash := by decide +kernel
  refine ⟨isHex_of_all (by decide) (by decide), isHex_of_all (by decide) (by decide), differ, same.1,
    same.2, ?_⟩
  intro faithful
  exact differ (faithful.separates same.2)

end MidenWorkspace.Frontend
