import MidenWorkspace.Frontend.Js
import MidenWorkspace.Library.Positional

/-!
Contract: the advice that the submit page builds (`app/submit/page.tsx`).

Owns `hexToFelts`, the little-endian advice bytes, the sequence of 64-bit words
they stand for, the checks before a submission, the groups of a hexadecimal text,
which `hexToFelts` reads, and the text of a hash, which it reads back.

The page turns each number into a decimal string and back before it writes it;
the two conversions cancel and are left out.
-/

namespace MidenWorkspace.Frontend

open MidenWorkspace.Library.Positional

/-- Four groups of sixteen hexadecimal digits; `none` where `BigInt` throws. -/
def hexToFelts (hex : JsString) : Option (List Int) :=
  let clean := if hex.take 2 = js "0x" then hex.drop 2 else hex
  [0, 1, 2, 3].mapM fun index => bigInt (js "0x" ++ (clean.drop (index * 16)).take 16)

/-- `view.setBigUint64(0, value, true)`, which keeps the low 64 bits. -/
def setBigUint64 (value : Int) : List UInt8 :=
  (digits 256 8 (value % 2 ^ 64).toNat).map UInt8.ofNat

/-- Gradient, proof, then institution id. -/
def advice (generatedHash proofHash instId : JsString) : Option (List (List UInt8)) := do
  let gradientFelts ← hexToFelts generatedHash
  let proofFelts ← hexToFelts proofHash
  let institution ← bigInt (if instId = [] then js "0" else instId)
  return (gradientFelts ++ proofFelts ++ [institution]).map setBigUint64

def isReadyToSubmit (generatedHash proofHash : JsString) : Bool :=
  generatedHash.length = 64 && proofHash.length = 64 &&
    !includes generatedHash (js "Awaiting") && !includes proofHash (js "Awaiting")

/-- The advice of a submission, or the error that the page shows. The wallet is
ready if it is connected, has an address and can request a transaction. -/
def handleSubmit (walletReady : Bool) (instId : Option JsString)
    (generatedHash proofHash : JsString) :
    Except String (List (List UInt8)) :=
  if !walletReady then .error "Connect your wallet first"
  else
    match instId with
    | none | some [] => .error "Register your institution first"
    | some id =>
        if !isReadyToSubmit generatedHash proofHash then
          .error "Please wait for proof generation to complete."
        else
          match advice generatedHash proofHash id with
          | none => .error "Submission failed. Check your wallet and try again."
          | some tape => .ok tape

/-- A submission goes out for a registered institution with two hashes of full
length. -/
theorem handleSubmit_eq_ok {walletReady : Bool} {instId : Option JsString}
    {generatedHash proofHash : JsString} {tape : List (List UInt8)}
    (submitted : handleSubmit walletReady instId generatedHash proofHash = .ok tape) :
    ∃ id, instId = some id ∧ generatedHash.length = 64 ∧ proofHash.length = 64 ∧
      advice generatedHash proofHash id = some tape := by
  unfold handleSubmit at submitted
  split at submitted
  · cases submitted
  split at submitted
  · cases submitted
  · cases submitted
  · rename_i id _
    split at submitted
    · cases submitted
    · rename_i notUnready
      have ready : isReadyToSubmit generatedHash proofHash = true := by simpa using notUnready
      simp only [isReadyToSubmit, Bool.and_eq_true, decide_eq_true_eq] at ready
      split at submitted
      · cases submitted
      · rename_i built
        cases submitted
        exact ⟨id, rfl, ready.1.1.1, ready.1.1.2, built⟩

/-- The word that eight little-endian bytes stand for. -/
def littleEndian (bytes : List UInt8) : UInt64 :=
  UInt64.ofNat (Nat.ofDigits 256 (bytes.map UInt8.toNat))

theorem littleEndian_setBigUint64 (value : Int) :
    littleEndian (setBigUint64 value) = UInt64.ofNat (value % 2 ^ 64).toNat := by
  have byte : ∀ digit ∈ digits 256 8 (value % 2 ^ 64).toNat,
      (UInt8.toNat ∘ UInt8.ofNat) digit = id digit := by
    intro digit member
    exact UInt8.toNat_ofNat_of_lt' (lt_of_mem_digits (by decide) member)
  have small : (value % 2 ^ 64).toNat < 256 ^ 8 := by omega
  rw [littleEndian, setBigUint64, List.map_map, List.map_congr_left byte, List.map_id,
    ofDigits_digits, Nat.mod_eq_of_lt small]

theorem littleEndian_setBigUint64_word (word : UInt64) :
    littleEndian (setBigUint64 word.toNat) = word := by
  have small := word.toNat_lt
  have same : ((word.toNat : Int) % 2 ^ 64).toNat = word.toNat := by omega
  rw [littleEndian_setBigUint64, same, UInt64.ofNat_toNat]

/-! ### Hexadecimal text -/

def hexUnit (digit : Nat) : UInt16 :=
  UInt16.ofNat (if digit < 10 then 48 + digit else 87 + digit)

/-- Sixteen hexadecimal digits, most significant first. -/
def hexOfWord (word : UInt64) : JsString :=
  ((digits 16 16 word.toNat).map hexUnit).reverse

def hexOfHash (hash : Vector UInt64 4) : JsString :=
  hash.toList.flatMap hexOfWord

theorem digitValue_hexUnit : ∀ digit < 16, digitValue (hexUnit digit) = some digit := by decide

theorem hexOfWord_length (word : UInt64) : (hexOfWord word).length = 16 := by
  simp [hexOfWord]

theorem hexOfWord_isDigit (word : UInt64) : (hexOfWord word).all (isDigitIn 16) = true := by
  rw [List.all_eq_true]
  intro unit member
  obtain ⟨digit, inWord, rfl⟩ := List.mem_map.mp (List.mem_reverse.mp member)
  have small := lt_of_mem_digits (by decide) inWord
  simp [isDigitIn, digitValue_hexUnit digit small, small]

/-- Written from the last digit to the first, a numeral reads back as its value. -/
theorem valueOfDigits_reverse {radix : Nat} (atMost : radix ≤ 16) {numerals : List Nat}
    (below : ∀ digit ∈ numerals, digit < radix) :
    valueOfDigits radix (numerals.map hexUnit).reverse = Nat.ofDigits radix numerals := by
  induction numerals with
  | nil => rfl
  | cons digit higher inductionHypothesis =>
      have rest := inductionHypothesis fun digit member => below digit (List.mem_cons_of_mem _ member)
      have small := below digit List.mem_cons_self
      have first := digitValue_hexUnit digit (small.trans_le atMost)
      rw [valueOfDigits, List.foldl_reverse] at rest ⊢
      simp only [List.map_cons, List.foldr_cons, rest, first, Option.getD_some]
      rw [Nat.ofDigits_cons, Nat.add_comm, Nat.mul_comm]

theorem valueOfDigits_hexOfWord (word : UInt64) :
    valueOfDigits 16 (hexOfWord word) = word.toNat := by
  have small : word.toNat < 16 ^ 16 := word.toNat_lt
  have below : ∀ digit ∈ digits 16 16 word.toNat, digit < 16 :=
    fun _ member => lt_of_mem_digits (by decide) member
  rw [hexOfWord, valueOfDigits_reverse (Nat.le_refl 16) below, ofDigits_digits,
    Nat.mod_eq_of_lt small]

/-- `BigInt` reads hexadecimal digits in either case. -/
theorem bigInt_of_hexDigits {text : JsString} (notEmpty : text ≠ [])
    (digits : ∀ unit ∈ text, isDigitIn 16 unit = true) :
    bigInt (js "0x" ++ text) = some (valueOfDigits 16 text : Int) := by
  have mark : ∀ unit ∈ js "0x", isDigitIn 36 unit = true := List.all_eq_true.mp (by decide)
  have all : ∀ unit ∈ js "0x" ++ text, isDigitIn 36 unit = true :=
    List.forall_mem_append.mpr
      ⟨mark, fun unit member => isDigitIn_mono (by decide) (digits unit member)⟩
  have numeral : wholeNumeral 16 text = some (valueOfDigits 16 text) := by
    rw [wholeNumeral, if_pos ⟨notEmpty, List.all_eq_true.mpr digits⟩]
  rw [bigInt, trim_of_digits all]
  change (wholeNumeral 16 text).map Int.ofNat = _
  rw [numeral]
  rfl

/-! ### Groups of digits -/

structure IsHex (count : Nat) (text : JsString) : Prop where
  length : text.length = count
  digits : ∀ unit ∈ text, isDigitIn 16 unit = true

/-- The four groups of sixteen digits. -/
def groups (text : JsString) : List JsString :=
  [0, 1, 2, 3].map fun index => (text.drop (index * 16)).take 16

theorem isHex_hexOfWord (word : UInt64) : IsHex 16 (hexOfWord word) :=
  ⟨hexOfWord_length word, List.all_eq_true.mp (hexOfWord_isDigit word)⟩

theorem IsHex.of_mem_groups {text group : JsString} (isHex : IsHex 64 text)
    (member : group ∈ groups text) : IsHex 16 group := by
  obtain ⟨index, listed, rfl⟩ := List.mem_map.mp member
  have small : index ≤ 3 := by
    revert listed
    simp only [List.mem_cons, List.not_mem_nil, or_false]
    omega
  constructor
  · rw [List.length_take, List.length_drop, isHex.length]
    omega
  · exact fun unit inGroup => isHex.digits unit (List.mem_of_mem_drop (List.mem_of_mem_take inGroup))

/-- The page reads a digest as its four groups. -/
theorem hexToFelts_of_isHex {text : JsString} (isHex : IsHex 64 text) :
    hexToFelts text = some ((groups text).map fun group => (valueOfDigits 16 group : Int)) := by
  -- a hexadecimal digit in the second place is no `x`
  have plain : text.take 2 ≠ js "0x" := by
    intro marked
    have inFront : (120 : UInt16) ∈ text.take 2 := by
      rw [marked]
      decide
    exact absurd (isHex.digits 120 (List.mem_of_mem_take inFront)) (by decide)
  have read : ∀ group ∈ groups text,
      bigInt (js "0x" ++ group) = some (valueOfDigits 16 group : Int) := by
    intro group member
    have isGroup := isHex.of_mem_groups member
    apply bigInt_of_hexDigits _ isGroup.digits
    intro empty
    rw [empty] at isGroup
    exact absurd isGroup.length (by decide)
  rw [hexToFelts, if_neg plain, ← mapM_eq_some_map read, groups, List.mapM_map]
  rfl

private theorem group_of_append (before group behind : JsString) (width : Nat)
    (exact : group.length = width) :
    ((before ++ (group ++ behind)).drop before.length).take width = group := by
  rw [List.drop_left, ← exact, List.take_left]

/-- The page reads the text of a hash back as its four words. -/
theorem hexToFelts_hexOfHash (h0 h1 h2 h3 : UInt64) :
    hexToFelts (hexOfHash #v[h0, h1, h2, h3]) =
      some [(h0.toNat : Int), (h1.toNat : Int), (h2.toNat : Int), (h3.toNat : Int)] := by
  have text : hexOfHash #v[h0, h1, h2, h3] =
      hexOfWord h0 ++ (hexOfWord h1 ++ (hexOfWord h2 ++ (hexOfWord h3 ++ []))) := rfl
  have w0 := hexOfWord_length h0
  have w1 := hexOfWord_length h1
  have w2 := hexOfWord_length h2
  have w3 := hexOfWord_length h3
  have g0 := group_of_append [] (hexOfWord h0) (hexOfWord h1 ++ (hexOfWord h2 ++ (hexOfWord h3 ++ [])))
    16 w0
  have g1 := group_of_append (hexOfWord h0) (hexOfWord h1) (hexOfWord h2 ++ (hexOfWord h3 ++ [])) 16 w1
  have g2 := group_of_append (hexOfWord h0 ++ hexOfWord h1) (hexOfWord h2) (hexOfWord h3 ++ []) 16 w2
  have g3 := group_of_append (hexOfWord h0 ++ hexOfWord h1 ++ hexOfWord h2) (hexOfWord h3) [] 16 w3
  simp only [List.length_append, List.length_nil, w0, w1, w2, List.append_assoc, List.nil_append,
    Nat.reduceAdd] at g0 g1 g2 g3
  have isHex : IsHex 64 (hexOfHash #v[h0, h1, h2, h3]) := by
    constructor
    · rw [text]
      simp only [List.length_append, List.length_nil, w0, w1, w2, w3]
    · rw [text]
      simp only [List.forall_mem_append, List.append_nil]
      exact ⟨(isHex_hexOfWord h0).digits, (isHex_hexOfWord h1).digits, (isHex_hexOfWord h2).digits,
        (isHex_hexOfWord h3).digits⟩
  rw [hexToFelts_of_isHex isHex, text]
  simp only [groups, List.map_cons, List.map_nil, Nat.zero_mul, Nat.one_mul, Nat.reduceMul, g0, g1, g2,
    g3, valueOfDigits_hexOfWord]

end MidenWorkspace.Frontend
