import Mathlib.Data.Nat.Bitwise
import MidenWorkspace.Library.OrderedMap
import MidenWorkspace.Library.Positional
import MidenWorkspace.Library.Structured

/-!
Contract: values written as bytes and read back from the front of a byte string.

Owns codecs on an explicit domain and how they compose: two values one after the other, a value
in another form, a value that may be missing, a number of values, a finite map. Owns numbers of a
fixed width with the least significant byte first, and numbers whose first byte says how many
bytes there are.
-/

namespace MidenWorkspace.Library

open Structured

/-- A reader takes a value off the front of the bytes. -/
abbrev Reader (Error Byte α : Type) := List Byte → Except Error (α × List Byte)

/-- `write` is total, `read` returns what was written for the admissible values. -/
structure Codec (Error Byte α : Type) where
  Admissible : α → Prop
  write : α → List Byte
  read : Reader Error Byte α
  read_write : ∀ value, Admissible value → ∀ rest, read (write value ++ rest) = .ok (value, rest)

namespace Codec

variable {Error Byte α β : Type}

/-- One value after the other. -/
def pair (first : Codec Error Byte α) (second : Codec Error Byte β) :
    Codec Error Byte (α × β) where
  Admissible value := first.Admissible value.1 ∧ second.Admissible value.2
  write value := first.write value.1 ++ second.write value.2
  read bytes := do
    let (left, bytes) ← first.read bytes
    let (right, rest) ← second.read bytes
    return ((left, right), rest)
  read_write value admissible rest := by
    rw [List.append_assoc, first.read_write _ admissible.1]
    show (second.read (second.write value.2 ++ rest) >>= _) = _
    rw [second.read_write _ admissible.2]
    rfl

/-- A value that is written in the form `into` and checked when it is read. -/
def refine (codec : Codec Error Byte α) (into : β → α) (back : α → Except Error β)
    (inverse : ∀ value, back (into value) = .ok value) : Codec Error Byte β where
  Admissible value := codec.Admissible (into value)
  write value := codec.write (into value)
  read bytes := do
    let (form, rest) ← codec.read bytes
    let value ← back form
    return (value, rest)
  read_write value admissible rest := by
    rw [codec.read_write _ admissible]
    show (back (into value) >>= _) = _
    rw [inverse]
    rfl

/-- A value in another form. -/
def via (codec : Codec Error Byte α) (into : β → α) (back : α → β)
    (inverse : ∀ value, back (into value) = value) : Codec Error Byte β :=
  codec.refine into (fun form => .ok (back form)) fun value => congrArg _ (inverse value)

/-- What is read after a value was written, in a form that `build` makes of it. -/
theorem map_read_write (codec : Codec Error Byte α) (build : α → β) {value : α}
    (admissible : codec.Admissible value) (rest : List Byte) :
    (codec.read (codec.write value ++ rest)).map (Prod.map build id) =
      .ok (build value, rest) := by
  rw [codec.read_write _ admissible]
  rfl

end Codec

section Many

variable {Error Byte α : Type}

def readMany (read : Reader Error Byte α) : Nat → Reader Error Byte (List α)
  | 0, bytes => .ok ([], bytes)
  | count + 1, bytes => do
      let (value, left) ← read bytes
      let (values, rest) ← readMany read count left
      return (value :: values, rest)

theorem readMany_write {read : Reader Error Byte α} {write : α → List Byte} {values : List α}
    (readsBack : ∀ value ∈ values, ∀ rest, read (write value ++ rest) = .ok (value, rest))
    (rest : List Byte) :
    readMany read values.length (values.flatMap write ++ rest) = .ok (values, rest) := by
  induction values with
  | nil => rfl
  | cons value others inductionHypothesis =>
      have first := readsBack value List.mem_cons_self (others.flatMap write ++ rest)
      have further := inductionHypothesis fun other member =>
        readsBack other (List.mem_cons_of_mem _ member)
      rw [List.flatMap_cons, List.append_assoc, List.length_cons, readMany, first]
      show (readMany read others.length (others.flatMap write ++ rest) >>= _) = _
      rw [further]
      rfl

/-- Each of the values was read from somewhere. -/
theorem forall_of_readMany {read : Reader Error Byte α} {Holds : α → Prop}
    (sound : ∀ bytes value rest, read bytes = .ok (value, rest) → Holds value)
    {count : Nat} {bytes rest : List Byte} {values : List α}
    (result : readMany read count bytes = .ok (values, rest)) : ∀ value ∈ values, Holds value := by
  induction count generalizing bytes values rest with
  | zero =>
      obtain ⟨rfl, _⟩ := Prod.mk.inj (Except.ok.inj result)
      exact fun _ => nofun
  | succ count inductionHypothesis =>
      obtain ⟨⟨value, left⟩, first, result⟩ := bind_eq_ok_iff.mp result
      obtain ⟨⟨others, _⟩, further, result⟩ := bind_eq_ok_iff.mp result
      obtain ⟨rfl, _⟩ := Prod.mk.inj (Except.ok.inj result)
      intro other member
      rcases List.mem_cons.mp member with rfl | later
      · exact sound bytes _ left first
      · exact inductionHypothesis further other later

end Many

section LittleEndian

open Positional

/-- Numbers below `256 ^ count`, in `count` bytes. -/
def littleEndian {Error : Type} (count : Nat) (tooShort : Error) : Codec Error UInt8 Nat where
  Admissible value := value < 256 ^ count
  write value := (digits 256 count value).map UInt8.ofNat
  read bytes :=
    if count ≤ bytes.length then
      .ok (Nat.ofDigits 256 ((bytes.take count).map UInt8.toNat), bytes.drop count)
    else .error tooShort
  read_write value small rest := by
    have length : ((digits 256 count value).map UInt8.ofNat).length = count := by simp
    have back : ((digits 256 count value).map UInt8.ofNat).map UInt8.toNat =
        digits 256 count value := by
      rw [List.map_map]
      refine (List.map_congr_left fun digit member => ?_).trans (List.map_id _)
      exact UInt8.toNat_ofNat_of_lt' (lt_of_mem_digits (by decide) member)
    rw [if_pos (by rw [List.length_append, length]; omega), List.take_left' length,
      List.drop_left' length, back, ofDigits_digits, Nat.mod_eq_of_lt small]

end LittleEndian

section Bytes

variable {Error α : Type}

/-- The first byte, if there is one. -/
def readByte (tooShort : Error) : Reader Error UInt8 UInt8
  | [] => .error tooShort
  | byte :: rest => .ok (byte, rest)

/-- A byte says whether there is a value; one that is neither `0` nor `1` is refused. -/
def Codec.option (tooShort : Error) (notBoolean : UInt8 → Error) (codec : Codec Error UInt8 α) :
    Codec Error UInt8 (Option α) where
  Admissible value := ∀ some ∈ value, codec.Admissible some
  write
    | none => [0]
    | some value => 1 :: codec.write value
  read bytes := do
    let (byte, bytes) ← readByte tooShort bytes
    match byte.toNat with
    | 0 => return (none, bytes)
    | 1 => (codec.read bytes).map (Prod.map some id)
    | _ => .error (notBoolean byte)
  read_write value admissible rest := by
    cases value with
    | none => rfl
    | some value => exact codec.map_read_write some (admissible value rfl) rest

/-- The entries in the order of their keys, after their number. -/
def Codec.orderedMap {κ ν : Type} [Ord κ] [Std.TransOrd κ] [Std.LawfulEqOrd κ]
    (count : Codec Error UInt8 Nat) (key : Codec Error UInt8 κ) (value : Codec Error UInt8 ν) :
    Codec Error UInt8 (OrderedMap κ ν) where
  Admissible entries := count.Admissible entries.toList.length ∧
    ∀ entry ∈ entries.toList, (key.pair value).Admissible entry
  write entries :=
    count.write entries.toList.length ++ entries.toList.flatMap (key.pair value).write
  read bytes := do
    let (length, bytes) ← count.read bytes
    let (entries, rest) ← readMany (key.pair value).read length bytes
    return (OrderedMap.collect entries, rest)
  read_write entries admissible rest := by
    rw [List.append_assoc, count.read_write _ admissible.1]
    show (readMany (key.pair value).read entries.toList.length
      (entries.toList.flatMap (key.pair value).write ++ rest) >>= _) = _
    rw [readMany_write fun entry member => (key.pair value).read_write entry
      (admissible.2 entry member)]
    exact congrArg (fun collected => Except.ok (collected, rest)) (OrderedMap.collect_eq
      fun _ _ => Std.ExtTreeMap.mem_toList_iff_getElem?_eq_some)

end Bytes

section VariableLength

open Positional

/-- The number of zeros below the lowest one of eight bits. -/
def trailingZeros (byte : Nat) : Nat :=
  ((List.range 8).find? fun index => byte.testBit index).getD 8

/-- The number of bytes for a value: each holds seven bits of it, up to eight bytes, and a value
that is longer takes nine. -/
def encodedLength (value : Nat) : Nat :=
  ((List.range' 1 8).find? fun length => value < 2 ^ (7 * length)).getD 9

/-- The value behind a one, behind as many zeros as there are bytes after the first. -/
def prefixed (length value : Nat) : Nat := (2 * value + 1) * 2 ^ (length - 1)

theorem encodedLength_cases (value : Nat) :
    encodedLength value = 9 ∨
      1 ≤ encodedLength value ∧ encodedLength value ≤ 8 ∧
        value < 2 ^ (7 * encodedLength value) := by
  rw [encodedLength]
  cases found : (List.range' 1 8).find? fun length => value < 2 ^ (7 * length) with
  | none => exact .inl rfl
  | some length =>
      have within := List.mem_range'_1.mp (List.mem_of_find?_eq_some found)
      have fits := List.find?_some found
      exact .inr ⟨within.1, Nat.lt_succ_iff.mp within.2, of_decide_eq_true fits⟩

theorem prefixed_lt {length value : Nat} (positive : 1 ≤ length)
    (small : value < 2 ^ (7 * length)) : prefixed length value < 256 ^ length := by
  have odd : 2 * value + 1 < 2 ^ (7 * length + 1) := by
    rw [Nat.pow_succ]
    omega
  have widths : 2 ^ (7 * length + 1) * 2 ^ (length - 1) = 256 ^ length := by
    rw [← Nat.pow_add, show (256 : Nat) = 2 ^ 8 from rfl, ← Nat.pow_mul]
    congr 1
    omega
  rw [prefixed, ← widths]
  exact Nat.mul_lt_mul_of_pos_right odd (Nat.two_pow_pos _)

theorem prefixed_div {length : Nat} (positive : 1 ≤ length) (value : Nat) :
    prefixed length value / 2 ^ length = value := by
  obtain ⟨fewer, rfl⟩ : ∃ fewer, length = fewer + 1 := ⟨length - 1, by omega⟩
  rw [prefixed, Nat.add_sub_cancel, Nat.pow_succ, Nat.mul_comm (2 ^ fewer) 2,
    Nat.mul_div_mul_right _ _ (Nat.two_pow_pos fewer)]
  omega

/-- The zeros of the first byte tell the number of bytes. -/
theorem trailingZeros_prefixed {length : Nat} (positive : 1 ≤ length) (short : length ≤ 8)
    (value : Nat) : trailingZeros (prefixed length value % 256) + 1 = length := by
  have bits (index : Nat) (inside : index < 8) :
      (prefixed length value % 256).testBit index =
        (decide (length - 1 ≤ index) && (2 * value + 1).testBit (index - (length - 1))) := by
    rw [show (256 : Nat) = 2 ^ 8 from rfl, Nat.testBit_mod_two_pow, decide_eq_true inside,
      Bool.true_and, prefixed, Nat.mul_comm, Nat.testBit_two_pow_mul]
  have first : (List.range 8).find? (fun index => (prefixed length value % 256).testBit index) =
      some (length - 1) := by
    rw [List.find?_range_eq_some]
    refine ⟨?_, List.mem_range.mpr (by omega), fun earlier below => ?_⟩
    · rw [bits _ (by omega), Nat.sub_self, Nat.testBit_zero]
      simp
    · rw [bits _ (by omega), decide_eq_false (by omega)]
      rfl
  rw [trailingZeros, first, Option.getD_some]
  omega

variable {Error : Type} (tooShort : Error)

/-- Numbers below `2 ^ 64` in one to nine bytes. -/
def variableLength : Codec Error UInt8 Nat where
  Admissible value := value < 2 ^ 64
  write value :=
    let length := encodedLength value
    if length = 9 then 0 :: (littleEndian 8 tooShort).write value
    else (littleEndian length tooShort).write (prefixed length value)
  read bytes := do
    let (first, left) ← readByte tooShort bytes
    let length := trailingZeros first.toNat + 1
    if length = 9 then (littleEndian 8 tooShort).read left
    else do
      let (encoded, rest) ← (littleEndian length tooShort).read bytes
      return (encoded / 2 ^ length, rest)
  read_write value small rest := by
    dsimp only
    rcases encodedLength_cases value with nine | ⟨positive, short, fits⟩
    · rw [if_pos nine, List.cons_append]
      have zeros : trailingZeros (0 : UInt8).toNat + 1 = 9 := by decide
      refine (if_pos zeros).trans ?_
      exact (littleEndian 8 tooShort).read_write value small rest
    · rw [if_neg (by omega)]
      generalize encodedLength value = length at positive short fits
      obtain ⟨fewer, rfl⟩ : ∃ fewer, length = fewer + 1 := ⟨length - 1, by omega⟩
      have number := (littleEndian (fewer + 1) tooShort).read_write
        (prefixed (fewer + 1) value) (prefixed_lt positive fits) rest
      have head : ∃ left, (littleEndian (fewer + 1) tooShort).write (prefixed (fewer + 1) value) ++
          rest = UInt8.ofNat (prefixed (fewer + 1) value % 256) :: left := ⟨_, rfl⟩
      obtain ⟨left, isHead⟩ := head
      have zeros : trailingZeros (UInt8.ofNat (prefixed (fewer + 1) value % 256)).toNat + 1 =
          fewer + 1 := by
        rw [UInt8.toNat_ofNat_of_lt' (Nat.mod_lt _ (by decide))]
        exact trailingZeros_prefixed positive short value
      rw [isHead] at number ⊢
      show (if trailingZeros (UInt8.ofNat (prefixed (fewer + 1) value % 256)).toNat + 1 = 9 then _
        else _) = _
      rw [zeros, if_neg (by omega), number]
      show Except.ok (prefixed (fewer + 1) value / 2 ^ (fewer + 1), rest) = _
      rw [prefixed_div positive]

end VariableLength

end MidenWorkspace.Library
