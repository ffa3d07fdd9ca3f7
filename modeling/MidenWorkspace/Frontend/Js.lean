import Mathlib.Data.UInt
import Mathlib.Algebra.Order.Ring.Rat
import Mathlib.Algebra.Ring.Nat
import Mathlib.Data.List.Basic
import Mathlib.Logic.Function.Basic
import Mathlib.Data.Rat.Defs

/-!
Contract: the JavaScript values and built-ins that the frontend uses.

Owns:
- strings as UTF-16 code units, JSON values, and the values a caller may put into
  a record;
- property access, truthiness and `===`;
- `parseInt` and `BigInt` on strings.

Does not own JSON text: a document is the value it parses to. An object is the
function from its keys to its properties, so two objects are equal if they agree
field by field; the order of keys is not observable here. Numbers are rationals,
of which the finite doubles are some, and `-0` is `0`.

Conversions of values that the pages never pass (`String` of a value that is not
a string, a comparison with a `length` that is not a number) are left to the host.
-/

namespace MidenWorkspace.Frontend

/-- A string, as its UTF-16 code units. -/
abbrev JsString := List UInt16

/-- A string literal without characters beyond the basic plane. -/
def js (text : String) : JsString := text.toList.map fun character => UInt16.ofNat character.toNat

inductive Json where
  | null
  | bool (value : Bool)
  | num (value : Rat)
  | str (text : JsString)
  | arr (elements : List Json)
  | obj (property : JsString → Option Json)

instance : Inhabited Json := ⟨.null⟩

/-- A value that JSON may not be able to express. -/
inductive JsValue where
  | undefined
  | nan
  | infinity (negative : Bool)
  | json (value : Json)

/-- A `Record<string, unknown>`; a missing key reads as `undefined`. -/
abbrev Record := JsString → JsValue

/-- Conversions that the language defines on values of every type. -/
structure Host where
  /-- `String(value)` where `value` is not a string; `none` if it throws. -/
  text : JsValue → Option JsString
  /-- `value > limit` where `value` is not a number; `none` if it throws. -/
  exceeds : Json → Nat → Option Bool

/-- Nothing throws. -/
theorem mapM_eq_some_map {α β : Type*} {read : α → Option β} {result : α → β} {values : List α}
    (each : ∀ value ∈ values, read value = some (result value)) :
    values.mapM read = some (values.map result) := by
  induction values with
  | nil => rfl
  | cons value rest inductionHypothesis =>
      have later := inductionHypothesis fun other member =>
        each other (List.mem_cons_of_mem value member)
      rw [List.mapM_cons, each value List.mem_cons_self, later]
      rfl

theorem exists_of_mem_mapM {α β : Type*} {read : α → Option β} {values : List α} {results : List β}
    (done : values.mapM read = some results) {result : β} (member : result ∈ results) :
    ∃ value ∈ values, read value = some result := by
  induction values generalizing results with
  | nil =>
      cases done
      cases member
  | cons value rest inductionHypothesis =>
      rw [List.mapM_cons] at done
      obtain ⟨first, found, done⟩ := Option.bind_eq_some_iff.mp done
      obtain ⟨others, later, same⟩ := Option.bind_eq_some_iff.mp done
      cases same
      rcases List.mem_cons.mp member with rfl | follows
      · exact ⟨value, List.mem_cons_self, found⟩
      · obtain ⟨other, listed, read⟩ := inductionHypothesis later follows
        exact ⟨other, List.mem_cons_of_mem value listed, read⟩

namespace Json

def truthy : Json → Bool
  | .null => false
  | .bool value => value
  | .num value => value ≠ 0
  | .str text => text ≠ []
  | .arr _ | .obj _ => true

/-- `===` between values that were built separately: two objects are never the
same one. -/
def strictEquals : Json → Json → Bool
  | .null, .null => true
  | .bool first, .bool second => first = second
  | .num first, .num second => first = second
  | .str first, .str second => first = second
  | _, _ => false

/-- `value.key`, for a key that no built-in prototype has. Reading from `null`
throws. -/
def member (value : Json) (key : JsString) : Option JsValue :=
  match value with
  | .null => none
  | .obj property => some ((property key).elim .undefined .json)
  | _ => some .undefined

end Json

namespace JsValue

def truthy : JsValue → Bool
  | .undefined | .nan => false
  | .infinity _ => true
  | .json value => value.truthy

def strictEquals : JsValue → JsValue → Bool
  | .undefined, .undefined => true
  | .infinity first, .infinity second => first = second
  | .json first, .json second => first.strictEquals second
  | _, _ => false

theorem eq_of_strictEquals {first second : JsValue}
    (equal : first.strictEquals second = true) : first = second := by
  match first, second with
  | .undefined, .undefined => rfl
  | .infinity _, .infinity _ => exact congrArg _ (by simpa [JsValue.strictEquals] using equal)
  | .json .null, .json .null => rfl
  | .json (.bool _), .json (.bool _) | .json (.num _), .json (.num _)
  | .json (.str _), .json (.str _) =>
      simp only [JsValue.strictEquals, Json.strictEquals, decide_eq_true_eq] at equal
      rw [equal]

/-- What `JSON.stringify` makes of a property value; `none` drops the property. -/
def toJson : JsValue → Option Json
  | .undefined => none
  | .nan | .infinity _ => some .null
  | .json value => some value

end JsValue

/-! ### Numbers in strings -/

/-- White space and line terminators. -/
def isWhiteSpace (unit : UInt16) : Bool :=
  unit ∈ [9, 10, 11, 12, 13, 32, 160, 5760, 8192, 8193, 8194, 8195, 8196, 8197, 8198, 8199, 8200,
    8201, 8202, 8232, 8233, 8239, 8287, 12288, 65279]

def trimStart (text : JsString) : JsString := text.dropWhile isWhiteSpace

def trim (text : JsString) : JsString := (trimStart (trimStart text).reverse).reverse

/-- `text.includes(pattern)` -/
def includes (text pattern : JsString) : Bool := text.tails.any pattern.isPrefixOf

example : includes (js "Awaiting input...") (js "ing in") = true ∧
    includes (js "Awaiting input...") (js "inner") = false := by decide

/-- The value of a digit or letter: `0`–`9`, then `a`–`z` in either case. -/
def digitValue (unit : UInt16) : Option Nat :=
  let code := unit.toNat
  if 48 ≤ code ∧ code ≤ 57 then some (code - 48)
  else if 97 ≤ code ∧ code ≤ 122 then some (code - 87)
  else if 65 ≤ code ∧ code ≤ 90 then some (code - 55)
  else none

def isDigitIn (radix : Nat) (unit : UInt16) : Bool :=
  (digitValue unit).any (· < radix)

def valueOfDigits (radix : Nat) (digits : JsString) : Nat :=
  digits.foldl (fun value unit => value * radix + (digitValue unit).getD 0) 0

/-- Digits and letters lie between `0` and `z`. -/
theorem isDigitIn_range {radix : Nat} {unit : UInt16} (digit : isDigitIn radix unit = true) :
    48 ≤ unit.toNat ∧ unit.toNat ≤ 122 := by
  simp only [isDigitIn, digitValue] at digit
  split_ifs at digit with number lower upper
  · omega
  · omega
  · omega
  · cases digit

theorem isDigitIn_mono {radix larger : Nat} (le : radix ≤ larger) {unit : UInt16}
    (digit : isDigitIn radix unit = true) : isDigitIn larger unit = true := by
  rw [isDigitIn, Option.any_eq_true] at digit ⊢
  obtain ⟨value, found, small⟩ := digit
  simp only [decide_eq_true_eq] at small
  exact ⟨value, found, decide_eq_true (small.trans_le le)⟩

theorem isWhiteSpace_of_isDigitIn {radix : Nat} {unit : UInt16}
    (digit : isDigitIn radix unit = true) : isWhiteSpace unit = false := by
  have range := isDigitIn_range digit
  have none : ∀ offset < 75, isWhiteSpace (UInt16.ofNat (48 + offset)) = false := by decide
  have same : UInt16.ofNat (48 + (unit.toNat - 48)) = unit := by
    rw [Nat.add_sub_cancel' range.1, UInt16.ofNat_toNat]
  rw [← same]
  exact none (unit.toNat - 48) (by omega)

theorem trimStart_of_digits {radix : Nat} {text : JsString}
    (digits : ∀ unit ∈ text, isDigitIn radix unit = true) : trimStart text = text := by
  cases text with
  | nil => rfl
  | cons first rest =>
      have plain := isWhiteSpace_of_isDigitIn (digits first List.mem_cons_self)
      rw [trimStart, List.dropWhile_cons_of_neg (by simp [plain])]

theorem trim_of_digits {radix : Nat} {text : JsString}
    (digits : ∀ unit ∈ text, isDigitIn radix unit = true) : trim text = text := by
  have backwards : ∀ unit ∈ text.reverse, isDigitIn radix unit = true :=
    fun unit member => digits unit (List.mem_reverse.mp member)
  rw [trim, trimStart_of_digits digits, trimStart_of_digits backwards, List.reverse_reverse]

/-- The nearest double, ties to even; `none` beyond the largest one. -/
def roundToDouble (value : Nat) : Option Nat :=
  if value < 2 ^ 53 then some value
  else
    let unit := 2 ^ (Nat.log2 value - 52)
    let kept := value / unit
    let dropped := value % unit
    let rounded := if unit < 2 * dropped ∨ (2 * dropped = unit ∧ kept % 2 = 1) then kept + 1 else kept
    if rounded * unit < 2 ^ 1024 then some (rounded * unit) else none

/-- The result of `parseInt`, which is never a fraction. -/
inductive ParsedInt where
  | nan
  | infinity (negative : Bool)
  | finite (value : Int)
deriving DecidableEq, Repr

def ParsedInt.toValue : ParsedInt → JsValue
  | .nan => .nan
  | .infinity negative => .infinity negative
  | .finite value => .json (.num value)

def startsWithHex (text : JsString) : Bool :=
  text.take 2 = js "0x" ∨ text.take 2 = js "0X"

/-- The sign in front of a numeral, and the numeral. -/
def splitSign (text : JsString) : Bool × JsString :=
  match text with
  | 45 :: rest => (true, rest)
  | 43 :: rest => (false, rest)
  | _ => (false, text)

def parseDigits (radix : Nat) (negative : Bool) (text : JsString) : ParsedInt :=
  match text.takeWhile (isDigitIn radix) with
  | [] => .nan
  | digits =>
      match roundToDouble (valueOfDigits radix digits) with
      | none => .infinity negative
      | some value => .finite (if negative then -value else value)

/-- `parseInt(text, 10)`. -/
def parseInt10 (text : JsString) : ParsedInt :=
  let (negative, numeral) := splitSign (trimStart text)
  parseDigits 10 negative numeral

/-- `parseInt(text)`, which takes a hexadecimal numeral after `0x`. -/
def parseInt (text : JsString) : ParsedInt :=
  let (negative, numeral) := splitSign (trimStart text)
  if startsWithHex numeral then parseDigits 16 negative (numeral.drop 2)
  else parseDigits 10 negative numeral

/-- A numeral with at least one digit and nothing else. -/
def wholeNumeral (radix : Nat) (text : JsString) : Option Nat :=
  if text ≠ [] ∧ text.all (isDigitIn radix) then some (valueOfDigits radix text) else none

/-- `BigInt(text)`; `none` where it throws a `SyntaxError`. -/
def bigInt (text : JsString) : Option Int :=
  let trimmed := trim text
  if trimmed = [] then some 0
  else if startsWithHex trimmed then (wholeNumeral 16 (trimmed.drop 2)).map Int.ofNat
  else if trimmed.take 2 = js "0o" ∨ trimmed.take 2 = js "0O" then
    (wholeNumeral 8 (trimmed.drop 2)).map Int.ofNat
  else if trimmed.take 2 = js "0b" ∨ trimmed.take 2 = js "0B" then
    (wholeNumeral 2 (trimmed.drop 2)).map Int.ofNat
  else
    let (negative, numeral) := splitSign trimmed
    (wholeNumeral 10 numeral).map fun value => if negative then -value else value

example : parseInt10 (js " 42px") = .finite 42 := by decide

example : parseInt10 (js "0x1A") = .finite 0 ∧ parseInt (js "0x1A") = .finite 26 := by decide

example : roundToDouble (2 ^ 53 + 1) = some (2 ^ 53) ∧ roundToDouble (2 ^ 53 + 3) = some (2 ^ 53 + 4) ∧
    roundToDouble (2 ^ 1024 - 2 ^ 970) = none := by decide +kernel

example : bigInt (js "0x00000000000000ff") = some 255 := by decide

end MidenWorkspace.Frontend
