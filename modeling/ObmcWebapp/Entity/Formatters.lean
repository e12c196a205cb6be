import Mathlib.Data.List.DropRight
import ObmcWebapp.Entity.Instances

/-!
# Entity - Formatters of property values

A property's value passes a chain of formatters before it is stored.  Some of them
take every value, the others raise an exception at a value of another type than they
expect; which exception it is decides whether the initialisation of an instance goes
on.

The formatters of time stamps are left out.

Main results:

- Theorem {lit}`dBusEnumFormatter_ok`, {lit}`strHexToNumberFormatter_ok`: the formatters
  that take every value.
- Theorem {lit}`numberToStringFormatter_ok_iff`, {lit}`trimFormatter_ok_iff`,
  {lit}`formatValueFromDict_ok_iff`: the values that the others take.
-/

open Library

namespace ObmcWebapp
namespace Entity

/-! ## Values -/

/-- {lit}`DbusVariantType`: the alternatives of {lit}`FieldType` less {lit}`nullptr`. -/
abbrev DbusVariant := { value : FieldType // value ≠ .null }

namespace DbusVariant

/-- A text. -/
def string (value : Bytes) : DbusVariant :=
  ⟨.string value, by simp⟩

/-- An unsigned number of 64 bits. -/
def uint64 (value : UInt64) : DbusVariant :=
  ⟨.uint64 value, by simp⟩

/-- An unsigned number of 32 bits. -/
def uint32 (value : UInt32) : DbusVariant :=
  ⟨.uint32 value, by simp⟩

/-- A signed number of 32 bits. -/
def int32 (value : Int32) : DbusVariant :=
  ⟨.int32 value, by simp⟩

/-- {lit}`std::holds_alternative<std::string>` and the text. -/
def getString (variant : DbusVariant) : Option Bytes :=
  match variant.val with
  | .string value => some value
  | _ => none

/-- The signed number of 32 bits, where it is one. -/
def getInt32 (variant : DbusVariant) : Option Int32 :=
  match variant.val with
  | .int32 value => some value
  | _ => none

/-- The byte, where it is one. -/
def getUint8 (variant : DbusVariant) : Option UInt8 :=
  match variant.val with
  | .uint8 value => some value
  | _ => none

/-- The truth value, where it is one. -/
def getBool (variant : DbusVariant) : Option Bool :=
  match variant.val with
  | .bool value => some value
  | _ => none

/-- {lit}`std::is_arithmetic` of the alternative: the numbers and {lit}`bool`. -/
def isArithmetic (variant : DbusVariant) : Bool :=
  match variant.val with
  | .int64 _ | .uint64 _ | .double _ | .int32 _ | .uint32 _ | .int16 _ | .uint16 _ | .uint8 _
  | .bool _ => true
  | _ => false

end DbusVariant

/-- The {lit}`format` of an {lit}`IFormatter`, given the property's name and its value. -/
abbrev Formatter := Bytes → DbusVariant → Except Exception DbusVariant

/-! ## Formatting by a dictionary -/

/-- {lit}`formatValueFromDict`: {lit}`rawValue` takes a key out of the alternative that
holds the dictionary's type, {lit}`variant` makes the result a value again.  Another
alternative raises {lit}`InvalidType`. -/
def formatValueFromDict {κ ρ : Type} [DecidableEq κ] (rawValue : DbusVariant → Option κ)
    (variant : ρ → DbusVariant) (formatterDict : List (κ × ρ)) (defaultValue : ρ) : Formatter :=
  fun _ value =>
    match rawValue value with
    | some property => .ok (variant ((formatterDict.lookup property).getD defaultValue))
    | none => .error .runtimeError

/-! ## The formatters -/

/-- {lit}`DBusEnumFormatter`: the text after the last dot; a failure is logged. -/
def dBusEnumFormatter : Formatter := fun _ value =>
  match value.getString with
  | none => .ok (.string fieldValueNotAvailable)
  | some protocol =>
      if 0x2E ∈ protocol then .ok (.string (protocol.rtakeWhile (· ≠ 0x2E)))
      else .ok (.string fieldValueNotAvailable)

/-- {lit}`isspace` in the C locale. -/
def isSpace (c : UInt8) : Bool :=
  c = 0x20 || (0x09 ≤ c && c ≤ 0x0D)

/-- The value of a digit, upper or lower case. -/
def hexDigitValue (c : UInt8) : Option Nat :=
  if 0x30 ≤ c && c ≤ 0x39 then some (c.toNat - 0x30)
  else if 0x41 ≤ c && c ≤ 0x46 then some (c.toNat - 0x37)
  else if 0x61 ≤ c && c ≤ 0x66 then some (c.toNat - 0x57)
  else none

/-- The prefix counts only where a digit stands behind it. -/
def skipHexPrefix : Bytes → Bytes
  | 0x30 :: x :: digit :: rest =>
      if (x = 0x78 || x = 0x58) && (hexDigitValue digit).isSome then digit :: rest
      else 0x30 :: x :: digit :: rest
  | text => text

/-- {lit}`std::stoul` of base 16, for an {lit}`unsigned long` of so many bits.  A number
after a minus sign is negated. -/
def stoul (ulongBits : Nat) (text : Bytes) : Except Exception Nat :=
  let text := text.dropWhile isSpace
  let negative := text.head? = some 0x2D
  let text := if negative || text.head? = some 0x2B then text.tail else text
  let digits := ((skipHexPrefix text).map hexDigitValue).takeWhile Option.isSome
  let number := digits.foldl (fun number digit => 16 * number + digit.getD 0) 0
  if digits = [] then .error .logicError
  else if 2 ^ ulongBits ≤ number then .error .outOfRange
  else .ok (if negative then (2 ^ ulongBits - number) % 2 ^ ulongBits else number)

/-- {lit}`StrHexToNumberFormatter`; {lit}`cast` makes a {lit}`TNumber` of a number.  The
exceptions of {lit}`stoul` are both logic errors. -/
def strHexToNumberFormatter (ulongBits : Nat) (cast : Nat → DbusVariant) : Formatter :=
  fun _ value =>
    match value.getString with
    | none => .ok (cast 0)
    | some strValue =>
        match stoul ulongBits strValue with
        | .ok numValue => .ok (cast numValue)
        | .error _ => .ok (cast 0)

/-- {lit}`std::to_string` of an integer. -/
def decimal (number : Int) : Bytes :=
  bytes (toString number)

/-- {lit}`NumberToStringFormatter`, given the text of a double.  What is no number becomes
a {lit}`nullptr`, of which the value's {lit}`std::string` cannot be constructed. -/
def numberToStringFormatter (doubleText : UInt64 → Bytes) : Formatter := fun _ value =>
  match value.val with
  | .int64 number => .ok (.string (decimal number.toInt))
  | .uint64 number => .ok (.string (decimal number.toNat))
  | .double bits => .ok (.string (doubleText bits))
  | .int32 number => .ok (.string (decimal number.toInt))
  | .uint32 number => .ok (.string (decimal number.toNat))
  | .int16 number => .ok (.string (decimal number.toInt))
  | .uint16 number => .ok (.string (decimal number.toNat))
  | .uint8 number => .ok (.string (decimal number.toNat))
  | .bool flag => .ok (.string (if flag then bytes "1" else bytes "0"))
  | _ => .error .logicError

/-- {lit}`ltrim` -/
def ltrim (text : Bytes) : Bytes :=
  text.dropWhile isSpace

/-- {lit}`rtrim` -/
def rtrim (text : Bytes) : Bytes :=
  text.rdropWhile isSpace

/-- {lit}`trim` -/
def trim (text : Bytes) : Bytes :=
  rtrim (ltrim text)

/-- {lit}`TrimFormatter` -/
def trimFormatter : Formatter := fun _ value =>
  match value.getString with
  | none => .error .logicError
  | some strValue => .ok (.string (trim strValue))

/-! ## What the formatters take -/

variable {property : Bytes} {value : DbusVariant}

theorem dBusEnumFormatter_ok :
    ∃ formatted, dBusEnumFormatter property value = .ok formatted := by
  unfold dBusEnumFormatter
  split
  · exact ⟨_, rfl⟩
  · split
    · exact ⟨_, rfl⟩
    · exact ⟨_, rfl⟩

theorem strHexToNumberFormatter_ok {ulongBits : Nat} {cast : Nat → DbusVariant} :
    ∃ formatted, strHexToNumberFormatter ulongBits cast property value = .ok formatted := by
  unfold strHexToNumberFormatter
  split
  · exact ⟨_, rfl⟩
  · split
    · exact ⟨_, rfl⟩
    · exact ⟨_, rfl⟩

theorem numberToStringFormatter_ok_iff {doubleText : UInt64 → Bytes} :
    (∃ formatted, numberToStringFormatter doubleText property value = .ok formatted) ↔
      value.isArithmetic := by
  obtain ⟨alternative, hvalue⟩ := value
  cases alternative <;> simp [numberToStringFormatter, DbusVariant.isArithmetic]

theorem trimFormatter_ok_iff :
    (∃ formatted, trimFormatter property value = .ok formatted) ↔ value.getString.isSome := by
  unfold trimFormatter
  cases value.getString with
  | none => simp
  | some strValue => simp

theorem formatValueFromDict_ok_iff {κ ρ : Type} [DecidableEq κ]
    {rawValue : DbusVariant → Option κ} {variant : ρ → DbusVariant}
    {formatterDict : List (κ × ρ)} {defaultValue : ρ} :
    (∃ formatted, formatValueFromDict rawValue variant formatterDict defaultValue property value =
      .ok formatted) ↔ (rawValue value).isSome := by
  unfold formatValueFromDict
  cases rawValue value with
  | none => simp
  | some key => simp

end Entity
end ObmcWebapp
