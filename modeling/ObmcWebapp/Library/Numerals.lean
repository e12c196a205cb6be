import Mathlib.Data.List.Basic
import Mathlib.Tactic.Common
import ObmcWebapp.Library.Utf8

/-!
# Library - Decimal numerals, names and fixed parts of a text

Numerals of a fixed width and names from a table, with readers that take them off the front
of a text.

Main results:

- Theorem {lit}`readNumber_numeral`: the value of a numeral.
- Theorems {lit}`readNumeral_append`, {lit}`readName_append`, {lit}`dropPrefix?_append`: what
  stands at the front of a text is read, and the rest is left.
-/

namespace Library
namespace Numerals

/-! ## Digits -/

/-- The character of a digit. -/
def digit (n : Nat) : UInt8 :=
  UInt8.ofNat (0x30 + n)

/-- The digit of a character. -/
def digitValue (c : UInt8) : Option Nat :=
  if 0x30 ≤ c ∧ c ≤ 0x39 then some (c.toNat - 0x30) else none

/-- A digit is read as its number. -/
theorem digitValue_digit {n : Nat} (h : n < 10) : digitValue (digit n) = some n := by
  have hall : ∀ k : Fin 10, digitValue (digit k) = some k.val := by decide
  exact hall ⟨n, h⟩

/-- The value of a text of digits. -/
def readNumber (text : Bytes) : Option Nat :=
  text.foldl (fun number c => number.bind fun n => (digitValue c).map (10 * n + ·)) (some 0)

/-- A digit more is a place more. -/
theorem readNumber_append_digit {text : Bytes} {number value : Nat} {c : UInt8}
    (htext : readNumber text = some number) (hc : digitValue c = some value) :
    readNumber (text ++ [c]) = some (10 * number + value) := by
  unfold readNumber at htext ⊢
  rw [List.foldl_append, htext, List.foldl_cons, List.foldl_nil, Option.bind_some, hc]
  rfl

/-! ## Numerals of a fixed width -/

/-- The last digits of a number, as many as asked for. -/
def numeral : Nat → Nat → Bytes
  | 0, _ => []
  | width + 1, n => numeral width (n / 10) ++ [digit (n % 10)]

/-- A number of fixed width is read off the front of a text. -/
def readNumeral (width : Nat) (text : Bytes) : Option (Nat × Bytes) :=
  if width ≤ text.length then
    (readNumber (text.take width)).map fun n => (n, text.drop width)
  else
    none

/-- A numeral has its width. -/
@[simp]
theorem length_numeral (width n : Nat) : (numeral width n).length = width := by
  induction width generalizing n with
  | zero => rfl
  | succ width ih => simp [numeral, ih]

/-- A numeral is read as the number, as far as it fits. -/
theorem readNumber_numeral (width n : Nat) :
    readNumber (numeral width n) = some (n % 10 ^ width) := by
  induction width generalizing n with
  | zero =>
      rw [pow_zero, Nat.mod_one]
      rfl
  | succ width ih =>
      rw [numeral, readNumber_append_digit (ih (n / 10))
        (digitValue_digit (Nat.mod_lt n (by decide)))]
      rw [Nat.pow_succ', Nat.mod_mul, Nat.add_comm]

/-- A numeral in front of a text is read. -/
theorem readNumeral_append {width n : Nat} (hn : n < 10 ^ width) (rest : Bytes) :
    readNumeral width (numeral width n ++ rest) = some (n, rest) := by
  have hlength : width ≤ (numeral width n ++ rest).length := by simp
  unfold readNumeral
  rw [if_pos hlength, List.take_left' (length_numeral width n),
    List.drop_left' (length_numeral width n), readNumber_numeral, Nat.mod_eq_of_lt hn]
  rfl

/-! ## Names and fixed parts -/

/-- The position of a name in a table of names that are all of one width. -/
def readName (names : List Bytes) (width : Nat) (text : Bytes) : Option (Nat × Bytes) :=
  if text.take width ∈ names then some (names.idxOf (text.take width), text.drop width) else none

/-- A name in front of a text is read. -/
theorem readName_append {names : List Bytes} (hnodup : names.Nodup) {width index : Nat}
    (hindex : index < names.length) (hwidth : (names[index]).length = width) (rest : Bytes) :
    readName names width (names[index] ++ rest) = some (index, rest) := by
  unfold readName
  rw [List.take_left' hwidth, List.drop_left' hwidth, if_pos (List.getElem_mem hindex),
    hnodup.idxOf_getElem index hindex]

/-- A fixed text in front of another is dropped. -/
theorem dropPrefix?_append (fixed rest : Bytes) : (fixed ++ rest).dropPrefix? fixed = some rest :=
  List.dropPrefix?_eq_some_iff.mpr ⟨fixed, rfl, beq_self_eq_true fixed⟩

end Numerals
end Library
