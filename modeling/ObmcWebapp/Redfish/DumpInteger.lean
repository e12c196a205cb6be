import Mathlib.Tactic.IntervalCases
import ObmcWebapp.Redfish.Dump

/-!
# Redfish - Printing an integer

{lit}`dumpInteger` counts the digits of the absolute value four at a time and fills a
64-byte buffer backwards, two digits at a time.  The run keeps the indices it writes
and whether a signed operation overflows, next to the output.

Main results:

- Theorem {lit}`countDigits_eq`: the count is the number of decimal digits.
- Theorem {lit}`fillBackwards_eq`: the digits are put in front of each other from the
  last to the first.
- Theorem {lit}`dumpInteger_prints_iff`: which numbers are printed without an overflow.
-/

open Library

namespace ObmcWebapp
namespace Redfish

/-! ## The printer -/

/-- The loop of {lit}`countDigits` -/
def countDigitsFrom (nDigits : Nat) (number : UInt64) : Nat :=
  if number < 10 then nDigits
  else if number < 100 then nDigits + 1
  else if number < 1000 then nDigits + 2
  else if hnumber : number < 10000 then nDigits + 3
  else countDigitsFrom (nDigits + 4) (number / 10000)
termination_by number.toNat
decreasing_by
  rw [UInt64.lt_iff_toNat_lt] at hnumber
  rw [UInt64.toNat_div]
  simp only [UInt64.reduceToNat] at hnumber ⊢
  omega

/-- {lit}`countDigits` -/
def countDigits (number : UInt64) : Nat :=
  countDigitsFrom 1 number

/-- The two types that {lit}`dumpInteger` is instantiated with. -/
inductive NumberType
  | int64 (number : Int64)
  | uint64 (number : UInt64)
deriving DecidableEq

namespace NumberType

/-- The value of a number. -/
def value : NumberType → Int
  | .int64 number => number.toInt
  | .uint64 number => number.toNat

/-- The number is below zero. -/
def isNegative : NumberType → Bool
  | .int64 number => !(0 ≤ number)
  | .uint64 _ => false

/-- {lit}`static_cast<uint64_t>` -/
def toUInt64 : NumberType → UInt64
  | .int64 number => number.toUInt64
  | .uint64 number => number

/-- The subtraction {lit}`0 - number` in the number's own type. -/
def negated : NumberType → NumberType
  | .int64 number => .int64 (0 - number)
  | .uint64 number => .uint64 (0 - number)

/-- A signed subtraction overflows where its result is not the difference. -/
def negatedOverflows : NumberType → Bool
  | .int64 number => 2 ^ 63 ≤ 0 - number.toInt
  | .uint64 _ => false

end NumberType

/-- The array {lit}`digitsTo99`. -/
def digitsTo99 : List Bytes := [
  "00", "01", "02", "03", "04", "05", "06", "07", "08", "09",
  "10", "11", "12", "13", "14", "15", "16", "17", "18", "19",
  "20", "21", "22", "23", "24", "25", "26", "27", "28", "29",
  "30", "31", "32", "33", "34", "35", "36", "37", "38", "39",
  "40", "41", "42", "43", "44", "45", "46", "47", "48", "49",
  "50", "51", "52", "53", "54", "55", "56", "57", "58", "59",
  "60", "61", "62", "63", "64", "65", "66", "67", "68", "69",
  "70", "71", "72", "73", "74", "75", "76", "77", "78", "79",
  "80", "81", "82", "83", "84", "85", "86", "87", "88", "89",
  "90", "91", "92", "93", "94", "95", "96", "97", "98", "99"].map bytes

/-- One character of the array. -/
def digitOf (digitsIndex : UInt64) (place : Nat) : UInt8 :=
  (digitsTo99.getD digitsIndex.toNat []).getD place 0

/-- The size of the buffer. -/
def numberbufferSize : Nat := 64

/-- The buffer with every index written so far, and the pointer into it. -/
structure NumberBuffer where
  cells : Int → UInt8
  written : List Int
  bufferPtr : Int

namespace NumberBuffer

/-- {lit}`*bufferPtr = c` -/
def set (buffer : NumberBuffer) (c : UInt8) : NumberBuffer :=
  { buffer with
    cells := Function.update buffer.cells buffer.bufferPtr c
    written := buffer.written ++ [buffer.bufferPtr] }

/-- {lit}`*(--bufferPtr) = c` -/
def putBack (buffer : NumberBuffer) (c : UInt8) : NumberBuffer :=
  set { buffer with bufferPtr := buffer.bufferPtr - 1 } c

/-- The first bytes of the buffer. -/
def data (buffer : NumberBuffer) (count : Nat) : Bytes :=
  (List.range count).map fun k : Nat => buffer.cells k

end NumberBuffer

/-- The digits of a value from the last to the first. -/
def fillBackwards (absValue : UInt64) (buffer : NumberBuffer) : NumberBuffer :=
  if habs : 100 ≤ absValue then
    let digitsIndex := absValue % 100
    fillBackwards (absValue / 100)
      ((buffer.putBack (digitOf digitsIndex 1)).putBack (digitOf digitsIndex 0))
  else if 10 ≤ absValue then
    (buffer.putBack (digitOf absValue 1)).putBack (digitOf absValue 0)
  else
    buffer.putBack ((0x30 : UInt64) + absValue).toUInt8
termination_by absValue.toNat
decreasing_by
  rw [UInt64.le_iff_toNat_le] at habs
  rw [UInt64.toNat_div]
  simp only [UInt64.reduceToNat] at habs ⊢
  omega

/-- What a call of {lit}`dumpInteger` leaves. -/
structure IntegerRun where
  out : Bytes
  /-- The indices of the buffer that are written. -/
  written : List Int
  /-- A signed operation overflows. -/
  overflow : Bool

/-- {lit}`dumpInteger(out, number)` -/
def dumpInteger (out : Bytes) (number : NumberType) : IntegerRun :=
  let numberbuffer : NumberBuffer := { cells := fun _ => 0, written := [], bufferPtr := 0 }
  if number.value = 0 then
    { out := out ++ bytes "0", written := [], overflow := false }
  else
    let signed := if number.isNegative then numberbuffer.set 0x2D else numberbuffer
    let absValue := if number.isNegative then number.negated.toUInt64 else number.toUInt64
    let nChars := if number.isNegative then 1 + countDigits absValue else countDigits absValue
    let overflow := number.isNegative && number.negatedOverflows
    if numberbufferSize - 1 ≤ nChars then
      { out, written := signed.written, overflow }
    else
      let filled := fillBackwards absValue { signed with bufferPtr := signed.bufferPtr + nChars }
      { out := out ++ filled.data nChars, written := filled.written, overflow }

/-! ## Decimal texts -/

/-- The decimal text of a natural number. -/
def decimal (n : Nat) : Bytes :=
  bytes (toString n)

/-- The character of a digit. -/
def digit (n : Nat) : UInt8 :=
  UInt8.ofNat (0x30 + n)

/-- The digits of a number are those of Lean. -/
theorem decimal_eq_map (n : Nat) :
    decimal n = (Nat.toDigits 10 n).map fun c => UInt8.ofNat c.toNat := by
  simp [decimal, bytes, ← Nat.toList_repr]

/-- A digit of Lean is the same character. -/
theorem ofNat_digitChar {n : Nat} (h : n < 10) : UInt8.ofNat (Nat.digitChar n).toNat = digit n := by
  rw [Nat.toNat_digitChar_of_lt_ten h, digit]

/-- A number of one digit. -/
theorem decimal_of_lt {n : Nat} (h : n < 10) : decimal n = [digit n] := by
  rw [decimal_eq_map, Nat.toDigits_of_lt_base h, List.map_singleton, ofNat_digitChar h]

/-- The last digit comes off the end. -/
theorem decimal_of_le {n : Nat} (h : 10 ≤ n) :
    decimal n = decimal (n / 10) ++ [digit (n % 10)] := by
  rw [decimal_eq_map, decimal_eq_map, Nat.toDigits_of_base_le (by omega) h, List.map_append,
    List.map_singleton, ofNat_digitChar (Nat.mod_lt n (by omega))]

/-- The last two digits come off the end. -/
theorem decimal_of_hundred_le {n : Nat} (h : 100 ≤ n) :
    decimal n = decimal (n / 100) ++ [digit (n % 100 / 10), digit (n % 100 % 10)] := by
  have htens : n / 10 % 10 = n % 100 / 10 := by omega
  have hones : n % 10 = n % 100 % 10 := by omega
  rw [decimal_of_le (by omega), decimal_of_le (n := n / 10) (by omega), Nat.div_div_eq_div_mul,
    List.append_assoc, htens, hones]
  rfl

/-- A number of few digits is small. -/
theorem decimal_length_le_iff {n k : Nat} (hk : 0 < k) :
    (decimal n).length ≤ k ↔ n < 10 ^ k := by
  rw [decimal_eq_map, List.length_map]
  exact Nat.length_toDigits_le_iff (by omega) hk

/-- A number has a digit. -/
theorem decimal_length_pos (n : Nat) : 0 < (decimal n).length := by
  rw [decimal_eq_map, List.length_map]
  exact Nat.length_toDigits_pos

/-! ## Counting -/

/-- Four digits come off the end. -/
theorem decimal_length_of_le {n : Nat} (h : 10000 ≤ n) :
    (decimal n).length = (decimal (n / 10000)).length + 4 := by
  rw [decimal_of_hundred_le (by omega), decimal_of_hundred_le (n := n / 100) (by omega),
    Nat.div_div_eq_div_mul]
  simp only [List.length_append, List.length_cons, List.length_nil]

/-- The loop counts the digits that are left. -/
theorem countDigitsFrom_eq (nDigits : Nat) (number : UInt64) :
    countDigitsFrom nDigits number + 1 = nDigits + (decimal number.toNat).length := by
  have hlength : ∀ k, 0 < k → ((decimal number.toNat).length ≤ k ↔ number.toNat < 10 ^ k) :=
    fun k => decimal_length_le_iff
  have h1 := hlength 1 (by omega)
  have h2 := hlength 2 (by omega)
  have h3 := hlength 3 (by omega)
  have h4 := hlength 4 (by omega)
  have hpos := decimal_length_pos number.toNat
  induction nDigits, number using countDigitsFrom.induct with
  | case1 nDigits number hten =>
      have hten' : number.toNat < 10 := hten
      rw [countDigitsFrom, if_pos hten]
      omega
  | case2 nDigits number hten hhundred =>
      have hten' : 10 ≤ number.toNat := Nat.le_of_not_lt hten
      have hhundred' : number.toNat < 100 := hhundred
      rw [countDigitsFrom, if_neg hten, if_pos hhundred]
      omega
  | case3 nDigits number hten hhundred hthousand =>
      have hhundred' : 100 ≤ number.toNat := Nat.le_of_not_lt hhundred
      have hthousand' : number.toNat < 1000 := hthousand
      rw [countDigitsFrom, if_neg hten, if_neg hhundred, if_pos hthousand]
      omega
  | case4 nDigits number hten hhundred hthousand hmyriad =>
      have hthousand' : 1000 ≤ number.toNat := Nat.le_of_not_lt hthousand
      have hmyriad' : number.toNat < 10000 := hmyriad
      rw [countDigitsFrom, if_neg hten, if_neg hhundred, if_neg hthousand, dif_pos hmyriad]
      omega
  | case5 nDigits number hten hhundred hthousand hmyriad ih =>
      have hmyriad' : 10000 ≤ number.toNat := Nat.le_of_not_lt hmyriad
      have hquotient : (number / 10000).toNat = number.toNat / 10000 := rfl
      have hrest := ih (fun k => decimal_length_le_iff) (decimal_length_le_iff (by omega))
        (decimal_length_le_iff (by omega)) (decimal_length_le_iff (by omega))
        (decimal_length_le_iff (by omega)) (decimal_length_pos _)
      rw [hquotient] at hrest
      rw [countDigitsFrom, if_neg hten, if_neg hhundred, if_neg hthousand, dif_neg hmyriad, hrest,
        decimal_length_of_le hmyriad']
      omega

/-- The digits are counted. -/
theorem countDigits_eq (number : UInt64) :
    countDigits number = (decimal number.toNat).length := by
  have heq := countDigitsFrom_eq 1 number
  unfold countDigits
  omega

/-! ## Filling -/

namespace NumberBuffer

/-- The characters of a text, put back one by one. -/
def putText (buffer : NumberBuffer) (text : Bytes) : NumberBuffer :=
  text.foldr (fun c buffer => buffer.putBack c) buffer

variable (buffer : NumberBuffer) (text : Bytes)

/-- Putting a character moves back by one. -/
@[simp] theorem bufferPtr_putBack (c : UInt8) :
    (buffer.putBack c).bufferPtr = buffer.bufferPtr - 1 := rfl

/-- Putting a character writes one cell. -/
@[simp] theorem written_putBack (c : UInt8) :
    (buffer.putBack c).written = buffer.written ++ [buffer.bufferPtr - 1] := rfl

/-- Putting a character leaves the other cells. -/
@[simp] theorem cells_putBack (c : UInt8) :
    (buffer.putBack c).cells = Function.update buffer.cells (buffer.bufferPtr - 1) c := rfl

/-- The last character is put first. -/
theorem putText_cons (c : UInt8) : buffer.putText (c :: text) = (buffer.putText text).putBack c :=
  rfl

/-- The second text is put first. -/
theorem putText_append (more : Bytes) :
    buffer.putText (text ++ more) = (buffer.putText more).putText text :=
  List.foldr_append

/-- Putting a text moves back by its length. -/
@[simp] theorem bufferPtr_putText :
    (buffer.putText text).bufferPtr = buffer.bufferPtr - text.length := by
  induction text with
  | nil => exact (Int.sub_zero _).symm
  | cons c rest ih =>
      rw [putText_cons, bufferPtr_putBack, ih, List.length_cons]
      omega

/-- The cells that a text writes. -/
theorem mem_written_putText {k : Int} :
    k ∈ (buffer.putText text).written ↔
      k ∈ buffer.written ∨ buffer.bufferPtr - text.length ≤ k ∧ k < buffer.bufferPtr := by
  induction text with
  | nil =>
      refine (or_iff_left ?_).symm
      rw [List.length_nil]
      omega
  | cons c rest ih =>
      rw [putText_cons, written_putBack, List.mem_append, ih, List.mem_singleton, or_assoc,
        bufferPtr_putText, List.length_cons]
      exact or_congr_right (by omega)

/-- Cells in front of a text are left. -/
theorem cells_putText_of_lt {k : Int} (hk : k < buffer.bufferPtr - text.length) :
    (buffer.putText text).cells k = buffer.cells k := by
  induction text with
  | nil => rfl
  | cons c rest ih =>
      rw [List.length_cons] at hk
      rw [putText_cons, cells_putBack, bufferPtr_putText, Function.update_of_ne (by omega),
        ih (by omega)]

/-- The text stands before the pointer's old place. -/
theorem cells_putText {k : Nat} (hk : k < text.length) :
    (buffer.putText text).cells (buffer.bufferPtr - text.length + k) = text[k] := by
  induction text generalizing k with
  | nil => exact absurd hk (Nat.not_lt_zero k)
  | cons c rest ih =>
      rw [putText_cons, cells_putBack, bufferPtr_putText, List.length_cons]
      cases k with
      | zero =>
          rw [show buffer.bufferPtr - ↑(rest.length + 1) + ((0 : Nat) : Int) =
            buffer.bufferPtr - rest.length - 1 by omega, Function.update_self]
          rfl
      | succ k =>
          rw [Function.update_of_ne (by omega), show buffer.bufferPtr - ↑(rest.length + 1) +
            ((k + 1 : Nat) : Int) = buffer.bufferPtr - rest.length + k by omega]
          exact ih (by simpa using hk)

end NumberBuffer

/-- The table has the two digits of a number. -/
theorem digitOf_eq {digitsIndex : UInt64} (h : digitsIndex.toNat < 100) :
    digitOf digitsIndex 0 = digit (digitsIndex.toNat / 10) ∧
      digitOf digitsIndex 1 = digit (digitsIndex.toNat % 10) := by
  have htable : ∀ n : Fin 100, (digitsTo99.getD n []).getD 0 0 = digit (n / 10) ∧
      (digitsTo99.getD n []).getD 1 0 = digit (n % 10) := by
    decide
  exact htable ⟨digitsIndex.toNat, h⟩

/-- The digits are put in front of each other, from the last to the first. -/
theorem fillBackwards_eq (absValue : UInt64) (buffer : NumberBuffer) :
    fillBackwards absValue buffer = buffer.putText (decimal absValue.toNat) := by
  induction absValue, buffer using fillBackwards.induct with
  | case1 absValue buffer hle digitsIndex ih =>
      have hindex : digitsIndex.toNat = absValue.toNat % 100 := rfl
      have hquotient : (absValue / 100).toNat = absValue.toNat / 100 := rfl
      have hle' : 100 ≤ absValue.toNat := hle
      have hless : digitsIndex.toNat < 100 := hindex ▸ Nat.mod_lt _ (by omega)
      obtain ⟨htens, hones⟩ := digitOf_eq hless
      rw [htens, hones, hindex, hquotient] at ih
      rw [fillBackwards, dif_pos hle]
      show fillBackwards (absValue / 100)
        ((buffer.putBack (digitOf digitsIndex 1)).putBack (digitOf digitsIndex 0)) = _
      rw [htens, hones, hindex, ih, decimal_of_hundred_le hle', NumberBuffer.putText_append]
      rfl
  | case2 absValue buffer hless hle =>
      have hless' : absValue.toNat < 100 := Nat.lt_of_not_le hless
      have hle' : 10 ≤ absValue.toNat := hle
      obtain ⟨htens, hones⟩ := digitOf_eq hless'
      rw [fillBackwards, dif_neg hless, if_pos hle, htens, hones, decimal_of_le hle',
        decimal_of_lt (by omega)]
      rfl
  | case3 absValue buffer hless hten =>
      have hten' : absValue.toNat < 10 := Nat.lt_of_not_le hten
      have hdigit : ((0x30 : UInt64) + absValue).toUInt8 = digit absValue.toNat := by
        rw [← UInt8.toNat_inj, UInt64.toNat_toUInt8, UInt64.toNat_add, digit,
          UInt8.toNat_ofNat_of_lt' (by simp only [UInt8.size]; omega)]
        simp only [UInt64.reduceToNat]
        omega
      rw [fillBackwards, dif_neg hless, if_neg hten, hdigit, decimal_of_lt hten']
      rfl

/-! ## The printed number -/

/-- The sign is that of the value. -/
theorem value_neg_of_isNegative {number : NumberType} (hnegative : number.isNegative = true) :
    number.value < 0 := by
  cases number with
  | uint64 value => exact absurd hnegative (by simp [NumberType.isNegative])
  | int64 value =>
      show value.toInt < 0
      simpa [NumberType.isNegative, Int64.le_iff_toInt_le] using hnegative

/-- Without a sign the value is not negative. -/
theorem value_nonneg_of_not_isNegative {number : NumberType}
    (hnegative : ¬ number.isNegative = true) : 0 ≤ number.value := by
  cases number with
  | uint64 value => exact Int.natCast_nonneg _
  | int64 value =>
      show 0 ≤ value.toInt
      simpa [NumberType.isNegative, Int64.le_iff_toInt_le] using hnegative

/-- A signed value by its bits. -/
theorem toInt_eq_ite (value : Int64) :
    value.toInt =
      if 2 * value.toUInt64.toNat < 2 ^ 64 then (value.toUInt64.toNat : Int)
      else (value.toUInt64.toNat : Int) - (2 ^ 64 : Nat) :=
  BitVec.toInt_eq_toNat_cond value.toBitVec

/-- The bits of {lit}`0 - number` are the absolute value, an overflow included. -/
theorem negated_toUInt64 {number : NumberType} (hnegative : number.isNegative = true) :
    number.negated.toUInt64.toNat = number.value.natAbs := by
  have hless := value_neg_of_isNegative hnegative
  cases number with
  | uint64 value => exact absurd hnegative (by simp [NumberType.isNegative])
  | int64 value =>
      have hzero : (Int64.toUInt64 0).toNat = 0 := rfl
      have hbits : (0 - value).toUInt64.toNat = (2 ^ 64 - value.toUInt64.toNat) % 2 ^ 64 := by
        rw [Int64.toUInt64_sub, UInt64.toNat_sub, hzero, Nat.add_zero]
      have hsign := toInt_eq_ite value
      have hbound := value.toUInt64.toNat_lt
      have hvalue : value.toInt < 0 := hless
      show (0 - value).toUInt64.toNat = value.toInt.natAbs
      rw [hbits]
      split at hsign <;> omega

/-- The absolute value of a number that is not negative. -/
theorem toUInt64_of_nonneg {number : NumberType} (hnonneg : 0 ≤ number.value) :
    number.toUInt64.toNat = number.value.natAbs := by
  cases number with
  | uint64 value => rfl
  | int64 value =>
      have hsign := toInt_eq_ite value
      have hbound := value.toUInt64.toNat_lt
      have hvalue : 0 ≤ value.toInt := hnonneg
      show value.toUInt64.toNat = value.toInt.natAbs
      split at hsign <;> omega

/-- The digits with the sign. -/
theorem bytes_toString (value : Int) :
    bytes (toString value) =
      if value < 0 then 0x2D :: decimal value.natAbs else decimal value.natAbs := by
  rw [Int.toString_eq_repr, Int.repr_eq_if]
  by_cases hnegative : value < 0
  · have habs : (-value).toNat = value.natAbs := by omega
    rw [if_neg (by omega), if_pos hnegative, habs]
    simp [bytes, decimal]
  · have habs : value.toNat = value.natAbs := by omega
    rw [if_pos (by omega), if_neg hnegative, habs]
    simp [bytes, decimal]

/-- The text stands at the end of the bytes it is filled into. -/
theorem data_putText {buffer : NumberBuffer} {text : Bytes} {before : Nat}
    (hptr : buffer.bufferPtr = before + text.length) :
    (buffer.putText text).data (before + text.length) = buffer.data before ++ text := by
  have hstart : buffer.bufferPtr - text.length = before := by omega
  unfold NumberBuffer.data
  rw [List.range_add, List.map_append, List.map_map]
  congr 1
  · apply List.map_congr_left
    intro k hk
    have hless := List.mem_range.mp hk
    exact buffer.cells_putText_of_lt text (by omega)
  · apply List.ext_getElem (by simp)
    intro k _ hk
    have hcell := buffer.cells_putText text hk
    rw [hstart] at hcell
    simpa using hcell

/-- The number is printed, inside the buffer and without an overflow. -/
structure Prints (out : Bytes) (number : NumberType) : Prop where
  canonical : (dumpInteger out number).out = out ++ bytes (toString number.value)
  inBounds : ∀ k ∈ (dumpInteger out number).written, 0 ≤ k ∧ k < numberbufferSize
  noOverflow : (dumpInteger out number).overflow = false

/-- The digits behind a sign, or none: they fit the buffer and stay in it. -/
theorem fill_digits {signed : NumberBuffer} {sign : Nat} (absValue : UInt64) (hsign : sign ≤ 1)
    (hptr : signed.bufferPtr = 0) (hwritten : ∀ k ∈ signed.written, k = 0) {nChars : Nat}
    (hchars : nChars = sign + countDigits absValue) :
    nChars < numberbufferSize - 1 ∧
      (fillBackwards absValue
        { signed with bufferPtr := signed.bufferPtr + nChars }).data nChars =
          signed.data sign ++ decimal absValue.toNat ∧
      ∀ k ∈ (fillBackwards absValue
        { signed with bufferPtr := signed.bufferPtr + nChars }).written,
          0 ≤ k ∧ k < numberbufferSize := by
  have hbound := absValue.toNat_lt
  have hdigits := (decimal_length_le_iff (n := absValue.toNat) (k := 20) (by omega)).mpr (by omega)
  rw [countDigits_eq] at hchars
  have hfits : nChars < numberbufferSize - 1 := by
    simp only [numberbufferSize]
    omega
  rw [fillBackwards_eq]
  refine ⟨hfits, ?_, ?_⟩
  · rw [hchars, data_putText (by simp [hptr])]
    rfl
  · intro k hk
    rw [NumberBuffer.mem_written_putText, hptr] at hk
    simp only [numberbufferSize] at hfits hk ⊢
    rcases hk with hold | hnew
    · have hzero : k = 0 := hwritten k hold
      omega
    · omega

/-- The text that the buffer is filled with, and the indices that are written. -/
theorem dumpInteger_eq (out : Bytes) (number : NumberType) :
    (dumpInteger out number).out = out ++ bytes (toString number.value) ∧
      ∀ k ∈ (dumpInteger out number).written, 0 ≤ k ∧ k < numberbufferSize := by
  by_cases hzero : number.value = 0
  · simp only [dumpInteger, hzero]
    exact ⟨rfl, by simp⟩
  · by_cases hnegative : number.isNegative = true
    · have hvalue := value_neg_of_isNegative hnegative
      obtain ⟨hfits, hdata, hbounds⟩ := @fill_digits
        (NumberBuffer.set { cells := fun _ => 0, written := [], bufferPtr := 0 } 0x2D) 1
        number.negated.toUInt64 (by omega) rfl (by simp [NumberBuffer.set]) _ rfl
      simp only [dumpInteger, if_neg hzero, if_pos hnegative]
      rw [if_neg (Nat.not_le_of_lt hfits)]
      refine ⟨?_, hbounds⟩
      rw [hdata, negated_toUInt64 hnegative, bytes_toString, if_pos hvalue]
      rfl
    · have hvalue := value_nonneg_of_not_isNegative hnegative
      obtain ⟨hfits, hdata, hbounds⟩ := @fill_digits
        { cells := fun _ => 0, written := [], bufferPtr := 0 } 0 number.toUInt64 (by omega) rfl
        (by simp) _ (Nat.zero_add _).symm
      simp only [dumpInteger, if_neg hzero, if_neg hnegative]
      rw [if_neg (Nat.not_le_of_lt hfits)]
      refine ⟨?_, hbounds⟩
      rw [hdata, toUInt64_of_nonneg hvalue, bytes_toString, if_neg (by omega)]
      rfl

/-- The texts that {lit}`dump` writes for integers. -/
theorem dump_integer (library : JsonLibrary) (out : Bytes) :
    (∀ value, dump library out (.numberInteger value) =
      some (dumpInteger out (.int64 value)).out) ∧
    (∀ value, dump library out (.numberUnsigned value) =
      some (dumpInteger out (.uint64 value)).out) := by
  refine ⟨fun value => ?_, fun value => ?_⟩
  · rw [(dumpInteger_eq out (.int64 value)).1]
    rfl
  · rw [(dumpInteger_eq out (.uint64 value)).1]
    rfl

/-- Only the least number overflows. -/
theorem overflow_iff (out : Bytes) (number : NumberType) :
    (dumpInteger out number).overflow = true ↔ number = .int64 Int64.minValue := by
  have hoverflow : (dumpInteger out number).overflow =
      (number.isNegative && number.negatedOverflows) := by
    unfold dumpInteger
    dsimp only
    split_ifs with hzero
    · have hnegative : ¬ number.isNegative = true := fun h => by
        have := value_neg_of_isNegative h
        omega
      simp [hnegative]
    all_goals rfl
  rw [hoverflow]
  cases number with
  | uint64 value => simp [NumberType.isNegative]
  | int64 value =>
      have hle := value.le_toInt
      simp only [NumberType.isNegative, NumberType.negatedOverflows, Bool.and_eq_true,
        Bool.not_eq_true', decide_eq_false_iff_not, decide_eq_true_eq, Int64.le_iff_toInt_le,
        NumberType.int64.injEq, ← Int64.toInt_inj, Int64.toInt_minValue]
      have hzero : Int64.toInt 0 = 0 := rfl
      omega

/-- Only the smallest signed value is negated past the end of its type. -/
theorem dumpInteger_prints_iff (out : Bytes) (number : NumberType) :
    Prints out number ↔ number ≠ .int64 Int64.minValue := by
  obtain ⟨hcanonical, hbounds⟩ := dumpInteger_eq out number
  have hoverflow := overflow_iff out number
  constructor
  · rintro hprints
    rw [ne_eq, ← hoverflow, hprints.noOverflow]
    decide
  · intro hne
    exact ⟨hcanonical, hbounds, by simpa using mt hoverflow.mp hne⟩

/-- The printer evaluates {lit}`0 - number` at the smallest signed value. -/
theorem smallest_overflows : ¬ ∀ out number, Prints out number := by
  intro h
  exact absurd (h [] (.int64 Int64.minValue)).noOverflow (by
    rw [Bool.not_eq_false]
    exact (overflow_iff [] _).mpr rfl)

end Redfish
end ObmcWebapp
