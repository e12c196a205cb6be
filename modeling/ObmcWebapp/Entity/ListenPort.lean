import ObmcWebapp.Entity.Formatters

/-!
# Entity - The port of a listen string

systemd describes what a socket listens on by texts such as {lit}`[::]:22`.
{lit}`PortQuery` takes what is behind the last colon of the first of them, gives it to
{lit}`strtol` and stores the number in 16 bits.

{lit}`strtol` skips white space and takes a sign, it stops at a null character, and its
range is that of a {lit}`long`.  Only its error flag and its end pointer are looked at.

Main results:

- Theorem {lit}`accepts_strtol_iff`: the texts that the conversion takes as a whole.
- Theorem {lit}`populateInstances_written_iff`: when a port is the number that is written.
-/

open Library

namespace ObmcWebapp
namespace Entity

/-! ## The conversion -/

/-- A digit. -/
def isDigit (c : UInt8) : Bool :=
  0x30 ≤ c && c ≤ 0x39

/-- The number that some decimal digits write. -/
def decimalValue (digits : Bytes) : Nat :=
  digits.foldl (fun number digit => 10 * number + (digit.toNat - 0x30)) 0

/-- What a C library is free in: the width of {lit}`long`, which has 32 bits at least, and
whether {lit}`strtol` sets {lit}`errno` where no digit is found. -/
structure CLibrary where
  longBits : Nat
  wide : 32 ≤ longBits
  noConversionError : Bool

namespace CLibrary

/-- The least number of the type. -/
def longMin (lib : CLibrary) : Int :=
  -2 ^ (lib.longBits - 1)

/-- The greatest number of the type. -/
def longMax (lib : CLibrary) : Int :=
  2 ^ (lib.longBits - 1) - 1

end CLibrary

/-- The number, whether {lit}`errno` was set, and the text from the end pointer on. -/
structure Strtol where
  number : Int
  errno : Bool
  endPtr : Bytes

/-- Whether a minus sign stands there, and what is behind the sign. -/
def splitSign : Bytes → Bool × Bytes
  | 0x2D :: rest => (true, rest)
  | 0x2B :: rest => (false, rest)
  | text => (false, text)

/-- {lit}`std::strtol` of base 10. -/
def strtol (lib : CLibrary) (text : Bytes) : Strtol :=
  let (negative, unsigned) := splitSign (text.dropWhile isSpace)
  let digits := unsigned.takeWhile isDigit
  let endPtr := unsigned.dropWhile isDigit
  let number : Int := if negative then -decimalValue digits else decimalValue digits
  if digits = [] then ⟨0, lib.noConversionError, text⟩
  else if number < lib.longMin then ⟨lib.longMin, true, endPtr⟩
  else if lib.longMax < number then ⟨lib.longMax, true, endPtr⟩
  else ⟨number, false, endPtr⟩

/-- {lit}`(errno == 0) && (*endPtr == '\0')` -/
def Strtol.accepts (converted : Strtol) : Bool :=
  !converted.errno && converted.endPtr = []

/-- {lit}`c_str`, as far as a C function reads it. -/
def cString (text : Bytes) : Bytes :=
  text.takeWhile (· ≠ 0x00)

/-- A text up to its end is not longer. -/
theorem length_cString_le (text : Bytes) : (cString text).length ≤ text.length :=
  (List.takeWhile_prefix _).length_le

/-- A text without the end sign is its own. -/
theorem cString_eq_self_iff {text : Bytes} : cString text = text ↔ 0x00 ∉ text := by
  rw [cString, List.takeWhile_eq_self_iff]
  constructor
  · intro h hmem
    exact absurd (h 0x00 hmem) (by decide)
  · intro h b hmem
    exact decide_eq_true fun heq => h (heq ▸ hmem)

/-! ## The query -/

/-- {lit}`SocketListenList`: kinds of sockets and what they listen on. -/
abbrev SocketListenList := List (Bytes × Bytes)

/-- The instance that {lit}`PortQuery` makes. -/
structure PortInstance where
  identity : Bytes
  port : UInt16
deriving DecidableEq

/-- {lit}`listenStream.substr(lastColonPos + 1)`, if there is a colon. -/
def behindLastColon (listenStream : Bytes) : Option Bytes :=
  if 0x3A ∈ listenStream then some (listenStream.rtakeWhile (· ≠ 0x3A)) else none

/-- {lit}`PortQuery::populateInstances` -/
def PortQuery.populateInstances (lib : CLibrary) (response : SocketListenList) :
    List PortInstance :=
  match response with
  | [] => []
  | (_, listenStream) :: _ =>
      match behindLastColon listenStream with
      | none => []
      | some portStr =>
          if portStr = [] then []
          else
            let converted := strtol lib (cString portStr)
            if converted.accepts then [⟨listenStream, UInt16.ofInt converted.number⟩] else []

/-! ## What is written and what is read -/

/-- The text is the number of a port in decimal digits. -/
structure PortNumeral (text : Bytes) (port : UInt16) : Prop where
  nonempty : text ≠ []
  digits : ∀ c ∈ text, isDigit c
  value : decimalValue text = port.toNat

/-- {lit}`PortQuery` yields a port where one is written behind the last colon, and that. -/
def YieldsWrittenPort (lib : CLibrary) (kind listenStream : Bytes) (rest : SocketListenList) :
    Prop :=
  ∀ port, PortQuery.populateInstances lib ((kind, listenStream) :: rest) = [⟨listenStream, port⟩] ↔
    ∃ portStr, behindLastColon listenStream = some portStr ∧ PortNumeral portStr port

/-- White space, a sign or none, and digits that write the number. -/
def Numeral (text : Bytes) (number : Int) : Prop :=
  ∃ blanks sign digits, text = blanks ++ sign ++ digits ∧ (∀ c ∈ blanks, isSpace c) ∧
    digits ≠ [] ∧ (∀ c ∈ digits, isDigit c) ∧
      (sign = [0x2D] ∧ number = -decimalValue digits ∨
        (sign = [] ∨ sign = [0x2B]) ∧ number = decimalValue digits)

/-- The conversion takes the whole text for the number. -/
inductive ReadsAs (lib : CLibrary) (text : Bytes) : Int → Prop
  | numeral {number : Int} (hnumeral : Numeral text number) (hmin : lib.longMin ≤ number)
      (hmax : number ≤ lib.longMax) : ReadsAs lib text number
  | empty (htext : text = []) (hlib : lib.noConversionError = false) : ReadsAs lib text 0

/-- What the conversion would take for a number consists of digits alone, and is a port. -/
def PlainPort (lib : CLibrary) (listenStream : Bytes) : Prop :=
  ∀ portStr, behindLastColon listenStream = some portStr → portStr ≠ [] →
    ∀ number, ReadsAs lib (cString portStr) number →
      (∀ c ∈ portStr, isDigit c) ∧ number ≤ 65535

/-! ## What the conversion takes -/

section

variable {lib : CLibrary} {text unsigned : Bytes} {number : Int} {negative : Bool}

/-- The digits by their codes. -/
theorem isDigit_iff {c : UInt8} : isDigit c = true ↔ 0x30 ≤ c.toNat ∧ c.toNat ≤ 0x39 := by
  simp [isDigit, UInt8.le_iff_toNat_le]

/-- A digit is no blank. -/
theorem not_isSpace_of_isDigit {c : UInt8} (h : isDigit c = true) : ¬ isSpace c = true := by
  have hrange := isDigit_iff.mp h
  simp only [isSpace, Bool.or_eq_true, decide_eq_true_eq, Bool.and_eq_true,
    UInt8.le_iff_toNat_le, UInt8.ext_iff, UInt8.reduceToNat]
  omega

/-- A sign in front, or none. -/
theorem splitSign_append (text : Bytes) : ∃ sign, text = sign ++ (splitSign text).2 ∧
    (sign = [0x2D] ∧ (splitSign text).1 = true ∨
      (sign = [] ∨ sign = [0x2B]) ∧ (splitSign text).1 = false) := by
  fun_cases splitSign text with
  | case1 rest => exact ⟨[0x2D], rfl, Or.inl ⟨rfl, rfl⟩⟩
  | case2 rest => exact ⟨[0x2B], rfl, Or.inr ⟨Or.inr rfl, rfl⟩⟩
  | case3 text => exact ⟨[], rfl, Or.inr ⟨Or.inl rfl, rfl⟩⟩

/-- Digits have no sign. -/
theorem splitSign_digits {digits : Bytes} (hdigits : ∀ c ∈ digits, isDigit c) :
    splitSign digits = (false, digits) := by
  fun_cases splitSign digits with
  | case1 rest => exact absurd (hdigits 0x2D List.mem_cons_self) (by decide)
  | case2 rest => exact absurd (hdigits 0x2B List.mem_cons_self) (by decide)
  | case3 text => rfl

/-- Blanks are left out in front. -/
theorem dropWhile_isSpace_append {blanks rest : Bytes} (hblanks : ∀ c ∈ blanks, isSpace c)
    (hrest : ∀ c, rest.head? = some c → ¬ isSpace c = true) :
    (blanks ++ rest).dropWhile isSpace = rest := by
  rw [List.dropWhile_append_of_pos hblanks]
  cases rest with
  | nil => rfl
  | cons c rest => exact List.dropWhile_cons_of_neg (hrest c rfl)

/-- A numeral is taken apart as the conversion does it. -/
theorem numeral_iff : Numeral text number ↔
    let (negative, digits) := splitSign (text.dropWhile isSpace)
    digits ≠ [] ∧ (∀ c ∈ digits, isDigit c) ∧
      number = if negative then -(decimalValue digits : Int) else decimalValue digits := by
  dsimp only
  constructor
  · rintro ⟨blanks, sign, digits, rfl, hblanks, hnonempty, hdigits, hsign⟩
    have hhead : ∀ c, digits.head? = some c → ¬ isSpace c = true := fun c hc =>
      not_isSpace_of_isDigit (hdigits c (List.mem_of_mem_head? hc))
    rw [List.append_assoc]
    rcases hsign with ⟨rfl, hnumber⟩ | ⟨rfl | rfl, hnumber⟩
    · rw [dropWhile_isSpace_append hblanks (by simp [isSpace])]
      exact ⟨hnonempty, hdigits, hnumber⟩
    · rw [List.nil_append, dropWhile_isSpace_append hblanks hhead, splitSign_digits hdigits]
      exact ⟨hnonempty, hdigits, hnumber⟩
    · rw [dropWhile_isSpace_append hblanks (by simp [isSpace])]
      exact ⟨hnonempty, hdigits, hnumber⟩
  · rintro ⟨hnonempty, hdigits, hnumber⟩
    obtain ⟨sign, hsplit, hsign⟩ := splitSign_append (text.dropWhile isSpace)
    refine ⟨text.takeWhile isSpace, sign, _, ?_, fun c => List.mem_takeWhile_imp, hnonempty,
      hdigits, ?_⟩
    · rw [List.append_assoc, ← hsplit, List.takeWhile_append_dropWhile]
    · rcases hsign with ⟨rfl, hnegative⟩ | ⟨hplus, hpositive⟩
      · exact Or.inl ⟨rfl, by simpa [hnegative] using hnumber⟩
      · exact Or.inr ⟨hplus, by simpa [hpositive] using hnumber⟩

/-- What is read as a port number. -/
theorem readsAs_iff : ReadsAs lib text number ↔
    Numeral text number ∧ lib.longMin ≤ number ∧ number ≤ lib.longMax ∨
      text = [] ∧ lib.noConversionError = false ∧ number = 0 := by
  constructor
  · intro h
    cases h with
    | numeral hnumeral hmin hmax => exact Or.inl ⟨hnumeral, hmin, hmax⟩
    | empty htext hlib => exact Or.inr ⟨htext, hlib, rfl⟩
  · rintro (⟨hnumeral, hmin, hmax⟩ | ⟨htext, hlib, rfl⟩)
    · exact .numeral hnumeral hmin hmax
    · exact .empty htext hlib

/-- The conversion accepts what it reads as a number of a {lit}`long`, and that number it
gives. -/
theorem accepts_strtol_iff : ((strtol lib text).accepts = true ∧
    (strtol lib text).number = number) ↔ ReadsAs lib text number := by
  obtain ⟨negative, unsigned, hsplit⟩ :
      ∃ negative unsigned, splitSign (text.dropWhile isSpace) = (negative, unsigned) :=
    ⟨_, _, rfl⟩
  rw [readsAs_iff, numeral_iff]
  simp only [strtol, hsplit]
  by_cases hdigits : unsigned.takeWhile isDigit = []
  · have hnumeral : ¬ (unsigned ≠ [] ∧ ∀ c ∈ unsigned, isDigit c) := fun h =>
      h.1 ((List.takeWhile_eq_self_iff.mpr h.2).symm.trans hdigits)
    simp only [if_pos hdigits, Strtol.accepts]
    grind
  · have htext : text ≠ [] := by
      rintro rfl
      cases hsplit
      exact hdigits rfl
    by_cases hall : ∀ c ∈ unsigned, isDigit c
    · have hend : unsigned.dropWhile isDigit = [] := List.dropWhile_eq_nil_iff.mpr hall
      rw [List.takeWhile_eq_self_iff.mpr hall] at hdigits ⊢
      simp only [if_neg hdigits, hend, Strtol.accepts]
      grind
    · have hend : unsigned.dropWhile isDigit ≠ [] := fun h => hall (List.dropWhile_eq_nil_iff.mp h)
      simp only [if_neg hdigits, Strtol.accepts]
      grind

/-! ## Ports -/

/-- A port is yielded for what the conversion reads behind the last colon. -/
theorem populateInstances_eq_iff {listenStream kind : Bytes} {rest : SocketListenList}
    {port : UInt16} :
    PortQuery.populateInstances lib ((kind, listenStream) :: rest) = [⟨listenStream, port⟩] ↔
      ∃ portStr, behindLastColon listenStream = some portStr ∧ portStr ≠ [] ∧
        ∃ number, ReadsAs lib (cString portStr) number ∧ UInt16.ofInt number = port := by
  simp only [← accepts_strtol_iff, PortQuery.populateInstances]
  cases behindLastColon listenStream with
  | none => simp
  | some portStr =>
      by_cases hempty : portStr = []
      · simp [hempty]
      · by_cases haccepts : (strtol lib (cString portStr)).accepts = true
        · simp [hempty, haccepts]
        · simp [hempty, haccepts]

/-- Up to the greatest port, digits are read as their number. -/
theorem readsAs_of_digits (hnonempty : text ≠ []) (hdigits : ∀ c ∈ text, isDigit c)
    (hvalue : decimalValue text ≤ 65535) : ReadsAs lib text (decimalValue text) := by
  have hwide : 31 ≤ lib.longBits - 1 := by
    have := lib.wide
    omega
  have hpow : (2 : Int) ^ 31 ≤ 2 ^ (lib.longBits - 1) := by
    exact_mod_cast Nat.pow_le_pow_right (by decide) hwide
  refine .numeral ⟨[], [], text, rfl, by simp, hnonempty, hdigits, by simp⟩ ?_ ?_
  · have : lib.longMin ≤ 0 := by
      rw [CLibrary.longMin]
      omega
    omega
  · rw [CLibrary.longMax]
    omega

/-- Digits are read as what they write. -/
theorem ReadsAs.of_digits (h : ReadsAs lib text number) (hnonempty : text ≠ [])
    (hdigits : ∀ c ∈ text, isDigit c) : number = decimalValue text := by
  cases h with
  | numeral hnumeral hmin hmax =>
      have hunspaced : text.dropWhile isSpace = text :=
        @dropWhile_isSpace_append [] text (by simp) fun c hc =>
          not_isSpace_of_isDigit (hdigits c (List.mem_of_mem_head? hc))
      rw [numeral_iff, hunspaced, splitSign_digits hdigits] at hnumeral
      simpa using hnumeral.2.2
  | empty htext hlib => exact absurd htext hnonempty

/-- Digits have no null character among them. -/
theorem cString_of_digits (hdigits : ∀ c ∈ text, isDigit c) : cString text = text := by
  apply cString_eq_self_iff.mpr
  intro hzero
  exact absurd (hdigits 0x00 hzero) (by decide)

/-- Numbers up to the greatest port fit. -/
theorem toNat_ofInt_of_le {value : Nat} (h : value ≤ 65535) :
    (UInt16.ofInt value).toNat = value := by
  rw [UInt16.ofInt]
  simp
  omega

/-- The port is the number that is written, exactly where what the conversion takes is
written plainly. -/
theorem populateInstances_written_iff (lib : CLibrary) (kind listenStream : Bytes)
    (rest : SocketListenList) :
    YieldsWrittenPort lib kind listenStream rest ↔ PlainPort lib listenStream := by
  simp only [YieldsWrittenPort, populateInstances_eq_iff]
  constructor
  · intro h portStr hcolon hnonempty number hreads
    obtain ⟨other, hother, hnumeral⟩ :=
      (h (UInt16.ofInt number)).mp ⟨portStr, hcolon, hnonempty, number, hreads, rfl⟩
    obtain rfl : other = portStr := Option.some.inj (hother.symm.trans hcolon)
    rw [cString_of_digits hnumeral.digits] at hreads
    have hvalue : decimalValue other ≤ 65535 := by
      have := (UInt16.ofInt number).toNat_lt
      have := hnumeral.value
      omega
    have hsame := hreads.of_digits hnonempty hnumeral.digits
    exact ⟨hnumeral.digits, by omega⟩
  · intro h port
    constructor
    · rintro ⟨portStr, hcolon, hnonempty, number, hreads, rfl⟩
      obtain ⟨hdigits, hle⟩ := h portStr hcolon hnonempty number hreads
      rw [cString_of_digits hdigits] at hreads
      obtain rfl := hreads.of_digits hnonempty hdigits
      exact ⟨portStr, hcolon, hnonempty, hdigits, (toNat_ofInt_of_le (by omega)).symm⟩
    · rintro ⟨portStr, hcolon, hnumeral⟩
      have hvalue : decimalValue portStr ≤ 65535 := by
        have := port.toNat_lt
        have := hnumeral.value
        omega
      refine ⟨portStr, hcolon, hnumeral.nonempty, decimalValue portStr, ?_, ?_⟩
      · rw [cString_of_digits hnumeral.digits]
        exact readsAs_of_digits hnumeral.nonempty hnumeral.digits hvalue
      · apply UInt16.toNat_inj.mp
        rw [toNat_ofInt_of_le hvalue, hnumeral.value]

end

/-! ## A port out of range -/

namespace PortQuery

/-- The numbers of a C library with a {lit}`long` of 32 bits. -/
def clib : CLibrary where
  longBits := 32
  wide := by decide
  noConversionError := false

/-- A number that is no port. -/
def outOfRange : Bytes := bytes "0.0.0.0:65558"

/-- The number 65558 is stored as 22. -/
theorem outOfRange_wraps :
    ¬ YieldsWrittenPort clib (bytes "Stream") outOfRange [] ∧
      populateInstances clib [(bytes "Stream", outOfRange)] = [⟨outOfRange, 22⟩] := by
  have hyields : populateInstances clib [(bytes "Stream", outOfRange)] = [⟨outOfRange, 22⟩] := by
    decide
  refine ⟨?_, hyields⟩
  intro h
  obtain ⟨portStr, hportStr, hnumeral⟩ := (h 22).mp hyields
  have hport : behindLastColon outOfRange = some (bytes "65558") := by decide
  obtain rfl := Option.some.inj (hport.symm.trans hportStr)
  exact absurd hnumeral.value (by decide)

end PortQuery

end Entity
end ObmcWebapp
