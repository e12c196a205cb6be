import Mathlib.Tactic.Tauto
import ObmcWebapp.Library.PercentEncoding
import ObmcWebapp.Service.Authorization

/-!
# Service - The redirect to the login page

{lit}`urlEncode` writes a text character by character into a {lit}`std::ostringstream`,
whose fill character, base, case and width decide how a number comes out.  The loop is
modelled with this state, and a {lit}`char` is passed to {lit}`isalnum` with its sign.

Main results:

- Theorem {lit}`Escaping.urlEncode_eq`: the loop writes the escapes of the single bytes.
- Theorem {lit}`encoded_urlEncode`, {lit}`decode_urlEncode`: the alphabet of the output, and
  how it is read back.
- Theorem {lit}`urlEncode_carries`: every redirect carries the whole path and has visible
  characters only.
-/

open Library

namespace ObmcWebapp
namespace Service

namespace Escaping

/-! ## The stream -/

/-- A {lit}`std::ostringstream` as it is constructed: the text so far, and the state that
formatted output reads. -/
structure OutputStream where
  str : Bytes := []
  fill : UInt8 := 0x20
  hex : Bool := false
  uppercase : Bool := false
  width : Nat := 0

/-- The digits of a number in a base. -/
def digits (base : Nat) (uppercase : Bool) (value : Nat) : Bytes :=
  (Nat.toDigits base value).map fun c =>
    UInt8.ofNat (if uppercase then c.toUpper else c).toNat

namespace OutputStream

/-- Text is filled up from the left to the width, which is used up by it. -/
def put (stream : OutputStream) (text : Bytes) : OutputStream :=
  { stream with
    str := stream.str ++ List.replicate (stream.width - text.length) stream.fill ++ text
    width := 0 }

/-- A signed number; in hexadecimal, its unsigned 32-bit pattern. -/
def putInt (stream : OutputStream) (value : Int) : OutputStream :=
  stream.put <|
    if stream.hex then digits 16 stream.uppercase (value % 2 ^ 32).toNat
    else if value < 0 then 0x2D :: digits 10 false value.natAbs
    else digits 10 false value.natAbs

end OutputStream

/-! ## The loop -/

/-- {lit}`isalnum` in the C locale. -/
def isalnum (value : Int) : Bool :=
  (0x30 ≤ value && value ≤ 0x39) || (0x41 ≤ value && value ≤ 0x5A) ||
    (0x61 ≤ value && value ≤ 0x7A)

/-- The value of a {lit}`char`, which has a sign on some targets. -/
def charValue (signed : Bool) (c : UInt8) : Int :=
  if signed then c.toInt8.toInt else c.toNat

/-- The loop body. -/
def escapeChar (signed : Bool) (escaped : OutputStream) (c : UInt8) : OutputStream :=
  if isalnum (charValue signed c) || c = 0x2D || c = 0x5F || c = 0x2E || c = 0x7E then
    escaped.put [c]
  else
    let escaped := { escaped with uppercase := true }
    let escaped := { escaped.put [0x25] with width := 2 }
    let escaped := escaped.putInt c.toNat
    { escaped with uppercase := false }

/-- {lit}`urlEncode` -/
def urlEncode (signed : Bool) (value : Bytes) : Bytes :=
  (value.foldl (escapeChar signed) { fill := 0x30, hex := true }).str

/-! ## What the stream holds -/

/-- The stream between two characters, with a text in it. -/
def ready (text : Bytes) : OutputStream where
  str := text
  fill := 0x30
  hex := true

/-- With or without a sign, no byte above {lit}`0x7F` is a letter or a digit. -/
theorem isalnum_charValue (signed : Bool) (c : UInt8) :
    isalnum (charValue signed c) = isAlnum c := by
  have hlt := c.toNat_lt
  have hbmod : c.toInt8.toInt = (c.toNat : Int).bmod 256 :=
    BitVec.toInt_eq_toNat_bmod c.toBitVec
  have hsigned : c.toInt8.toInt = if c.toNat < 128 then (c.toNat : Int) else c.toNat - 256 := by
    rw [hbmod, Int.bmod_def]
    split_ifs
    all_goals omega
  rw [Bool.eq_iff_iff]
  unfold isalnum isAlnum charValue
  simp only [Bool.or_eq_true, Bool.and_eq_true, decide_eq_true_eq, UInt8.le_iff_toNat_le,
    UInt8.reduceToNat]
  cases signed with
  | false =>
      rw [if_neg Bool.false_ne_true]
      omega
  | true =>
      rw [if_pos rfl, hsigned]
      split_ifs
      all_goals omega

/-- The stream's upper-case digits are those of the percent encoding. -/
theorem toUpper_digitChar {value : Nat} (hvalue : value < 16) :
    UInt8.ofNat (Nat.digitChar value).toUpper.toNat = upperHexDigit value := by
  have hall : ∀ value : Fin 16,
      UInt8.ofNat (Nat.digitChar value).toUpper.toNat = upperHexDigit value := by decide
  exact hall ⟨value, hvalue⟩

/-- Two digits for every byte, the first being the fill character for a small one. -/
theorem digits_byte (c : UInt8) :
    List.replicate (2 - (digits 16 true c.toNat).length) 0x30 ++ digits 16 true c.toNat =
      [upperHexDigit (c.toNat / 16), upperHexDigit (c.toNat % 16)] := by
  have hlt := c.toNat_lt
  have hbase : 1 < 16 := by decide
  have hlow := toUpper_digitChar (Nat.mod_lt c.toNat (by decide : 0 < 16))
  unfold digits
  by_cases hsmall : c.toNat < 16
  · rw [Nat.mod_eq_of_lt hsmall] at hlow ⊢
    rw [Nat.toDigits_of_lt_base hsmall, Nat.div_eq_of_lt hsmall, List.map_singleton, if_pos rfl,
      hlow]
    rfl
  · have hhigh : c.toNat / 16 < 16 := by omega
    rw [Nat.toDigits_of_base_le hbase (not_lt.mp hsmall), Nat.toDigits_of_lt_base hhigh]
    simp only [List.map_append, List.map_singleton, if_true, toUpper_digitChar hhigh, hlow]
    rfl

/-- The step lemma: a character is appended, and the state is as before. -/
theorem escapeChar_ready (signed : Bool) (text : Bytes) (c : UInt8) :
    escapeChar signed (ready text) c = ready (text ++ urlEncodeByte c) := by
  unfold escapeChar urlEncodeByte
  rw [isalnum_charValue]
  split
  · simp [OutputStream.put, ready]
  · have hpattern : ((c.toNat : Int) % 2 ^ 32).toNat = c.toNat := by
      have hlt := c.toNat_lt
      omega
    simp only [OutputStream.putInt, OutputStream.put, ready, if_true, hpattern]
    rw [List.append_assoc, digits_byte]
    simp

/-- The run lemma. -/
theorem foldl_ready (signed : Bool) (text value : Bytes) :
    value.foldl (escapeChar signed) (ready text) =
      ready (text ++ ObmcWebapp.urlEncode value) := by
  induction value generalizing text with
  | nil => exact congrArg ready (List.append_nil text).symm
  | cons c rest ih =>
      rw [List.foldl_cons, escapeChar_ready, ih, List.append_assoc]
      rfl

/-- The stream writes the percent encoding, whatever the sign of a character. -/
theorem urlEncode_eq (signed : Bool) (value : Bytes) :
    urlEncode signed value = ObmcWebapp.urlEncode value := by
  have hrun := foldl_ready signed [] value
  exact congrArg OutputStream.str hrun

end Escaping

/-! ## The alphabet, and the way back -/

/-- The characters that are kept are the unreserved ones. -/
theorem unreserved_iff (c : UInt8) :
    (isAlnum c || c = 0x2D || c = 0x5F || c = 0x2E || c = 0x7E) = true ↔
      Percent.Unreserved c := by
  unfold isAlnum Percent.Unreserved
  simp only [Bool.or_eq_true, Bool.and_eq_true, decide_eq_true_eq]
  tauto

/-- A written digit is an upper-case hexadecimal digit. -/
theorem upperHex_upperHexDigit {value : Nat} (hvalue : value < 16) :
    Percent.UpperHex (upperHexDigit value) := by
  have hall : ∀ value : Fin 16, Percent.UpperHex (upperHexDigit value) := by decide
  exact hall ⟨value, hvalue⟩

/-- A written digit has the value it was written for. -/
theorem hexValue_upperHexDigit {value : Nat} (hvalue : value < 16) :
    Percent.hexValue (upperHexDigit value) = some value := by
  have hall : ∀ value : Fin 16,
      Percent.hexValue (upperHexDigit value) = some value.val := by decide
  exact hall ⟨value, hvalue⟩

/-- What stands for a byte: the byte itself, or an escape with its two digits. -/
theorem urlEncodeByte_cases (c : UInt8) :
    (Percent.Unreserved c ∧ urlEncodeByte c = [c]) ∨
      urlEncodeByte c = [0x25, upperHexDigit (c.toNat / 16), upperHexDigit (c.toNat % 16)] := by
  unfold urlEncodeByte
  split
  · next hplain => exact Or.inl ⟨(unreserved_iff c).mp hplain, rfl⟩
  · exact Or.inr rfl

/-- A written value consists of unreserved characters and percent escapes. -/
theorem encoded_urlEncode (value : Bytes) : Percent.Encoded (urlEncode value) := by
  induction value with
  | nil => exact .nil
  | cons c rest ih =>
      have hlt := c.toNat_lt
      unfold urlEncode at *
      rw [List.flatMap_cons]
      rcases urlEncodeByte_cases c with ⟨hplain, heq⟩ | heq
      · rw [heq]
        exact .plain hplain ih
      · rw [heq]
        exact .escape (upperHex_upperHexDigit (by omega)) (upperHex_upperHexDigit (by omega)) ih

/-- Decoding gives back the value. -/
theorem decode_urlEncode (value : Bytes) : Percent.decode (urlEncode value) = some value := by
  induction value with
  | nil => rfl
  | cons c rest ih =>
      have hlt := c.toNat_lt
      unfold urlEncode at *
      rw [List.flatMap_cons]
      rcases urlEncodeByte_cases c with ⟨hplain, heq⟩ | heq
      · rw [heq, List.singleton_append, Percent.decode_plain hplain.ne_percent, ih]
        rfl
      · have hvalue : 16 * (c.toNat / 16) + c.toNat % 16 = c.toNat := by omega
        have hhigh : c.toNat / 16 < 16 := by omega
        have hlow : c.toNat % 16 < 16 := by omega
        have hescape := Percent.decode_escape (hexValue_upperHexDigit hhigh)
          (hexValue_upperHexDigit hlow) (rest.flatMap urlEncodeByte)
        rw [heq]
        refine hescape.trans ?_
        rw [ih, hvalue, UInt8.ofNat_toNat]
        rfl

/-! ## The redirect -/

/-- The address of the login page has visible characters only. -/
theorem loginPathNext_visible : ∀ c ∈ loginPathNext, 0x21 ≤ c ∧ c ≤ 0x7E := by
  have hall : loginPathNext.all (fun c => 0x21 ≤ c && c ≤ 0x7E) = true := rfl
  simpa only [List.all_eq_true, Bool.and_eq_true, decide_eq_true_eq] using hall

/-- The output of the loop is percent-encoded and gives its input back; so the location that
a browser is sent to carries the whole path, and no control character. -/
theorem urlEncode_carries (signed : Bool) :
    (∀ value : Bytes, Percent.Encoded (Escaping.urlEncode signed value) ∧
      Percent.decode (Escaping.urlEncode signed value) = some value) ∧
    ∀ (env : Environment) (response : Response), env.isBrowserRequest = true →
      ∃ location, location = loginPathNext ++ Escaping.urlEncode signed env.getUriPath ∧
        (rejectRequest env response).headers =
          response.headers ++ [(bytes "Location", location)] ∧
        ∀ c ∈ location, 0x21 ≤ c ∧ c ≤ 0x7E := by
  simp only [Escaping.urlEncode_eq]
  constructor
  · intro value
    exact ⟨encoded_urlEncode value, decode_urlEncode value⟩
  · intro env response hbrowser
    refine ⟨_, rfl, ?_, ?_⟩
    · unfold rejectRequest
      rw [if_pos hbrowser]
      rfl
    · rw [List.forall_mem_append]
      exact ⟨loginPathNext_visible, (encoded_urlEncode _).visible⟩

/-- A line break in the path stays out of the header. -/
theorem urlEncode_carries_lineBreak :
    ∃ location, location = loginPathNext ++ Escaping.urlEncode true (bytes "/\r\n/") ∧
      (rejectRequest { pathInfo := [bytes "\r\n"], acceptContentTypes := bytes "text/html" }
        {}).headers = [(bytes "Location", location)] ∧
      ∀ c ∈ location, 0x21 ≤ c ∧ c ≤ 0x7E :=
  (urlEncode_carries true).2
    { pathInfo := [bytes "\r\n"], acceptContentTypes := bytes "text/html" } {} (by decide)

end Service
end ObmcWebapp
