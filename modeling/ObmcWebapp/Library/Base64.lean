import Mathlib.Data.List.GetD
import Mathlib.Data.List.Nodup
import Mathlib.Data.List.Range
import Mathlib.Data.List.TakeWhile
import ObmcWebapp.Library.Utf8

/-!
# Library - The padded base64 encoding

Three bytes become four characters of six bits each; a last group of one or two bytes is
filled up with padding characters.  A decoder that takes the padding for zero bits gives
the bytes back with zero bytes after them.

Main results:

- Theorem {lit}`Base64.decodeQuads_encode`: the decoded bytes and what the padding adds.
- Theorem {lit}`Base64.wellPadded_encode`, {lit}`Base64.length_encode`: the shape of the
  encoding.
- Theorem {lit}`Base64.take_encode`: whole groups of the encoding are an encoding too.
-/

namespace Library
namespace Base64

/-- Upper-case letters, lower-case letters, digits, plus and slash. -/
def codes : List Nat :=
  List.range' 0x41 26 ++ List.range' 0x61 26 ++ List.range' 0x30 10 ++ [0x2B, 0x2F]

/-- The characters in the order of their values. -/
def alphabet : Bytes :=
  codes.map UInt8.ofNat

/-- The padding character. -/
def pad : UInt8 :=
  0x3D

/-- The character of a six-bit value. -/
def symbol (value : Nat) : UInt8 :=
  alphabet.getD value 0

/-- The six-bit value of a character; padding counts as zero. -/
def sextet (c : UInt8) : Nat :=
  if c = pad then 0 else alphabet.idxOf c

/-- Three bytes are four characters; what is missing is padded. -/
def encode : Bytes → Bytes
  | [] => []
  | [a] => [symbol (a.toNat / 4), symbol (a.toNat % 4 * 16), pad, pad]
  | [a, b] =>
      [symbol (a.toNat / 4), symbol (a.toNat % 4 * 16 + b.toNat / 16),
        symbol (b.toNat % 16 * 4), pad]
  | a :: b :: c :: rest =>
      symbol (a.toNat / 4) :: symbol (a.toNat % 4 * 16 + b.toNat / 16) ::
        symbol (b.toNat % 16 * 4 + c.toNat / 64) :: symbol (c.toNat % 64) :: encode rest

/-- The three bytes of every four characters. -/
def decodeQuads : Bytes → Bytes
  | first :: second :: third :: fourth :: rest =>
      UInt8.ofNat (sextet first * 4 + sextet second / 16) ::
        UInt8.ofNat (sextet second % 16 * 16 + sextet third / 4) ::
          UInt8.ofNat (sextet third % 4 * 64 + sextet fourth) :: decodeQuads rest
  | _ => []

/-- Whole groups of four, characters of the alphabet and then at most two for padding. -/
def WellPadded (text : Bytes) : Prop :=
  4 ∣ text.length ∧ (∀ c ∈ text.takeWhile (· ≠ pad), c ∈ alphabet) ∧
    ∃ count ∈ [0, 1, 2], text.dropWhile (· ≠ pad) = List.replicate count pad

instance (text : Bytes) : Decidable (WellPadded text) :=
  inferInstanceAs (Decidable (_ ∧ _ ∧ _))

/-- The number of padding characters after some bytes. -/
def padding (text : Bytes) : Nat :=
  (3 - text.length % 3) % 3

/-! ## Single characters -/

/-- The characters differ. -/
theorem codes_nodup : codes.Nodup := by
  have hrange : ∀ start count : Nat, (List.range' start count).Nodup :=
    fun _ _ => List.nodup_range' 1
  unfold codes
  simp only [List.nodup_append, hrange, List.mem_append, List.mem_range'_1, List.mem_cons,
    List.not_mem_nil, or_false, List.nodup_cons, List.nodup_nil]
  refine ⟨⟨⟨trivial, trivial, ?_⟩, trivial, ?_⟩, by decide, ?_⟩ <;> omega

/-- The characters are bytes. -/
theorem lt_of_mem_codes {code : Nat} (hcode : code ∈ codes) : code < 256 := by
  unfold codes at hcode
  simp only [List.mem_append, List.mem_range'_1, List.mem_cons, List.not_mem_nil,
    or_false] at hcode
  omega

theorem alphabet_nodup : alphabet.Nodup := by
  refine codes_nodup.map_on ?_
  intro code hcode other hother heq
  have hcodes := congrArg UInt8.toNat heq
  simpa [Nat.mod_eq_of_lt, lt_of_mem_codes hcode, lt_of_mem_codes hother] using hcodes

/-- The character of a value. -/
theorem symbol_eq {value : Nat} (hvalue : value < alphabet.length) :
    symbol value = alphabet[value] :=
  List.getD_eq_getElem _ _ hvalue

theorem symbol_mem {value : Nat} (hvalue : value < 64) : symbol value ∈ alphabet := by
  rw [symbol_eq hvalue]
  exact List.getElem_mem hvalue

/-- The alphabet does not have the padding. -/
theorem ne_pad_of_mem {c : UInt8} (hc : c ∈ alphabet) : c ≠ pad := by
  rintro rfl
  exact absurd hc (by decide)

/-- The padding stands for no bits. -/
@[simp]
theorem sextet_pad : sextet pad = 0 := rfl

/-- A character stands for its value. -/
theorem sextet_symbol {value : Nat} (hvalue : value < 64) : sextet (symbol value) = value := by
  unfold sextet
  rw [if_neg (ne_pad_of_mem (symbol_mem hvalue)), symbol_eq hvalue]
  exact alphabet_nodup.idxOf_getElem value hvalue

/-! ## The encoding -/

/-- The length of an encoded text. -/
theorem length_encode (text : Bytes) : (encode text).length = 4 * ((text.length + 2) / 3) := by
  fun_induction encode text with
  | case1 => rfl
  | case2 a => simp
  | case3 a b => simp
  | case4 a b c rest ih =>
      simp only [List.length_cons, ih]
      omega

/-- The padding is at the end. -/
theorem padding_cons (a b c : UInt8) (rest : Bytes) :
    padding (a :: b :: c :: rest) = padding rest := by
  unfold padding
  simp only [List.length_cons]
  omega

/-- The bytes of a group, from the values of its characters. -/
theorem decodeQuads_cons {first second third fourth a b c : UInt8} (rest : Bytes)
    (ha : sextet first * 4 + sextet second / 16 = a.toNat)
    (hb : sextet second % 16 * 16 + sextet third / 4 = b.toNat)
    (hc : sextet third % 4 * 64 + sextet fourth = c.toNat) :
    decodeQuads (first :: second :: third :: fourth :: rest) =
      a :: b :: c :: decodeQuads rest := by
  rw [decodeQuads, ha, hb, hc]
  simp

/-- What a decoder gives back: the bytes, and a zero byte for every padding character. -/
theorem decodeQuads_encode (text : Bytes) :
    decodeQuads (encode text) = text ++ List.replicate (padding text) 0 := by
  fun_induction encode text with
  | case1 => rfl
  | case2 a =>
      have ha := a.toNat_lt
      have hfirst : sextet (symbol (a.toNat / 4)) = a.toNat / 4 := sextet_symbol (by omega)
      have hsecond : sextet (symbol (a.toNat % 4 * 16)) = a.toNat % 4 * 16 :=
        sextet_symbol (by omega)
      have hzero : (0 : UInt8).toNat = 0 := rfl
      rw [decodeQuads_cons (a := a) (b := 0) (c := 0) [] (by omega) (by rw [sextet_pad]; omega)
        (by rw [sextet_pad]; rfl)]
      rfl
  | case3 a b =>
      have ha := a.toNat_lt
      have hb := b.toNat_lt
      have hfirst : sextet (symbol (a.toNat / 4)) = a.toNat / 4 := sextet_symbol (by omega)
      have hsecond : sextet (symbol (a.toNat % 4 * 16 + b.toNat / 16)) =
          a.toNat % 4 * 16 + b.toNat / 16 := sextet_symbol (by omega)
      have hthird : sextet (symbol (b.toNat % 16 * 4)) = b.toNat % 16 * 4 :=
        sextet_symbol (by omega)
      have hzero : (0 : UInt8).toNat = 0 := rfl
      rw [decodeQuads_cons (a := a) (b := b) (c := 0) [] (by omega) (by omega)
        (by rw [sextet_pad]; omega)]
      rfl
  | case4 a b c rest ih =>
      have ha := a.toNat_lt
      have hb := b.toNat_lt
      have hc := c.toNat_lt
      have hfirst : sextet (symbol (a.toNat / 4)) = a.toNat / 4 := sextet_symbol (by omega)
      have hsecond : sextet (symbol (a.toNat % 4 * 16 + b.toNat / 16)) =
          a.toNat % 4 * 16 + b.toNat / 16 := sextet_symbol (by omega)
      have hthird : sextet (symbol (b.toNat % 16 * 4 + c.toNat / 64)) =
          b.toNat % 16 * 4 + c.toNat / 64 := sextet_symbol (by omega)
      have hfourth : sextet (symbol (c.toNat % 64)) = c.toNat % 64 := sextet_symbol (by omega)
      rw [decodeQuads_cons (a := a) (b := b) (c := c) (encode rest) (by omega) (by omega)
        (by omega), ih, padding_cons]
      rfl

/-- Characters of the alphabet with at most two paddings, in fours. -/
theorem wellPadded_append {front : Bytes} {count : Nat} (hfront : ∀ c ∈ front, c ∈ alphabet)
    (hcount : count ∈ [0, 1, 2]) (hquads : 4 ∣ front.length + count) :
    WellPadded (front ++ List.replicate count pad) := by
  have hplain : ∀ c ∈ front, decide (c ≠ pad) = true := fun c hc =>
    decide_eq_true (ne_pad_of_mem (hfront c hc))
  have htake : (List.replicate count pad).takeWhile (· ≠ pad) = [] :=
    List.takeWhile_eq_nil_iff.mpr (by simp)
  have hdrop : (List.replicate count pad).dropWhile (· ≠ pad) = List.replicate count pad :=
    List.dropWhile_eq_self_iff.mpr (by simp)
  refine ⟨?_, ?_, count, hcount, ?_⟩
  · rwa [List.length_append, List.length_replicate]
  · rwa [List.takeWhile_append_of_pos hplain, htake, List.append_nil]
  · rw [List.dropWhile_append_of_pos hplain, hdrop]

/-- Characters of the alphabet, and the padding after them. -/
theorem encode_eq_append (text : Bytes) :
    ∃ front, encode text = front ++ List.replicate (padding text) pad ∧
      ∀ c ∈ front, c ∈ alphabet := by
  fun_induction encode text with
  | case1 => exact ⟨[], rfl, by simp⟩
  | case2 a =>
      have ha := a.toNat_lt
      refine ⟨[symbol (a.toNat / 4), symbol (a.toNat % 4 * 16)], rfl, ?_⟩
      simp only [List.forall_mem_cons]
      exact ⟨symbol_mem (by omega), symbol_mem (by omega), by simp⟩
  | case3 a b =>
      have ha := a.toNat_lt
      have hb := b.toNat_lt
      refine ⟨[symbol (a.toNat / 4), symbol (a.toNat % 4 * 16 + b.toNat / 16),
        symbol (b.toNat % 16 * 4)], rfl, ?_⟩
      simp only [List.forall_mem_cons]
      exact ⟨symbol_mem (by omega), symbol_mem (by omega), symbol_mem (by omega), by simp⟩
  | case4 a b c rest ih =>
      have ha := a.toNat_lt
      have hb := b.toNat_lt
      have hc := c.toNat_lt
      obtain ⟨front, hencode, hfront⟩ := ih
      refine ⟨symbol (a.toNat / 4) :: symbol (a.toNat % 4 * 16 + b.toNat / 16) ::
        symbol (b.toNat % 16 * 4 + c.toNat / 64) :: symbol (c.toNat % 64) :: front, ?_, ?_⟩
      · rw [hencode, padding_cons]
        rfl
      · simp only [List.forall_mem_cons]
        exact ⟨symbol_mem (by omega), symbol_mem (by omega), symbol_mem (by omega),
          symbol_mem (by omega), hfront⟩

/-- An encoded text is padded as it has to be. -/
theorem wellPadded_encode (text : Bytes) : WellPadded (encode text) := by
  obtain ⟨front, hencode, hfront⟩ := encode_eq_append text
  have hlength := length_encode text
  rw [hencode, List.length_append, List.length_replicate] at hlength
  rw [hencode]
  refine wellPadded_append hfront ?_ (by omega)
  have hlt : padding text < 3 := Nat.mod_lt _ (by omega)
  simp only [List.mem_cons, List.not_mem_nil, or_false]
  omega

/-- The first groups of the encoding encode the first bytes. -/
theorem take_encode {text : Bytes} {count : Nat} (hcount : 3 * count ≤ text.length) :
    (encode text).take (4 * count) = encode (text.take (3 * count)) := by
  induction count generalizing text with
  | zero => simp [encode]
  | succ count ih =>
      match text with
      | a :: b :: c :: rest =>
          have hrest : 3 * count ≤ rest.length := by
            simp only [List.length_cons] at hcount
            omega
          have hfour : 4 * (count + 1) = 4 * count + 4 := by omega
          have hthree : 3 * (count + 1) = 3 * count + 3 := by omega
          simp only [hfour, hthree, encode, List.take_succ_cons, ih hrest]

end Base64
end Library
