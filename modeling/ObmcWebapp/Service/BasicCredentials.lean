import ObmcWebapp.Library.Base64
import ObmcWebapp.Service.Authorization

/-!
# Service - Basic credentials on their way to PAM

A client sends user and password in padded base64.  The decoder predicts the size of the
result from the size of the text, hands the size to {lit}`EVP_DecodeBlock` as an
{lit}`int`, and reads the result as a C string, which drops the zero bytes of the padding.

Main results:

- Theorem {lit}`base64Decode_encode`: what the decoder makes of an encoding.
- Theorem {lit}`basicCredentials_iff`: they are the client's exactly if these have no null
  byte and fit.
-/

open Library

namespace ObmcWebapp
namespace Service

/-! ## The decoder -/

/-- The call with the size cast to {lit}`int`. -/
def callDecodeBlock (decodeBlock : Bytes → Int → DecodedBlock) (input : Bytes) : DecodedBlock :=
  decodeBlock input ((input.length : Int).bmod (2 ^ 32))

/-- The documented behaviour of {lit}`EVP_DecodeBlock`: four characters give three bytes,
also where they are padding; nothing is decoded from a negative number of characters. -/
structure DecodesBlocks (decodeBlock : Bytes → Int → DecodedBlock) : Prop where
  decoded : ∀ (data : Bytes) (n : Nat), n < 2 ^ 31 → n ≤ data.length →
    Base64.WellPadded (data.take n) →
      decodeBlock data n =
        { outputLen := 3 * n / 4, output := Base64.decodeQuads (data.take n) }
  nothing : ∀ (data : Bytes) (n : Int), n < 0 → (decodeBlock data n).outputLen ∈ [-1, 0]

/-- A text whose encoding has a size that an {lit}`int` holds. -/
def FitsInt (text : Bytes) : Prop :=
  text.length ≤ 3 * (2 ^ 29 - 1)

instance (text : Bytes) : Decidable (FitsInt text) :=
  inferInstanceAs (Decidable (_ ≤ _))

/-- The padding of a decoded text ends it. -/
theorem takeWhile_append_replicate (text : Bytes) (count : Nat) :
    (text ++ List.replicate count 0).takeWhile (· ≠ 0) = text.takeWhile (· ≠ 0) := by
  induction text with
  | nil =>
      cases count with
      | zero => rfl
      | succ count => rfl
  | cons c rest ih =>
      rw [List.cons_append, List.takeWhile_cons, List.takeWhile_cons, ih]

/-- A text without the end sign is its own. -/
theorem takeWhile_eq_self_iff_notMem {text : Bytes} :
    text.takeWhile (· ≠ 0) = text ↔ 0 ∉ text := by
  rw [List.takeWhile_eq_self_iff]
  constructor
  · intro h hmem
    exact absurd (h 0 hmem) (by decide)
  · intro h c hc
    exact decide_eq_true fun heq => h (heq ▸ hc)

section Decoding

variable {decodeBlock : Bytes → Int → DecodedBlock}

/-- The decoder gives the text and its padding. -/
theorem callDecodeBlock_encode (hcontract : DecodesBlocks decodeBlock) {text : Bytes}
    (hfits : FitsInt text) :
    callDecodeBlock decodeBlock (Base64.encode text) =
      { outputLen := 3 * (Base64.encode text).length / 4,
        output := text ++ List.replicate (Base64.padding text) 0 } := by
  have hlength := Base64.length_encode text
  unfold FitsInt at hfits
  have hcast : ((Base64.encode text).length : Int).bmod (2 ^ 32) =
      (Base64.encode text).length := Int.bmod_eq_of_le (by omega) (by omega)
  unfold callDecodeBlock
  have hpadded : Base64.WellPadded
      ((Base64.encode text).take (Base64.encode text).length) := by
    rw [List.take_length]
    exact Base64.wellPadded_encode text
  rw [hcast, hcontract.decoded _ _ (by omega) le_rfl hpadded, List.take_length,
    Base64.decodeQuads_encode]

/-- A size above those of an {lit}`int` is cast to a smaller one, or to a negative number. -/
theorem bmod_size {groups : Nat} (hlarge : 2 ^ 29 ≤ groups) :
    (∃ fewer : Nat, ((4 * groups : Nat) : Int).bmod (2 ^ 32) = ((4 * fewer : Nat) : Int) ∧
        4 * fewer < 2 ^ 31 ∧ fewer < groups) ∨
      ((4 * groups : Nat) : Int).bmod (2 ^ 32) < 0 ∧ 3 * groups ≠ 2 ^ 64 - 1 := by
  have hmod : ((4 * groups : Nat) : Int) % (2 ^ 32 : Nat) =
      ((4 * (groups % 2 ^ 30) : Nat) : Int) := by omega
  rw [Int.bmod_def, hmod]
  by_cases hlow : groups % 2 ^ 30 < 2 ^ 29
  · left
    rw [if_pos (by omega)]
    exact ⟨groups % 2 ^ 30, rfl, by omega, by omega⟩
  · right
    rw [if_neg (by omega)]
    constructor
    · have hlt : groups % 2 ^ 30 < 2 ^ 30 := Nat.mod_lt _ (by decide)
      omega
    · intro heq
      obtain rfl : groups = 6148914691236517205 := by omega
      exact hlow (by decide)

/-- Where the encoding does not fit, the decoder misses the predicted size. -/
theorem callDecodeBlock_outputLen_ne (hcontract : DecodesBlocks decodeBlock) {text : Bytes}
    (hfits : ¬ FitsInt text) :
    ((3 * (Base64.encode text).length / 4 : Nat) : Int) ≠
      (callDecodeBlock decodeBlock (Base64.encode text)).outputLen % 2 ^ 64 := by
  have hlength := Base64.length_encode text
  have hlarge : 2 ^ 29 ≤ (text.length + 2) / 3 := by
    unfold FitsInt at hfits
    omega
  generalize (text.length + 2) / 3 = groups at hlength hlarge
  have hpredicted : 3 * (4 * groups) / 4 = 3 * groups := by omega
  unfold callDecodeBlock
  rw [hlength, hpredicted]
  rcases bmod_size hlarge with ⟨fewer, hcast, hint, hfewer⟩ | ⟨hneg, hgroups⟩
  · -- the decoder stops after groups that are an encoding of their own
    have hbytes : 3 * fewer ≤ text.length := by
      have hgroups := Base64.length_encode text
      omega
    have hpadded : Base64.WellPadded ((Base64.encode text).take (4 * fewer)) := by
      rw [Base64.take_encode hbytes]
      exact Base64.wellPadded_encode _
    have hdecoded : (3 * ((4 * fewer : Nat) : Int)) / 4 = 3 * (fewer : Int) := by omega
    rw [hcast, hcontract.decoded _ _ hint (by omega) hpadded, hdecoded]
    dsimp only
    rw [Int.emod_eq_of_lt (by omega) (by omega)]
    omega
  · have hnothing := hcontract.nothing (Base64.encode text) _ hneg
    simp only [List.mem_cons, List.not_mem_nil, or_false] at hnothing
    rcases hnothing with herror | hzero
    · rw [herror]
      omega
    · rw [hzero]
      omega

/-- The text up to its first null byte, none where its encoding is too long. -/
theorem base64Decode_encode (hcontract : DecodesBlocks decodeBlock) (text : Bytes) :
    base64Decode (callDecodeBlock decodeBlock) (Base64.encode text) =
      if FitsInt text then some (text.takeWhile (· ≠ 0)) else none := by
  by_cases hfits : FitsInt text
  · have hlength := Base64.length_encode text
    have hbound : text.length ≤ 3 * (2 ^ 29 - 1) := hfits
    unfold base64Decode
    rw [callDecodeBlock_encode hcontract hfits, if_pos hfits, if_neg (by dsimp only; omega),
      takeWhile_append_replicate]
  · unfold base64Decode
    rw [if_neg hfits]
    exact if_pos (callDecodeBlock_outputLen_ne hcontract hfits)

end Decoding

/-! ## The login -/

/-- A text that the decoder gives back: no byte of it is null, and its encoding fits. -/
def Transmissible (text : Bytes) : Prop :=
  0 ∉ text ∧ FitsInt text

instance (text : Bytes) : Decidable (Transmissible text) :=
  inferInstanceAs (Decidable (_ ∧ _))

section Login

variable {outside : Outside} {decodeBlock : Bytes → Int → DecodedBlock}

/-- A text comes through where it has no end sign and fits. -/
theorem base64Decode_encode_eq_some_iff (hcontract : DecodesBlocks decodeBlock) (text : Bytes) :
    base64Decode (callDecodeBlock decodeBlock) (Base64.encode text) = some text ↔
      Transmissible text := by
  rw [base64Decode_encode hcontract]
  unfold Transmissible
  split
  · next hfits => rw [Option.some.injEq, takeWhile_eq_self_iff_notMem, and_iff_left hfits]
  · next hfits => simp [hfits]

/-- When both credentials come through. -/
theorem pamCredentials_eq_some_iff (hcontract : DecodesBlocks decodeBlock)
    (hcall : outside.evpDecodeBlock = callDecodeBlock decodeBlock) {env : Environment}
    {user pass : Bytes}
    (hauthorization : env.authorization = authBasic ++ Base64.encode (user ++ 0x3A :: pass)) :
    pamCredentials outside env = some (user, pass) ↔
      Transmissible (user ++ 0x3A :: pass) ∧ 0x3A ∉ user := by
  rw [pamCredentials_of_header hauthorization, hcall, base64Decode_encode_eq_some_iff hcontract]

/-- The decoder gives a text back, and PAM gets user and password as they were sent,
exactly if there is no null byte in them, their encoding fits, and the first colon is the
one after the user. -/
theorem basicCredentials_iff (hcontract : DecodesBlocks decodeBlock)
    (hcall : outside.evpDecodeBlock = callDecodeBlock decodeBlock) :
    (∀ text, base64Decode outside.evpDecodeBlock (Base64.encode text) = some text ↔
      Transmissible text) ∧
    ∀ (env : Environment) (user pass : Bytes),
      env.authorization = authBasic ++ Base64.encode (user ++ 0x3A :: pass) →
        (pamCredentials outside env = some (user, pass) ↔
          Transmissible (user ++ 0x3A :: pass) ∧ 0x3A ∉ user) := by
  constructor
  · intro text
    rw [hcall]
    exact base64Decode_encode_eq_some_iff hcontract text
  · intro env user pass hauthorization
    exact pamCredentials_eq_some_iff hcontract hcall hauthorization

end Login

/-! ### A concrete decoder -/

/-- A decoder that behaves as the real one. -/
def sampleDecodeBlock (data : Bytes) (n : Int) : DecodedBlock :=
  if 0 ≤ n ∧ Base64.WellPadded (data.take n.toNat) then
    { outputLen := 3 * n / 4, output := Base64.decodeQuads (data.take n.toNat) }
  else
    { outputLen := -1, output := [] }

/-- It decodes padded blocks. -/
theorem sampleDecodeBlock_decodesBlocks : DecodesBlocks sampleDecodeBlock where
  decoded := by
    intro data n _ _ hpadded
    exact if_pos ⟨Int.natCast_nonneg n, hpadded⟩
  nothing := by
    intro data n hneg
    unfold sampleDecodeBlock
    rw [if_neg fun h => absurd h.1 (by omega)]
    simp

/-- The system of the sample with this decoder. -/
def decodingOutside : Outside :=
  { sampleOutside fun _ => none with evpDecodeBlock := callDecodeBlock sampleDecodeBlock }

/-- The decoder is called with the size as an int. -/
theorem decodingOutside_evpDecodeBlock :
    decodingOutside.evpDecodeBlock = callDecodeBlock sampleDecodeBlock := by
  simp only [decodingOutside]

/-- The credentials {lit}`r:p` reach PAM. -/
theorem basicCredentials_sample :
    pamCredentials decodingOutside basicEnvironment = some (bytes "r", bytes "p") := by
  have hpam := (basicCredentials_iff sampleDecodeBlock_decodesBlocks decodingOutside_evpDecodeBlock).2
    basicEnvironment (bytes "r") (bytes "p") rfl
  exact hpam.mpr (by decide)

/-- A password with a null byte is cut there, and {lit}`r` gets in with it. -/
theorem nullByte_cuts_password :
    ¬ ∀ (outside : Outside) (decodeBlock : Bytes → Int → DecodedBlock),
      DecodesBlocks decodeBlock → outside.evpDecodeBlock = callDecodeBlock decodeBlock →
      (∀ text, base64Decode outside.evpDecodeBlock (Base64.encode text) = some text) ∧
      ∀ (env : Environment) (user pass : Bytes),
        env.authorization = authBasic ++ Base64.encode (user ++ 0x3A :: pass) → 0x3A ∉ user →
          pamCredentials outside env = some (user, pass) := by
  intro h
  have hpam := (h decodingOutside sampleDecodeBlock sampleDecodeBlock_decodesBlocks decodingOutside_evpDecodeBlock).2
    { authorization := authBasic ++ Base64.encode (bytes "r" ++ 0x3A :: (bytes "p" ++ [0])) }
    (bytes "r") (bytes "p" ++ [0]) rfl (by decide)
  have htext := (pamCredentials_eq_some_iff sampleDecodeBlock_decodesBlocks decodingOutside_evpDecodeBlock rfl).mp hpam
  exact htext.1.1 (by decide)

end Service
end ObmcWebapp
