import ObmcWebapp.Library.Utf8

/-!
# Library - Percent-encoded texts

Texts of unreserved characters and of escapes with two hexadecimal digits, and the decoder
that reads the bytes back.

Main results:

- Theorem {lit}`Percent.Encoded.visible`: such a text has visible ASCII characters only.
- Theorem {lit}`Percent.decode_plain`, {lit}`Percent.decode_escape`: the decoder, step by
  step.
-/

namespace Library
namespace Percent

/-- Letters, digits, and the four marks that stand for themselves. -/
def Unreserved (c : UInt8) : Prop :=
  (0x41 ≤ c ∧ c ≤ 0x5A) ∨ (0x61 ≤ c ∧ c ≤ 0x7A) ∨ (0x30 ≤ c ∧ c ≤ 0x39) ∨
    c = 0x2D ∨ c = 0x5F ∨ c = 0x2E ∨ c = 0x7E

instance (c : UInt8) : Decidable (Unreserved c) :=
  inferInstanceAs (Decidable (_ ∨ _))

/-- A digit or one of the letters from {lit}`A` to {lit}`F`. -/
def UpperHex (c : UInt8) : Prop :=
  (0x30 ≤ c ∧ c ≤ 0x39) ∨ (0x41 ≤ c ∧ c ≤ 0x46)

instance (c : UInt8) : Decidable (UpperHex c) :=
  inferInstanceAs (Decidable (_ ∨ _))

/-- Unreserved characters and escapes. -/
inductive Encoded : Bytes → Prop
  | nil : Encoded []
  | plain {c : UInt8} {rest : Bytes} (hc : Unreserved c) (hrest : Encoded rest) :
      Encoded (c :: rest)
  | escape {high low : UInt8} {rest : Bytes} (hhigh : UpperHex high) (hlow : UpperHex low)
      (hrest : Encoded rest) : Encoded (0x25 :: high :: low :: rest)

/-- The value of a digit, upper or lower case. -/
def hexValue (c : UInt8) : Option Nat :=
  if 0x30 ≤ c ∧ c ≤ 0x39 then some (c.toNat - 0x30)
  else if 0x41 ≤ c ∧ c ≤ 0x46 then some (c.toNat - 0x37)
  else if 0x61 ≤ c ∧ c ≤ 0x66 then some (c.toNat - 0x57)
  else none

/-- The bytes of a percent-encoded text, none where an escape is incomplete. -/
def decode : Bytes → Option Bytes
  | [] => some []
  | c :: rest =>
      if c = 0x25 then
        match rest with
        | high :: low :: rest =>
            match hexValue high, hexValue low with
            | some high, some low => (decode rest).map (UInt8.ofNat (16 * high + low) :: ·)
            | _, _ => none
        | _ => none
      else
        (decode rest).map (c :: ·)

/-- An unreserved character is visible. -/
theorem Unreserved.visible {c : UInt8} (hc : Unreserved c) : 0x21 ≤ c ∧ c ≤ 0x7E := by
  unfold Unreserved at hc
  rcases hc with hupper | hlower | hdigit | rfl | rfl | rfl | rfl
  · exact ⟨UInt8.le_trans (by decide) hupper.1, UInt8.le_trans hupper.2 (by decide)⟩
  · exact ⟨UInt8.le_trans (by decide) hlower.1, UInt8.le_trans hlower.2 (by decide)⟩
  · exact ⟨UInt8.le_trans (by decide) hdigit.1, UInt8.le_trans hdigit.2 (by decide)⟩
  all_goals decide

theorem Unreserved.ne_percent {c : UInt8} (hc : Unreserved c) : c ≠ 0x25 := by
  rintro rfl
  exact absurd hc (by decide)

/-- The digits of an escape are unreserved. -/
theorem UpperHex.unreserved {c : UInt8} (hc : UpperHex c) : Unreserved c := by
  rcases hc with hdigit | hletter
  · exact Or.inr (Or.inr (Or.inl hdigit))
  · exact Or.inl ⟨hletter.1, UInt8.le_trans hletter.2 (by decide)⟩

/-- No control character, no blank and no byte of another alphabet. -/
theorem Encoded.visible {text : Bytes} (h : Encoded text) : ∀ c ∈ text, 0x21 ≤ c ∧ c ≤ 0x7E := by
  induction h with
  | nil => exact fun c hmem => absurd hmem List.not_mem_nil
  | plain hc _ ih =>
      rw [List.forall_mem_cons]
      exact ⟨hc.visible, ih⟩
  | escape hhigh hlow _ ih =>
      simp only [List.forall_mem_cons]
      exact ⟨by decide, hhigh.unreserved.visible, hlow.unreserved.visible, ih⟩

/-- A character that is no percent sign stands for itself. -/
theorem decode_plain {c : UInt8} (hc : c ≠ 0x25) (rest : Bytes) :
    decode (c :: rest) = (decode rest).map (c :: ·) := by
  conv_lhs => unfold decode
  rw [if_neg hc]

/-- An escape stands for its byte. -/
theorem decode_escape {high low : UInt8} {highValue lowValue : Nat}
    (hhigh : hexValue high = some highValue) (hlow : hexValue low = some lowValue)
    (rest : Bytes) :
    decode (0x25 :: high :: low :: rest) =
      (decode rest).map (UInt8.ofNat (16 * highValue + lowValue) :: ·) := by
  rw [decode, if_pos rfl]
  simp only [hhigh, hlow]

end Percent
end Library
