import ObmcWebapp.Library.Utf8

/-!
# Library - UTF-8 and characters

{lit}`Library.Utf8` reads texts with an automaton.  This module connects the
automaton with the characters themselves: the texts it takes back between code
points are the encodings of lists of characters, and the payload it has read at
the end of each sequence is the character's scalar value.

Main results:

- Theorem {lit}`valid_iff_encode`: a text is valid exactly when it is the encoding
  of a list of characters.
- Theorem {lit}`spells_encodeChar`: the encoding of a character is one sequence of the
  automaton, and its payload is the character.
- Theorem {lit}`exists_char_of_spells`: the automaton has no other sequences.
- Theorem {lit}`pieces_encode`: the pieces of an encoded text.
-/

namespace Library
namespace Utf8

/-- The bytes of a list of characters. -/
def encode (chars : List Char) : Bytes :=
  chars.flatMap String.utf8EncodeChar

/-- No characters are no bytes. -/
@[simp] theorem encode_nil : encode [] = [] := rfl

/-- The first character is encoded first. -/
@[simp] theorem encode_cons (c : Char) (chars : List Char) :
    encode (c :: chars) = String.utf8EncodeChar c ++ encode chars := rfl

/-- Characters may be encoded in two parts. -/
theorem encode_append (chars others : List Char) :
    encode (chars ++ others) = encode chars ++ encode others :=
  List.flatMap_append

/-! ## Steps in numbers -/

/-- The first bytes that lead to a state. -/
def Leads (b : Nat) : State → Prop
  | .start => b ≤ 0x7F
  | .tail1 => 0xC2 ≤ b ∧ b ≤ 0xDF
  | .tail2 => 0xE1 ≤ b ∧ b ≤ 0xEF ∧ b ≠ 0xED
  | .tail3 => 0xF1 ≤ b ∧ b ≤ 0xF3
  | .afterE0 => b = 0xE0
  | .afterED => b = 0xED
  | .afterF0 => b = 0xF0
  | .afterF4 => b = 0xF4

/-- The state after a first byte. -/
theorem first_eq_some_iff {b : UInt8} {q : State} : first b = some q ↔ Leads b.toNat q := by
  simp only [first, UInt8.le_iff_toNat_le, UInt8.lt_iff_toNat_lt, ← UInt8.toNat_inj,
    UInt8.toNat_ofNat]
  split_ifs <;> cases q <;> simp [Leads] <;> omega

/-- The state after a byte of a range. -/
theorem within_eq_some_iff {low high b : UInt8} {next q : State} :
    within low high b next = some q ↔
      next = q ∧ low.toNat ≤ b.toNat ∧ b.toNat ≤ high.toNat := by
  simp only [within, UInt8.le_iff_toNat_le]
  split
  · next h => simp [h]
  · next h => simp [h]

/-- The bits of a first byte. -/
theorem lead_toNat (b : UInt8) :
    (lead b).toNat =
      if b.toNat ≤ 0x7F then b.toNat
      else if b.toNat ≤ 0xDF then b.toNat % 32
      else if b.toNat ≤ 0xEF then b.toNat % 16
      else b.toNat % 8 := by
  have h5 := Nat.and_two_pow_sub_one_eq_mod b.toNat 5
  have h4 := Nat.and_two_pow_sub_one_eq_mod b.toNat 4
  have h3 := Nat.and_two_pow_sub_one_eq_mod b.toNat 3
  simp only [lead, UInt8.le_iff_toNat_le]
  split_ifs <;> simp_all

/-- A continuation byte adds six bits. -/
theorem value_toNat {q : State} (hq : q ≠ .start) {codePoint : UInt32}
    (hbound : codePoint.toNat < 2 ^ 26) (b : UInt8) :
    (q.value codePoint b).toNat = codePoint.toNat * 64 + b.toNat % 64 := by
  have hmod := Nat.and_two_pow_sub_one_eq_mod b.toNat 6
  have hor := Nat.shiftLeft_add_eq_or_of_lt (show b.toNat % 64 < 2 ^ 6 by omega) codePoint.toNat
  have hshift : (codePoint <<< 6).toNat = codePoint.toNat * 64 := by
    rw [UInt32.toNat_shiftLeft]
    simp only [UInt32.toNat_ofNat, Nat.shiftLeft_eq, Nat.reducePow, Nat.reduceMod]
    omega
  rw [Nat.shiftLeft_eq] at hor
  rw [State.value, if_neg hq, UInt32.toNat_or, hshift, UInt32.toNat_and, Nat.or_comm]
  simp only [UInt8.toNat_toUInt32, UInt32.toNat_ofNat]
  rw [hor]
  congr 1

/-! ## Sequences -/

/-- From a state with a payload, bytes complete a code point, the last of them at its
end. -/
inductive Spells : State → UInt32 → Bytes → UInt32 → UInt8 → Prop
  | complete {q : State} {codePoint : UInt32} {b : UInt8} (hstep : q.step b = some .start) :
      Spells q codePoint [b] (q.value codePoint b) b
  | more {q q' : State} {codePoint value : UInt32} {b last : UInt8} {text : Bytes}
      (hstep : q.step b = some q') (hq' : q' ≠ .start)
      (hrest : Spells q' (q.value codePoint b) text value last) :
      Spells q codePoint (b :: text) value last

namespace Spells

variable {q : State} {codePoint value : UInt32} {text : Bytes} {last : UInt8}

/-- The bytes of a character lead back to the start. -/
theorem run (h : Spells q codePoint text value last) (rest : Bytes) :
    run q (text ++ rest) = Utf8.run .start rest := by
  induction h with
  | complete hstep => simp [Utf8.run, hstep]
  | more hstep _ _ ih => simp [Utf8.run, hstep, ih]

theorem scan (h : Spells q codePoint text value last) (rest : Bytes) :
    scan q codePoint (text ++ rest) = .scalar value last :: Utf8.scan .start 0 rest := by
  induction h with
  | complete hstep => exact scan_complete _ _ hstep
  | more hstep hq' _ ih => rw [List.cons_append, scan_continue _ _ hstep hq', ih]

end Spells

/-- A text that the automaton takes back between code points starts with a sequence. -/
theorem exists_spells_of_run {q : State} (codePoint : UInt32) {text : Bytes}
    (h : run q text = some .start) (hne : q ≠ .start ∨ text ≠ []) :
    ∃ read value last rest, text = read ++ rest ∧ Spells q codePoint read value last ∧
      run .start rest = some .start := by
  induction text generalizing q codePoint with
  | nil =>
      have hq : q = .start := by simpa [run] using h
      simp [hq] at hne
  | cons b bs ih =>
      cases hstep : q.step b with
      | none => simp [run, hstep] at h
      | some q' =>
          have hrest : run q' bs = some .start := by simpa [run, hstep] using h
          by_cases hq' : q' = .start
          · subst hq'
            exact ⟨[b], _, b, bs, rfl, .complete hstep, hrest⟩
          · obtain ⟨read, value, last, rest, rfl, hspells, hvalid⟩ :=
              ih (q.value codePoint b) hrest (Or.inl hq')
            exact ⟨b :: read, value, last, rest, rfl, .more hstep hq' hspells, hvalid⟩

/-! ## Characters -/

/-- A character of one byte. -/
theorem spells_one {a : UInt8} {value : UInt32} (codePoint : UInt32) (ha : a.toNat ≤ 0x7F)
    (hvalue : value.toNat = a.toNat) : Spells .start codePoint [a] value a := by
  have hlead : State.value .start codePoint a = value := by
    rw [← UInt32.toNat_inj, hvalue]
    exact (lead_toNat a).trans (if_pos ha)
  rw [← hlead]
  exact .complete (first_eq_some_iff.mpr ha)

/-- A character of two bytes. -/
theorem spells_two {a b : UInt8} {value : UInt32} (codePoint : UInt32)
    (ha : 0xC2 ≤ a.toNat ∧ a.toNat ≤ 0xDF) (hb : 0x80 ≤ b.toNat ∧ b.toNat ≤ 0xBF)
    (hvalue : value.toNat = a.toNat % 32 * 64 + b.toNat % 64) :
    Spells .start codePoint [a, b] value b := by
  have hlead : (State.value .start codePoint a).toNat = a.toNat % 32 := by
    refine (lead_toNat a).trans ?_
    rw [if_neg (by omega), if_pos (by omega)]
  have hpayload : State.value .tail1 (State.value .start codePoint a) b = value := by
    rw [← UInt32.toNat_inj, value_toNat (by decide) (by omega), hlead, hvalue]
  rw [← hpayload]
  exact .more (first_eq_some_iff.mpr (show Leads a.toNat .tail1 from ha)) (by decide)
    (.complete (within_eq_some_iff.mpr ⟨rfl, hb⟩))

/-- A character of three bytes. -/
theorem spells_three {a b c : UInt8} {value : UInt32} {q : State} (codePoint : UInt32)
    (ha : Leads a.toNat q) (hthree : 0xE0 ≤ a.toNat ∧ a.toNat ≤ 0xEF)
    (hb : q.step b = some .tail1) (hc : 0x80 ≤ c.toNat ∧ c.toNat ≤ 0xBF)
    (hvalue : value.toNat = (a.toNat % 16 * 64 + b.toNat % 64) * 64 + c.toNat % 64) :
    Spells .start codePoint [a, b, c] value c := by
  have hq : q ≠ .start := by
    rintro rfl
    unfold Leads at ha
    omega
  have hlead : (State.value .start codePoint a).toNat = a.toNat % 16 := by
    refine (lead_toNat a).trans ?_
    rw [if_neg (by omega), if_neg (by omega), if_pos (by omega)]
  have hmiddle : (q.value (State.value .start codePoint a) b).toNat =
      a.toNat % 16 * 64 + b.toNat % 64 := by
    rw [value_toNat hq (by omega), hlead]
  have hpayload : State.value .tail1 (q.value (State.value .start codePoint a) b) c = value := by
    rw [← UInt32.toNat_inj, value_toNat (by decide) (by omega), hmiddle, hvalue]
  rw [← hpayload]
  exact .more (first_eq_some_iff.mpr ha) hq
    (.more hb (by decide) (.complete (within_eq_some_iff.mpr ⟨rfl, hc⟩)))

/-- A character of four bytes. -/
theorem spells_four {a b c d : UInt8} {value : UInt32} {q : State} (codePoint : UInt32)
    (ha : Leads a.toNat q) (hfour : 0xF0 ≤ a.toNat ∧ a.toNat ≤ 0xF4)
    (hb : q.step b = some .tail2) (hc : 0x80 ≤ c.toNat ∧ c.toNat ≤ 0xBF)
    (hd : 0x80 ≤ d.toNat ∧ d.toNat ≤ 0xBF)
    (hvalue : value.toNat =
      ((a.toNat % 8 * 64 + b.toNat % 64) * 64 + c.toNat % 64) * 64 + d.toNat % 64) :
    Spells .start codePoint [a, b, c, d] value d := by
  have hq : q ≠ .start := by
    rintro rfl
    unfold Leads at ha
    omega
  have hlead : (State.value .start codePoint a).toNat = a.toNat % 8 := by
    refine (lead_toNat a).trans ?_
    rw [if_neg (by omega), if_neg (by omega), if_neg (by omega)]
  have hsecond : (q.value (State.value .start codePoint a) b).toNat =
      a.toNat % 8 * 64 + b.toNat % 64 := by
    rw [value_toNat hq (by omega), hlead]
  have hthird : (State.value .tail2 (q.value (State.value .start codePoint a) b) c).toNat =
      (a.toNat % 8 * 64 + b.toNat % 64) * 64 + c.toNat % 64 := by
    rw [value_toNat (by decide) (by omega), hsecond]
  have hpayload : State.value .tail1
      (State.value .tail2 (q.value (State.value .start codePoint a) b) c) d = value := by
    rw [← UInt32.toNat_inj, value_toNat (by decide) (by omega), hthird, hvalue]
  rw [← hpayload]
  exact .more (first_eq_some_iff.mpr ha) hq
    (.more hb (by decide) (.more (within_eq_some_iff.mpr ⟨rfl, hc⟩) (by decide)
      (.complete (within_eq_some_iff.mpr ⟨rfl, hd⟩))))

/-- The scalar values of characters. -/
theorem char_bounds (c : Char) :
    c.val.toNat < 0xD800 ∨ 0xDFFF < c.val.toNat ∧ c.val.toNat < 0x110000 :=
  c.valid

/-- The last byte of a character's encoding. -/
def lastByte (c : Char) : UInt8 :=
  (String.utf8EncodeChar c).getLastD 0

/-- The second byte of a three-byte sequence, by its first. -/
theorem exists_step_tail1 {a b : UInt8} (ha : 0xE0 ≤ a.toNat ∧ a.toNat ≤ 0xEF)
    (hb : 0x80 ≤ b.toNat ∧ b.toNat ≤ 0xBF) (hlow : a.toNat = 0xE0 → 0xA0 ≤ b.toNat)
    (hhigh : a.toNat = 0xED → b.toNat ≤ 0x9F) : ∃ q, Leads a.toNat q ∧ q.step b = some .tail1 := by
  by_cases h0 : a.toNat = 0xE0
  · exact ⟨.afterE0, h0, within_eq_some_iff.mpr ⟨rfl, hlow h0, hb.2⟩⟩
  · by_cases hd : a.toNat = 0xED
    · exact ⟨.afterED, hd, within_eq_some_iff.mpr ⟨rfl, hb.1, hhigh hd⟩⟩
    · exact ⟨.tail2, ⟨by omega, ha.2, hd⟩, within_eq_some_iff.mpr ⟨rfl, hb⟩⟩

/-- The second byte of a four-byte sequence, by its first. -/
theorem exists_step_tail2 {a b : UInt8} (ha : 0xF0 ≤ a.toNat ∧ a.toNat ≤ 0xF4)
    (hb : 0x80 ≤ b.toNat ∧ b.toNat ≤ 0xBF) (hlow : a.toNat = 0xF0 → 0x90 ≤ b.toNat)
    (hhigh : a.toNat = 0xF4 → b.toNat ≤ 0x8F) : ∃ q, Leads a.toNat q ∧ q.step b = some .tail2 := by
  by_cases h0 : a.toNat = 0xF0
  · exact ⟨.afterF0, h0, within_eq_some_iff.mpr ⟨rfl, hlow h0, hb.2⟩⟩
  · by_cases h4 : a.toNat = 0xF4
    · exact ⟨.afterF4, h4, within_eq_some_iff.mpr ⟨rfl, hb.1, hhigh h4⟩⟩
    · exact ⟨.tail3, ⟨by omega, by omega⟩, within_eq_some_iff.mpr ⟨rfl, hb⟩⟩

/-- A small number is a byte. -/
private theorem byte_toNat {n : Nat} (hn : n < 256) : (UInt8.ofNat n).toNat = n :=
  UInt8.toNat_ofNat_of_lt' hn

/-- An ASCII character is its byte. -/
theorem encodeChar_of_ascii {c : Char} (h : c.val.toNat ≤ 0x7F) :
    String.utf8EncodeChar c = [c.val.toUInt8] := by
  simp only [String.utf8EncodeChar]
  rw [if_pos h]
  rfl

theorem lastByte_of_ascii {c : Char} (h : c.val.toNat ≤ 0x7F) : lastByte c = c.val.toUInt8 := by
  rw [lastByte, encodeChar_of_ascii h]
  rfl

/-- The encoding of a character is one sequence of the automaton. -/
theorem spells_encodeChar (codePoint : UInt32) (c : Char) :
    Spells .start codePoint (String.utf8EncodeChar c) c.val (lastByte c) := by
  have hbounds := char_bounds c
  unfold lastByte
  simp only [String.utf8EncodeChar]
  split_ifs with h1 h2 h3
  · have ha := byte_toNat (show c.val.toNat < 256 by omega)
    exact spells_one codePoint (by omega) ha.symm
  · have ha := byte_toNat (show c.val.toNat / 64 % 32 + 0xC0 < 256 by omega)
    have hb := byte_toNat (show c.val.toNat % 64 + 0x80 < 256 by omega)
    exact spells_two codePoint (by omega) (by omega) (by omega)
  · have ha := byte_toNat (show c.val.toNat / 4096 % 16 + 0xE0 < 256 by omega)
    have hb := byte_toNat (show c.val.toNat / 64 % 64 + 0x80 < 256 by omega)
    have hc := byte_toNat (show c.val.toNat % 64 + 0x80 < 256 by omega)
    obtain ⟨q, hq, hstep⟩ := exists_step_tail1
      (a := UInt8.ofNat (c.val.toNat / 4096 % 16 + 0xE0))
      (b := UInt8.ofNat (c.val.toNat / 64 % 64 + 0x80))
      (by omega) (by omega) (by omega) (by omega)
    exact spells_three codePoint hq (by omega) hstep (by omega) (by omega)
  · have ha := byte_toNat (show c.val.toNat / 262144 % 8 + 0xF0 < 256 by omega)
    have hb := byte_toNat (show c.val.toNat / 4096 % 64 + 0x80 < 256 by omega)
    have hc := byte_toNat (show c.val.toNat / 64 % 64 + 0x80 < 256 by omega)
    have hd := byte_toNat (show c.val.toNat % 64 + 0x80 < 256 by omega)
    obtain ⟨q, hq, hstep⟩ := exists_step_tail2
      (a := UInt8.ofNat (c.val.toNat / 262144 % 8 + 0xF0))
      (b := UInt8.ofNat (c.val.toNat / 4096 % 64 + 0x80))
      (by omega) (by omega) (by omega) (by omega)
    exact spells_four codePoint hq (by omega) hstep (by omega) (by omega) (by omega)

/-! ## The automaton has no other sequences -/

namespace Spells

variable {q next : State} {codePoint value : UInt32} {text : Bytes} {last : UInt8}

/-- What is left of a character before its last byte. -/
theorem of_tail1 (h : Spells .tail1 codePoint text value last) :
    ∃ b, text = [b] ∧ 0x80 ≤ b.toNat ∧ b.toNat ≤ 0xBF := by
  cases h with
  | complete hstep => exact ⟨last, rfl, (within_eq_some_iff.mp hstep).2⟩
  | more hstep hq' _ => exact absurd (within_eq_some_iff.mp hstep).1.symm hq'

/-- What is left of a character before a byte of a range. -/
theorem of_within {low high : UInt8} (hq : ∀ b, q.step b = within low high b next)
    (hnext : next ≠ .start) (h : Spells q codePoint text value last) :
    ∃ b rest payload, text = b :: rest ∧ (low.toNat ≤ b.toNat ∧ b.toNat ≤ high.toNat) ∧
      Spells next payload rest value last := by
  cases h with
  | complete hstep => exact absurd (within_eq_some_iff.mp (hq _ ▸ hstep)).1 hnext
  | @more _ _ _ _ b _ rest hstep hq' hrest =>
      obtain ⟨rfl, hbounds⟩ := within_eq_some_iff.mp (hq _ ▸ hstep)
      exact ⟨b, rest, _, rfl, hbounds, hrest⟩

/-- What is left of a character before its last two bytes. -/
theorem of_tail2 (h : Spells .tail2 codePoint text value last) :
    ∃ b c, text = [b, c] ∧ (0x80 ≤ b.toNat ∧ b.toNat ≤ 0xBF) ∧
      0x80 ≤ c.toNat ∧ c.toNat ≤ 0xBF := by
  obtain ⟨b, rest, payload, rfl, hb, hrest⟩ := h.of_within (fun _ => rfl) (by decide)
  obtain ⟨c, rfl, hc⟩ := hrest.of_tail1
  exact ⟨b, c, rfl, hb, hc⟩

/-- The value and the last byte are functions of the bytes. -/
theorem unique {other : UInt32} {otherLast : UInt8} (h : Spells q codePoint text value last)
    (hother : Spells q codePoint text other otherLast) : value = other ∧ last = otherLast := by
  have hscan := (h.scan []).symm.trans (hother.scan [])
  simpa using hscan

end Spells

/-- The numbers of characters. -/
private theorem exists_char {n : Nat} (h : n < 0xD800 ∨ 0xDFFF < n ∧ n < 0x110000) :
    ∃ c : Char, c.val.toNat = n :=
  ⟨Char.ofNatAux n h, rfl⟩

/-- A byte is its number. -/
private theorem ofNat_eq {n : Nat} (b : UInt8) (h : n = b.toNat) : UInt8.ofNat n = b := by
  rw [h, UInt8.ofNat_toNat]

/-- Two such bytes are a character. -/
theorem exists_encodeChar_two {a b : UInt8} (ha : 0xC2 ≤ a.toNat ∧ a.toNat ≤ 0xDF)
    (hb : 0x80 ≤ b.toNat ∧ b.toNat ≤ 0xBF) : ∃ c, String.utf8EncodeChar c = [a, b] := by
  obtain ⟨c, hc⟩ := exists_char (n := a.toNat % 32 * 64 + b.toNat % 64) (by omega)
  refine ⟨c, ?_⟩
  simp only [String.utf8EncodeChar, hc]
  rw [if_neg (by omega), if_pos (by omega), ofNat_eq a (by omega), ofNat_eq b (by omega)]

/-- Three such bytes are a character. -/
theorem exists_encodeChar_three {a b c : UInt8} (ha : 0xE0 ≤ a.toNat ∧ a.toNat ≤ 0xEF)
    (hb : 0x80 ≤ b.toNat ∧ b.toNat ≤ 0xBF) (hlow : a.toNat = 0xE0 → 0xA0 ≤ b.toNat)
    (hhigh : a.toNat = 0xED → b.toNat ≤ 0x9F) (hc : 0x80 ≤ c.toNat ∧ c.toNat ≤ 0xBF) :
    ∃ char, String.utf8EncodeChar char = [a, b, c] := by
  obtain ⟨char, hchar⟩ := exists_char
    (n := (a.toNat % 16 * 64 + b.toNat % 64) * 64 + c.toNat % 64) (by omega)
  refine ⟨char, ?_⟩
  simp only [String.utf8EncodeChar, hchar]
  rw [if_neg (by omega), if_neg (by omega), if_pos (by omega), ofNat_eq a (by omega),
    ofNat_eq b (by omega), ofNat_eq c (by omega)]

/-- Four such bytes are a character. -/
theorem exists_encodeChar_four {a b c d : UInt8} (ha : 0xF0 ≤ a.toNat ∧ a.toNat ≤ 0xF4)
    (hb : 0x80 ≤ b.toNat ∧ b.toNat ≤ 0xBF) (hlow : a.toNat = 0xF0 → 0x90 ≤ b.toNat)
    (hhigh : a.toNat = 0xF4 → b.toNat ≤ 0x8F) (hc : 0x80 ≤ c.toNat ∧ c.toNat ≤ 0xBF)
    (hd : 0x80 ≤ d.toNat ∧ d.toNat ≤ 0xBF) :
    ∃ char, String.utf8EncodeChar char = [a, b, c, d] := by
  obtain ⟨char, hchar⟩ := exists_char
    (n := ((a.toNat % 8 * 64 + b.toNat % 64) * 64 + c.toNat % 64) * 64 + d.toNat % 64)
    (by omega)
  refine ⟨char, ?_⟩
  simp only [String.utf8EncodeChar, hchar]
  rw [if_neg (by omega), if_neg (by omega), if_neg (by omega), ofNat_eq a (by omega),
    ofNat_eq b (by omega), ofNat_eq c (by omega), ofNat_eq d (by omega)]

/-- What is read as a character is the text of one. -/
private theorem exists_encodeChar {codePoint value : UInt32} {text : Bytes} {last : UInt8}
    (h : Spells .start codePoint text value last) : ∃ c, String.utf8EncodeChar c = text := by
  cases h with
  | complete hstep =>
      have hlast : last.toNat ≤ 0x7F := first_eq_some_iff.mp hstep
      obtain ⟨c, hc⟩ := exists_char (n := last.toNat) (by omega)
      refine ⟨c, ?_⟩
      simp only [String.utf8EncodeChar, hc]
      rw [if_pos hlast, ofNat_eq last rfl]
  | @more _ q _ _ a _ rest hstep hq hrest =>
      have ha : Leads a.toNat q := first_eq_some_iff.mp hstep
      -- the state after the first byte says how many bytes follow
      cases q with
      | start => exact absurd rfl hq
      | tail1 =>
          obtain ⟨b, rfl, hb⟩ := hrest.of_tail1
          exact exists_encodeChar_two ha hb
      | tail2 =>
          obtain ⟨b, c, rfl, hb, hc⟩ := hrest.of_tail2
          exact exists_encodeChar_three ⟨by have := ha.1; omega, ha.2.1⟩ hb
            (by have := ha.1; omega) (fun heq => absurd heq ha.2.2) hc
      | afterE0 =>
          obtain ⟨b, _, _, rfl, hb, hlast⟩ := hrest.of_within (fun _ => rfl) (by decide)
          obtain ⟨c, rfl, hc⟩ := hlast.of_tail1
          have ha : a.toNat = 0xE0 := ha
          have hb : 0xA0 ≤ b.toNat ∧ b.toNat ≤ 0xBF := hb
          exact exists_encodeChar_three (by omega) (by omega) (by omega) (by omega) hc
      | afterED =>
          obtain ⟨b, _, _, rfl, hb, hlast⟩ := hrest.of_within (fun _ => rfl) (by decide)
          obtain ⟨c, rfl, hc⟩ := hlast.of_tail1
          have ha : a.toNat = 0xED := ha
          have hb : 0x80 ≤ b.toNat ∧ b.toNat ≤ 0x9F := hb
          exact exists_encodeChar_three (by omega) (by omega) (by omega) (by omega) hc
      | tail3 =>
          obtain ⟨b, _, _, rfl, hb, hlast⟩ := hrest.of_within (fun _ => rfl) (by decide)
          obtain ⟨c, d, rfl, hc, hd⟩ := hlast.of_tail2
          have ha : 0xF1 ≤ a.toNat ∧ a.toNat ≤ 0xF3 := ha
          exact exists_encodeChar_four (by omega) hb (by omega) (by omega) hc hd
      | afterF0 =>
          obtain ⟨b, _, _, rfl, hb, hlast⟩ := hrest.of_within (fun _ => rfl) (by decide)
          obtain ⟨c, d, rfl, hc, hd⟩ := hlast.of_tail2
          have ha : a.toNat = 0xF0 := ha
          have hb : 0x90 ≤ b.toNat ∧ b.toNat ≤ 0xBF := hb
          exact exists_encodeChar_four (by omega) (by omega) (by omega) (by omega) hc hd
      | afterF4 =>
          obtain ⟨b, _, _, rfl, hb, hlast⟩ := hrest.of_within (fun _ => rfl) (by decide)
          obtain ⟨c, d, rfl, hc, hd⟩ := hlast.of_tail2
          have ha : a.toNat = 0xF4 := ha
          have hb : 0x80 ≤ b.toNat ∧ b.toNat ≤ 0x8F := hb
          exact exists_encodeChar_four (by omega) (by omega) (by omega) (by omega) hc hd

/-- Every sequence of the automaton is the encoding of the character it spells. -/
theorem exists_char_of_spells {codePoint value : UInt32} {text : Bytes} {last : UInt8}
    (h : Spells .start codePoint text value last) :
    ∃ c : Char, text = String.utf8EncodeChar c ∧ value = c.val := by
  obtain ⟨c, rfl⟩ := exists_encodeChar h
  exact ⟨c, rfl, (h.unique (spells_encodeChar codePoint c)).1⟩

/-! ## Texts of characters -/

/-- Encoded characters are valid. -/
theorem valid_encode (chars : List Char) : Valid (encode chars) := by
  induction chars with
  | nil => exact valid_nil
  | cons c rest ih => exact ((spells_encodeChar 0 c).run (encode rest)).trans ih

/-- A valid text is encoded characters. -/
theorem exists_encode_of_valid {text : Bytes} (h : Valid text) : ∃ chars, text = encode chars := by
  induction hlength : text.length using Nat.strongRecOn generalizing text with
  | ind length ih =>
      by_cases hempty : text = []
      · exact ⟨[], hempty⟩
      · obtain ⟨read, value, last, rest, rfl, hspells, hrest⟩ :=
          exists_spells_of_run 0 h (Or.inr hempty)
        obtain ⟨c, rfl, -⟩ := exists_char_of_spells hspells
        have hread : 0 < (String.utf8EncodeChar c).length :=
          List.length_pos_iff.mpr String.utf8EncodeChar_ne_nil
        rw [List.length_append] at hlength
        obtain ⟨chars, rfl⟩ := ih rest.length (by omega) hrest rfl
        exact ⟨c :: chars, rfl⟩

/-- The valid texts are the encodings of lists of characters. -/
theorem valid_iff_encode {text : Bytes} : Valid text ↔ ∃ chars, text = encode chars := by
  constructor
  · exact exists_encode_of_valid
  · rintro ⟨chars, rfl⟩
    exact valid_encode chars

/-- The pieces of an encoded text are its characters. -/
theorem pieces_encode (chars : List Char) :
    pieces (encode chars) = chars.map fun c => .scalar c.val (lastByte c) := by
  induction chars with
  | nil => rfl
  | cons c rest ih => exact ((spells_encodeChar 0 c).scan (encode rest)).trans (congrArg _ ih)

end Utf8
end Library
