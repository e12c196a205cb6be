import ObmcWebapp.Redfish.DumpEscaped

/-!
# Redfish - What an escaped string says

{lit}`dumpEscaped` writes through a buffer.  This module shows that the buffer is
invisible: the output is the concatenation of the escapes of the characters.  It then
asks whether the characters can be read back.  The entities start with an ampersand,
which is escaped itself; the backslash sequences start with a backslash, which is not.

Main results:

- Theorem {lit}`dumpEscaped_eq_some`: the output for any text whose escapes fit.
- Theorem {lit}`dumpEscaped_encode`: the output for a text of characters.
- Theorem {lit}`recoverable_iff`: the texts that their output determines.
-/

open Library
open Library.Utf8 (State Piece scan)

namespace ObmcWebapp
namespace Redfish

/-! ## The text that a buffer stands for -/

namespace StringBuffer

/-- The output together with the bytes that wait in the buffer. -/
def content (buffer : StringBuffer) : Bytes :=
  buffer.out ++ buffer.data buffer.bytes

/-- A text that is stored is read again. -/
theorem data_store (buffer : StringBuffer) (text more : Bytes) :
    (List.range (buffer.bytes + text.length)).map (store buffer.cells buffer.bytes (text ++ more)) =
      buffer.data buffer.bytes ++ text := by
  rw [List.range_add, List.map_append, List.map_map]
  congr 1
  · apply List.map_congr_left
    intro k hk
    have hless := List.mem_range.mp hk
    exact if_neg (by omega)
  · apply List.ext_getElem (by simp)
    intro k _ hk
    have hstored : store buffer.cells buffer.bytes (text ++ more) (buffer.bytes + k) =
        (text ++ more).getD k 0 := by
      unfold store
      rw [if_pos (by simp only [List.length_append]; omega), Nat.add_sub_cancel_left]
    simp only [List.getElem_map, List.getElem_range, Function.comp_apply, hstored]
    rw [List.getD_eq_getElem?_getD, List.getElem?_append_left hk, List.getElem?_eq_getElem hk]
    rfl

/-- A piece adds its text. -/
theorem content_put (buffer : StringBuffer) (p : Put) :
    (buffer.put p).content = buffer.content ++ p.text := by
  have hstored : ∃ more, p.stored = p.text ++ more := by
    cases p with
    | chars text => exact ⟨[], (List.append_nil text).symm⟩
    | snprintf text => exact ⟨[0], rfl⟩
  obtain ⟨more, hmore⟩ := hstored
  have hdata := data_store buffer p.text more
  rw [content, content, data, List.append_assoc, ← hdata, put, ← hmore]

/-- Flushing adds nothing. -/
theorem content_flush (buffer : StringBuffer) : buffer.flush.content = buffer.content := by
  unfold flush
  split
  · simp [content, data]
  · rfl

/-- What the branches append for a piece. -/
def pieceText : Piece → Bytes
  | .scalar codePoint last => (escape codePoint last).text
  | .malformed => replacement.text
  | .truncated => []

/-- A character adds its text. -/
theorem content_piece (buffer : StringBuffer) (piece : Piece) :
    (buffer.piece piece).content = buffer.content ++ pieceText piece := by
  cases piece with
  | scalar codePoint last => exact (content_flush _).trans (content_put _ _)
  | malformed => exact content_put _ _
  | truncated => exact (List.append_nil _).symm

/-- The run lemma: the pieces read so far are the content. -/
theorem content_foldl (buffer : StringBuffer) (read : List Piece) :
    (read.foldl piece buffer).content = buffer.content ++ read.flatMap pieceText := by
  induction read generalizing buffer with
  | nil => simp
  | cons piece rest ih => rw [List.foldl_cons, ih, content_piece, List.flatMap_cons,
      List.append_assoc]

end StringBuffer

/-! ## The output of a whole text -/

/-- What a piece adds to the output; the mark of a sequence that is cut off comes after
the loop. -/
def pieceOutput : Piece → Bytes
  | .truncated => replacement.text
  | piece => StringBuffer.pieceText piece

/-- The pieces of a whole text are put out. -/
theorem flatMap_pieceOutput {read : List Piece} (hread : .truncated ∉ read) :
    read.flatMap pieceOutput = read.flatMap StringBuffer.pieceText := by
  apply List.flatMap_congr
  intro piece hmem
  cases piece with
  | truncated => exact absurd hmem hread
  | _ => rfl

/-- The buffer is invisible: the output is the concatenation of what the pieces add. -/
theorem dumpEscaped_eq_some (out : Bytes) {str : Bytes} (hfits : FitsBuffer str) :
    dumpEscaped out str = some (out ++ (Utf8.pieces str).flatMap pieceOutput) := by
  obtain ⟨q, read, hreads, hread, -, hpieces, hbuffer⟩ := afterLoop_reads out str
  have hinitial : (Escaper.initial out).content = out := List.append_nil out
  have hcontent : (afterLoop out str).content = out ++ read.flatMap pieceOutput := by
    rw [hbuffer, StringBuffer.content_foldl, hinitial, flatMap_pieceOutput hread]
  have hstate := stateCode_eq_accept_iff q
  rw [← hreads.state_eq] at hstate
  unfold dumpEscaped
  dsimp only
  rw [if_pos ((inBounds_afterLoop_iff out str).mpr hfits), hpieces, List.flatMap_append,
    ← List.append_assoc, ← hcontent]
  by_cases hq : q = .start
  · rw [if_pos (hstate.mpr hq), leftOver, if_pos hq, List.flatMap_nil, List.append_nil]
    split
    · rfl
    · next hempty =>
        -- an empty buffer need not be written
        have hbytes : (afterLoop out str).bytes = 0 := by omega
        simp [StringBuffer.content, StringBuffer.data, hbytes]
  · rw [if_neg (mt hstate.mp hq), leftOver, if_neg hq, hreads.accepted_eq]
    rfl

/-! ## Texts of characters -/

/-- The escape of a character. -/
def escapeChar (c : Char) : Bytes :=
  (escape c.val c.val.toUInt8).text

/-- Above the printable characters the switch comes to its default. -/
theorem escape_of_le {codePoint : UInt32} (h : 0x7F ≤ codePoint) (byte : UInt8) :
    escape codePoint byte =
      if codePoint ≤ 0xFFFF then
        .snprintf (hexUnit codePoint.toUInt16)
      else
        .snprintf (hexUnit ((0xD7C0 : UInt32) + (codePoint >>> 10)).toUInt16 ++
          hexUnit ((0xDC00 : UInt32) + (codePoint &&& 0x3FF)).toUInt16) := by
  have hne : ∀ small : UInt32, small < 0x7F → codePoint ≠ small := by
    rintro small hsmall rfl
    exact absurd h (UInt32.not_le.mpr hsmall)
  unfold escape
  iterate 10 rw [if_neg (hne _ (by decide))]
  exact if_pos (Or.inr h)

/-- The byte that is copied is the code point. -/
theorem escape_lastByte (c : Char) : escape c.val (Utf8.lastByte c) = escape c.val c.val.toUInt8 := by
  by_cases hascii : c.val.toNat ≤ 0x7F
  · rw [Utf8.lastByte_of_ascii hascii]
  · have hle : 0x7F ≤ c.val := by
      rw [UInt32.le_iff_toNat_le]
      simp only [UInt32.reduceToNat]
      omega
    rw [escape_of_le hle, escape_of_le hle]

/-- For every text of characters the output is the concatenation of their escapes. -/
theorem dumpEscaped_encode (out : Bytes) (chars : List Char) :
    dumpEscaped out (chars.flatMap String.utf8EncodeChar) =
      some (out ++ chars.flatMap escapeChar) := by
  have hvalid := Utf8.valid_encode chars
  refine (dumpEscaped_eq_some out (fitsBuffer_of_valid hvalid)).trans ?_
  rw [Utf8.pieces_encode, List.flatMap_map]
  congr 2
  apply List.flatMap_congr
  intro c _
  exact congrArg Put.text (escape_lastByte c)

/-- For every string of valid UTF-8 the output is the concatenation of the escapes of its
characters. -/
theorem dumpEscaped_of_valid (out : Bytes) {str : Bytes} (hvalid : Utf8.Valid str) :
    ∃ chars : List Char, str = chars.flatMap String.utf8EncodeChar ∧
      dumpEscaped out str = some (out ++ chars.flatMap escapeChar) := by
  obtain ⟨chars, rfl⟩ := Utf8.valid_iff_encode.mp hvalid
  exact ⟨chars, rfl, dumpEscaped_encode out chars⟩

/-- The theorem at a text with an umlaut. -/
theorem dumpEscaped_of_valid_umlaut :
    ∃ chars : List Char, [0x3C, 0xC3, 0xA4] = chars.flatMap String.utf8EncodeChar ∧
      dumpEscaped [] [0x3C, 0xC3, 0xA4] = some ([] ++ chars.flatMap escapeChar) :=
  dumpEscaped_of_valid [] (by decide)

/-! ## Characters that a backslash stands for -/

/-- Control characters, the angle brackets and everything that is not ASCII. -/
def TakesBackslash (c : Char) : Prop :=
  c.val ≤ 0x1F ∨ 0x7F ≤ c.val ∨ c = '<' ∨ c = '>'

/-- A byte that is copied. -/
def Copied (b : UInt8) : Prop :=
  0x20 ≤ b ∧ b ≤ 0x7E ∧ b ∉ bytes "\"'&<>"

instance (b : UInt8) : Decidable (Copied b) :=
  inferInstanceAs (Decidable (_ ∧ _))

instance (text : Bytes) : Decidable (∀ x ∈ text, Copied x) :=
  List.decidableBAll _ text

/-- The escape of an ASCII byte. -/
def escapeByte (b : UInt8) : Bytes :=
  (escape b.toUInt32 b).text

/-- The printable bytes: three have an entity, and the others but for the angle brackets
are copied. -/
def plainEscape (b : UInt8) : Bytes :=
  if b = 0x22 then [0x26, 0x71, 0x75, 0x6F, 0x74, 0x3B]
  else if b = 0x27 then [0x26, 0x61, 0x70, 0x6F, 0x73, 0x3B]
  else if b = 0x26 then [0x26, 0x61, 0x6D, 0x70, 0x3B]
  else [b]

/-- A byte that stands for itself or has an entity. -/
def PlainByte (b : UInt8) : Prop :=
  0x20 ≤ b ∧ b ≤ 0x7E ∧ b ≠ 0x3C ∧ b ≠ 0x3E

instance (b : UInt8) : Decidable (PlainByte b) :=
  inferInstanceAs (Decidable (_ ∧ _))

/-- The switch on the ASCII bytes: a plain byte gets its entity or is copied, and the others
get a longer text of copied bytes. -/
theorem escapeByte_cases (b : UInt8) :
    (PlainByte b → escapeByte b = plainEscape b) ∧
      (¬ PlainByte b → b ≤ 0x7E → (∀ x ∈ escapeByte b, Copied x) ∧ 1 < (escapeByte b).length) := by
  revert b
  apply Utf8.forall_byte
  decide +kernel

/-- An ASCII character is escaped as its byte. -/
theorem escapeChar_of_ascii {c : Char} (h : c.val.toNat ≤ 0x7F) :
    escapeChar c = escapeByte c.val.toUInt8 := by
  have hvalue : c.val.toUInt8.toUInt32 = c.val := by
    rw [← UInt32.toNat_inj, UInt8.toNat_toUInt32, UInt32.toNat_toUInt8]
    omega
  rw [escapeByte, hvalue, escapeChar]

/-- The digits of an escape are copied. -/
theorem hexDigit_copied {n : Nat} (hn : n < 16) : Copied (hexDigit n) := by
  interval_cases n <;> decide

theorem hexUnit_copied (unit : UInt16) : ∀ x ∈ hexUnit unit, Copied x := by
  have hstart : ∀ x ∈ [(0x5C : UInt8), 0x75], Copied x :=
    List.forall_mem_cons.mpr ⟨by decide, List.forall_mem_singleton.mpr (by decide)⟩
  intro x hmem
  rcases List.mem_append.mp hmem with hprefix | hdigit
  · exact hstart x hprefix
  · simp only [List.mem_cons, List.not_mem_nil, or_false] at hdigit
    rcases hdigit with rfl | rfl | rfl | rfl
    all_goals exact hexDigit_copied (Nat.mod_lt _ (by decide))

/-- The bytes that take a backslash. -/
theorem not_plainByte_iff {c : Char} (h : c.val.toNat < 0x7F) :
    ¬ PlainByte c.val.toUInt8 ↔ TakesBackslash c := by
  have hc : c.toNat < 0x7F := h
  simp only [PlainByte, TakesBackslash, UInt8.le_iff_toNat_le, UInt32.le_iff_toNat_le, ne_eq,
    ← UInt8.toNat_inj, Char.ext_iff, ← UInt32.toNat_inj, UInt32.toNat_toUInt8]
  simp
  omega

/-- What a backslash stands for is a text of copied bytes, longer than the character. -/
theorem escapeChar_takesBackslash {c : Char} (h : TakesBackslash c) :
    (∀ x ∈ escapeChar c, Copied x) ∧
      (String.utf8EncodeChar c).length < (escapeChar c).length := by
  by_cases hlarge : 0x7F ≤ c.val
  · rw [escapeChar, escape_of_le hlarge]
    split
    · refine ⟨hexUnit_copied _, ?_⟩
      have := c.utf8Size_le_four
      simp only [Put.text, hexUnit_length, String.length_utf8EncodeChar]
      omega
    · refine ⟨?_, ?_⟩
      · intro x hmem
        rcases List.mem_append.mp hmem with hfirst | hsecond
        · exact hexUnit_copied _ x hfirst
        · exact hexUnit_copied _ x hsecond
      · have := c.utf8Size_le_four
        simp only [Put.text, List.length_append, hexUnit_length, String.length_utf8EncodeChar]
        omega
  · have hsmall : c.val.toNat < 0x7F := by simpa [UInt32.le_iff_toNat_le] using hlarge
    have hbyte : c.val.toUInt8 ≤ 0x7E := by
      rw [UInt8.le_iff_toNat_le, UInt32.toNat_toUInt8]
      simp only [UInt8.reduceToNat]
      omega
    rw [escapeChar_of_ascii (by omega), Utf8.encodeChar_of_ascii (by omega)]
    exact (escapeByte_cases _).2 ((not_plainByte_iff hsmall).mpr h) hbyte

/-- The other characters are plain bytes. -/
theorem escapeChar_plain {c : Char} (h : ¬ TakesBackslash c) :
    ∃ b, PlainByte b ∧ String.utf8EncodeChar c = [b] ∧ escapeChar c = plainEscape b := by
  have hsmall : c.val.toNat < 0x7F := by
    simp only [TakesBackslash, not_or, UInt32.not_le, UInt32.lt_iff_toNat_lt] at h
    exact h.2.1
  have hplain : PlainByte c.val.toUInt8 :=
    not_not.mp (mt (not_plainByte_iff hsmall).mp h)
  refine ⟨_, hplain, Utf8.encodeChar_of_ascii (by omega), ?_⟩
  rw [escapeChar_of_ascii (by omega)]
  exact (escapeByte_cases _).1 hplain

/-! ## Reading an output back -/

/-- The entities and the copied bytes are told apart by their first bytes. -/
theorem plainEscape_prefixFree {a b : UInt8} {x y : Bytes}
    (heq : plainEscape a ++ x = plainEscape b ++ y) : a = b ∧ x = y := by
  unfold plainEscape at heq
  split_ifs at heq <;> simp_all

namespace Copied

variable {b : UInt8}

/-- A copied byte is ASCII. -/
theorem ascii (h : Copied b) : b ≤ 0x7F :=
  UInt8.le_trans h.2.1 (by decide)

theorem plainEscape_eq (h : Copied b) : plainEscape b = [b] := by
  have hmarks : ([0x22, 0x27, 0x26] : Bytes) ⊆ bytes "\"'&<>" := by decide
  have hne : ∀ other ∈ ([0x22, 0x27, 0x26] : Bytes), b ≠ other := by
    rintro other hmem rfl
    exact h.2.2 (hmarks hmem)
  simp only [List.forall_mem_cons] at hne
  rw [plainEscape, if_neg hne.1, if_neg hne.2.1, if_neg hne.2.2.1]

theorem plainByte (h : Copied b) : PlainByte b := by
  refine ⟨h.1, h.2.1, ?_, ?_⟩
  all_goals
    rintro rfl
    exact absurd h (by decide)

theorem exists_char (h : Copied b) :
    ∃ c, String.utf8EncodeChar c = [b] ∧ escapeChar c = [b] := by
  have hvalue : (Char.ofUInt8 b).val.toUInt8 = b := UInt8.toUInt8_toUInt32 b
  have hsmall : (Char.ofUInt8 b).val.toNat ≤ 0x7F := h.ascii
  refine ⟨Char.ofUInt8 b, ?_, ?_⟩
  · rw [Utf8.encodeChar_of_ascii hsmall, hvalue]
  · rw [escapeChar_of_ascii hsmall, hvalue, (escapeByte_cases b).1 h.plainByte, h.plainEscape_eq]

end Copied

/-- What begins with a copied byte begins with it before the escape. -/
theorem plainEscape_cons_copied {b first : UInt8} (hfirst : Copied first) {x y : Bytes}
    (heq : plainEscape b ++ x = first :: y) : b = first ∧ x = y := by
  apply plainEscape_prefixFree
  rw [heq, hfirst.plainEscape_eq]
  rfl

/-- A copied text at the start of an output stands in the text itself. -/
theorem prefix_of_copied {word rest : Bytes} (hword : ∀ x ∈ word, Copied x) {plain : Bytes}
    (heq : plain.flatMap plainEscape = word ++ rest) : word <+: plain := by
  induction word generalizing plain with
  | nil => exact List.nil_prefix
  | cons first word ih =>
      obtain ⟨hfirst, hlater⟩ := List.forall_mem_cons.mp hword
      cases plain with
      | nil => exact absurd heq (by simp)
      | cons b plain =>
          obtain ⟨rfl, hrest⟩ := plainEscape_cons_copied hfirst heq
          exact List.cons_prefix_cons.mpr ⟨rfl, ih hlater hrest⟩

/-- The plain bytes of characters that take no backslash. -/
theorem exists_plain {chars : List Char} (hchars : ∀ c ∈ chars, ¬ TakesBackslash c) :
    chars.flatMap escapeChar = (Utf8.encode chars).flatMap plainEscape := by
  induction chars with
  | nil => rfl
  | cons c rest ih =>
      obtain ⟨hc, hrest⟩ := List.forall_mem_cons.mp hchars
      obtain ⟨b, -, hencode, hescape⟩ := escapeChar_plain hc
      rw [List.flatMap_cons, Utf8.encode_cons, hencode, hescape, ih hrest]
      rfl

/-- A text with a given output of plain escapes is the plain text, or the plain text
spells out a backslash sequence. -/
theorem eq_or_spelled {chars : List Char} {plain : Bytes}
    (heq : chars.flatMap escapeChar = plain.flatMap plainEscape) :
    Utf8.encode chars = plain ∨ ∃ c, TakesBackslash c ∧ escapeChar c <:+: plain := by
  induction chars generalizing plain with
  | nil =>
      cases plain with
      | nil => exact Or.inl rfl
      | cons b plain =>
          have hempty : plainEscape b = [] := (List.append_eq_nil_iff.mp heq.symm).1
          unfold plainEscape at hempty
          split_ifs at hempty
  | cons c rest ih =>
      by_cases hc : TakesBackslash c
      · -- the sequence that stands for the character starts the plain text
        have hprefix := prefix_of_copied (escapeChar_takesBackslash hc).1 heq.symm
        exact Or.inr ⟨c, hc, hprefix.isInfix⟩
      · obtain ⟨b, -, hencode, hescape⟩ := escapeChar_plain hc
        cases plain with
        | nil =>
            have hempty : escapeChar c = [] := (List.append_eq_nil_iff.mp heq).1
            rw [hescape] at hempty
            unfold plainEscape at hempty
            split_ifs at hempty
        | cons other plain =>
            rw [List.flatMap_cons, List.flatMap_cons, hescape] at heq
            obtain ⟨rfl, hrest⟩ := plainEscape_prefixFree heq
            rcases ih hrest with hsame | ⟨spelled, hspelled, hinfix⟩
            · left
              rw [Utf8.encode_cons, hencode, hsame]
              rfl
            · exact Or.inr ⟨spelled, hspelled, List.infix_cons hinfix⟩

/-- No other text of valid UTF-8 has the same output. -/
def Recoverable (str : Bytes) : Prop :=
  ∀ other, Utf8.Valid other → dumpEscaped [] other = dumpEscaped [] str → other = str

/-- The characters of a text of copied bytes. -/
theorem exists_copied_chars {word : Bytes} (hword : ∀ x ∈ word, Copied x) :
    ∃ chars : List Char, Utf8.encode chars = word ∧ chars.flatMap escapeChar = word := by
  induction word with
  | nil => exact ⟨[], rfl, rfl⟩
  | cons first word ih =>
      obtain ⟨hfirst, hlater⟩ := List.forall_mem_cons.mp hword
      obtain ⟨c, hencode, hescape⟩ := hfirst.exists_char
      obtain ⟨chars, hchars, hescapes⟩ := ih hlater
      refine ⟨c :: chars, ?_, ?_⟩
      · rw [Utf8.encode_cons, hencode, hchars]
        rfl
      · rw [List.flatMap_cons, hescape, hescapes]
        rfl

/-- The text with a character in the place of its spelled escape has the same output. -/
theorem dumpEscaped_spelled {c : Char} (hc : TakesBackslash c) {before after : Bytes}
    (hbefore : Utf8.Valid before) (hafter : Utf8.Valid after) :
    Utf8.Valid (before ++ String.utf8EncodeChar c ++ after) ∧
      Utf8.Valid (before ++ escapeChar c ++ after) ∧
      dumpEscaped [] (before ++ String.utf8EncodeChar c ++ after) =
        dumpEscaped [] (before ++ escapeChar c ++ after) ∧
      before ++ String.utf8EncodeChar c ++ after ≠ before ++ escapeChar c ++ after := by
  obtain ⟨left, rfl⟩ := Utf8.valid_iff_encode.mp hbefore
  obtain ⟨right, rfl⟩ := Utf8.valid_iff_encode.mp hafter
  obtain ⟨hcopied, hlonger⟩ := escapeChar_takesBackslash hc
  obtain ⟨spelled, hspelled, hescape⟩ := exists_copied_chars hcopied
  have hchar : Utf8.encode left ++ String.utf8EncodeChar c ++ Utf8.encode right =
      Utf8.encode (left ++ c :: right) := by
    rw [Utf8.encode_append, Utf8.encode_cons, List.append_assoc]
  have hword : Utf8.encode left ++ escapeChar c ++ Utf8.encode right =
      Utf8.encode (left ++ (spelled ++ right)) := by
    rw [Utf8.encode_append, Utf8.encode_append, hspelled, List.append_assoc]
  refine ⟨hchar ▸ Utf8.valid_encode _, hword ▸ Utf8.valid_encode _, ?_, ?_⟩
  · rw [hchar, hword]
    refine (dumpEscaped_encode [] _).trans (Eq.trans ?_ (dumpEscaped_encode [] _).symm)
    simp only [List.flatMap_append, List.flatMap_cons, hescape]
  · intro heq
    have hlength := congrArg List.length heq
    simp only [List.length_append] at hlength
    omega

/-- A valid text that goes on with copied bytes is valid up to them. -/
theorem valid_of_append_copied {before word after : Bytes} (hword : ∀ x ∈ word, Copied x)
    (h : Utf8.Valid (before ++ word ++ after)) (hne : word ≠ []) : Utf8.Valid before := by
  cases word with
  | nil => exact absurd rfl hne
  | cons first word =>
      rw [List.append_assoc] at h
      exact Utf8.valid_of_append_ascii (hword first List.mem_cons_self).ascii h

/-- The output determines a text exactly when no character of it takes a backslash and
the text spells out no backslash sequence itself. -/
theorem recoverable_iff (chars : List Char) :
    Recoverable (Utf8.encode chars) ↔
      (∀ c ∈ chars, ¬ TakesBackslash c) ∧
        ∀ c, TakesBackslash c → ¬ escapeChar c <:+: Utf8.encode chars := by
  constructor
  · intro hrecover
    refine ⟨?_, ?_⟩
    · intro c hmem hc
      obtain ⟨left, right, rfl⟩ := List.append_of_mem hmem
      obtain ⟨-, hvalid, hsame, hne⟩ :=
        dumpEscaped_spelled hc (Utf8.valid_encode left) (Utf8.valid_encode right)
      have hchar : Utf8.encode left ++ String.utf8EncodeChar c ++ Utf8.encode right =
          Utf8.encode (left ++ c :: right) := by
        rw [Utf8.encode_append, Utf8.encode_cons, List.append_assoc]
      rw [hchar] at hsame hne
      exact hne (hrecover _ hvalid hsame.symm).symm
    · rintro c hc ⟨before, after, heq⟩
      have hvalid := Utf8.valid_encode chars
      rw [← heq] at hvalid
      obtain ⟨hcopied, hlonger⟩ := escapeChar_takesBackslash hc
      have hbefore : Utf8.Valid before :=
        valid_of_append_copied hcopied hvalid (List.ne_nil_of_length_pos (by omega))
      have hafter : Utf8.Valid after := by
        have hword := Utf8.valid_of_ascii fun x hx => (hcopied x hx).ascii
        exact (Utf8.valid_append_iff (hbefore.append hword) after).mp hvalid
      obtain ⟨hchar, -, hsame, hne⟩ := dumpEscaped_spelled hc hbefore hafter
      rw [heq] at hsame hne
      exact hne (hrecover _ hchar hsame)
  · rintro ⟨hplain, hspelled⟩ other hvalid hsame
    obtain ⟨others, rfl⟩ := Utf8.valid_iff_encode.mp hvalid
    have houtput : others.flatMap escapeChar = chars.flatMap escapeChar := by
      have hboth := (dumpEscaped_encode [] others).symm.trans
        (hsame.trans (dumpEscaped_encode [] chars))
      simpa using hboth
    rw [exists_plain hplain] at houtput
    rcases eq_or_spelled houtput with heq | ⟨c, hc, hinfix⟩
    · exact heq
    · exact absurd hinfix (hspelled c hc)

/-- A backspace and the two characters that its escape shows have the same output. -/
theorem backspace_not_recoverable :
    ¬ ∀ s t : Bytes, Utf8.Valid s → Utf8.Valid t → dumpEscaped [] s = dumpEscaped [] t → s = t := by
  intro h
  exact absurd (h [0x08] (bytes "\\b") (by decide) (by decide) (by decide)) (by decide)

end Redfish
end ObmcWebapp
