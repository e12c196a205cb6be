import Mathlib.Data.List.Range
import ObmcWebapp.Redfish.Decode

/-!
# Redfish - Escaping a string for the HTML page

{lit}`dumpEscaped` collects the escapes of a string in a 512-byte buffer and
appends the buffer to the output whenever fewer than 13 bytes are left after a
code point.  The buffer is modelled with the list of all indices written so far,
so that a write past its end is visible.

Main results:

- Theorem {lit}`loop_eq`: the loop ends, and what it leaves in the buffer is the
  fold of the text's pieces.
- Theorem {lit}`dumpEscaped_overrun_iff`: the buffer is overrun exactly when the
  escapes of some block of the text do not fit it.
- Theorem {lit}`fitsBuffer_of_valid`: they fit for every valid text.
-/

open Library
open Library.Utf8 (State Piece scan)

namespace ObmcWebapp
namespace Redfish

/-! ## Escapes -/

/-- What one branch puts into the buffer: single characters, or a text that
{lit}`snprintf` formats and closes with a NUL. -/
inductive Put
  | chars (text : Bytes)
  | snprintf (text : Bytes)
deriving DecidableEq

/-- The characters the index moves over. -/
def Put.text : Put → Bytes
  | .chars text => text
  | .snprintf text => text

/-- All bytes stored, the NUL included. -/
def Put.stored : Put → Bytes
  | .chars text => text
  | .snprintf text => text ++ [0]

/-- A digit in lower case. -/
def hexDigit (n : Nat) : UInt8 :=
  if n < 10 then UInt8.ofNat (0x30 + n) else UInt8.ofNat (0x57 + n)

/-- The conversion {lit}`\u%04x` of a 16-bit unit. -/
def hexUnit (unit : UInt16) : Bytes :=
  bytes "\\u" ++ [hexDigit (unit.toNat / 4096 % 16), hexDigit (unit.toNat / 256 % 16),
    hexDigit (unit.toNat / 16 % 16), hexDigit (unit.toNat % 16)]

/-- The switch over a complete code point; {lit}`byte` is the byte that
completed it. -/
def escape (codePoint : UInt32) (byte : UInt8) : Put :=
  if codePoint = 0x08 then .chars (bytes "\\b")
  else if codePoint = 0x09 then .chars (bytes "\\t")
  else if codePoint = 0x0A then .chars (bytes "\\n")
  else if codePoint = 0x0C then .chars (bytes "\\f")
  else if codePoint = 0x0D then .chars (bytes "\\r")
  else if codePoint = 0x22 then .chars (bytes "&quot;")
  else if codePoint = 0x27 then .chars (bytes "&apos;")
  else if codePoint = 0x26 then .chars (bytes "&amp;")
  else if codePoint = 0x3C then .chars (bytes "\\lt;")
  else if codePoint = 0x3E then .chars (bytes "\\gt;")
  else if codePoint ≤ 0x1F ∨ 0x7F ≤ codePoint then
    if codePoint ≤ 0xFFFF then
      .snprintf (hexUnit codePoint.toUInt16)
    else
      .snprintf (hexUnit ((0xD7C0 : UInt32) + (codePoint >>> 10)).toUInt16 ++
        hexUnit ((0xDC00 : UInt32) + (codePoint &&& 0x3FF)).toUInt16)
  else .chars [byte]

/-- The replacement for a malformed part. -/
def replacement : Put :=
  .chars (bytes "\\ufffd")

/-! ## The buffer -/

/-- The size of the buffer. -/
def stringBufferSize : Nat := 512

/-- Subtraction in {lit}`size_t`. -/
def sizeSub (a b : Nat) : Nat :=
  (a + 2 ^ 64 - b % 2 ^ 64) % 2 ^ 64

/-- The output, the buffer with every index written so far, and the number of
bytes in use. -/
structure StringBuffer where
  out : Bytes
  cells : Nat → UInt8
  written : List Nat
  bytes : Nat

namespace StringBuffer

/-- Store a text from an index on. -/
def store (cells : Nat → UInt8) (start : Nat) (text : Bytes) : Nat → UInt8 :=
  fun k => if start ≤ k ∧ k < start + text.length then text.getD (k - start) 0 else cells k

/-- The first bytes of the buffer. -/
def data (buffer : StringBuffer) (count : Nat) : Bytes :=
  (List.range count).map buffer.cells

/-- A piece is stored and its bytes counted. -/
def put (buffer : StringBuffer) (p : Put) : StringBuffer where
  out := buffer.out
  cells := store buffer.cells buffer.bytes p.stored
  written := buffer.written ++ List.range' buffer.bytes p.stored.length
  bytes := buffer.bytes + p.text.length

/-- Write the buffer out and reset the index when fewer than 13 bytes are left. -/
def flush (buffer : StringBuffer) : StringBuffer :=
  if sizeSub stringBufferSize buffer.bytes < 13 then
    { buffer with out := buffer.out ++ buffer.data buffer.bytes, bytes := 0 }
  else
    buffer

end StringBuffer

/-! ## The loop -/

/-- The local variables of {lit}`dumpEscaped`. -/
structure Escaper extends StringBuffer where
  codePoint : UInt32
  state : UInt8
  bytesAfterLastAccept : Nat
  undumpedChars : Nat
  i : Nat

/-- The variables before the loop. -/
def Escaper.initial (out : Bytes) : Escaper where
  out := out
  cells := fun _ => 0
  written := []
  bytes := 0
  codePoint := 0
  state := utf8Accept
  bytesAfterLastAccept := 0
  undumpedChars := 0
  i := 0

/-- One pass of the loop body together with the increment of the index. -/
def iteration (str : Bytes) (s : Escaper) : Escaper :=
  let byte := str.getD s.i 0
  let (state, codePoint) := decode s.state s.codePoint byte
  if state = utf8Accept then
    let buffer := (s.toStringBuffer.put (escape codePoint byte)).flush
    { toStringBuffer := buffer, codePoint, state, bytesAfterLastAccept := buffer.bytes,
      undumpedChars := 0, i := s.i + 1 }
  else if state = utf8Reject then
    -- inside a sequence the byte is read again
    let i := if 0 < s.undumpedChars then s.i - 1 else s.i
    let buffer := { s.toStringBuffer with bytes := s.bytesAfterLastAccept }.put replacement
    { toStringBuffer := buffer, codePoint, state := utf8Accept,
      bytesAfterLastAccept := buffer.bytes, undumpedChars := 0, i := i + 1 }
  else
    { s with codePoint, state, undumpedChars := s.undumpedChars + 1, i := s.i + 1 }

/-- The loop, for a number of passes. -/
def loop (str : Bytes) : Nat → Escaper → Escaper
  | 0, s => s
  | passes + 1, s => if s.i < str.length then loop str passes (iteration str s) else s

/-- The variables after the loop; no text needs more than two passes a byte. -/
def afterLoop (out str : Bytes) : Escaper :=
  loop str (2 * str.length) (Escaper.initial out)

/-- A run writes the buffer inside its bounds only. -/
def InBounds (buffer : StringBuffer) : Prop :=
  ∀ k ∈ buffer.written, k < stringBufferSize

instance (buffer : StringBuffer) : Decidable (InBounds buffer) :=
  inferInstanceAs (Decidable (∀ k ∈ buffer.written, k < stringBufferSize))

/-- {lit}`dumpEscaped(out, str)`: the new output, none when the buffer was
overrun. -/
def dumpEscaped (out str : Bytes) : Option Bytes :=
  let s := afterLoop out str
  if InBounds s.toStringBuffer then
    if s.state = utf8Accept then
      if 0 < s.bytes then some (s.out ++ s.data s.bytes) else some s.out
    else
      some (s.out ++ s.data s.bytesAfterLastAccept ++ bytes "\\ufffd")
  else
    none

/-! ## One pass is one part of the scan -/

/-- What one piece of the text does to the buffer. -/
def StringBuffer.piece (buffer : StringBuffer) : Piece → StringBuffer
  | .scalar codePoint last => (buffer.put (escape codePoint last)).flush
  | .malformed => buffer.put replacement
  | .truncated => buffer

/-- At the loop head the variables stand for a state of the automaton, and only
accepted bytes are in the buffer. -/
structure Escaper.Reads (s : Escaper) (q : State) : Prop where
  state_eq : s.state = stateCode q
  undumped_iff : 0 < s.undumpedChars ↔ q ≠ .start
  accepted_eq : s.bytesAfterLastAccept = s.bytes
  index_pos : q ≠ .start → 0 < s.i

/-- The passes left: two for every byte not read yet, one for a begun sequence. -/
def passesLeft (str : Bytes) (s : Escaper) (q : State) : Nat :=
  2 * (str.length - s.i) + if q = .start then 0 else 1

/-- At the start no character has begun. -/
theorem reads_initial (out : Bytes) : (Escaper.initial out).Reads .start where
  state_eq := rfl
  undumped_iff := by simp [Escaper.initial]
  accepted_eq := rfl
  index_pos := fun h => absurd rfl h

/-- A pass that ends a character. -/
private theorem iteration_accept {str : Bytes} {s : Escaper} {codePoint : UInt32}
    (hdecode : decode s.state s.codePoint (str.getD s.i 0) = (utf8Accept, codePoint)) :
    iteration str s =
      { toStringBuffer := s.piece (.scalar codePoint (str.getD s.i 0)), codePoint,
        state := utf8Accept,
        bytesAfterLastAccept := (s.piece (.scalar codePoint (str.getD s.i 0))).bytes,
        undumpedChars := 0, i := s.i + 1 } := by
  simp only [iteration, hdecode, if_pos, StringBuffer.piece]

/-- A pass that finds an error. -/
private theorem iteration_reject {str : Bytes} {s : Escaper} {codePoint : UInt32}
    (hdecode : decode s.state s.codePoint (str.getD s.i 0) = (utf8Reject, codePoint))
    (haccepted : s.bytesAfterLastAccept = s.bytes) :
    iteration str s =
      { toStringBuffer := s.piece .malformed, codePoint, state := utf8Accept,
        bytesAfterLastAccept := (s.piece .malformed).bytes, undumpedChars := 0,
        i := (if 0 < s.undumpedChars then s.i - 1 else s.i) + 1 } := by
  have hne : utf8Reject ≠ utf8Accept := by decide
  simp only [iteration, hdecode, if_neg hne, if_pos, StringBuffer.piece, haccepted]

/-- A pass inside a character. -/
private theorem iteration_begun {str : Bytes} {s : Escaper} {state : UInt8} {codePoint : UInt32}
    (hdecode : decode s.state s.codePoint (str.getD s.i 0) = (state, codePoint))
    (haccept : state ≠ utf8Accept) (hreject : state ≠ utf8Reject) :
    iteration str s =
      { s with codePoint, state, undumpedChars := s.undumpedChars + 1, i := s.i + 1 } := by
  simp only [iteration, hdecode, if_neg haccept, if_neg hreject]

/-- The step lemma: a pass reads some pieces of the rest of the text and leaves
the others. -/
theorem iteration_scan {str : Bytes} {s : Escaper} {q : State} (hreads : s.Reads q)
    (hi : s.i < str.length) :
    ∃ q' read, (iteration str s).Reads q' ∧ .truncated ∉ read ∧
      scan q s.codePoint (str.drop s.i) =
        read ++ scan q' (iteration str s).codePoint (str.drop (iteration str s).i) ∧
      (iteration str s).toStringBuffer = read.foldl StringBuffer.piece s.toStringBuffer ∧
      passesLeft str (iteration str s) q' < passesLeft str s q := by
  have hdrop : str.drop s.i = str.getD s.i 0 :: str.drop (s.i + 1) := by
    rw [List.drop_eq_getElem_cons hi, List.getD_eq_getElem?_getD, List.getElem?_eq_getElem hi]
    rfl
  have hcode := decode_stateCode q s.codePoint (str.getD s.i 0)
  rw [← hreads.state_eq] at hcode
  cases hstep : q.step (str.getD s.i 0) with
  | none =>
      rw [hstep] at hcode
      have hpass := iteration_reject (Prod.ext hcode rfl) hreads.accepted_eq
      by_cases hq : q = .start
      · -- the byte stands alone and is passed over
        have hundumped : ¬ 0 < s.undumpedChars := by
          rw [hreads.undumped_iff, not_not]
          exact hq
        rw [if_neg hundumped] at hpass
        rw [hpass]
        refine ⟨.start, [.malformed], ⟨rfl, by simp, rfl, by simp⟩, by simp, ?_, rfl, ?_⟩
        · subst hq
          rw [hdrop, Utf8.scan_refuse_start _ _ hstep]
          exact congrArg (Piece.malformed :: ·) (Utf8.scan_start _ _).symm
        · simp only [passesLeft, hq, if_pos]
          omega
      · -- the begun sequence is given up and the byte is read again
        have hpos := hreads.index_pos hq
        have hindex : s.i - 1 + 1 = s.i := by omega
        rw [if_pos (hreads.undumped_iff.mpr hq), hindex] at hpass
        rw [hpass]
        refine ⟨.start, [.malformed], ⟨rfl, by simp, rfl, by simp⟩, by simp, ?_, rfl, ?_⟩
        · rw [hdrop, Utf8.scan_refuse _ _ hq hstep, ← hdrop]
          exact congrArg (Piece.malformed :: ·) (Utf8.scan_start _ _).symm
        · simp only [passesLeft, hq, if_pos, if_neg, not_false_eq_true]
          omega
  | some q' =>
      have hpoint := decode_codePoint s.codePoint hstep
      rw [← hreads.state_eq] at hpoint
      rw [hstep] at hcode
      by_cases hq' : q' = .start
      · subst hq'
        have hpass := iteration_accept (Prod.ext hcode hpoint)
        rw [hpass]
        refine ⟨.start, [.scalar (q.value s.codePoint (str.getD s.i 0)) (str.getD s.i 0)],
          ⟨rfl, by simp, rfl, by simp⟩, by simp, ?_, rfl, ?_⟩
        · rw [hdrop, Utf8.scan_complete _ _ hstep]
          exact congrArg (_ :: ·) (Utf8.scan_start _ _).symm
        · simp only [passesLeft, if_pos]
          omega
      · have hpass := iteration_begun (Prod.ext hcode hpoint)
          (mt (stateCode_eq_accept_iff q').mp hq') (stateCode_ne_reject q')
        rw [hpass]
        refine ⟨q', [], ⟨rfl, by simp [hq'], hreads.accepted_eq, by simp⟩, by simp, ?_, rfl, ?_⟩
        · rw [hdrop, Utf8.scan_continue _ _ hstep hq']
          rfl
        · simp only [passesLeft, if_neg hq']
          omega

/-- What is left over at the end of the text: a begun sequence is cut off. -/
def leftOver (q : State) : List Piece :=
  if q = .start then [] else [.truncated]

/-- What is left over at the end. -/
theorem scan_nil (q : State) (codePoint : UInt32) : scan q codePoint [] = leftOver q := by
  by_cases hq : q = .start
  · simp [leftOver, hq]
  · rw [Utf8.scan_nil_of_ne_start hq, leftOver, if_neg hq]

/-- The run lemma: with enough passes the loop reads the whole text, and the
buffer holds what its pieces leave. -/
theorem loop_eq {str : Bytes} {passes : Nat} {s : Escaper} {q : State} (hreads : s.Reads q)
    (hpasses : passesLeft str s q ≤ passes) :
    ∃ q' read, (loop str passes s).Reads q' ∧ .truncated ∉ read ∧
      str.length ≤ (loop str passes s).i ∧
      scan q s.codePoint (str.drop s.i) = read ++ leftOver q' ∧
      (loop str passes s).toStringBuffer = read.foldl StringBuffer.piece s.toStringBuffer := by
  induction passes generalizing s q with
  | zero =>
      have hend : str.length ≤ s.i := by
        unfold passesLeft at hpasses
        omega
      refine ⟨q, [], hreads, List.not_mem_nil, hend, ?_, rfl⟩
      rw [List.drop_eq_nil_of_le hend, scan_nil, List.nil_append]
  | succ passes ih =>
      by_cases hi : s.i < str.length
      · obtain ⟨q', read, hreads', hread, hscan, hbuffer, hless⟩ := iteration_scan hreads hi
        obtain ⟨last, rest, hlast, hlater, hend, hrest, hloop⟩ := ih hreads' (by omega)
        rw [loop, if_pos hi]
        refine ⟨last, read ++ rest, hlast, by simp [hread, hlater], hend, ?_, ?_⟩
        · rw [hscan, hrest, List.append_assoc]
        · rw [hloop, hbuffer, List.foldl_append]
      · have hend : str.length ≤ s.i := by omega
        rw [loop, if_neg hi]
        refine ⟨q, [], hreads, List.not_mem_nil, hend, ?_, rfl⟩
        rw [List.drop_eq_nil_of_le hend, scan_nil, List.nil_append]

/-- The variables after the loop, by the pieces of the text. -/
theorem afterLoop_reads (out str : Bytes) :
    ∃ q read, (afterLoop out str).Reads q ∧ .truncated ∉ read ∧
      str.length ≤ (afterLoop out str).i ∧
      Utf8.pieces str = read ++ leftOver q ∧
      (afterLoop out str).toStringBuffer =
        read.foldl StringBuffer.piece (Escaper.initial out).toStringBuffer := by
  have hpasses : passesLeft str (Escaper.initial out) .start ≤ 2 * str.length := by
    simp [passesLeft, Escaper.initial]
  exact loop_eq (reads_initial out) hpasses

/-- The buffer after the loop: a sequence that is cut off leaves nothing in it. -/
theorem afterLoop_eq (out str : Bytes) :
    str.length ≤ (afterLoop out str).i ∧
      (afterLoop out str).toStringBuffer =
        (Utf8.pieces str).foldl StringBuffer.piece (Escaper.initial out).toStringBuffer := by
  obtain ⟨q, read, -, -, hend, hpieces, hbuffer⟩ := afterLoop_reads out str
  refine ⟨hend, ?_⟩
  rw [hbuffer, hpieces, List.foldl_append, leftOver]
  split
  · rfl
  · rfl

/-! ## Blocks of escapes -/

/-- The bytes of the buffer that the escape of a piece uses up. -/
def width : Piece → Nat
  | .scalar codePoint last => (escape codePoint last).text.length
  | .malformed => replacement.text.length
  | .truncated => 0

/-- The bytes that the escape of a piece stores, the NUL of {lit}`snprintf` included. -/
def reach : Piece → Nat
  | .scalar codePoint last => (escape codePoint last).stored.length
  | .malformed => replacement.stored.length
  | .truncated => 0

/-- The room that the escapes of a block need when they are written one after the
other from index 0. -/
def footprint : List Piece → Nat
  | [] => 0
  | piece :: rest => max (reach piece) (width piece + footprint rest)

/-- Only a complete code point ends a block, once at most 12 bytes are left. -/
def endsBlock (used : Nat) : Piece → Bool
  | .scalar codePoint last => stringBufferSize < used + width (.scalar codePoint last) + 13
  | _ => false

/-- The pieces cut into blocks, the first going on after some bytes used. -/
def blocks : Nat → List Piece → List (List Piece)
  | _, [] => [[]]
  | used, piece :: rest =>
      if endsBlock used piece then
        [piece] :: blocks 0 rest
      else
        (blocks (used + width piece) rest).modifyHead (piece :: ·)

/-- The escapes of every block of the text fit the buffer. -/
def FitsBuffer (str : Bytes) : Prop :=
  ∀ block ∈ blocks 0 (Utf8.pieces str), footprint block ≤ stringBufferSize

instance (str : Bytes) : Decidable (FitsBuffer str) :=
  inferInstanceAs (Decidable (∀ block ∈ blocks 0 (Utf8.pieces str), _))

/-- A piece is not wider than it reaches. -/
theorem width_le_reach (piece : Piece) : width piece ≤ reach piece := by
  cases piece with
  | scalar codePoint last =>
      cases h : escape codePoint last <;> simp [width, reach, h, Put.text, Put.stored]
  | malformed => exact le_rfl
  | truncated => exact le_rfl

/-- The length of an escape of a unit. -/
theorem hexUnit_length (unit : UInt16) : (hexUnit unit).length = 6 := rfl

/-- A bound for both branches is one for what is stored. -/
private theorem stored_ite_le {c : Prop} [Decidable c] {p p' : Put} {bound : Nat}
    (h : p.stored.length ≤ bound) (h' : p'.stored.length ≤ bound) :
    (if c then p else p').stored.length ≤ bound := by
  split
  · exact h
  · exact h'

/-- "There must be 13 bytes left": no code point stores more. -/
theorem escape_stored_le (codePoint : UInt32) (last : UInt8) :
    (escape codePoint last).stored.length ≤ 13 := by
  unfold escape
  iterate 10 refine stored_ite_le (by decide) ?_
  refine stored_ite_le (stored_ite_le ?_ ?_) ?_
  · simp [Put.stored, hexUnit_length]
  · simp [Put.stored, hexUnit_length]
  · simp [Put.stored]

/-! ## Bounds -/

/-- A piece is stored within the buffer where it fits. -/
theorem inBounds_put_iff {buffer : StringBuffer} (hbytes : buffer.bytes ≤ stringBufferSize)
    (p : Put) :
    InBounds (buffer.put p) ↔
      InBounds buffer ∧ buffer.bytes + p.stored.length ≤ stringBufferSize := by
  simp only [InBounds, StringBuffer.put, List.forall_mem_append, List.mem_range'_1]
  refine and_congr_right fun _ => ⟨fun h => ?_, fun h k hk => by omega⟩
  by_cases hlength : p.stored.length = 0
  · omega
  · have := h (buffer.bytes + p.stored.length - 1) (by omega)
    omega

/-- Flushing writes nothing into the buffer. -/
theorem inBounds_flush_iff (buffer : StringBuffer) : InBounds buffer.flush ↔ InBounds buffer := by
  unfold StringBuffer.flush InBounds
  split <;> rfl

/-- A piece keeps to the buffer exactly when its escape does. -/
theorem inBounds_piece_iff {buffer : StringBuffer} (hbytes : buffer.bytes ≤ stringBufferSize)
    (piece : Piece) :
    InBounds (buffer.piece piece) ↔
      InBounds buffer ∧ buffer.bytes + reach piece ≤ stringBufferSize := by
  cases piece with
  | scalar codePoint last =>
      rw [StringBuffer.piece, inBounds_flush_iff, inBounds_put_iff hbytes]
      rfl
  | malformed => exact inBounds_put_iff hbytes _
  | truncated => simp [StringBuffer.piece, reach, hbytes]

/-- Inside the buffer the index moves by the width, and a flush ends the block. -/
theorem bytes_piece {buffer : StringBuffer} {piece : Piece}
    (hfits : buffer.bytes + width piece ≤ stringBufferSize) :
    (buffer.piece piece).bytes =
      if endsBlock buffer.bytes piece then 0 else buffer.bytes + width piece := by
  cases piece with
  | scalar codePoint last =>
      have hleft : sizeSub stringBufferSize (buffer.put (escape codePoint last)).bytes =
          stringBufferSize - (buffer.bytes + width (.scalar codePoint last)) := by
        simp only [sizeSub, StringBuffer.put, width, stringBufferSize] at *
        omega
      simp only [StringBuffer.piece, StringBuffer.flush, hleft, endsBlock, decide_eq_true_eq]
      by_cases hend : stringBufferSize < buffer.bytes + width (.scalar codePoint last) + 13
      · rw [if_pos hend, if_pos (by omega)]
      · rw [if_neg hend, if_neg (by omega)]
        rfl
  | malformed => rfl
  | truncated => rfl

/-- A write past the end stays in the trace. -/
theorem inBounds_of_foldl {buffer : StringBuffer} {read : List Piece}
    (h : InBounds (read.foldl StringBuffer.piece buffer)) : InBounds buffer := by
  induction read generalizing buffer with
  | nil => exact h
  | cons piece rest ih =>
      have hpiece := ih h
      cases piece with
      | scalar codePoint last =>
          rw [StringBuffer.piece, inBounds_flush_iff] at hpiece
          exact fun k hk => hpiece k (List.mem_append_left _ hk)
      | malformed => exact fun k hk => hpiece k (List.mem_append_left _ hk)
      | truncated => exact hpiece

/-- The first block fits after the bytes used, every later one from index 0. -/
def BlocksFit (used : Nat) : List (List Piece) → Prop
  | [] => True
  | block :: later =>
      used + footprint block ≤ stringBufferSize ∧
        ∀ b ∈ later, footprint b ≤ stringBufferSize

/-- Blocks fit where each of them does. -/
theorem blocksFit_zero_iff (cut : List (List Piece)) :
    BlocksFit 0 cut ↔ ∀ block ∈ cut, footprint block ≤ stringBufferSize := by
  cases cut <;> simp [BlocksFit]

/-- The first piece of a block fits where the rest does behind it. -/
theorem blocksFit_modifyHead_iff {used : Nat} {piece : Piece} {cut : List (List Piece)}
    (hcut : cut ≠ []) :
    BlocksFit used (cut.modifyHead (piece :: ·)) ↔
      used + reach piece ≤ stringBufferSize ∧ BlocksFit (used + width piece) cut := by
  cases cut with
  | nil => exact absurd rfl hcut
  | cons block later =>
      simp only [List.modifyHead_cons, BlocksFit, footprint]
      rw [← and_assoc]
      exact and_congr_left fun _ => by omega

/-- There is a block at least. -/
theorem blocks_ne_nil (used : Nat) (read : List Piece) : blocks used read ≠ [] := by
  cases read with
  | nil => exact List.cons_ne_nil _ _
  | cons piece rest =>
      have ih := blocks_ne_nil (used + width piece) rest
      unfold blocks
      split
      · exact List.cons_ne_nil _ _
      · simpa using ih

/-- The bound over a whole text: it is kept exactly when the blocks fit. -/
theorem inBounds_foldl_iff {buffer : StringBuffer} (hbytes : buffer.bytes ≤ stringBufferSize)
    (read : List Piece) :
    InBounds (read.foldl StringBuffer.piece buffer) ↔
      InBounds buffer ∧ BlocksFit buffer.bytes (blocks buffer.bytes read) := by
  induction read generalizing buffer with
  | nil => simp [blocks, BlocksFit, footprint, hbytes]
  | cons piece rest ih =>
      rw [List.foldl_cons]
      have hpiece := inBounds_piece_iff hbytes piece
      have hwidth := width_le_reach piece
      by_cases hfits : buffer.bytes + reach piece ≤ stringBufferSize
      · have hroom : buffer.bytes + width piece ≤ stringBufferSize := by omega
        have hmove := bytes_piece hroom
        by_cases hend : endsBlock buffer.bytes piece
        · rw [if_pos hend] at hmove
          rw [ih (by omega), hmove, hpiece, blocks, if_pos hend, blocksFit_zero_iff]
          simp only [BlocksFit, footprint, hfits, and_true]
          exact and_congr_right fun _ => (and_iff_right (by omega)).symm
        · rw [if_neg hend] at hmove
          rw [ih (by omega), hmove, hpiece, blocks, if_neg hend,
            blocksFit_modifyHead_iff (blocks_ne_nil _ _)]
          simp only [hfits, and_true, true_and]
      · -- neither side survives a piece that does not fit
        refine iff_of_false (fun h => hfits (hpiece.mp (inBounds_of_foldl h)).2) ?_
        rintro ⟨-, h⟩
        rw [blocks] at h
        split at h
        · simp only [BlocksFit, footprint] at h
          omega
        · exact hfits ((blocksFit_modifyHead_iff (blocks_ne_nil _ _)).mp h).1

/-- All passes write within the buffer where the text fits. -/
theorem inBounds_afterLoop_iff (out str : Bytes) :
    InBounds (afterLoop out str).toStringBuffer ↔ FitsBuffer str := by
  have hzero : (Escaper.initial out).bytes = 0 := rfl
  rw [(afterLoop_eq out str).2, inBounds_foldl_iff (by rw [hzero]; exact Nat.zero_le _), hzero,
    blocksFit_zero_iff]
  exact and_iff_right (by simp [InBounds, Escaper.initial])

/-- Nothing is written past the buffer, over all passes of the loop, exactly when
the escapes of every block of the text fit it. -/
theorem stringBuffer_inBounds_iff (out str : Bytes) :
    str.length ≤ (afterLoop out str).i ∧
      ((∀ k ∈ (afterLoop out str).written, k < 512) ↔ FitsBuffer str) :=
  ⟨(afterLoop_eq out str).1, inBounds_afterLoop_iff out str⟩

/-- Eighty-six bytes that no text contains overrun the buffer. -/
theorem stringBuffer_overrun :
    ¬ ∀ out str : Bytes, ∀ k ∈ (afterLoop out str).written, k < 512 := by
  intro h
  exact absurd (h [] (List.replicate 86 0xFF) 512) (by decide +kernel)

/-- The dump overruns where the text does not fit. -/
theorem dumpEscaped_overrun_iff (out str : Bytes) :
    dumpEscaped out str = none ↔ ¬ FitsBuffer str := by
  rw [← inBounds_afterLoop_iff out str]
  unfold dumpEscaped
  dsimp only
  split_ifs <;> simp_all

/-! ## Valid texts -/

/-- A text without malformed parts never meets a full buffer. -/
theorem blocksFit_of_scalar {read : List Piece}
    (hscalar : ∀ piece ∈ read, ∃ c b, piece = Piece.scalar c b) {used : Nat}
    (hused : used + 13 ≤ stringBufferSize) : BlocksFit used (blocks used read) := by
  induction read generalizing used with
  | nil => simp only [blocks, BlocksFit, footprint]; exact ⟨by omega, by simp⟩
  | cons piece rest ih =>
      obtain ⟨c, b, hpiece⟩ := hscalar piece (List.mem_cons_self ..)
      have hrest : ∀ piece ∈ rest, ∃ c b, piece = Piece.scalar c b :=
        fun piece hmem => hscalar piece (List.mem_cons_of_mem _ hmem)
      have hreach : reach piece ≤ 13 := by
        rw [hpiece]
        exact escape_stored_le c b
      have hwidth := width_le_reach piece
      rw [blocks]
      by_cases hend : endsBlock used piece
      · rw [if_pos hend]
        refine ⟨?_, (blocksFit_zero_iff _).mp (ih hrest (by decide))⟩
        simp only [footprint]
        omega
      · rw [if_neg hend, blocksFit_modifyHead_iff (blocks_ne_nil _ _)]
        have hroom : used + width piece + 13 ≤ stringBufferSize := by
          rw [hpiece] at hend ⊢
          simp only [endsBlock, decide_eq_true_eq, not_lt] at hend
          exact hend
        exact ⟨by omega, ih hrest hroom⟩

/-- A valid text fits. -/
theorem fitsBuffer_of_valid {str : Bytes} (hvalid : Utf8.Valid str) : FitsBuffer str :=
  (blocksFit_zero_iff _).mp (blocksFit_of_scalar (fun _ => hvalid.scalar_of_mem_pieces) (by decide))

end Redfish
end ObmcWebapp
