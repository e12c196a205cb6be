import Mathlib.Algebra.Group.Int.Defs
import Mathlib.Algebra.Group.Nat.Defs
import Mathlib.Data.List.Basic
import Mathlib.Tactic.Common

/-!
# Library - UTF-8 as a byte automaton

A text is a list of bytes.  This module fixes the automaton of well-formed UTF-8
(one to four bytes a code point, no overlong form, no surrogate, nothing above
{lit}`0x10FFFF`), what it means for a text to be valid, and how any text, valid
or not, falls into pieces: the code points it spells and the maximal malformed
parts between them.

Main results:

- Theorem {lit}`valid_append_iff`: after a valid prefix a text is valid exactly
  when the rest is.
- Theorem {lit}`scan_scalar_of_run`: a text the automaton accepts falls into code
  points only.
-/

namespace Library

/-- A text as the program stores it: a sequence of bytes. -/
abbrev Bytes := List UInt8

instance : LawfulBEq Bytes :=
  inferInstance

/-- The bytes of an ASCII literal. -/
def bytes (text : String) : Bytes :=
  text.toList.map fun c => UInt8.ofNat c.toNat

namespace Utf8

/-- A statement about every byte is checked on the 256 numbers below 256. -/
theorem forall_byte {P : UInt8 → Prop} (h : ∀ n : Fin 256, P (UInt8.ofNat n)) (b : UInt8) :
    P b := by
  have hb := h ⟨b.toNat, b.toNat_lt⟩
  simpa using hb

/-! ## The automaton -/

/-- Where a decoder stands between two bytes: between code points, owing a number
of continuation bytes, or after a lead byte that narrows the next one. -/
inductive State
  | start
  | tail1
  | tail2
  | tail3
  | afterE0
  | afterED
  | afterF0
  | afterF4
deriving DecidableEq

/-- The state after the first byte of a code point. -/
def first (b : UInt8) : Option State :=
  if b ≤ 0x7F then some .start
  else if b < 0xC2 then none
  else if b ≤ 0xDF then some .tail1
  else if b = 0xE0 then some .afterE0
  else if b = 0xED then some .afterED
  else if b ≤ 0xEF then some .tail2
  else if b = 0xF0 then some .afterF0
  else if b ≤ 0xF3 then some .tail3
  else if b = 0xF4 then some .afterF4
  else none

/-- A continuation byte between two bounds leads on; any other byte is refused. -/
def within (low high b : UInt8) (next : State) : Option State :=
  if low ≤ b ∧ b ≤ high then some next else none

/-- One byte of input; {lean}`none` where no well-formed text goes on like this. -/
def State.step : State → UInt8 → Option State
  | .start, b => first b
  | .tail1, b => within 0x80 0xBF b .start
  | .tail2, b => within 0x80 0xBF b .tail1
  | .tail3, b => within 0x80 0xBF b .tail2
  | .afterE0, b => within 0xA0 0xBF b .tail1
  | .afterED, b => within 0x80 0x9F b .tail1
  | .afterF0, b => within 0x90 0xBF b .tail2
  | .afterF4, b => within 0x80 0x8F b .tail2

/-- The first byte decides on the state. -/
theorem step_start (b : UInt8) : State.start.step b = first b := rfl

/-- The state after a whole text, {lean}`none` once a byte was refused. -/
def run : State → Bytes → Option State
  | q, [] => some q
  | q, b :: bs => (q.step b).bind fun q' => run q' bs

/-- A text is valid when it is a sequence of whole code points. -/
def Valid (text : Bytes) : Prop :=
  run .start text = some .start

instance (text : Bytes) : Decidable (Valid text) :=
  inferInstanceAs (Decidable (run .start text = some .start))

/-- A text may be read in two parts. -/
theorem run_append (q : State) (left right : Bytes) :
    run q (left ++ right) = (run q left).bind fun q' => run q' right := by
  induction left generalizing q with
  | nil => rfl
  | cons b bs ih =>
      simp only [List.cons_append, run]
      cases q.step b with
      | none => rfl
      | some q' => exact ih q'

/-- The empty text is valid. -/
@[simp] theorem valid_nil : Valid [] := rfl

/-- After a valid prefix the automaton is back between code points. -/
theorem valid_append_iff {left : Bytes} (hleft : Valid left) (right : Bytes) :
    Valid (left ++ right) ↔ Valid right := by
  unfold Valid at *
  rw [run_append, hleft]
  rfl

/-- Two valid texts are one. -/
theorem Valid.append {left right : Bytes} (hleft : Valid left) (hright : Valid right) :
    Valid (left ++ right) :=
  (valid_append_iff hleft right).mpr hright

/-- ASCII is valid. -/
theorem valid_of_ascii {text : Bytes} (h : ∀ b ∈ text, b ≤ 0x7F) : Valid text := by
  unfold Valid
  induction text with
  | nil => rfl
  | cons b bs ih =>
      obtain ⟨hb, hbs⟩ := List.forall_mem_cons.mp h
      rw [run, step_start, first, if_pos hb]
      exact ih hbs

/-- A state that owes a continuation byte refuses every ASCII byte. -/
theorem step_ascii_of_ne_start {q : State} (hq : q ≠ .start) {b : UInt8} (hb : b ≤ 0x7F) :
    q.step b = none := by
  have hlow : b.toNat ≤ 0x7F := hb
  cases q <;> first
    | exact absurd rfl hq
    | (simp only [State.step, within, UInt8.le_iff_toNat_le]
       rw [if_neg]
       rintro ⟨h, -⟩
       have := Nat.le_trans h hlow
       revert this
       decide)

/-- A valid text that goes on with an ASCII byte is valid up to that byte. -/
theorem valid_of_append_ascii {left right : Bytes} {b : UInt8} (hb : b ≤ 0x7F)
    (h : Valid (left ++ b :: right)) : Valid left := by
  unfold Valid at *
  rw [run_append] at h
  cases hrun : run .start left with
  | none => simp [hrun] at h
  | some q =>
      by_cases hq : q = .start
      · rw [hq]
      · simp [hrun, run, step_ascii_of_ne_start hq hb] at h

/-! ## Pieces of any text -/

/-- What a decoder makes of a text that need not be valid: a code point with the
byte that completes it, a malformed part that stands for one replacement
character, or a sequence that the end of the text cuts off. -/
inductive Piece
  | scalar (codePoint : UInt32) (last : UInt8)
  | malformed
  | truncated
deriving DecidableEq

/-- The payload bits of a lead byte. -/
def lead (b : UInt8) : UInt32 :=
  if b ≤ 0x7F then b.toUInt32
  else if b ≤ 0xDF then b.toUInt32 &&& (0x1F : UInt32)
  else if b ≤ 0xEF then b.toUInt32 &&& (0x0F : UInt32)
  else b.toUInt32 &&& (0x07 : UInt32)

/-- The code point read so far, with one more byte. -/
def State.value (q : State) (codePoint : UInt32) (b : UInt8) : UInt32 :=
  if q = .start then lead b else (b.toUInt32 &&& (0x3F : UInt32)) ||| (codePoint <<< 6)

/-- The pieces of a text, read from a state with the payload read so far.  A byte
that a begun sequence refuses ends that sequence and is read again as a first
byte. -/
def scan : State → UInt32 → Bytes → List Piece
  | q, _, [] => if q = .start then [] else [.truncated]
  | q, codePoint, b :: bs =>
      match q.step b with
      | some .start => .scalar (q.value codePoint b) b :: scan .start 0 bs
      | some q' => scan q' (q.value codePoint b) bs
      | none =>
          if q = .start then
            .malformed :: scan .start 0 bs
          else
            match first b with
            | none => .malformed :: .malformed :: scan .start 0 bs
            | some .start => .malformed :: .scalar (lead b) b :: scan .start 0 bs
            | some q' => .malformed :: scan q' (lead b) bs

/-- The pieces of a whole text. -/
def pieces (text : Bytes) : List Piece :=
  scan .start 0 text

/-- Nothing is read from nothing. -/
@[simp]
theorem scan_start_nil (codePoint : UInt32) : scan .start codePoint [] = [] := rfl

/-- A text that ends inside a character is truncated. -/
theorem scan_nil_of_ne_start {q : State} (hq : q ≠ .start) (codePoint : UInt32) :
    scan q codePoint [] = [.truncated] := by
  simp [scan, hq]

/-- Between code points there is no payload to remember. -/
theorem scan_start (codePoint : UInt32) (text : Bytes) :
    scan .start codePoint text = scan .start 0 text := by
  cases text with
  | nil => rfl
  | cons b bs => rfl

/-- A byte that completes a code point. -/
theorem scan_complete {q : State} (codePoint : UInt32) {b : UInt8} (bs : Bytes)
    (hstep : q.step b = some .start) :
    scan q codePoint (b :: bs) = .scalar (q.value codePoint b) b :: scan .start 0 bs := by
  simp only [scan, hstep]

/-- A byte that leads further into a sequence. -/
theorem scan_continue {q q' : State} (codePoint : UInt32) {b : UInt8} (bs : Bytes)
    (hstep : q.step b = some q') (hq' : q' ≠ .start) :
    scan q codePoint (b :: bs) = scan q' (q.value codePoint b) bs := by
  simp only [scan, hstep]

/-- A byte refused between code points is a malformed part of its own. -/
theorem scan_refuse_start (codePoint : UInt32) {b : UInt8} (bs : Bytes)
    (hstep : State.start.step b = none) :
    scan .start codePoint (b :: bs) = .malformed :: scan .start 0 bs := by
  simp only [scan, hstep, if_pos]

/-- A byte refused inside a sequence ends the sequence and is read again. -/
theorem scan_refuse {q : State} (codePoint : UInt32) {b : UInt8} (bs : Bytes)
    (hq : q ≠ .start) (hstep : q.step b = none) :
    scan q codePoint (b :: bs) = .malformed :: scan .start 0 (b :: bs) := by
  have hvalue : State.value .start 0 b = lead b := rfl
  cases hfirst : first b with
  | none => simp only [scan, hstep, if_neg hq, step_start, hfirst, if_pos]
  | some q' =>
      by_cases hq' : q' = .start
      · subst hq'
        simp only [scan, hstep, if_neg hq, step_start, hfirst, hvalue]
      · rw [scan_continue 0 bs (show State.start.step b = some q' from hfirst) hq', hvalue]
        simp only [scan, hstep, if_neg hq, hfirst]

/-- A text that the automaton takes back between code points has no malformed and
no cut-off part. -/
theorem scan_scalar_of_run {q : State} {codePoint : UInt32} {text : Bytes}
    (h : run q text = some .start) {piece : Piece} (hmem : piece ∈ scan q codePoint text) :
    ∃ c b, piece = .scalar c b := by
  induction text generalizing q codePoint with
  | nil =>
      have hq : q = .start := by simpa [run] using h
      simp [scan, hq] at hmem
  | cons b bs ih =>
      cases hstep : q.step b with
      | none => simp [run, hstep] at h
      | some q' =>
          have hrest : run q' bs = some .start := by simpa [run, hstep] using h
          by_cases hq' : q' = .start
          · subst hq'
            rw [scan_complete codePoint bs hstep, List.mem_cons] at hmem
            rcases hmem with rfl | hmem
            · exact ⟨_, _, rfl⟩
            · exact ih hrest hmem
          · rw [scan_continue codePoint bs hstep hq'] at hmem
            exact ih hrest hmem

/-- A valid text falls into code points only. -/
theorem Valid.scalar_of_mem_pieces {text : Bytes} (h : Valid text) {piece : Piece}
    (hmem : piece ∈ pieces text) : ∃ c b, piece = .scalar c b :=
  scan_scalar_of_run h hmem

end Utf8
end Library
