import Mathlib.Tactic.IntervalCases
import ObmcWebapp.Library.Utf8Chars

/-!
# Redfish - The UTF-8 decoder of the HTML printer

The HTML printer reads strings byte by byte through the table-driven decoder
{lit}`decode`.  This module gives the decoder with its table and connects it to
the automaton of {lit}`Library.Utf8`: the table states are codes of the
automaton's states, and the payload bits agree.

Main results:

- Theorem {lit}`decode_stateCode`: one call of {lit}`decode` is one step of the
  automaton.
- Theorem {lit}`decodeText_spec`: which texts the decoder accepts, which code points
  it leaves, and that it keeps to its table.
-/

open Library
open Library.Utf8 (State)

namespace ObmcWebapp
namespace Redfish

/-! ## The decoder -/

/-- The state after a character. -/
def utf8Accept : UInt8 := 0

/-- The state after an error. -/
def utf8Reject : UInt8 := 1

/-- The classes of the 256 bytes, then the transitions of the nine states. -/
def utf8d : List UInt8 := [
  0, 0, 0, 0, 0, 0, 0, 0, 0, 0, 0, 0, 0, 0, 0, 0, 0, 0, 0, 0, 0, 0, 0, 0, 0, 0, 0, 0, 0, 0, 0, 0, -- 00..1F
  0, 0, 0, 0, 0, 0, 0, 0, 0, 0, 0, 0, 0, 0, 0, 0, 0, 0, 0, 0, 0, 0, 0, 0, 0, 0, 0, 0, 0, 0, 0, 0, -- 20..3F
  0, 0, 0, 0, 0, 0, 0, 0, 0, 0, 0, 0, 0, 0, 0, 0, 0, 0, 0, 0, 0, 0, 0, 0, 0, 0, 0, 0, 0, 0, 0, 0, -- 40..5F
  0, 0, 0, 0, 0, 0, 0, 0, 0, 0, 0, 0, 0, 0, 0, 0, 0, 0, 0, 0, 0, 0, 0, 0, 0, 0, 0, 0, 0, 0, 0, 0, -- 60..7F
  1, 1, 1, 1, 1, 1, 1, 1, 1, 1, 1, 1, 1, 1, 1, 1, 9, 9, 9, 9, 9, 9, 9, 9, 9, 9, 9, 9, 9, 9, 9, 9, -- 80..9F
  7, 7, 7, 7, 7, 7, 7, 7, 7, 7, 7, 7, 7, 7, 7, 7, 7, 7, 7, 7, 7, 7, 7, 7, 7, 7, 7, 7, 7, 7, 7, 7, -- A0..BF
  8, 8, 2, 2, 2, 2, 2, 2, 2, 2, 2, 2, 2, 2, 2, 2, 2, 2, 2, 2, 2, 2, 2, 2, 2, 2, 2, 2, 2, 2, 2, 2, -- C0..DF
  0xA, 0x3, 0x3, 0x3, 0x3, 0x3, 0x3, 0x3, 0x3, 0x3, 0x3, 0x3, 0x3, 0x4, 0x3, 0x3, -- E0..EF
  0xB, 0x6, 0x6, 0x6, 0x5, 0x8, 0x8, 0x8, 0x8, 0x8, 0x8, 0x8, 0x8, 0x8, 0x8, 0x8, -- F0..FF
  0x0, 0x1, 0x2, 0x3, 0x5, 0x8, 0x7, 0x1, 0x1, 0x1, 0x4, 0x6, 0x1, 0x1, 0x1, 0x1, -- s0..s0
  1, 1, 1, 1, 1, 1, 1, 1, 1, 1, 1, 1, 1, 1, 1, 1, 1, 0, 1, 1, 1, 1, 1, 0, 1, 0, 1, 1, 1, 1, 1, 1, -- s1..s2
  1, 2, 1, 1, 1, 1, 1, 2, 1, 2, 1, 1, 1, 1, 1, 1, 1, 1, 1, 1, 1, 1, 1, 2, 1, 1, 1, 1, 1, 1, 1, 1, -- s3..s4
  1, 2, 1, 1, 1, 1, 1, 1, 1, 2, 1, 1, 1, 1, 1, 1, 1, 1, 1, 1, 1, 1, 1, 3, 1, 3, 1, 1, 1, 1, 1, 1, -- s5..s6
  1, 3, 1, 1, 1, 1, 1, 3, 1, 3, 1, 1, 1, 1, 1, 1, 1, 3, 1, 1, 1, 1, 1, 1, 1, 1, 1, 1, 1, 1, 1, 1] -- s7..s8

/-- One byte of the table; the array has 400 entries. -/
def utf8dAt (index : Nat) : UInt8 :=
  utf8d.getD index 0

/-- {lit}`decode(state, codePoint, byte)`: the new state and code point.  A state
past the table is returned as it is. -/
def decode (state : UInt8) (codePoint : UInt32) (byte : UInt8) : UInt8 × UInt32 :=
  if 0x8 < state then
    (state, codePoint)
  else
    let type := utf8dAt byte.toNat
    let codePoint :=
      if state ≠ utf8Accept then
        (byte.toUInt32 &&& (0x3F : UInt32)) ||| (codePoint <<< 6)
      else
        ((0xFF : UInt32) >>> type.toUInt32) &&& byte.toUInt32
    (utf8dAt (256 + state.toNat * 16 + type.toNat), codePoint)

/-! ## The table is the automaton -/

/-- The table's number for a state of the automaton. -/
def stateCode : State → UInt8
  | .start => 0
  | .tail1 => 2
  | .tail2 => 3
  | .afterE0 => 4
  | .afterED => 5
  | .afterF0 => 6
  | .tail3 => 7
  | .afterF4 => 8

/-- The code of the start is the accepted state. -/
theorem stateCode_eq_accept_iff (q : State) : stateCode q = utf8Accept ↔ q = .start := by
  cases q <;> decide

/-- No state has the code of an error. -/
theorem stateCode_ne_reject (q : State) : stateCode q ≠ utf8Reject := by
  cases q <;> decide

/-- The table's answer for a step of the automaton, a refusal being {lit}`utf8Reject`. -/
def stepCode : Option State → UInt8
  | some q => stateCode q
  | none => utf8Reject

/-- The class that the first half of the table gives a byte. -/
def byteClass (b : UInt8) : UInt8 :=
  if b ≤ 0x7F then 0x0
  else if b ≤ 0x8F then 0x1
  else if b ≤ 0x9F then 0x9
  else if b ≤ 0xBF then 0x7
  else if b < 0xC2 then 0x8
  else if b ≤ 0xDF then 0x2
  else if b = 0xE0 then 0xA
  else if b = 0xED then 0x4
  else if b ≤ 0xEF then 0x3
  else if b = 0xF0 then 0xB
  else if b ≤ 0xF3 then 0x6
  else if b = 0xF4 then 0x5
  else 0x8

/-- The row that the second half of the table gives a state, by byte class. -/
def stateRow : State → List UInt8
  | .start => [0, 1, 2, 3, 5, 8, 7, 1, 1, 1, 4, 6]
  | .tail1 => [1, 0, 1, 1, 1, 1, 1, 0, 1, 0, 1, 1]
  | .tail2 => [1, 2, 1, 1, 1, 1, 1, 2, 1, 2, 1, 1]
  | .afterE0 => [1, 1, 1, 1, 1, 1, 1, 2, 1, 1, 1, 1]
  | .afterED => [1, 2, 1, 1, 1, 1, 1, 1, 1, 2, 1, 1]
  | .afterF0 => [1, 1, 1, 1, 1, 1, 1, 3, 1, 3, 1, 1]
  | .tail3 => [1, 3, 1, 1, 1, 1, 1, 3, 1, 3, 1, 1]
  | .afterF4 => [1, 3, 1, 1, 1, 1, 1, 1, 1, 1, 1, 1]

/-- The states of the table, in the order of its rows. -/
private def states : List State :=
  [.start, .tail1, .tail2, .afterE0, .afterED, .afterF0, .tail3, .afterF4]

/-- All states are listed. -/
private theorem mem_states (q : State) : q ∈ states := by
  cases q <;> simp [states]

/-- What is checked of every byte: its class, and the steps that its class leads to. -/
private theorem class_checked (b : UInt8) :
    utf8dAt b.toNat = byteClass b ∧ (byteClass b).toNat < 12 ∧
      ((Utf8.first b).isSome →
        ((0xFF : UInt32) >>> (byteClass b).toUInt32) &&& b.toUInt32 = Utf8.lead b) ∧
      ∀ q ∈ states, (stateRow q).getD (byteClass b).toNat 0 = stepCode (q.step b) := by
  revert b
  apply Utf8.forall_byte
  decide +kernel

/-- What is checked of the table: its length, the rows of the states, and that the row of
the refused state does not leave it. -/
private theorem rows_checked :
    utf8d.length = 400 ∧ ∀ c : Fin 12,
      (∀ q ∈ states, utf8dAt (256 + (stateCode q).toNat * 16 + c) = (stateRow q).getD c 0) ∧
        utf8dAt (256 + utf8Reject.toNat * 16 + c) = utf8Reject := by
  decide +kernel

/-- The first half of the table has the classes of the bytes. -/
private theorem table_class (b : UInt8) : utf8dAt b.toNat = byteClass b :=
  (class_checked b).1

/-- There are twelve classes. -/
theorem byteClass_lt (b : UInt8) : (byteClass b).toNat < 12 :=
  (class_checked b).2.1

/-- The second half of the table has the transitions. -/
private theorem table_transition (q : State) (b : UInt8) :
    utf8dAt (256 + (stateCode q).toNat * 16 + (utf8dAt b.toNat).toNat) = stepCode (q.step b) := by
  rw [table_class, ← (class_checked b).2.2.2 q (mem_states q)]
  exact (rows_checked.2 ⟨(byteClass b).toNat, byteClass_lt b⟩).1 q (mem_states q)

/-- The class of a first byte tells its bits. -/
private theorem table_payload (b : UInt8) (hfirst : (Utf8.first b).isSome) :
    ((0xFF : UInt32) >>> (utf8dAt b.toNat).toUInt32) &&& b.toUInt32 = Utf8.lead b := by
  rw [table_class]
  exact (class_checked b).2.2.1 hfirst

/-- The state part of one call: one step of the automaton. -/
theorem decode_stateCode (q : State) (codePoint : UInt32) (b : UInt8) :
    (decode (stateCode q) codePoint b).1 = stepCode (q.step b) := by
  have hrange : ¬ (0x8 : UInt8) < stateCode q := by cases q <;> decide
  simp only [decode, if_neg hrange]
  exact table_transition q b

/-- The payload part of one call, where the byte is not refused. -/
theorem decode_codePoint {q q' : State} (codePoint : UInt32) {b : UInt8}
    (hstep : q.step b = some q') :
    (decode (stateCode q) codePoint b).2 = q.value codePoint b := by
  have hrange : ¬ (0x8 : UInt8) < stateCode q := by cases q <;> decide
  simp only [decode, if_neg hrange, State.value]
  by_cases hq : q = .start
  · subst hq
    have hfirst : (Utf8.first b).isSome := by
      rw [show Utf8.first b = some q' from hstep]
      rfl
    simpa [stateCode, utf8Accept] using table_payload b hfirst
  · have hcode : stateCode q ≠ utf8Accept := mt (stateCode_eq_accept_iff q).mp hq
    rw [if_pos hcode, if_neg hq]

/-! ## Whole texts -/

/-- {lit}`decode` with the subscripts of its table checked. -/
def decodeChecked (state : UInt8) (codePoint : UInt32) (byte : UInt8) :
    Option (UInt8 × UInt32) :=
  if 0x8 < state then
    some (state, codePoint)
  else do
    let type ← utf8d[byte.toNat]?
    let codePoint :=
      if state ≠ utf8Accept then
        (byte.toUInt32 &&& (0x3F : UInt32)) ||| (codePoint <<< 6)
      else
        ((0xFF : UInt32) >>> type.toUInt32) &&& byte.toUInt32
    let state ← utf8d[256 + state.toNat * 16 + type.toNat]?
    some (state, codePoint)

/-- The state and the code point after the bytes of a text. -/
def decodeText (start : UInt8 × UInt32) (text : Bytes) : UInt8 × UInt32 :=
  text.foldl (fun s byte => decode s.1 s.2 byte) start

/-- The size of the table. -/
theorem utf8d_length : utf8d.length = 400 :=
  rows_checked.1

/-- The table is read within its size. -/
private theorem getElem?_utf8d {index : Nat} (h : index < 400) :
    utf8d[index]? = some (utf8dAt index) := by
  rw [utf8dAt, List.getD_eq_getElem?_getD, List.getElem?_eq_getElem (by rwa [utf8d_length])]
  rfl

/-- In a state of the table no subscript leaves it. -/
theorem decodeChecked_eq (state : UInt8) (codePoint : UInt32) (byte : UInt8) :
    decodeChecked state codePoint byte = some (decode state codePoint byte) := by
  unfold decodeChecked decode
  by_cases hrange : 0x8 < state
  · rw [if_pos hrange, if_pos hrange]
  · have hstate : state.toNat ≤ 8 := by simpa [UInt8.lt_iff_toNat_lt] using hrange
    have hbyte := byte.toNat_lt
    have htype := byteClass_lt byte
    rw [← table_class] at htype
    rw [if_neg hrange, if_neg hrange, getElem?_utf8d (by omega), Option.bind_eq_bind,
      Option.bind_some, getElem?_utf8d (by omega)]
    rfl

/-- After an error nothing is accepted. -/
theorem decode_reject (codePoint : UInt32) (byte : UInt8) :
    (decode utf8Reject codePoint byte).1 = utf8Reject := by
  have hrange : ¬ (0x8 : UInt8) < utf8Reject := by decide
  simp only [decode, if_neg hrange]
  rw [table_class]
  exact (rows_checked.2 ⟨(byteClass byte).toNat, byteClass_lt byte⟩).2

/-- The first byte is decoded first. -/
theorem decodeText_cons (start : UInt8 × UInt32) (byte : UInt8) (rest : Bytes) :
    decodeText start (byte :: rest) = decodeText (decode start.1 start.2 byte) rest := rfl

/-- A text may be decoded in two parts. -/
theorem decodeText_append (start : UInt8 × UInt32) (read rest : Bytes) :
    decodeText start (read ++ rest) = decodeText (decodeText start read) rest :=
  List.foldl_append

/-- After an error no text is accepted. -/
theorem decodeText_reject (codePoint : UInt32) (text : Bytes) :
    (decodeText (utf8Reject, codePoint) text).1 = utf8Reject := by
  induction text generalizing codePoint with
  | nil => rfl
  | cons b bs ih =>
      have hstep : decode utf8Reject codePoint b =
          (utf8Reject, (decode utf8Reject codePoint b).2) :=
        Prod.ext (decode_reject codePoint b) rfl
      rw [decodeText_cons, hstep]
      exact ih _

/-- The run lemma: the state after a text is the automaton's. -/
theorem decodeText_stateCode (q : State) (codePoint : UInt32) (text : Bytes) :
    (decodeText (stateCode q, codePoint) text).1 = stepCode (Utf8.run q text) := by
  induction text generalizing q codePoint with
  | nil => rfl
  | cons b bs ih =>
      have hstep : decode (stateCode q) codePoint b =
          (stepCode (q.step b), (decode (stateCode q) codePoint b).2) :=
        Prod.ext (decode_stateCode q codePoint b) rfl
      rw [decodeText_cons, hstep]
      cases hnext : q.step b with
      | none => simpa [Utf8.run, hnext, stepCode] using decodeText_reject _ bs
      | some q' => simpa [Utf8.run, hnext, stepCode] using ih q' _

/-- What it means for a byte to be accepted. -/
theorem stepCode_eq_accept_iff (next : Option State) :
    stepCode next = utf8Accept ↔ next = some .start := by
  cases next with
  | none => decide
  | some q => simp [stepCode, stateCode_eq_accept_iff]

/-- A text is accepted if and only if it is valid. -/
theorem decodeText_accept_iff (codePoint : UInt32) (text : Bytes) :
    (decodeText (utf8Accept, codePoint) text).1 = utf8Accept ↔ Utf8.Valid text := by
  rw [show utf8Accept = stateCode .start from rfl, decodeText_stateCode]
  exact stepCode_eq_accept_iff _

/-- One sequence of the automaton leaves its value. -/
theorem decodeText_spells {q : State} {codePoint value : UInt32} {text : Bytes} {last : UInt8}
    (h : Utf8.Spells q codePoint text value last) :
    decodeText (stateCode q, codePoint) text = (utf8Accept, value) := by
  induction h with
  | complete hstep =>
      refine Prod.ext ?_ (decode_codePoint _ hstep)
      exact (decode_stateCode _ _ _).trans (by rw [hstep]; rfl)
  | @more q q' codePoint value b last text hstep _ _ ih =>
      have hread : decode (stateCode q) codePoint b = (stateCode q', q.value codePoint b) := by
        refine Prod.ext ?_ (decode_codePoint _ hstep)
        exact (decode_stateCode _ _ _).trans (by rw [hstep]; rfl)
      rw [decodeText_cons, hread]
      exact ih

/-- After a text of characters the code point is the last character. -/
theorem decodeText_encode (codePoint : UInt32) (chars : List Char) (c : Char) :
    decodeText (utf8Accept, codePoint) (Utf8.encode (chars ++ [c])) = (utf8Accept, c.val) := by
  have hbefore : decodeText (utf8Accept, codePoint) (Utf8.encode chars) =
      (stateCode .start, (decodeText (utf8Accept, codePoint) (Utf8.encode chars)).2) :=
    Prod.ext ((decodeText_accept_iff codePoint _).mpr (Utf8.valid_encode chars)) rfl
  rw [Utf8.encode_append, decodeText_append, hbefore, Utf8.encode_cons, Utf8.encode_nil,
    List.append_nil]
  exact decodeText_spells (Utf8.spells_encodeChar _ c)

/-- From the accept state the decoder ends in the accept state, without passing through
reject, exactly on the texts of characters; at each return the code point is the
character just read, and no subscript leaves the table. -/
theorem decodeText_spec (codePoint : UInt32) (text : Bytes) :
    ((decodeText (utf8Accept, codePoint) text).1 = utf8Accept ∧
        (∀ read, read <+: text →
          (decodeText (utf8Accept, codePoint) read).1 ≠ utf8Reject) ↔
      ∃ chars : List Char, text = chars.flatMap String.utf8EncodeChar) ∧
    (∀ read, read <+: text → read ≠ [] →
      (decodeText (utf8Accept, codePoint) read).1 = utf8Accept →
      ∃ chars c, read = (chars ++ [c]).flatMap String.utf8EncodeChar ∧
        (decodeText (utf8Accept, codePoint) read).2 = c.val) ∧
    (∀ read byte, read ++ [byte] <+: text →
      let s := decodeText (utf8Accept, codePoint) read
      decodeChecked s.1 s.2 byte = some (decode s.1 s.2 byte)) := by
  refine ⟨?_, ?_, fun read byte _ => decodeChecked_eq _ _ byte⟩
  · rw [decodeText_accept_iff]
    refine (and_iff_left_of_imp ?_).trans Utf8.valid_iff_encode
    -- reject is never left again
    intro hvalid read hprefix hreject
    obtain ⟨rest, rfl⟩ := hprefix
    have hread : decodeText (utf8Accept, codePoint) read =
        (utf8Reject, (decodeText (utf8Accept, codePoint) read).2) := Prod.ext hreject rfl
    have haccept := (decodeText_accept_iff codePoint _).mpr hvalid
    rw [decodeText_append, hread, decodeText_reject] at haccept
    exact absurd haccept (by decide)
  · intro read _ hne haccept
    obtain ⟨all, rfl⟩ := Utf8.valid_iff_encode.mp ((decodeText_accept_iff codePoint read).mp haccept)
    obtain rfl | ⟨chars, c, rfl⟩ := List.eq_nil_or_concat' all
    · exact absurd rfl hne
    · exact ⟨chars, c, rfl, congrArg Prod.snd (decodeText_encode codePoint chars c)⟩

end Redfish
end ObmcWebapp
