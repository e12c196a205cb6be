import ObmcWebapp.Library.Numerals

/-!
# Library - HTTP messages

A start line, header fields and a body, as text and back.  Every line ends with a
carriage return and a line feed, an empty line ends the fields, and the body is all that
follows.  The reader is strict: a carriage return or a line feed within a line is refused,
and so is a field without a name or without a space after its colon.

Main results:

- Theorem {lit}`readLine_eq_some_iff`: what the first line of a text is.
- Theorem {lit}`read_eq_some_iff`: a text is read as a message exactly where the message is
  well-formed and the text is its own.
-/

namespace Library
namespace HttpMessage

open Numerals

/-! ## Lines -/

/-- The end of a line. -/
def crlf : Bytes := [0x0D, 0x0A]

/-- Neither a carriage return nor a line feed. -/
def OneLine (text : Bytes) : Prop :=
  ∀ c ∈ text, c ≠ 0x0D ∧ c ≠ 0x0A

instance (text : Bytes) : Decidable (OneLine text) :=
  List.decidableBAll (fun c => c ≠ 0x0D ∧ c ≠ 0x0A) text

/-- The first line of a text, and what follows its end. -/
def readLine : Bytes → Option (Bytes × Bytes)
  | 0x0D :: 0x0A :: rest => some ([], rest)
  | c :: rest =>
      if c = 0x0D ∨ c = 0x0A then none
      else (readLine rest).map fun (line, rest) => (c :: line, rest)
  | [] => none

/-- Two parts of a line are one. -/
theorem OneLine.append {first second : Bytes} (hfirst : OneLine first) (hsecond : OneLine second) :
    OneLine (first ++ second) := by
  intro c hmem
  rcases List.mem_append.mp hmem with hmem | hmem
  · exact hfirst c hmem
  · exact hsecond c hmem

/-- A line has no end in it. -/
theorem oneLine_cons {c : UInt8} {text : Bytes} :
    OneLine (c :: text) ↔ (c ≠ 0x0D ∧ c ≠ 0x0A) ∧ OneLine text := by
  simp [OneLine]

/-- Both parts of a line are on one line. -/
theorem OneLine.of_append {first second : Bytes} (h : OneLine (first ++ second)) :
    OneLine first ∧ OneLine second :=
  ⟨fun c hmem => h c (List.mem_append_left _ hmem),
    fun c hmem => h c (List.mem_append_right _ hmem)⟩

/-- The first character of a line is read. -/
theorem readLine_cons {c : UInt8} (hc : c ≠ 0x0D ∧ c ≠ 0x0A) (rest : Bytes) :
    readLine (c :: rest) = (readLine rest).map fun (line, rest) => (c :: line, rest) := by
  rw [readLine.eq_2 c rest (by rintro tail rfl; exact absurd rfl hc.1), if_neg]
  rintro (rfl | rfl)
  · exact hc.1 rfl
  · exact hc.2 rfl

/-- A line and its end are read. -/
theorem readLine_append {line : Bytes} (hline : OneLine line) (rest : Bytes) :
    readLine (line ++ crlf ++ rest) = some (line, rest) := by
  induction line with
  | nil => rfl
  | cons c line ih =>
      obtain ⟨hc, hline⟩ := oneLine_cons.mp hline
      rw [List.cons_append, List.cons_append, readLine_cons hc, ih hline]
      rfl

/-- What is read as a line, and the rest. -/
theorem readLine_eq_some_iff {text line rest : Bytes} :
    readLine text = some (line, rest) ↔ OneLine line ∧ text = line ++ crlf ++ rest := by
  constructor
  · intro h
    induction text generalizing line with
    | nil => cases h
    | cons c tail ih =>
        rw [readLine.eq_def] at h
        split at h
        · next following heq =>
            cases h
            rw [heq]
            exact ⟨fun _ hmem => absurd hmem List.not_mem_nil, rfl⟩
        · next first following hfirst heq =>
            obtain ⟨rfl, rfl⟩ := List.cons.inj heq
            split at h
            · cases h
            · next hc =>
                obtain ⟨⟨line', rest'⟩, hread, heq'⟩ := Option.map_eq_some_iff.mp h
                cases heq'
                obtain ⟨hline, rfl⟩ := ih hread
                exact ⟨oneLine_cons.mpr ⟨not_or.mp hc, hline⟩, rfl⟩
        · next heq => cases heq
  · rintro ⟨hline, rfl⟩
    exact readLine_append hline rest

/-! ## Header fields -/

/-- A visible character other than the colon. -/
def IsNameChar (c : UInt8) : Prop :=
  0x21 ≤ c ∧ c ≤ 0x7E ∧ c ≠ 0x3A

instance (c : UInt8) : Decidable (IsNameChar c) :=
  inferInstanceAs (Decidable (_ ∧ _))

/-- The name of a header field. -/
def IsName (name : Bytes) : Prop :=
  name ≠ [] ∧ ∀ c ∈ name, IsNameChar c

instance (name : Bytes) : Decidable (IsName name) :=
  @instDecidableAnd _ _ _ (List.decidableBAll IsNameChar name)

/-- The name and the value of a header field. -/
abbrev Field := Bytes × Bytes

namespace Field

/-- A field as its line has it. -/
def text (field : Field) : Bytes :=
  field.1 ++ [0x3A, 0x20] ++ field.2

/-- What makes a field readable: a name of its characters and a value on one line. -/
structure WellFormed (field : Field) : Prop where
  name_ne_nil : field.1 ≠ []
  name : ∀ c ∈ field.1, IsNameChar c
  value : OneLine field.2

/-- The name before the first colon, and the value after the space. -/
def read (line : Bytes) : Option Field :=
  let name := line.takeWhile (· ≠ 0x3A)
  match line.dropWhile (· ≠ 0x3A) with
  | 0x3A :: 0x20 :: value =>
      if IsName name then some (name, value) else none
  | _ => none

/-- Its text is on one line. -/
theorem WellFormed.text_oneLine {field : Field} (h : field.WellFormed) : OneLine field.text := by
  have hname : OneLine field.1 := by
    intro c hmem
    obtain ⟨hlow, -, -⟩ := h.name c hmem
    constructor
    · rintro rfl
      exact absurd hlow (by decide)
    · rintro rfl
      exact absurd hlow (by decide)
  exact (hname.append (by decide)).append h.value

/-- Its text is not empty. -/
theorem text_ne_nil (field : Field) : field.text ≠ [] := by
  simp [text]

theorem read_text {field : Field} (h : field.WellFormed) : read field.text = some field := by
  obtain ⟨name, value⟩ := field
  have hname : ∀ c ∈ name, decide (c ≠ 0x3A) = true := by
    intro c hmem
    simpa using (h.name c hmem).2.2
  have htext : text (name, value) = name ++ 0x3A :: 0x20 :: value := by
    simp [text]
  unfold read
  rw [htext, List.takeWhile_append_of_pos hname, List.dropWhile_append_of_pos hname]
  have hboth : IsName name := ⟨h.name_ne_nil, h.name⟩
  simp only [List.takeWhile_cons, List.dropWhile_cons, ne_eq, not_true_eq_false, decide_false,
    Bool.false_eq_true, if_false, List.append_nil]
  exact if_pos hboth

/-- A line that is read as a field is the text of one. -/
theorem of_read {line : Bytes} (hline : OneLine line) {field : Field}
    (h : read line = some field) : field.WellFormed ∧ line = field.text := by
  unfold read at h
  dsimp only at h
  have hsplit := List.takeWhile_append_dropWhile (p := fun c : UInt8 => decide (c ≠ 0x3A))
    (l := line)
  split at h
  · next value hdrop =>
      split at h
      · next hname =>
          cases h
          rw [hdrop] at hsplit
          have htext : line = text (line.takeWhile (· ≠ 0x3A), value) := by
            conv_lhs => rw [← hsplit]
            simp [text]
          refine ⟨⟨hname.1, hname.2, ?_⟩, htext⟩
          rw [htext] at hline
          exact hline.of_append.2
      · cases h
  · cases h

end Field

/-! ## Status lines -/

/-- The parts of a status line. -/
structure StatusLine where
  version : Bytes
  code : Nat
  phrase : Bytes
deriving DecidableEq

/-- The version, three digits and the phrase, with a space after each of the first two. -/
def StatusLine.read (line : Bytes) : Option StatusLine :=
  match line.dropWhile (· ≠ 0x20) with
  | 0x20 :: hundreds :: tens :: ones :: 0x20 :: phrase => do
      let hundreds ← digitValue hundreds
      let tens ← digitValue tens
      let ones ← digitValue ones
      return {
        version := line.takeWhile (· ≠ 0x20)
        code := 100 * hundreds + 10 * tens + ones
        phrase }
  | _ => none

/-- A status line is read as it was written. -/
theorem StatusLine.read_text {version : Bytes} (hversion : 0x20 ∉ version)
    {first second third : UInt8}
    {hundreds tens ones : Nat} (hfirst : digitValue first = some hundreds)
    (hsecond : digitValue second = some tens) (hthird : digitValue third = some ones)
    (phrase : Bytes) :
    read (version ++ 0x20 :: first :: second :: third :: 0x20 :: phrase) =
      some { version, code := 100 * hundreds + 10 * tens + ones, phrase } := by
  have hspace : ∀ c ∈ version, decide (c ≠ 0x20) = true := by
    intro c hmem
    simpa using fun heq : c = 0x20 => hversion (heq ▸ hmem)
  unfold read
  rw [List.takeWhile_append_of_pos hspace, List.dropWhile_append_of_pos hspace]
  simp [hfirst, hsecond, hthird]

/-! ## Messages -/

/-- A start line, fields and a body. -/
structure Message where
  startLine : Bytes
  fields : List Field
  body : Bytes
deriving DecidableEq

/-- The lines of the fields. -/
def renderFields (fields : List Field) : Bytes :=
  fields.flatMap fun field => field.text ++ crlf

/-- The fields up to the empty line, and what follows it. -/
def readFields : Nat → Bytes → Option (List Field × Bytes)
  | 0, _ => none
  | fuel + 1, text =>
      (readLine text).bind fun (line, rest) =>
        if line = [] then some ([], rest)
        else
          (Field.read line).bind fun field =>
            (readFields fuel rest).map fun (fields, body) => (field :: fields, body)

namespace Message

/-- A start line on one line and readable fields. -/
structure WellFormed (message : Message) : Prop where
  startLine : OneLine message.startLine
  fields : ∀ field ∈ message.fields, field.WellFormed

/-- A message as it is sent. -/
def render (message : Message) : Bytes :=
  message.startLine ++ crlf ++ (renderFields message.fields ++ crlf ++ message.body)

/-- No line is shorter than its end, so there are fewer lines than characters. -/
def read (text : Bytes) : Option Message :=
  (readLine text).bind fun (startLine, rest) =>
    (readFields (rest.length + 1) rest).map fun (fields, body) => { startLine, fields, body }

end Message

/-- Fields and the empty line after them are read with enough fuel. -/
theorem readFields_render {fields : List Field} (hfields : ∀ field ∈ fields, field.WellFormed)
    (body : Bytes) {fuel : Nat} (hfuel : fields.length < fuel) :
    readFields fuel (renderFields fields ++ crlf ++ body) = some (fields, body) := by
  induction fields generalizing fuel with
  | nil =>
      obtain ⟨fuel, rfl⟩ := Nat.exists_eq_succ_of_ne_zero (Nat.ne_of_gt hfuel)
      rfl
  | cons field rest ih =>
      obtain ⟨fuel, rfl⟩ := Nat.exists_eq_succ_of_ne_zero (Nat.ne_zero_of_lt hfuel)
      obtain ⟨hfield, hrest⟩ := List.forall_mem_cons.mp hfields
      have hlater := ih hrest (Nat.lt_of_succ_lt_succ hfuel)
      have hlines : renderFields (field :: rest) ++ crlf ++ body =
          field.text ++ crlf ++ (renderFields rest ++ crlf ++ body) := by
        simp [renderFields]
      rw [hlines, readFields, readLine_append hfield.text_oneLine, Option.bind_some]
      dsimp only
      rw [if_neg field.text_ne_nil, Field.read_text hfield, Option.bind_some, hlater]
      rfl

/-- What is read is well-formed, and the text is its own. -/
theorem of_readFields {fuel : Nat} {text body : Bytes} {fields : List Field}
    (h : readFields fuel text = some (fields, body)) :
    (∀ field ∈ fields, field.WellFormed) ∧ text = renderFields fields ++ crlf ++ body := by
  induction fuel generalizing text fields with
  | zero => cases h
  | succ fuel ih =>
      rw [readFields] at h
      obtain ⟨⟨line, rest⟩, hline, hafter⟩ := Option.bind_eq_some_iff.mp h
      obtain ⟨honeLine, rfl⟩ := readLine_eq_some_iff.mp hline
      dsimp only at hafter
      split at hafter
      · next hempty =>
          cases hafter
          rw [hempty]
          exact ⟨fun _ hmem => absurd hmem List.not_mem_nil, rfl⟩
      · obtain ⟨field, hfield, hfields⟩ := Option.bind_eq_some_iff.mp hafter
        obtain ⟨⟨later, following⟩, hlater, heq⟩ := Option.map_eq_some_iff.mp hfields
        cases heq
        obtain ⟨hwellFormed, rfl⟩ := Field.of_read honeLine hfield
        obtain ⟨hrest, rfl⟩ := ih hlater
        refine ⟨List.forall_mem_cons.mpr ⟨hwellFormed, hrest⟩, ?_⟩
        simp [renderFields]

/-- Every field takes a byte at least. -/
theorem length_fields_le (fields : List Field) : fields.length ≤ (renderFields fields).length := by
  induction fields with
  | nil => exact Nat.zero_le _
  | cons field rest ih =>
      simp only [renderFields, List.flatMap_cons, List.length_cons, List.length_append] at ih ⊢
      have hend : crlf.length = 2 := rfl
      omega

/-- The round trip, both ways: the reader takes the texts of well-formed messages, and
nothing else. -/
theorem read_eq_some_iff {text : Bytes} {message : Message} :
    Message.read text = some message ↔ message.WellFormed ∧ text = message.render := by
  constructor
  · intro h
    unfold Message.read at h
    obtain ⟨⟨startLine, rest⟩, hline, hafter⟩ := Option.bind_eq_some_iff.mp h
    obtain ⟨⟨fields, body⟩, hread, heq⟩ := Option.map_eq_some_iff.mp hafter
    cases heq
    obtain ⟨honeLine, rfl⟩ := readLine_eq_some_iff.mp hline
    obtain ⟨hfields, hrest⟩ := of_readFields hread
    refine ⟨⟨honeLine, hfields⟩, ?_⟩
    rw [hrest]
    rfl
  · rintro ⟨⟨honeLine, hfields⟩, rfl⟩
    have hfuel : message.fields.length <
        (renderFields message.fields ++ crlf ++ message.body).length + 1 := by
      have hle := length_fields_le message.fields
      simp only [List.length_append]
      omega
    unfold Message.read Message.render
    rw [readLine_append honeLine, Option.bind_some]
    dsimp only
    rw [readFields_render hfields message.body hfuel]
    rfl

end HttpMessage
end Library
