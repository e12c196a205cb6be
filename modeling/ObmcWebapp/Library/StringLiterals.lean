import Mathlib.Algebra.GroupWithZero.Nat
import ObmcWebapp.Library.Utf8Chars

/-!
# Library - Lists of string literals

A reader for a list of C++ string literals as it stands between braces: lines that end
in a backslash are joined first, then the text is cut into literals and commas, and the
literals that stand next to each other make one element.

Main results:

- Theorem {lit}`readList_bound`: a text is long enough for the quotes and commas of the
  elements that are read from it.
- Theorem {lit}`eq_quoted_of_readList`: one element that takes all of its text has neither
  quotes, nor backslashes, nor line ends.
- Theorem {lit}`readList_quoted`: such an element is read back.
-/

namespace Library
namespace StringLiteral

/-! ## The reader -/

/-- A digit of an octal escape. -/
def isOctal (b : UInt8) : Bool :=
  0x30 ≤ b && b ≤ 0x37

/-- The value of a hexadecimal digit. -/
def hexValue (b : UInt8) : Option Nat :=
  if 0x30 ≤ b && b ≤ 0x39 then some (b.toNat - 0x30)
  else if 0x41 ≤ b && b ≤ 0x46 then some (b.toNat - 0x41 + 10)
  else if 0x61 ≤ b && b ≤ 0x66 then some (b.toNat - 0x61 + 10)
  else none

/-- A digit of a hexadecimal escape. -/
def isHex (b : UInt8) : Bool :=
  (hexValue b).isSome

/-- The number of octal digits. -/
def octalNumber (digits : Bytes) : Nat :=
  digits.foldl (fun value b => value * 8 + (b.toNat - 0x30)) 0

/-- The number of hexadecimal digits. -/
def hexNumber (digits : Bytes) : Nat :=
  digits.foldl (fun value b => value * 16 + (hexValue b).getD 0) 0

/-- A number that a character of a literal can hold. -/
def byteValue (value : Nat) : Option Bytes :=
  if value < 256 then some [UInt8.ofNat value] else none

/-- The bytes of a scalar value. -/
def universalValue (value : Nat) : Option Bytes :=
  if value.isValidChar then some (String.utf8EncodeChar (Char.ofNat value)) else none

/-- The escapes of one letter; any other character stands for itself. -/
def simpleEscape (c : UInt8) : UInt8 :=
  if c = 0x61 then 0x07
  else if c = 0x62 then 0x08
  else if c = 0x66 then 0x0C
  else if c = 0x6E then 0x0A
  else if c = 0x72 then 0x0D
  else if c = 0x74 then 0x09
  else if c = 0x76 then 0x0B
  else c

/-- A universal character name with so many digits. -/
def readUniversal (count : Nat) (text : Bytes) : Option (Bytes × Bytes) :=
  if (text.take count).length = count ∧ (text.take count).all isHex then
    (universalValue (hexNumber (text.take count))).map (·, text.drop count)
  else
    none

/-- What the escape behind a backslash stands for, and the text after it. -/
def readEscape : Bytes → Option (Bytes × Bytes)
  | [] => none
  | c :: rest =>
      if isOctal c then
        -- up to three octal digits
        let digits := c :: (rest.take 2).takeWhile isOctal
        (byteValue (octalNumber digits)).map (·, (c :: rest).drop digits.length)
      else if c = 0x78 then
        let digits := rest.takeWhile isHex
        if digits = [] then none
        else (byteValue (hexNumber digits)).map (·, rest.drop digits.length)
      else if c = 0x75 then readUniversal 4 rest
      else if c = 0x55 then readUniversal 8 rest
      else some ([simpleEscape c], rest)

/-- A value of an escape is one byte. -/
theorem byteValue_length {value : Nat} {read : Bytes} (h : byteValue value = some read) :
    read.length = 1 := by
  unfold byteValue at h
  split at h
  · cases h
    rfl
  · cases h

/-- A universal character is four bytes at most. -/
theorem universalValue_length {value : Nat} {read : Bytes}
    (h : universalValue value = some read) : read.length ≤ 4 := by
  unfold universalValue at h
  split at h
  · cases h
    rw [String.length_utf8EncodeChar]
    exact Char.utf8Size_le_four _
  · cases h

/-- A universal character is not longer than its escape. -/
theorem readUniversal_bound {count : Nat} (hcount : 4 ≤ count) {text value behind : Bytes}
    (h : readUniversal count text = some (value, behind)) :
    value.length + behind.length ≤ text.length := by
  unfold readUniversal at h
  split at h
  · next hdigits =>
      obtain ⟨read, hread, hpair⟩ := Option.map_eq_some_iff.mp h
      cases hpair
      have hvalue := universalValue_length hread
      have hlong := hdigits.1
      rw [List.length_take] at hlong
      rw [List.length_drop]
      omega
  · cases h

/-- An escape takes at least the room of what it stands for. -/
theorem readEscape_bound {text value behind : Bytes}
    (h : readEscape text = some (value, behind)) :
    value.length + behind.length ≤ text.length ∧ behind.length < text.length := by
  cases text with
  | nil => cases h
  | cons c rest =>
      rw [readEscape] at h
      split_ifs at h
      · -- octal digits
        obtain ⟨read, hread, hpair⟩ := Option.map_eq_some_iff.mp h
        cases hpair
        rw [byteValue_length hread, List.length_drop, List.length_cons, List.length_cons]
        omega
      · -- hexadecimal digits
        dsimp only at h
        split at h
        · cases h
        · obtain ⟨read, hread, hpair⟩ := Option.map_eq_some_iff.mp h
          cases hpair
          rw [byteValue_length hread, List.length_drop, List.length_cons]
          next hdigits =>
            have hpos := List.length_pos_iff.mpr hdigits
            have hle := (List.takeWhile_prefix isHex (l := rest)).length_le
            omega
      · have hbound := readUniversal_bound (Nat.le_refl 4) h
        rw [List.length_cons]
        omega
      · have hbound := readUniversal_bound (by decide) h
        rw [List.length_cons]
        omega
      · cases h
        simp only [List.length_cons, List.length_nil]
        omega

/-- The value of a literal and the text behind it; the argument begins behind the opening
quote. -/
def readLiteral : Bytes → Option (Bytes × Bytes)
  | [] => none
  | c :: rest =>
      if c = 0x22 then some ([], rest)
      else if c = 0x0A then none
      else if c = 0x5C then
        match h : readEscape rest with
        | none => none
        | some (value, behind) =>
            have := (readEscape_bound h).2
            (readLiteral behind).map fun (more, behind) => (value ++ more, behind)
      else (readLiteral rest).map fun (more, behind) => (c :: more, behind)
termination_by text => text.length

/-- What can stand in a literal as it is. -/
def Plain (text : Bytes) : Prop :=
  ∀ b ∈ text, b ≠ 0x22 ∧ b ≠ 0x0A ∧ b ≠ 0x5C

instance (text : Bytes) : Decidable (Plain text) :=
  List.decidableBAll _ text

/-- Text without escapes is read as it stands. -/
theorem readLiteral_plain {text : Bytes} (h : Plain text) (behind : Bytes) :
    readLiteral (text ++ 0x22 :: behind) = some (text, behind) := by
  induction text with
  | nil => rw [List.nil_append, readLiteral, if_pos rfl]
  | cons b text ih =>
      obtain ⟨hb, htext⟩ := List.forall_mem_cons.mp h
      rw [List.cons_append, readLiteral, if_neg hb.1, if_neg hb.2.1, if_neg hb.2.2, ih htext]
      rfl

/-- A literal is read as it is, or its text is longer than what it stands for. -/
theorem readLiteral_cases {text value behind : Bytes}
    (h : readLiteral text = some (value, behind)) :
    (text = value ++ 0x22 :: behind ∧ Plain value) ∨
      value.length + behind.length + 1 < text.length := by
  fun_induction readLiteral text generalizing value behind with
  | case1 => cases h
  | case2 rest =>
      cases h
      exact .inl ⟨rfl, by simp [Plain]⟩
  | case3 => cases h
  | case4 => cases h
  | case5 rest escaped after hescape _ _ _ ih =>
      obtain ⟨⟨more, last⟩, hmore, hpair⟩ := Option.map_eq_some_iff.mp h
      cases hpair
      right
      have hroom := (readEscape_bound hescape).1
      have hrest : more.length + behind.length + 1 ≤ after.length := by
        rcases ih hmore with ⟨rfl, -⟩ | hlong
        · rw [List.length_append, List.length_cons]
          omega
        · omega
      rw [List.length_append, List.length_cons]
      omega
  | case6 c rest hquote hline hbackslash ih =>
      obtain ⟨⟨more, last⟩, hmore, hpair⟩ := Option.map_eq_some_iff.mp h
      cases hpair
      rcases ih hmore with ⟨rfl, hplain⟩ | hlong
      · exact .inl ⟨rfl, List.forall_mem_cons.mpr ⟨⟨hquote, hline, hbackslash⟩, hplain⟩⟩
      · right
        simp only [List.length_cons]
        omega

/-- A literal is not longer than its text. -/
theorem readLiteral_bound {text value behind : Bytes}
    (h : readLiteral text = some (value, behind)) :
    value.length + behind.length + 1 ≤ text.length := by
  rcases readLiteral_cases h with ⟨rfl, -⟩ | hlong
  · rw [List.length_append, List.length_cons]
    omega
  · omega

/-- A literal, or the comma that ends an element. -/
inductive Token
  | literal (value : Bytes)
  | comma

/-- What is between the tokens. -/
def isBlank (b : UInt8) : Bool :=
  b = 0x20 || (0x09 ≤ b && b ≤ 0x0D)

/-- The tokens between the braces, none where something else stands there. -/
def tokens : Bytes → Option (List Token)
  | [] => some []
  | c :: rest =>
      if isBlank c then tokens rest
      else if c = 0x2C then (tokens rest).map (.comma :: ·)
      else if c = 0x22 then
        match h : readLiteral rest with
        | none => none
        | some (value, behind) =>
            have := readLiteral_bound h
            (tokens behind).map (.literal value :: ·)
      else none
termination_by text => text.length
decreasing_by all_goals simp; try omega

/-- The elements; the first argument is the element begun so far.  A comma may stand
behind the last element. -/
def elements : Option Bytes → List Token → Option (List Bytes)
  | none, [] => some []
  | some value, [] => some [value]
  | none, .literal value :: rest => elements (some value) rest
  | some value, .literal more :: rest => elements (some (value ++ more)) rest
  | none, .comma :: _ => none
  | some value, .comma :: rest => (elements none rest).map (value :: ·)

/-- A backslash at the end of a line joins it to the next line. -/
def joinLines : Bytes → Bytes
  | [] => []
  | [c] => [c]
  | c :: d :: rest =>
      if c = 0x5C ∧ d = 0x0A then joinLines rest else c :: joinLines (d :: rest)

/-- The literals of a list, adjacent ones as one. -/
def readList (text : Bytes) : Option (List Bytes) :=
  (tokens (joinLines text)).bind (elements none)

/-! ## The room that a list takes -/

/-- What a token takes in the text at least. -/
def Token.room : Token → Nat
  | .literal value => value.length + 2
  | .comma => 1

/-- What tokens take in the text at least. -/
def room (read : List Token) : Nat :=
  (read.map Token.room).sum

/-- No tokens take nothing. -/
@[simp] theorem room_nil : room [] = 0 := rfl

/-- A token more takes its room. -/
@[simp] theorem room_cons (token : Token) (read : List Token) :
    room (token :: read) = token.room + room read := rfl

/-- The tokens are not longer than their text. -/
theorem tokens_bound {text : Bytes} {read : List Token} (h : tokens text = some read) :
    room read ≤ text.length := by
  fun_induction tokens text generalizing read with
  | case1 =>
      cases h
      exact Nat.le_refl 0
  | case2 c rest hblank ih =>
      have hrest := ih h
      rw [List.length_cons]
      omega
  | case3 rest hblank ih =>
      obtain ⟨later, hlater, rfl⟩ := Option.map_eq_some_iff.mp h
      have hrest := ih hlater
      rw [room_cons, Token.room, List.length_cons]
      omega
  | case4 => cases h
  | case5 rest value behind hliteral _ _ _ ih =>
      obtain ⟨later, hlater, rfl⟩ := Option.map_eq_some_iff.mp h
      have hrest := ih hlater
      have hvalue := readLiteral_bound hliteral
      rw [room_cons, Token.room, List.length_cons]
      omega
  | case6 => cases h

/-- The room of the element begun so far. -/
def begunRoom (begun : Option Bytes) : Nat :=
  (begun.map fun value => value.length + 2).getD 0

/-- Two quotes for every element, and a comma between two of them. -/
theorem elements_bound {begun : Option Bytes} {read : List Token} {list : List Bytes}
    (h : elements begun read = some list) :
    list.flatten.length + 3 * list.length ≤ begunRoom begun + room read + 1 := by
  fun_induction elements begun read generalizing list with
  | case1 =>
      cases h
      simp
  | case2 value =>
      cases h
      simp [begunRoom]
  | case3 value rest ih =>
      have hrest := ih h
      simp only [begunRoom, Option.map_some, Option.getD_some, Option.map_none, Option.getD_none,
        room_cons, Token.room] at hrest ⊢
      omega
  | case4 value more rest ih =>
      have hrest := ih h
      simp only [begunRoom, Option.map_some, Option.getD_some, List.length_append, room_cons,
        Token.room] at hrest ⊢
      omega
  | case5 => cases h
  | case6 value rest ih =>
      obtain ⟨later, hlater, rfl⟩ := Option.map_eq_some_iff.mp h
      have hrest := ih hlater
      simp only [begunRoom, Option.map_some, Option.getD_some, Option.map_none, Option.getD_none,
        List.flatten_cons, List.length_append, List.length_cons, room_cons, Token.room] at hrest ⊢
      omega

/-- Only a literal of its own leaves one element no room to spare. -/
theorem eq_literal_of_elements {read : List Token} {value : Bytes}
    (h : elements none read = some [value]) (hroom : room read ≤ value.length + 2) :
    read = [.literal value] := by
  match read with
  | [] => cases h
  | .comma :: rest => cases h
  | [.literal only] =>
      cases h
      rfl
  | .literal first :: .literal more :: rest =>
      rw [elements, elements] at h
      have hbound := elements_bound h
      simp only [begunRoom, Option.map_some, Option.getD_some, List.flatten_cons,
        List.flatten_nil, List.length_append, List.length_cons, List.length_nil] at hbound
      simp only [room_cons, Token.room] at hroom
      omega
  | .literal first :: .comma :: rest =>
      rw [elements, elements] at h
      obtain ⟨later, hlater, hlist⟩ := Option.map_eq_some_iff.mp h
      cases hlist
      simp only [room_cons, Token.room] at hroom
      omega

/-- Joining lines leaves a text or makes it shorter. -/
theorem joinLines_cases (text : Bytes) :
    joinLines text = text ∨ (joinLines text).length < text.length := by
  fun_induction joinLines text with
  | case1 => exact .inl rfl
  | case2 => exact .inl rfl
  | case3 c d rest hbreak ih =>
      right
      rcases ih with hsame | hshort
      · rw [hsame, List.length_cons, List.length_cons]
        omega
      · rw [List.length_cons, List.length_cons]
        omega
  | case4 c d rest hbreak ih =>
      rcases ih with hsame | hshort
      · exact .inl (by rw [hsame])
      · right
        simpa using hshort

/-- A text without backslashes has no lines to be joined. -/
theorem joinLines_of_notMem {text : Bytes} (h : 0x5C ∉ text) : joinLines text = text := by
  fun_induction joinLines text with
  | case1 => rfl
  | case2 => rfl
  | case3 c d rest hbreak ih =>
      rw [hbreak.1] at h
      exact absurd List.mem_cons_self h
  | case4 c d rest hbreak ih => rw [ih fun hmem => h (List.mem_cons_of_mem c hmem)]

/-- A list is shorter than its text. -/
theorem readList_bound {text : Bytes} {list : List Bytes} (h : readList text = some list) :
    list.flatten.length + 3 * list.length ≤ text.length + 1 := by
  obtain ⟨read, hread, hlist⟩ := Option.bind_eq_some_iff.mp h
  have hroom := tokens_bound hread
  have hbound := elements_bound hlist
  have hjoin : (joinLines text).length ≤ text.length := by
    rcases joinLines_cases text with hsame | hshort
    · exact Nat.le_of_eq (congrArg List.length hsame)
    · exact Nat.le_of_lt hshort
  simp only [begunRoom, Option.map_none, Option.getD_none] at hbound
  omega

/-! ## One literal -/

/-- The text of a literal without escapes. -/
def quoted (text : Bytes) : Bytes :=
  0x22 :: (text ++ [0x22])

/-- Quotation marks add two bytes. -/
theorem quoted_length (text : Bytes) : (quoted text).length = text.length + 2 := by
  simp [quoted]

/-- A single literal that takes all of its text stands there without escapes. -/
theorem eq_quoted_of_tokens {text value : Bytes} (h : tokens text = some [.literal value])
    (hroom : text.length ≤ value.length + 2) : text = quoted value ∧ Plain value := by
  cases text with
  | nil =>
      rw [tokens] at h
      cases h
  | cons c rest =>
      rw [tokens] at h
      rw [List.length_cons] at hroom
      split_ifs at h with hblank hcomma hquote
      · have hbound := tokens_bound h
        rw [room_cons, Token.room] at hbound
        omega
      · obtain ⟨later, -, hlist⟩ := Option.map_eq_some_iff.mp h
        cases hlist
      · split at h
        · cases h
        · next read behind hliteral =>
            obtain ⟨later, hlater, hlist⟩ := Option.map_eq_some_iff.mp h
            cases hlist
            rcases readLiteral_cases hliteral with ⟨rfl, hplain⟩ | hlong
            · have hbehind : behind = [] := by simpa using hroom
              rw [hbehind, hquote]
              exact ⟨rfl, hplain⟩
            · omega

/-- A single element that takes all of its text is a literal without escapes. -/
theorem eq_quoted_of_readList {text value : Bytes} (h : readList text = some [value])
    (hroom : text.length ≤ value.length + 2) : text = quoted value ∧ Plain value := by
  obtain ⟨read, hread, hlist⟩ := Option.bind_eq_some_iff.mp h
  have hbound := tokens_bound hread
  rcases joinLines_cases text with hsame | hshort
  · rw [hsame] at hread hbound
    rw [eq_literal_of_elements hlist (by omega)] at hread
    exact eq_quoted_of_tokens hread hroom
  · have hliteral := eq_literal_of_elements hlist (by omega)
    rw [hliteral, room_cons, Token.room, room_nil] at hbound
    omega

/-- A literal in front is the first token. -/
theorem tokens_literal {text value behind : Bytes}
    (h : readLiteral text = some (value, behind)) :
    tokens (0x22 :: text) = (tokens behind).map (.literal value :: ·) := by
  rw [tokens, if_neg (by decide), if_neg (by decide), if_pos rfl]
  split
  · next hnone =>
      rw [h] at hnone
      cases hnone
  · next heq =>
      rw [h] at heq
      cases heq
      rfl

/-- A literal without escapes is read back. -/
theorem readList_quoted {text : Bytes} (h : Plain text) :
    readList (quoted text) = some [text] := by
  have hbackslash : 0x5C ∉ quoted text := by
    intro hmem
    rcases List.mem_cons.mp hmem with heq | hmem
    · cases heq
    · rcases List.mem_append.mp hmem with hmem | hmem
      · exact (h _ hmem).2.2 rfl
      · cases List.mem_singleton.mp hmem
  have hread : tokens (quoted text) = some [.literal text] := by
    rw [quoted, tokens_literal (readLiteral_plain h []), tokens]
    rfl
  rw [readList, joinLines_of_notMem hbackslash, hread]
  rfl

end StringLiteral
end Library
