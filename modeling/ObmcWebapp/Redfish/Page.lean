import ObmcWebapp.Library.Markup
import ObmcWebapp.Redfish.DumpInteger
import ObmcWebapp.Redfish.EscapedText

/-!
# Redfish - The tags of the HTML page

{lit}`dump` mixes its own tags with escaped keys and strings.  This module states the
page that a value stands for as a tree and shows that {lit}`dump` writes this tree, so
that no text of the value opens, closes or breaks a tag.

Main results:

- Theorem {lit}`dump_eq_page`: the output is the rendered page.
- Theorem {lit}`dump_markup`: what a reader of tags finds in the output.
-/

open Library
open Library.Markup (Node Plain bracket tagName)

namespace ObmcWebapp
namespace Redfish

/-! ## Escaped texts are inert -/

/-- A text without angle brackets and quotation marks. -/
def Inert (text : Bytes) : Prop :=
  ∀ b ∈ text, b ≠ 0x3C ∧ b ≠ 0x3E ∧ b ≠ 0x22

instance (text : Bytes) : Decidable (Inert text) :=
  List.decidableBAll _ text

/-- An inert text is plain. -/
theorem Inert.plain {text : Bytes} (h : Inert text) : Plain text :=
  fun b hmem => ⟨(h b hmem).1, (h b hmem).2.1⟩

/-- An escaped character is inert. -/
theorem escapeChar_inert (c : Char) : Inert (escapeChar c) := by
  by_cases hc : TakesBackslash c
  · intro b hmem
    have hcopied := (escapeChar_takesBackslash hc).1 b hmem
    refine ⟨?_, ?_, ?_⟩
    all_goals
      rintro rfl
      exact absurd hcopied (by decide)
  · obtain ⟨b, hb, -, hescape⟩ := escapeChar_plain hc
    rw [hescape]
    unfold plainEscape
    split_ifs with hquote hapos hamp
    · decide
    · decide
    · decide
    · intro x hmem
      rw [List.mem_singleton.mp hmem]
      exact ⟨hb.2.2.1, hb.2.2.2, hquote⟩

/-- The output of {lit}`dumpEscaped` for a text alone. -/
def escaped (text : Bytes) : Bytes :=
  (dumpEscaped [] text).getD []

/-- A valid text is dumped escaped. -/
theorem dumpEscaped_escaped {text : Bytes} (hvalid : Utf8.Valid text) (out : Bytes) :
    dumpEscaped out text = some (out ++ escaped text) := by
  obtain ⟨chars, rfl⟩ := Utf8.valid_iff_encode.mp hvalid
  have hself : escaped (Utf8.encode chars) = chars.flatMap escapeChar := by
    rw [escaped, Utf8.encode, dumpEscaped_encode]
    rfl
  rw [hself]
  exact dumpEscaped_encode out chars

/-- An escaped text is inert. -/
theorem escaped_inert {text : Bytes} (hvalid : Utf8.Valid text) : Inert (escaped text) := by
  obtain ⟨chars, rfl⟩ := Utf8.valid_iff_encode.mp hvalid
  have hself : escaped (Utf8.encode chars) = chars.flatMap escapeChar := by
    rw [escaped, Utf8.encode, dumpEscaped_encode]
    rfl
  rw [hself]
  intro b hmem
  obtain ⟨c, -, hc⟩ := List.mem_flatMap.mp hmem
  exact escapeChar_inert c b hc

/-! ## The page of a value -/

/-- The tag around the members. -/
def divTag : Bytes := bytes "div class=tab"

/-- The tag between the members. -/
def brTag : Bytes := bytes "br"

/-- The tag of a link to a text. -/
def linkTag (href : Bytes) : Bytes :=
  bytes "a href=\"" ++ href ++ bytes "\""

/-- A string member with the name of a link stands in a link. -/
def linked (key : Bytes) (value : Json) (nodes : List Node) : List Node :=
  match value.getString with
  | some text => if key ∈ linkFields then [.element (linkTag (escaped text)) nodes] else nodes
  | none => nodes

mutual

/-- The tree that {lit}`dump` writes. -/
def page (library : JsonLibrary) : Json → List Node
  | .object [] => [.text (bytes "\x7b\x7d")]
  | .object (member :: rest) =>
      [.text (bytes "\x7b"), .element divTag (pageMembers library (member :: rest)),
        .text (bytes "\x7d")]
  | .array [] => [.text (bytes "[]")]
  | .array (value :: rest) =>
      [.text (bytes "["), .element divTag (pageElements library (value :: rest)),
        .text (bytes "]")]
  | .string value => [.text (bytes "\""), .text (escaped value), .text (bytes "\"")]
  | .boolean value => [.text (bytes (if value then "true" else "false"))]
  | .numberInteger value => [.text (bytes (toString value.toInt))]
  | .numberUnsigned value => [.text (bytes (toString value.toNat))]
  | .numberFloat bits => [.text (dumpfloat library bits)]
  | .null => [.text (bytes "null")]

/-- The nodes of the members. -/
def pageMembers (library : JsonLibrary) : List (Bytes × Json) → List Node
  | [] => []
  | (key, value) :: rest =>
      [.text (bytes "&quot"), .text (escaped key), .text (bytes "&quot: ")] ++
        linked key value (page library value) ++
        (if rest.isEmpty then [] else [.text (bytes ",")]) ++ [.void brTag] ++
        pageMembers library rest

/-- The nodes of the elements. -/
def pageElements (library : JsonLibrary) : List Json → List Node
  | [] => []
  | value :: rest =>
      page library value ++
        (if rest.isEmpty then [] else [.text (bytes ","), .void brTag]) ++
        pageElements library rest

end

/-- The brackets as the literals of {lit}`dump` hold them. -/
theorem brackets :
    bytes "\x7b<div class=tab>" = bytes "\x7b" ++ bracket divTag ∧
      bytes "[<div class=tab>" = bytes "[" ++ bracket divTag ∧
      bytes "</div>\x7d" = bracket (Markup.closing divTag) ++ bytes "\x7d" ∧
      bytes "</div>]" = bracket (Markup.closing divTag) ++ bytes "]" ∧
      bytes ",<br>" = bytes "," ++ bracket brTag ∧ bytes "<br>" = bracket brTag := by
  decide

/-- The name of the tag of a link. -/
theorem tagName_linkTag (href : Bytes) : tagName (linkTag href) = bytes "a" := by
  have htext : linkTag href = 0x61 :: 0x20 :: (bytes "href=\"" ++ href ++ bytes "\"") := rfl
  rw [htext]
  rfl

/-- The tag that closes a link. -/
theorem closing_linkTag (href : Bytes) :
    bracket (Markup.closing (linkTag href)) = bytes "</a>" := by
  rw [Markup.closing, tagName_linkTag]
  rfl

/-- What stands before the text of a link. -/
def opening (key : Bytes) (value : Json) : Bytes :=
  match value.getString with
  | some text => if key ∈ linkFields then bracket (linkTag (escaped text)) else []
  | none => []

/-- The tag of a link is opened where the value is an address. -/
theorem openLink_eq {key : Bytes} {value : Json} (hvalid : value.AllTexts Utf8.Valid)
    (out : Bytes) : openLink key value out = some (out ++ opening key value) := by
  unfold openLink opening
  cases value with
  | string text =>
      have htext : Utf8.Valid text := hvalid
      simp only [Json.getString]
      split_ifs
      · rw [dumpEscaped_escaped htext]
        simp [bracket, linkTag, bytes]
      · rw [List.append_nil]
  | _ => exact congrArg some (List.append_nil out).symm

/-- Nodes inside a link, or without one. -/
theorem renderAll_linked (key : Bytes) (value : Json) (nodes : List Node) :
    Node.renderAll (linked key value nodes) =
      opening key value ++ Node.renderAll nodes ++
        (if inATag key value then bytes "</a>" else []) := by
  unfold linked opening inATag
  cases htext : value.getString with
  | none => simp
  | some text =>
      by_cases hkey : key ∈ linkFields
      · simp [hkey, Node.renderAll, Node.render, closing_linkTag]
      · simp [hkey]

mutual

/-- The output is the rendered page. -/
theorem dump_eq_page (library : JsonLibrary) : (json : Json) → json.AllTexts Utf8.Valid →
    (out : Bytes) → dump library out json = some (out ++ Node.renderAll (page library json))
  | .object [], _, out => by simp [dump, page, Node.renderAll, Node.render]
  | .object (member :: rest), h, out => by
      simp only [Json.AllTexts] at h
      rw [dump, dumpMembers_eq_page library (member :: rest) h, page]
      simp [Node.renderAll, Node.render, brackets]
  | .array [], _, out => by simp [dump, page, Node.renderAll, Node.render]
  | .array (value :: rest), h, out => by
      simp only [Json.AllTexts] at h
      rw [dump, dumpElements_eq_page library (value :: rest) h, page]
      simp [Node.renderAll, Node.render, brackets]
  | .string value, h, out => by
      simp only [Json.AllTexts] at h
      rw [dump, dumpEscaped_escaped h]
      simp [page, Node.renderAll, Node.render]
  | .boolean _, _, out => by simp [dump, page, Node.renderAll, Node.render]
  | .numberInteger _, _, out => by simp [dump, page, Node.renderAll, Node.render]
  | .numberUnsigned _, _, out => by simp [dump, page, Node.renderAll, Node.render]
  | .numberFloat _, _, out => by simp [dump, page, Node.renderAll, Node.render]
  | .null, _, out => by simp [dump, page, Node.renderAll, Node.render]

/-- Members are dumped as their nodes. -/
theorem dumpMembers_eq_page (library : JsonLibrary) : (members : List (Bytes × Json)) →
    Json.MembersTexts Utf8.Valid members → (out : Bytes) →
      dumpMembers library out members =
        some (out ++ Node.renderAll (pageMembers library members))
  | [], _, out => by simp [dumpMembers, pageMembers, Node.renderAll]
  | (key, value) :: rest, h, out => by
      simp only [Json.MembersTexts] at h
      obtain ⟨hkey, hvalue, hrest⟩ := h
      simp only [dumpMembers, dumpEscaped_escaped hkey, openLink_eq hvalue,
        dump_eq_page library value hvalue, dumpMembers_eq_page library rest hrest,
        Option.bind_eq_bind, Option.bind_some]
      simp only [pageMembers, Node.renderAll_append, renderAll_linked, Node.renderAll,
        Node.render, brackets, List.append_assoc, List.append_nil]
      cases inATag key value <;> cases rest <;> simp [Node.renderAll, Node.render]

/-- Elements are dumped as their nodes. -/
theorem dumpElements_eq_page (library : JsonLibrary) : (values : List Json) →
    Json.AllOfTexts Utf8.Valid values → (out : Bytes) →
      dumpElements library out values =
        some (out ++ Node.renderAll (pageElements library values))
  | [], _, out => by simp [dumpElements, pageElements, Node.renderAll]
  | value :: rest, h, out => by
      simp only [Json.AllOfTexts] at h
      obtain ⟨hvalue, hrest⟩ := h
      simp only [dumpElements, dump_eq_page library value hvalue,
        dumpElements_eq_page library rest hrest, Option.bind_eq_bind, Option.bind_some]
      rw [pageElements, Node.renderAll_append, Node.renderAll_append]
      cases rest with
      | nil => simp [Node.renderAll]
      | cons next rest => simp [Node.renderAll, Node.render, brackets]

end

/-! ## Which tags a page has -/

/-- The tags of {lit}`dump`; the text of an attribute holds no quotation mark. -/
def OwnTag (tag : Bytes) : Prop :=
  tag ∈ [bytes "div class=tab", bytes "/div", bytes "br", bytes "/a"] ∨
    ∃ href, tag = bytes "a href=\"" ++ href ++ bytes "\"" ∧ 0x22 ∉ href

/-- The names of void elements. -/
def voids : List Bytes := [bytes "br"]

/-- Well-formed nodes with the tags of {lit}`dump`, of these names. -/
structure Tagged (nodes : List Node) (names : List Bytes) : Prop where
  wellFormed : Node.WellFormedAll voids nodes
  own : ∀ tag ∈ Node.tagsAll nodes, OwnTag tag
  names_eq : (Node.tagsAll nodes).map tagName = names

namespace Tagged

variable {nodes more : List Node} {names moreNames : List Bytes}

/-- Nothing has no tags. -/
theorem nil : Tagged [] [] :=
  ⟨trivial, by simp [Node.tagsAll], rfl⟩

/-- Two parts have their tags in a row. -/
theorem append (hnodes : Tagged nodes names) (hmore : Tagged more moreNames) :
    Tagged (nodes ++ more) (names ++ moreNames) where
  wellFormed := Node.wellFormedAll_append.mpr ⟨hnodes.wellFormed, hmore.wellFormed⟩
  own := by
    rw [Node.tagsAll_append]
    exact List.forall_mem_append.mpr ⟨hnodes.own, hmore.own⟩
  names_eq := by
    rw [Node.tagsAll_append, List.map_append, hnodes.names_eq, hmore.names_eq]

/-- A plain text has no tag. -/
theorem text {content : Bytes} (h : Plain content) : Tagged [.text content] [] where
  wellFormed := ⟨h, trivial⟩
  own := by simp [Node.tagsAll, Node.tags]
  names_eq := rfl

/-- A break has its own. -/
theorem br : Tagged [.void brTag] [bytes "br"] where
  wellFormed := ⟨⟨by decide, by decide, by decide⟩, trivial⟩
  own := by
    intro tag hmem
    rw [List.mem_singleton.mp hmem]
    exact .inl (by decide)
  names_eq := by decide

/-- An element with its opening and its closing tag. -/
theorem element {tag : Bytes} (hplain : Plain tag) (hslash : tag.head? ≠ some 0x2F)
    (hvoid : tagName tag ∉ voids) (hopen : OwnTag tag) (hclose : OwnTag (Markup.closing tag))
    (hname : tagName (Markup.closing tag) = Markup.closing tag) (hnodes : Tagged nodes names) :
    Tagged [.element tag nodes] (tagName tag :: names ++ [Markup.closing tag]) where
  wellFormed := ⟨⟨hplain, hslash, hvoid, hnodes.wellFormed⟩, trivial⟩
  own := by
    simp only [Node.tagsAll, Node.tags, List.append_nil, List.forall_mem_append,
      List.forall_mem_cons]
    exact ⟨⟨hopen, hnodes.own⟩, hclose, fun _ hmem => absurd hmem List.not_mem_nil⟩
  names_eq := by
    simp only [Node.tagsAll, Node.tags, List.append_nil, List.map_append, List.map_cons,
      List.map_nil, hnodes.names_eq, hname]

/-- A part has its tags around those of its nodes. -/
theorem div (hnodes : Tagged nodes names) :
    Tagged [.element divTag nodes] (bytes "div" :: names ++ [bytes "/div"]) :=
  @element _ _ divTag (by decide) (by decide) (by decide) (.inl (by decide)) (.inl (by decide))
    (by decide) hnodes

/-- A link has its tags around those of its nodes. -/
theorem link {href : Bytes} (hhref : Inert href) (hnodes : Tagged nodes names) :
    Tagged [.element (linkTag href) nodes] (bytes "a" :: names ++ [bytes "/a"]) := by
  have hclosing : Markup.closing (linkTag href) = bytes "/a" := by
    rw [Markup.closing, tagName_linkTag]
    rfl
  have hplain : Plain (linkTag href) :=
    (Plain.append (by decide) hhref.plain).append (by decide)
  have hhead : (linkTag href).head? = some 0x61 := rfl
  have helement := element hplain (by rw [hhead]; decide)
    (by rw [tagName_linkTag]; decide)
    (.inr ⟨href, rfl, fun hmem => (hhref _ hmem).2.2 rfl⟩)
    (by rw [hclosing]; exact .inl (by decide)) (by rw [hclosing]; decide) hnodes
  rwa [tagName_linkTag, hclosing] at helement

end Tagged

/-! ## The tags of a value -/

mutual

/-- The names of the tags in their order, read off the shape of a value: no text of it
counts but the names of links. -/
def outline : Json → List Bytes
  | .object [] => []
  | .object (member :: rest) =>
      bytes "div" :: outlineMembers (member :: rest) ++ [bytes "/div"]
  | .array [] => []
  | .array (value :: rest) => bytes "div" :: outlineElements (value :: rest) ++ [bytes "/div"]
  | _ => []

/-- The tags of members. -/
def outlineMembers : List (Bytes × Json) → List Bytes
  | [] => []
  | (key, value) :: rest =>
      (if inATag key value then bytes "a" :: outline value ++ [bytes "/a"] else outline value) ++
        [bytes "br"] ++ outlineMembers rest

/-- The tags of elements. -/
def outlineElements : List Json → List Bytes
  | [] => []
  | value :: rest =>
      outline value ++ (if rest.isEmpty then [] else [bytes "br"]) ++ outlineElements rest

end

/-- The digits of a number are plain. -/
theorem decimal_plain (n : Nat) : Plain (decimal n) := by
  have hdigit : ∀ k : Fin 10, Plain [digit k] := by decide
  induction n using Nat.strong_induction_on with
  | _ n ih =>
      by_cases hless : n < 10
      · rw [decimal_of_lt hless]
        exact hdigit ⟨n, hless⟩
      · rw [decimal_of_le (by omega)]
        exact (ih (n / 10) (by omega)).append (hdigit ⟨n % 10, Nat.mod_lt n (by omega)⟩)

theorem integer_plain (value : Int) : Plain (bytes (toString value)) := by
  rw [bytes_toString]
  split_ifs
  · exact @Plain.append [0x2D] _ (by decide) (decimal_plain _)
  · exact decimal_plain _

/-- The characters of a finite number's text. -/
def FloatTexts (library : JsonLibrary) : Prop :=
  ∀ bits, isFinite bits = true → ∀ b ∈ library.toChars bits, b ∈ bytes "0123456789+-.e"

theorem dumpfloat_plain {library : JsonLibrary} (hfloat : FloatTexts library) (bits : UInt64) :
    Plain (dumpfloat library bits) := by
  unfold dumpfloat
  split_ifs with hfinite
  · have hplain : Plain (bytes "0123456789+-.e") := by decide
    exact fun b hmem => hplain b (hfloat bits hfinite b hmem)
  · decide

/-- A value that may be a link has the tags of one. -/
theorem Tagged.linked {key : Bytes} {value : Json} {nodes : List Node} {names : List Bytes}
    (hvalid : value.AllTexts Utf8.Valid) (hnodes : Tagged nodes names) :
    Tagged (linked key value nodes)
      (if inATag key value then bytes "a" :: names ++ [bytes "/a"] else names) := by
  cases value with
  | string text =>
      have htext : Utf8.Valid text := hvalid
      simp only [Redfish.linked, inATag, Json.getString, Option.isSome_some, Bool.and_true,
        decide_eq_true_eq]
      split_ifs
      · exact hnodes.link (escaped_inert htext)
      · exact hnodes
  | _ => simpa [Redfish.linked, inATag, Json.getString] using hnodes

mutual

/-- A page has the tags of its value. -/
theorem page_tagged {library : JsonLibrary} (hfloat : FloatTexts library) : (json : Json) →
    json.AllTexts Utf8.Valid → Tagged (page library json) (outline json)
  | .object [], _ => .text (by decide)
  | .object (member :: rest), h => by
      simp only [Json.AllTexts] at h
      have hdiv := (pageMembers_tagged hfloat (member :: rest) h).div
      have hopen : Tagged [.text (bytes "\x7b")] [] := .text (by decide)
      have hclose : Tagged [.text (bytes "\x7d")] [] := .text (by decide)
      simpa only [page, outline, List.cons_append, List.nil_append, List.append_nil] using
        (hopen.append hdiv).append hclose
  | .array [], _ => .text (by decide)
  | .array (value :: rest), h => by
      simp only [Json.AllTexts] at h
      have hdiv := (pageElements_tagged hfloat (value :: rest) h).div
      have hopen : Tagged [.text (bytes "[")] [] := .text (by decide)
      have hclose : Tagged [.text (bytes "]")] [] := .text (by decide)
      simpa only [page, outline, List.cons_append, List.nil_append, List.append_nil] using
        (hopen.append hdiv).append hclose
  | .string value, h => by
      simp only [Json.AllTexts] at h
      have hquote : Tagged [.text (bytes "\"")] [] := .text (by decide)
      have hvalue : Tagged [.text (escaped value)] [] := .text (escaped_inert h).plain
      exact (hquote.append hvalue).append hquote
  | .boolean value, _ => .text (by cases value <;> decide)
  | .numberInteger value, _ => .text (integer_plain _)
  | .numberUnsigned value, _ => .text (decimal_plain _)
  | .numberFloat bits, _ => .text (dumpfloat_plain hfloat bits)
  | .null, _ => .text (by decide)

/-- The members of a page have the tags of their values. -/
theorem pageMembers_tagged {library : JsonLibrary} (hfloat : FloatTexts library) :
    (members : List (Bytes × Json)) → Json.MembersTexts Utf8.Valid members →
      Tagged (pageMembers library members) (outlineMembers members)
  | [], _ => .nil
  | (key, value) :: rest, h => by
      simp only [Json.MembersTexts] at h
      obtain ⟨hkey, hvalue, hrest⟩ := h
      have hquot : Tagged [.text (bytes "&quot")] [] := .text (by decide)
      have hname : Tagged [.text (escaped key)] [] := .text (escaped_inert hkey).plain
      have hcolon : Tagged [.text (bytes "&quot: ")] [] := .text (by decide)
      have hcomma : Tagged (if rest.isEmpty then [] else [.text (bytes ",")]) [] := by
        split_ifs
        · exact .nil
        · exact .text (by decide)
      have hlinked := @Tagged.linked key _ _ _ hvalue (page_tagged hfloat value hvalue)
      have hall := ((((((hquot.append hname).append hcolon).append hlinked).append hcomma).append
        .br).append (pageMembers_tagged hfloat rest hrest))
      simpa only [pageMembers, outlineMembers, List.cons_append, List.nil_append,
        List.append_nil] using hall

theorem pageElements_tagged {library : JsonLibrary} (hfloat : FloatTexts library) :
    (values : List Json) → Json.AllOfTexts Utf8.Valid values →
      Tagged (pageElements library values) (outlineElements values)
  | [], _ => .nil
  | value :: rest, h => by
      simp only [Json.AllOfTexts] at h
      obtain ⟨hvalue, hrest⟩ := h
      have hcomma : Tagged (if rest.isEmpty then [] else [.text (bytes ","), .void brTag])
          (if rest.isEmpty then [] else [bytes "br"]) := by
        split_ifs
        · exact .nil
        · have htext : Tagged [.text (bytes ",")] [] := .text (by decide)
          exact htext.append .br
      exact ((page_tagged hfloat value hvalue).append hcomma).append
        (pageElements_tagged hfloat rest hrest)

end

/-- Only the tags of {lit}`dump` itself stand in its output, nested and balanced, as the
shape of the value tells. -/
theorem dump_markup {library : JsonLibrary} (hfloat : FloatTexts library) {json : Json}
    (hvalid : json.AllTexts Utf8.Valid) (out : Bytes) :
    ∃ text tags, dump library out json = some (out ++ text) ∧
      Markup.scan none text = some tags ∧ (∀ tag ∈ tags, OwnTag tag) ∧
      Markup.nest voids [] tags = some [] ∧ tags.map tagName = outline json := by
  have htagged := page_tagged hfloat json hvalid
  exact ⟨_, _, dump_eq_page library json hvalid out, Node.scan_renderAll htagged.wellFormed,
    htagged.own, Node.nest_tagsAll htagged.wellFormed [], htagged.names_eq⟩

/-- A link's text with a quotation mark and a bracket. -/
theorem dump_markup_uri :
    FloatTexts ⟨fun _ => [], fun _ => bytes "1.5", fun _ _ => false⟩ ∧
    ∃ text tags, dump ⟨fun _ => [], fun _ => bytes "1.5", fun _ _ => false⟩ []
        (.object [(bytes "Uri", .string (bytes "a\"<b"))]) = some text ∧
      Markup.scan none text = some tags ∧ tags.map tagName =
        [bytes "div", bytes "a", bytes "/a", bytes "br", bytes "/div"] := by
  have hfloat : FloatTexts ⟨fun _ => [], fun _ => bytes "1.5", fun _ _ => false⟩ := by
    intro bits _
    show bytes "1.5" ⊆ bytes "0123456789+-.e"
    decide
  have hvalid : (Json.object [(bytes "Uri", .string (bytes "a\"<b"))]).AllTexts Utf8.Valid :=
    (Json.utf8Valid_iff _).mp (by decide)
  obtain ⟨text, tags, hdump, hscan, -, -, hnames⟩ := dump_markup hfloat hvalid []
  exact ⟨hfloat, text, tags, hdump, hscan, hnames.trans (by decide)⟩

end Redfish
end ObmcWebapp
