import ObmcWebapp.Library.Utf8

/-!
# Library - Tags in a text

A page is a forest of texts, void elements and elements with children.  A reader of its
text sees angle brackets only: the scanner {lit}`scan` collects what stands between
them, and {lit}`nest` follows the tags with a stack of open elements.

Main results:

- Theorem {lit}`scan_renderAll`: the scanner finds exactly the tags of a page.
- Theorem {lit}`nest_tagsAll`: every element of a page is closed where its own children
  end.
-/

namespace Library
namespace Markup

/-! ## Pages -/

/-- An element is closed by its own name, the part of its tag before the first space. -/
inductive Node
  | text (content : Bytes)
  | void (tag : Bytes)
  | element (tag : Bytes) (children : List Node)

/-- The name of a tag is what stands before its attributes. -/
def tagName (tag : Bytes) : Bytes :=
  tag.takeWhile (· ≠ 0x20)

/-- A tag in its brackets. -/
def bracket (tag : Bytes) : Bytes :=
  0x3C :: tag ++ [0x3E]

/-- The tag that closes another. -/
def closing (tag : Bytes) : Bytes :=
  0x2F :: tagName tag

namespace Node

mutual

/-- A node as it is written. -/
def render : Node → Bytes
  | .text content => content
  | .void tag => bracket tag
  | .element tag children => bracket tag ++ renderAll children ++ bracket (closing tag)

/-- Nodes one after the other. -/
def renderAll : List Node → Bytes
  | [] => []
  | node :: rest => render node ++ renderAll rest

end

mutual

/-- The tags from left to right. -/
def tags : Node → List Bytes
  | .text _ => []
  | .void tag => [tag]
  | .element tag children => tag :: tagsAll children ++ [closing tag]

/-- The tags of nodes one after the other. -/
def tagsAll : List Node → List Bytes
  | [] => []
  | node :: rest => tags node ++ tagsAll rest

end

/-- Nodes may be written in two parts. -/
theorem renderAll_append (left right : List Node) :
    renderAll (left ++ right) = renderAll left ++ renderAll right := by
  induction left with
  | nil => rfl
  | cons node rest ih => simp only [List.cons_append, renderAll, ih, List.append_assoc]

theorem tagsAll_append (left right : List Node) :
    tagsAll (left ++ right) = tagsAll left ++ tagsAll right := by
  induction left with
  | nil => rfl
  | cons node rest ih => simp only [List.cons_append, tagsAll, ih, List.append_assoc]

end Node

/-! ## Readers -/

/-- The contents of the brackets, none where a bracket stands alone or inside a tag.  The
state is the tag read so far. -/
def scan : Option Bytes → Bytes → Option (List Bytes)
  | none, [] => some []
  | some _, [] => none
  | none, b :: rest =>
      if b = 0x3C then scan (some []) rest
      else if b = 0x3E then none
      else scan none rest
  | some tag, b :: rest =>
      if b = 0x3E then (scan none rest).map (tag :: ·)
      else if b = 0x3C then none
      else scan (some (tag ++ [b])) rest

/-- The open elements after some tags, none where a tag closes another element than the
last one opened. -/
def nest (voids : List Bytes) : List Bytes → List Bytes → Option (List Bytes)
  | stack, [] => some stack
  | stack, (0x2F :: name) :: rest =>
      match stack with
      | [] => none
      | top :: below => if top = name then nest voids below rest else none
  | stack, tag :: rest =>
      if tagName tag ∈ voids then nest voids stack rest
      else nest voids (tagName tag :: stack) rest

/-! ## Well-formed pages -/

/-- A text without brackets. -/
def Plain (text : Bytes) : Prop :=
  ∀ b ∈ text, b ≠ 0x3C ∧ b ≠ 0x3E

instance (text : Bytes) : Decidable (Plain text) :=
  List.decidableBAll _ text

/-- Texts without brackets have none together. -/
theorem Plain.append {left right : Bytes} (hleft : Plain left) (hright : Plain right) :
    Plain (left ++ right) :=
  List.forall_mem_append.mpr ⟨hleft, hright⟩

/-- The closing tag has no bracket. -/
theorem Plain.closing {tag : Bytes} (h : Plain tag) : Plain (closing tag) := by
  have hslash : (0x2F : UInt8) ≠ 0x3C ∧ (0x2F : UInt8) ≠ 0x3E := by decide
  exact List.forall_mem_cons.mpr ⟨hslash, fun b hmem => h b (List.takeWhile_subset _ hmem)⟩

namespace Node

mutual

/-- Brackets only around tags, and the void names are those of void elements. -/
def WellFormed (voids : List Bytes) : Node → Prop
  | .text content => Plain content
  | .void tag => Plain tag ∧ tag.head? ≠ some 0x2F ∧ tagName tag ∈ voids
  | .element tag children =>
      Plain tag ∧ tag.head? ≠ some 0x2F ∧ tagName tag ∉ voids ∧ WellFormedAll voids children

/-- The same for nodes one after the other. -/
def WellFormedAll (voids : List Bytes) : List Node → Prop
  | [] => True
  | node :: rest => WellFormed voids node ∧ WellFormedAll voids rest

end

/-- Nodes are well formed if each part is. -/
theorem wellFormedAll_append {voids : List Bytes} {left right : List Node} :
    WellFormedAll voids (left ++ right) ↔
      WellFormedAll voids left ∧ WellFormedAll voids right := by
  induction left with
  | nil => simp [WellFormedAll]
  | cons node rest ih => simp [WellFormedAll, ih, and_assoc]

end Node

/-! ## What the readers make of a page -/

/-- A text without brackets has no tag. -/
theorem scan_plain {text : Bytes} (h : Plain text) (rest : Bytes) :
    scan none (text ++ rest) = scan none rest := by
  induction text with
  | nil => rfl
  | cons b text ih =>
      obtain ⟨hb, htext⟩ := List.forall_mem_cons.mp h
      rw [List.cons_append, scan, if_neg hb.1, if_neg hb.2, ih htext]

/-- A tag is read to its end. -/
theorem scan_tag {tag : Bytes} (h : Plain tag) (read rest : Bytes) :
    scan (some read) (tag ++ 0x3E :: rest) = (scan none rest).map ((read ++ tag) :: ·) := by
  induction tag generalizing read with
  | nil => rw [List.nil_append, scan, if_pos rfl, List.append_nil]
  | cons b tag ih =>
      obtain ⟨hb, htag⟩ := List.forall_mem_cons.mp h
      rw [List.cons_append, scan, if_neg hb.2, if_neg hb.1, ih htag, List.append_assoc]
      rfl

/-- A tag in brackets is read. -/
theorem scan_bracket {tag : Bytes} (h : Plain tag) (rest : Bytes) :
    scan none (bracket tag ++ rest) = (scan none rest).map (tag :: ·) := by
  have hread : bracket tag ++ rest = 0x3C :: (tag ++ 0x3E :: rest) := by
    simp [bracket]
  rw [hread, scan, if_pos rfl, scan_tag h, List.nil_append]

namespace Node

variable {voids : List Bytes}

mutual

/-- The tags that are read off a node are its own. -/
theorem scan_render : (node : Node) → node.WellFormed voids → (rest : Bytes) →
    scan none (node.render ++ rest) = (scan none rest).map (node.tags ++ ·)
  | .text content, h, rest => by
      simp only [WellFormed] at h
      simp only [render, tags, List.nil_append, Option.map_id']
      exact scan_plain h rest
  | .void tag, h, rest => by
      simp only [WellFormed] at h
      simp only [render, tags]
      exact scan_bracket h.1 rest
  | .element tag children, h, rest => by
      simp only [WellFormed] at h
      obtain ⟨htag, -, -, hchildren⟩ := h
      simp only [render, tags, List.append_assoc]
      rw [scan_bracket htag, scan_renderAll_append children hchildren, scan_bracket htag.closing,
        Option.map_map, Option.map_map]
      exact congrArg (Option.map · _) (funext fun later => by simp)

theorem scan_renderAll_append : (nodes : List Node) → WellFormedAll voids nodes →
    (rest : Bytes) →
      scan none (renderAll nodes ++ rest) = (scan none rest).map (tagsAll nodes ++ ·)
  | [], _, rest => by simp [renderAll, tagsAll]
  | node :: nodes, h, rest => by
      simp only [WellFormedAll] at h
      rw [renderAll, tagsAll, List.append_assoc, scan_render node h.1,
        scan_renderAll_append nodes h.2, Option.map_map]
      congr 1
      funext later
      simp

end

/-- The scanner finds exactly the tags of a page. -/
theorem scan_renderAll {nodes : List Node} (h : WellFormedAll voids nodes) :
    scan none (renderAll nodes) = some (tagsAll nodes) := by
  have hall := scan_renderAll_append nodes h []
  simpa [scan] using hall

/-- An opening tag is put on the stack. -/
theorem nest_open {stack rest : List Bytes} {tag : Bytes} (hslash : tag.head? ≠ some 0x2F)
    (hvoid : tagName tag ∉ voids) :
    nest voids stack (tag :: rest) = nest voids (tagName tag :: stack) rest := by
  rw [nest, if_neg hvoid]
  rintro name rfl
  exact hslash rfl

/-- A void tag is closed at once. -/
theorem nest_void {stack rest : List Bytes} {tag : Bytes} (hslash : tag.head? ≠ some 0x2F)
    (hvoid : tagName tag ∈ voids) : nest voids stack (tag :: rest) = nest voids stack rest := by
  rw [nest, if_pos hvoid]
  rintro name rfl
  exact hslash rfl

/-- A closing tag takes its opening one off the stack. -/
theorem nest_closing (stack rest : List Bytes) (tag : Bytes) :
    nest voids (tagName tag :: stack) (closing tag :: rest) = nest voids stack rest := by
  rw [closing, nest, if_pos rfl]

mutual

/-- The tags of a node close what they open. -/
theorem nest_tags : (node : Node) → node.WellFormed voids → (stack rest : List Bytes) →
    nest voids stack (node.tags ++ rest) = nest voids stack rest
  | .text content, _, stack, rest => rfl
  | .void tag, h, stack, rest => by
      simp only [WellFormed] at h
      exact nest_void h.2.1 h.2.2
  | .element tag children, h, stack, rest => by
      simp only [WellFormed] at h
      obtain ⟨-, hslash, hvoid, hchildren⟩ := h
      simp only [tags, List.cons_append, List.append_assoc, List.nil_append]
      rw [nest_open hslash hvoid, nest_tagsAll_append children hchildren, nest_closing]

theorem nest_tagsAll_append : (nodes : List Node) → WellFormedAll voids nodes →
    (stack rest : List Bytes) →
      nest voids stack (tagsAll nodes ++ rest) = nest voids stack rest
  | [], _, stack, rest => rfl
  | node :: nodes, h, stack, rest => by
      simp only [WellFormedAll] at h
      rw [tagsAll, List.append_assoc, nest_tags node h.1, nest_tagsAll_append nodes h.2]

end

/-- Every element is closed where its children end. -/
theorem nest_tagsAll {nodes : List Node} (h : WellFormedAll voids nodes) (stack : List Bytes) :
    nest voids stack (tagsAll nodes) = some stack := by
  have hall := nest_tagsAll_append nodes h stack []
  rw [List.append_nil] at hall
  exact hall.trans (by rw [nest])

end Node
end Markup
end Library
