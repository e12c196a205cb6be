import ObmcWebapp.Entity.ListenPort
import ObmcWebapp.Library.StringLiterals
import ObmcWebapp.Redfish.Resolution

/-!
# Redfish - The static segments of a generated node

A node's configuration can name static segments that stand before its own one.  The
generator renders them twice, as a part of the node's id and as the initialiser of
{lit}`uriPrefix`, and {lit}`IStaticSegments` reads the array that the compiler makes of
the initialiser.

Main results:

- Theorem {lit}`generatedUriPrefix_eq`: the array of a prefix that needs no escapes is one
  element, all segments with commas between them.
- Theorem {lit}`verifyStaticSegments_joined`: with several segments that array matches no
  path that contains them.
- Theorem {lit}`agrees_iff`: the array, the matcher, the link builder and the id agree on
  a prefix exactly when it is a single segment that needs no escapes.
-/

open Library

namespace ObmcWebapp
namespace Redfish

open Entity (cString length_cString_le cString_eq_self_iff)

/-! ## The generator -/

/-- The own segment of a node: a fixed one, or the name of a dynamic node's parameter. -/
inductive NodeSegment
  | static (segment : Bytes)
  | dynamic (parameter : Bytes)

/-- How the segment stands in an id. -/
def NodeSegment.text : NodeSegment → Bytes
  | .static segment => segment
  | .dynamic parameter => [0x7B] ++ parameter ++ [0x7D]

/-- A configured node: the id of its parent, its own segment, and the value of
{lit}`Prefix`, empty where the configuration has none. -/
structure RedfishNode where
  parent : Option Bytes
  segment : NodeSegment
  prefixText : Bytes

namespace RedfishNode

/-- The list {lit}`_prefix`. -/
def segments (node : RedfishNode) : List Bytes :=
  node.prefixText.splitOn 0x2F

/-- The node has a prefix. -/
def hasPrefix (node : RedfishNode) : Bool :=
  decide (0 < node.segments.length) && decide (node.segments.head? ≠ some [])

/-- {lit}`uri_prefix`: every segment with a slash after it. -/
def uriPrefix (node : RedfishNode) : Bytes :=
  if node.hasPrefix then (bytes "/").intercalate node.segments ++ bytes "/" else []

/-- {lit}`uri_prefix_segments`: one pair of quotes around all segments. -/
def uriPrefixSegments (node : RedfishNode) : Bytes :=
  if node.hasPrefix then [0x22] ++ (bytes ",").intercalate node.segments ++ [0x22] else []

/-- The identifier of the parent. -/
def parentId (node : RedfishNode) : Bytes :=
  match node.segment with
  | .static _ => node.parent.getD (bytes "/redfish")
  | .dynamic _ => node.parent.getD (bytes "/redfish/")

/-- The identifier of the node. -/
def id (node : RedfishNode) : Bytes :=
  node.parentId ++ (bytes "/" ++ node.uriPrefix ++ node.segment.text)

end RedfishNode

/-! ## Joined segments -/

/-- The length of segments with a separator between them. -/
theorem length_intercalate (separator : UInt8) {segments : List Bytes} (h : segments ≠ []) :
    ([separator].intercalate segments).length + 1 =
      segments.flatten.length + segments.length := by
  induction segments with
  | nil => exact absurd rfl h
  | cons first later ih =>
      cases later with
      | nil => simp
      | cons second later =>
          have hlater := ih (List.cons_ne_nil second later)
          rw [List.intercalate_cons_cons, List.flatten_cons]
          simp only [List.length_append, List.length_cons, List.length_nil] at hlater ⊢
          omega

/-- What stands among the segments. -/
theorem mem_intercalate {separator b : UInt8} {segments : List Bytes} :
    b ∈ [separator].intercalate segments → b = separator ∨ b ∈ segments.flatten := by
  induction segments with
  | nil =>
      intro hmem
      cases hmem
  | cons first later ih =>
      cases later with
      | nil =>
          intro hmem
          right
          simpa using hmem
      | cons second later =>
          intro hmem
          rw [List.intercalate_cons_cons] at hmem
          rcases List.mem_append.mp hmem with hmem | hmem
          · rcases List.mem_append.mp hmem with hfirst | hseparator
            · exact .inr (List.mem_append_left _ hfirst)
            · exact .inl (List.mem_singleton.mp hseparator)
          · exact (ih hmem).imp_right (List.mem_append_right first)

/-- The segments stand there. -/
theorem mem_intercalate_of_flatten (separator : UInt8) {b : UInt8} {segments : List Bytes} :
    b ∈ segments.flatten → b ∈ [separator].intercalate segments := by
  induction segments with
  | nil =>
      intro hmem
      cases hmem
  | cons first later ih =>
      cases later with
      | nil =>
          intro hmem
          simpa using hmem
      | cons second later =>
          intro hmem
          rw [List.intercalate_cons_cons]
          rcases List.mem_append.mp hmem with hfirst | hlater
          · exact List.mem_append_left _ (List.mem_append_left _ hfirst)
          · exact List.mem_append_right _ (ih hlater)

/-! ## The generated class -/

/-- The array {lit}`uriPrefix` of the class, none where the template leaves it out or the
compiler refuses its initialiser.  Its elements are read up to their null characters. -/
def RedfishNode.generatedUriPrefix (node : RedfishNode) : Option (List Bytes) :=
  if node.hasPrefix then
    (StringLiteral.readList node.uriPrefixSegments).map fun array => array.map cString
  else
    none

/-- {lit}`IStaticSegments::prefix`: every element with a slash after it, then the segment. -/
def staticSegmentsPrefix (uriPrefix : List Bytes) (segment : Bytes) : Bytes :=
  uriPrefix.flatMap (fun element => element ++ bytes "/") ++ segment

/-- Texts up to their end are not longer. -/
theorem flatten_cString_le (array : List Bytes) :
    (array.map cString).flatten.length ≤ array.flatten.length := by
  induction array with
  | nil => exact Nat.le_refl 0
  | cons first later ih =>
      have hfirst := length_cString_le first
      simp only [List.map_cons, List.flatten_cons, List.length_append]
      omega

/-- The stream iterator writes what {lit}`join` writes, and a slash. -/
theorem flatMap_separated {segments : List Bytes} (h : segments ≠ []) :
    segments.flatMap (fun element => element ++ bytes "/") =
      (bytes "/").intercalate segments ++ bytes "/" := by
  induction segments with
  | nil => exact absurd rfl h
  | cons first later ih =>
      cases later with
      | nil => simp
      | cons second later =>
          rw [List.flatMap_cons, ih (List.cons_ne_nil second later), List.intercalate_cons_cons]
          simp only [List.append_assoc]

/-- The path has the elements of the array from the depth on, and more behind them. -/
theorem verifyStaticSegments_iff (pathInfo uriPrefix : List Bytes) (depth : Nat) :
    (verifyStaticSegments pathInfo uriPrefix depth).1 = true ↔
      ∃ rest, rest ≠ [] ∧ pathInfo.drop depth = uriPrefix ++ rest := by
  by_cases h : depth < pathInfo.length ∧ uriPrefix <+: pathInfo.drop depth
  · obtain ⟨hdepth, rest, hrest⟩ := h
    rw [verifyStaticSegments_match hdepth ⟨rest, hrest⟩, decide_eq_true_iff]
    have hlength := congrArg List.length hrest
    rw [List.length_append, List.length_drop] at hlength
    constructor
    · intro hmore
      refine ⟨rest, ?_, hrest.symm⟩
      rintro rfl
      simp at hlength
      omega
    · rintro ⟨later, hlater, hdrop⟩
      rw [← hrest] at hdrop
      rw [List.append_cancel_left hdrop] at hlength
      have hpos := List.length_pos_iff.mpr hlater
      omega
  · rw [verifyStaticSegments_mismatch fun hdepth hstands => h ⟨hdepth, hstands⟩]
    constructor
    · intro hfalse
      cases hfalse
    · rintro ⟨rest, hne, hdrop⟩
      refine absurd ⟨?_, rest, hdrop.symm⟩ h
      have hlength := congrArg List.length hdrop
      rw [List.length_append, List.length_drop] at hlength
      have hpos := List.length_pos_iff.mpr hne
      omega

namespace RedfishNode

/-- The array has exactly the segments, the matcher accepts the paths that contain them in
order, and the link builder builds the recorded id. -/
structure Agrees (node : RedfishNode) : Prop where
  emitted : node.generatedUriPrefix = some node.segments
  accepted : ∀ uriPrefix, node.generatedUriPrefix = some uriPrefix →
    ∀ pathInfo depth, (verifyStaticSegments pathInfo uriPrefix depth).1 = true ↔
      ∃ rest, rest ≠ [] ∧ pathInfo.drop depth = node.segments ++ rest
  recorded : ∀ uriPrefix, node.generatedUriPrefix = some uriPrefix →
    node.parentId ++ (bytes "/" ++ staticSegmentsPrefix uriPrefix node.segment.text) = node.id

variable {node : RedfishNode}

/-- A prefix has a segment at least. -/
theorem segments_ne_nil (node : RedfishNode) : node.segments ≠ [] :=
  List.splitOn_ne_nil 0x2F node.prefixText

/-- A prefix that is emitted is there. -/
theorem hasPrefix_of_emitted {array : List Bytes} (h : node.generatedUriPrefix = some array) :
    node.hasPrefix = true := by
  by_contra hnone
  rw [generatedUriPrefix, if_neg hnone] at h
  cases h

/-- Nothing else can go wrong where the array is right. -/
theorem agrees_iff_emitted : node.Agrees ↔ node.generatedUriPrefix = some node.segments := by
  refine ⟨Agrees.emitted, fun hemitted => ⟨hemitted, ?_, ?_⟩⟩
  · intro uriPrefix hsome pathInfo depth
    cases hemitted.symm.trans hsome
    exact verifyStaticSegments_iff pathInfo node.segments depth
  · intro uriPrefix hsome
    cases hemitted.symm.trans hsome
    have hpresent := hasPrefix_of_emitted hemitted
    rw [id, staticSegmentsPrefix, flatMap_separated node.segments_ne_nil, uriPrefix,
      if_pos hpresent, List.append_assoc, List.append_assoc, List.append_assoc]

/-- Two segments would need two pairs of quotes. -/
theorem length_segments_of_emitted (h : node.generatedUriPrefix = some node.segments) :
    node.segments.length = 1 := by
  have hpresent := hasPrefix_of_emitted h
  rw [generatedUriPrefix, if_pos hpresent] at h
  obtain ⟨array, harray, hsegments⟩ := Option.map_eq_some_iff.mp h
  have hbound := StringLiteral.readList_bound harray
  have hflatten := flatten_cString_le array
  have hcount : array.length = node.segments.length := by
    rw [← hsegments, List.length_map]
  have htext := length_intercalate 0x2C node.segments_ne_nil
  have hpos := List.length_pos_iff.mpr node.segments_ne_nil
  have hquoted : node.uriPrefixSegments.length =
      ([0x2C].intercalate node.segments).length + 2 := by
    rw [uriPrefixSegments, if_pos hpresent]
    exact StringLiteral.quoted_length _
  rw [hsegments] at hflatten
  omega

/-- A prefix without slashes is one segment. -/
theorem single_iff : node.segments.length = 1 ↔ 0x2F ∉ node.prefixText := by
  rw [segments, length_splitOn, Nat.add_eq_right, List.count_eq_zero]

theorem segments_of_single (h : 0x2F ∉ node.prefixText) : node.segments = [node.prefixText] :=
  List.splitOn_eq_singleton h

theorem hasPrefix_of_single (hnonempty : node.prefixText ≠ []) (h : 0x2F ∉ node.prefixText) :
    node.hasPrefix = true := by
  simp [hasPrefix, segments_of_single h, hnonempty]

/-- The commas are the only new characters in the initialiser. -/
theorem mem_joined {b : UInt8} (h : b ∈ (bytes ",").intercalate node.segments) :
    b = 0x2C ∨ b ∈ node.prefixText := by
  refine (mem_intercalate h).imp_right fun hmem => ?_
  have htext := mem_intercalate_of_flatten 0x2F hmem
  rwa [segments, List.intercalate_splitOn] at htext

/-- The compiler reads the segments as one literal, with the commas in it. -/
theorem generatedUriPrefix_eq (hpresent : node.hasPrefix = true)
    (hplain : StringLiteral.Plain node.prefixText) (hzero : 0x00 ∉ node.prefixText) :
    node.generatedUriPrefix = some [(bytes ",").intercalate node.segments] := by
  have hjoined : StringLiteral.Plain ((bytes ",").intercalate node.segments) := by
    intro b hmem
    rcases mem_joined hmem with rfl | hmem
    · decide
    · exact hplain b hmem
  have hread : StringLiteral.readList node.uriPrefixSegments =
      some [(bytes ",").intercalate node.segments] := by
    rw [uriPrefixSegments, if_pos hpresent]
    exact StringLiteral.readList_quoted hjoined
  have hcString : cString ((bytes ",").intercalate node.segments) =
      (bytes ",").intercalate node.segments := by
    apply cString_eq_self_iff.mpr
    intro hmem
    rcases mem_joined hmem with heq | hmem
    · cases heq
    · exact hzero hmem
  rw [generatedUriPrefix, if_pos hpresent, hread, Option.map_some, List.map_singleton, hcString]

/-- A class with several segments is not found where its own segments stand. -/
theorem verifyStaticSegments_joined (hsegments : 0x2F ∈ node.prefixText)
    {pathInfo rest : List Bytes} {depth : Nat}
    (hpath : pathInfo.drop depth = node.segments ++ rest) :
    (verifyStaticSegments pathInfo [(bytes ",").intercalate node.segments] depth).1 = false := by
  rw [Bool.eq_false_iff, Ne, verifyStaticSegments_iff]
  rintro ⟨later, -, hdrop⟩
  have hseveral : node.segments.length ≠ 1 := fun hone => single_iff.mp hone hsegments
  have hlength := length_intercalate 0x2C node.segments_ne_nil
  obtain ⟨first, more, hcons⟩ := List.exists_cons_of_ne_nil node.segments_ne_nil
  rw [hcons] at hpath hdrop hseveral hlength
  rw [hpath] at hdrop
  have hfirst : first = [0x2C].intercalate (first :: more) := (List.cons.inj hdrop).1
  rw [← hfirst, List.flatten_cons, List.length_append, List.length_cons] at hlength
  rw [List.length_cons] at hseveral
  omega

/-- A single segment that is read back stands in its literal as it is. -/
theorem plain_of_emitted (h : node.generatedUriPrefix = some node.segments) :
    StringLiteral.Plain node.prefixText ∧ 0x00 ∉ node.prefixText := by
  have hpresent := hasPrefix_of_emitted h
  have hsegments := segments_of_single (single_iff.mp (length_segments_of_emitted h))
  rw [generatedUriPrefix, if_pos hpresent, hsegments] at h
  obtain ⟨array, harray, hstrings⟩ := Option.map_eq_some_iff.mp h
  obtain ⟨value, rfl, hvalue⟩ := List.map_eq_singleton_iff.mp hstrings
  have htext : node.uriPrefixSegments = StringLiteral.quoted node.prefixText := by
    rw [uriPrefixSegments, if_pos hpresent, hsegments, List.intercalate_singleton]
    rfl
  have hlonger := length_cString_le value
  rw [hvalue] at hlonger
  rw [htext] at harray
  obtain ⟨hquoted, hplain⟩ := StringLiteral.eq_quoted_of_readList harray
    (by rw [StringLiteral.quoted_length]; omega)
  have hsame : node.prefixText = value :=
    List.append_cancel_right ((List.cons_inj_right _).mp hquoted)
  rw [← hsame] at hvalue hplain
  exact ⟨hplain, cString_eq_self_iff.mp hvalue⟩

/-- The prefix is one segment, and it stands in a literal as it is. -/
theorem agrees_iff (node : RedfishNode) (hnonempty : node.prefixText ≠ []) :
    node.Agrees ↔
      0x2F ∉ node.prefixText ∧ StringLiteral.Plain node.prefixText ∧
        0x00 ∉ node.prefixText := by
  rw [agrees_iff_emitted]
  constructor
  · intro hemitted
    exact ⟨single_iff.mp (length_segments_of_emitted hemitted), plain_of_emitted hemitted⟩
  · rintro ⟨hsingle, hplain, hzero⟩
    have hjoined := generatedUriPrefix_eq (hasPrefix_of_single hnonempty hsingle) hplain hzero
    rwa [segments_of_single hsingle, List.intercalate_singleton,
      ← segments_of_single hsingle] at hjoined

/-- The drives of a storage node. -/
def driveNode : RedfishNode where
  parent := some
    (bytes "/redfish/v1/Systems/\x7bComputerSystemId\x7d/Storage/\x7bStorageId\x7d")
  segment := .dynamic (bytes "DriveId")
  prefixText := bytes "Drives"

/-- The generated prefix of this node is the right one. -/
theorem driveNode_agrees : driveNode.prefixText ≠ [] ∧ driveNode.Agrees :=
  ⟨by decide, (agrees_iff driveNode (by decide)).mpr (by decide)⟩

/-- The same node with one more static segment. -/
def bayDriveNode : RedfishNode :=
  { driveNode with prefixText := bytes "Bay/Drives" }

theorem bayDriveNode_not_agrees :
    bayDriveNode.segments = [bytes "Bay", bytes "Drives"] ∧
      bayDriveNode.generatedUriPrefix = some [bytes "Bay,Drives"] ∧
      ¬ bayDriveNode.Agrees := by
  have hemitted : bayDriveNode.generatedUriPrefix = some [bytes "Bay,Drives"] :=
    generatedUriPrefix_eq (by decide) (by decide) (by decide)
  refine ⟨by decide, hemitted, fun hagrees => ?_⟩
  have hsegments := hagrees.emitted
  rw [hemitted] at hsegments
  exact absurd hsegments (by decide)

end RedfishNode
end Redfish
end ObmcWebapp
