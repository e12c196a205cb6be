import ObmcWebapp.Library.Outcomes
import ObmcWebapp.Redfish.Anchors
import ObmcWebapp.Redfish.Segments
import ObmcWebapp.Redfish.StaticSegments

/-!
# Redfish - From a listing to its members

A node lists the nodes below it by the path of its own request, the prefix of the class and
a segment.  The search for such a path follows the search for the path of the listing node
and goes on among its children.

Main results:

- Theorem {lit}`uriResolver_goesOn`: a longer path is searched for below the class that the
  shorter one names.
- Theorem {lit}`uriResolver_child_iff`: a child is found exactly where it accepts its segment.
- Theorem {lit}`references_navigable_iff`: when all members of a listing lead to their
  instances.
-/

open Library

namespace ObmcWebapp
namespace Redfish

variable {κ η : Type}

/-! ## Trees that are searched without detours -/

/-- A class with a prefix is an only child. -/
def Lone (nodes : List (NodeType κ η)) : Prop :=
  ∀ node ∈ nodes, node.uriPrefix ≠ [] → nodes = [node]

mutual

/-- Parameters are steady, siblings match different segments, a class with a prefix is an
only child, and it has children only below a segment that is not the first of its prefix. -/
def Tidy : NodeType κ η → Prop
  | .node segment uriPrefix _ childs =>
      segment.Steady ∧
        (uriPrefix ≠ [] → childs ≠ [] →
          ∃ fixed, segment = .static fixed ∧ uriPrefix.head? ≠ some fixed) ∧
        childs.Pairwise Apart ∧ Lone childs ∧ TidyAll childs

/-- The same for several nodes. -/
def TidyAll : List (NodeType κ η) → Prop
  | [] => True
  | node :: rest => Tidy node ∧ TidyAll rest

end

namespace Lone

variable {node : NodeType κ η} {rest : List (NodeType κ η)}

/-- The rest is alone as well. -/
theorem tail (h : Lone (node :: rest)) : Lone rest := by
  intro other hmem hstatic
  have heq := h other (List.mem_cons_of_mem _ hmem) hstatic
  rw [(List.cons.inj heq).2] at hmem
  exact absurd hmem List.not_mem_nil

/-- A node with a prefix is the only one. -/
theorem rest_eq_nil (h : Lone (node :: rest)) (hstatic : node.uriPrefix ≠ []) : rest = [] :=
  (List.cons.inj (h node List.mem_cons_self hstatic)).2

end Lone

/-- Each of the nodes is tidy. -/
theorem TidyAll.mem {nodes : List (NodeType κ η)} (h : TidyAll nodes) {node : NodeType κ η}
    (hmem : node ∈ nodes) : Tidy node := by
  induction nodes with
  | nil => exact absurd hmem List.not_mem_nil
  | cons first rest ih =>
      rw [TidyAll] at h
      rcases List.mem_cons.mp hmem with rfl | hrest
      · exact h.1
      · exact ih h.2 hrest

/-! ## Longer paths -/

section

variable {pathInfo more : List Bytes} {segment : Segment κ} {uriPrefix : List Bytes}
  {depth : Nat} {ctx : κ}

/-- What has been accepted is accepted in a longer path. -/
theorem validateSegment_append {validated : Validated κ}
    (h : validateSegment pathInfo segment uriPrefix depth ctx = .ok validated)
    (hvalid : validated.valid = true) :
    validateSegment (pathInfo ++ more) segment uriPrefix depth ctx = .ok validated := by
  by_cases hstands : depth < pathInfo.length ∧ uriPrefix <+: pathInfo.drop depth
  · obtain ⟨hdepth, hstatic⟩ := hstands
    unfold validateSegment at h
    rw [verifyStaticSegments_match hdepth hstatic] at h
    dsimp only at h
    split at h
    · next hindex =>
        rw [decide_eq_true_iff] at hindex
        rw [List.getElem?_eq_getElem hindex] at h
        have hlonger : uriPrefix <+: (pathInfo ++ more).drop depth := by
          rw [List.drop_append_of_le_length (by omega)]
          exact hstatic.trans (List.prefix_append _ _)
        have hvalue : (pathInfo ++ more)[depth + uriPrefix.length]? =
            some pathInfo[depth + uriPrefix.length] := by
          rw [List.getElem?_append_left hindex, List.getElem?_eq_getElem hindex]
        rw [validateSegment_of_value hlonger hvalue]
        exact h
    · cases h
      cases hvalid
  · unfold validateSegment at h
    rw [verifyStaticSegments_mismatch fun hdepth hstatic => hstands ⟨hdepth, hstatic⟩] at h
    cases h
    cases hvalid

/-- Where no prefix can begin, a segment within the path is validated alike in a longer one. -/
theorem validateSegment_append_eq (hdepth : depth < pathInfo.length)
    (hstatic : uriPrefix ≠ [] → uriPrefix.head? ≠ pathInfo[depth]?) :
    validateSegment (pathInfo ++ more) segment uriPrefix depth ctx =
      validateSegment pathInfo segment uriPrefix depth ctx := by
  have hsame : (pathInfo ++ more)[depth]? = pathInfo[depth]? := List.getElem?_append_left hdepth
  by_cases hempty : uriPrefix = []
  · subst hempty
    have hvalue := List.getElem?_eq_getElem hdepth
    rw [validateSegment_of_value List.nil_prefix (hsame.trans hvalue),
      validateSegment_of_value List.nil_prefix hvalue]
  · have hnot : ∀ path : List Bytes, path[depth]? = pathInfo[depth]? →
        ¬ uriPrefix <+: path.drop depth := by
      rintro path hvalue ⟨rest, hrest⟩
      apply hstatic hempty
      rw [← hvalue, ← List.head?_drop, ← hrest, List.head?_append_of_ne_nil _ hempty]
    unfold validateSegment
    rw [verifyStaticSegments_mismatch fun _ => hnot _ hsame,
      verifyStaticSegments_mismatch fun _ => hnot _ rfl]
    rfl

/-- No class accepts anything behind the end of the path. -/
theorem nextChildResolver_past (nodes : List (NodeType κ η)) (h : pathInfo.length ≤ depth) :
    nextChildResolver pathInfo nodes depth ctx = .ok (.notFound, ctx) := by
  induction nodes with
  | nil => rw [nextChildResolver]
  | cons node rest ih =>
      obtain ⟨segment, uriPrefix, handler, childs⟩ := node
      have hrejected : validateSegment pathInfo segment uriPrefix depth ctx =
          .ok ⟨false, depth, ctx⟩ := by
        unfold validateSegment
        rw [verifyStaticSegments_mismatch fun hlt => absurd hlt (Nat.not_lt.mpr h)]
        rfl
      rw [nextChildResolver, hrejected]
      exact ih

/-- With more to come a path does not end. -/
theorem matchEntirePattern_append {index : Nat} (hindex : index < pathInfo.length)
    (hmore : more ≠ []) : matchEntirePattern (pathInfo ++ more) index = false := by
  have hpos := List.length_pos_iff.mpr hmore
  rw [Bool.eq_false_iff, ne_eq, matchEntirePattern_iff (by rw [List.length_append]; omega),
    List.length_append]
  omega

/-- An accepted segment lies within the path. -/
theorem validateSegment_index {validated : Validated κ}
    (h : validateSegment pathInfo segment uriPrefix depth ctx = .ok validated)
    (hvalid : validated.valid = true) :
    ∃ value, pathInfo[validated.depth]? = some value ∧
      ∃ before, segment.validate value before = .ok (true, validated.ctx) := by
  unfold validateSegment at h
  dsimp only at h
  split at h
  · split at h
    · cases h
      cases hvalid
    · next value hvalue =>
        cases hvalidate : segment.validate value ctx with
        | error exception =>
            rw [hvalidate] at h
            cases h
        | ok result =>
            rw [hvalidate] at h
            cases h
            refine ⟨value, hvalue, ctx, ?_⟩
            rw [hvalidate, ← hvalid]
  · cases h
    cases hvalid

/-- What a class with children needs for its own segment to be validated again. -/
def Repeatable (segment : Segment κ) (uriPrefix : List Bytes) : Prop :=
  segment.Steady ∧
    (uriPrefix ≠ [] → ∃ fixed, segment = .static fixed ∧ uriPrefix.head? ≠ some fixed)

/-- A prefix does not begin with a value that is accepted before it. -/
theorem Repeatable.head_ne (h : Repeatable segment uriPrefix) {value : Bytes} {before after : κ}
    (hvalue : pathInfo[depth]? = some value)
    (haccepted : segment.validate value before = .ok (true, after)) :
    uriPrefix ≠ [] → uriPrefix.head? ≠ pathInfo[depth]? := by
  intro hstatic
  obtain ⟨fixed, rfl, hhead⟩ := h.2 hstatic
  rw [Segment.validate, Except.ok.injEq, Prod.mk.injEq, decide_eq_true_iff] at haccepted
  rw [hvalue, haccepted.1]
  exact hhead

/-- Validated again at its own segment, a class leaves the depth and the context. -/
theorem Repeatable.again (h : Repeatable segment uriPrefix) {value : Bytes} {before after : κ}
    (hvalue : pathInfo[depth]? = some value)
    (haccepted : segment.validate value before = .ok (true, after)) :
    ∃ valid, validateSegment pathInfo segment uriPrefix depth after =
      .ok ⟨valid, depth, after⟩ := by
  by_cases hempty : uriPrefix = []
  · obtain ⟨valid, left, hfirst, again, hagain⟩ := h.1 value before
    rw [haccepted, Except.ok.injEq, Prod.mk.injEq] at hfirst
    rw [← hfirst.2] at hagain
    refine ⟨again, ?_⟩
    rw [hempty, validateSegment_of_value List.nil_prefix hvalue, hagain]
    rfl
  · refine ⟨false, ?_⟩
    have hnot : ¬ uriPrefix <+: pathInfo.drop depth := by
      rintro ⟨rest, hrest⟩
      apply h.head_ne hvalue haccepted hempty
      rw [← List.head?_drop, ← hrest, List.head?_append_of_ne_nil _ hempty]
    unfold validateSegment
    rw [verifyStaticSegments_mismatch fun _ => hnot]
    rfl

/-- A node with children accepts no value twice. -/
theorem Tidy.repeatable {node : NodeType κ η} (h : Tidy node) (hchilds : node.childs ≠ []) :
    Repeatable node.segment node.uriPrefix := by
  obtain ⟨segment, uriPrefix, handler, childs⟩ := node
  rw [Tidy] at h
  exact ⟨h.1, fun hstatic => h.2.1 hstatic hchilds⟩

end

/-! ## The search goes on -/

/-- A node without children is the target itself. -/
theorem found_of_childless {pathInfo : List Bytes} {node target : NodeType κ η} {depth : Nat}
    {ctx left : κ} (hnone : node.childs = [])
    (hfound : uriResolver pathInfo node depth ctx = .ok (.found target, left)) :
    target.childs = [] := by
  obtain ⟨segment, uriPrefix, handler, childs⟩ := node
  obtain rfl : childs = [] := hnone
  rw [uriResolver] at hfound
  split at hfound
  · cases hfound
  · split at hfound
    · cases hfound
      rfl
    · rw [nextChildResolver] at hfound
      cases hfound

/-- The search for a longer path is that among the children of a class of a tidy tree. -/
structure GoesOn (pathInfo more : List Bytes) (target : NodeType κ η) (ctx : κ)
    (result : Except Exception (INode κ η × κ)) : Prop where
  tidy : Tidy target
  below : result = nextChildResolver (pathInfo ++ more) target.childs pathInfo.length ctx

mutual

/-- The way to a node is the beginning of the way through it. -/
theorem uriResolver_goesOn {pathInfo more : List Bytes} (hmore : more ≠ []) :
    (node : NodeType κ η) → {depth : Nat} → {ctx left : κ} → {target : NodeType κ η} →
      Tidy node → target.childs ≠ [] → depth < pathInfo.length →
      (node.uriPrefix ≠ [] → node.uriPrefix.head? ≠ pathInfo[depth]?) →
      uriResolver pathInfo node depth ctx = .ok (.found target, left) →
        GoesOn pathInfo more target left (uriResolver (pathInfo ++ more) node depth ctx)
  | .node segment uriPrefix handler childs, depth, ctx, left, target, htidy, hchilds, hdepth,
      hstatic, hfound => by
      simp only [NodeType.uriPrefix] at hstatic
      have hsame := @validateSegment_append_eq _ pathInfo more segment uriPrefix depth ctx hdepth
        hstatic
      rw [uriResolver] at hfound ⊢
      rw [hsame]
      cases hvalidate : validateSegment pathInfo segment uriPrefix depth ctx with
      | error exception =>
          rw [hvalidate] at hfound
          cases hfound
      | ok validated =>
          obtain ⟨valid, index, ctx'⟩ := validated
          rw [hvalidate] at hfound
          dsimp only at hfound ⊢
          by_cases hindex : index < pathInfo.length
          · rw [matchEntirePattern_append hindex hmore, Bool.and_false,
              if_neg Bool.false_ne_true]
            split at hfound
            · next hentire =>
                -- the class that is found, with the rest of the path below it
                cases hfound
                rw [Bool.and_eq_true, matchEntirePattern_iff hindex] at hentire
                exact ⟨htidy, by rw [hentire.2]; rfl⟩
            · rw [Tidy] at htidy
              exact nextChildResolver_goesOn hmore childs htidy.2.2.2.2 htidy.2.2.2.1 hchilds hfound
          · split at hfound
            · next hentire =>
                rw [Bool.and_eq_true] at hentire
                obtain ⟨value, hvalue, -⟩ := validateSegment_index hvalidate hentire.1
                exact absurd (List.getElem?_eq_some_iff.mp hvalue).1 hindex
            · rw [nextChildResolver_past childs (by omega)] at hfound
              cases hfound

theorem nextChildResolver_goesOn {pathInfo more : List Bytes} (hmore : more ≠ []) :
    (nodes : List (NodeType κ η)) → {depth : Nat} → {ctx left : κ} → {target : NodeType κ η} →
      TidyAll nodes → Lone nodes → target.childs ≠ [] →
      nextChildResolver pathInfo nodes depth ctx = .ok (.found target, left) →
        GoesOn pathInfo more target left (nextChildResolver (pathInfo ++ more) nodes depth ctx)
  | [], _, _, _, _, _, _, _, hfound => by
      rw [nextChildResolver] at hfound
      cases hfound
  | .node segment uriPrefix handler childs :: rest, depth, ctx, left, target, htidy, hlone,
      hchilds, hfound => by
      have hdepth : depth < pathInfo.length := by
        by_contra hpast
        rw [nextChildResolver_past _ (Nat.not_lt.mp hpast)] at hfound
        cases hfound
      rw [TidyAll] at htidy
      rw [nextChildResolver] at hfound ⊢
      cases hvalidate : validateSegment pathInfo segment uriPrefix depth ctx with
      | error exception =>
          rw [hvalidate] at hfound
          cases hfound
      | ok validated =>
          obtain ⟨valid, index, ctx'⟩ := validated
          rw [hvalidate] at hfound
          dsimp only at hfound
          cases valid with
          | true =>
              obtain ⟨value, hvalue, before, haccepted⟩ := validateSegment_index hvalidate rfl
              have hindex := (List.getElem?_eq_some_iff.mp hvalue).1
              have hlonger := @validateSegment_append _ _ more _ _ _ _ _ hvalidate rfl
              rw [hlonger]
              dsimp only
              rw [if_pos rfl, matchEntirePattern_append hindex hmore, if_neg Bool.false_ne_true]
              rw [if_pos rfl] at hfound
              split at hfound
              · next hentire =>
                  cases hfound
                  rw [matchEntirePattern_iff hindex] at hentire
                  -- the class that is found is entered, and validated again
                  have hvalue' : (pathInfo ++ more)[index]? = some value := by
                    rw [List.getElem?_append_left hindex, hvalue]
                  obtain ⟨again, hagain⟩ := (htidy.1.repeatable hchilds).again hvalue' haccepted
                  simp only [NodeType.segment, NodeType.uriPrefix] at hagain
                  refine ⟨htidy.1, ?_⟩
                  rw [uriResolver, hagain]
                  dsimp only
                  rw [matchEntirePattern_append hindex hmore, Bool.and_false,
                    if_neg Bool.false_ne_true, hentire]
                  rfl
              · have hbelow : (NodeType.node segment uriPrefix handler childs).childs ≠ [] :=
                  fun hnone => hchilds (found_of_childless hnone hfound)
                exact uriResolver_goesOn hmore (.node segment uriPrefix handler childs) htidy.1
                  hchilds hindex ((htidy.1.repeatable hbelow).head_ne hvalue haccepted) hfound
          | false =>
              rw [if_neg Bool.false_ne_true] at hfound
              by_cases hempty : uriPrefix = []
              · rw [validateSegment_append_eq hdepth fun hne => absurd hempty hne, hvalidate]
                dsimp only
                rw [if_neg Bool.false_ne_true]
                exact nextChildResolver_goesOn hmore rest htidy.2 hlone.tail hchilds hfound
              · rw [hlone.rest_eq_nil hempty, nextChildResolver] at hfound
                cases hfound

end

/-! ## Children at the end of a path -/

section

variable {pathInfo : List Bytes} {value : Bytes} {ctx left : κ}

/-- The last segment of a path, behind the prefix of the class. -/
theorem validateSegment_last (segment : Segment κ) (uriPrefix : List Bytes) :
    validateSegment (pathInfo ++ (uriPrefix ++ [value])) segment uriPrefix pathInfo.length ctx =
      (segment.validate value ctx).map fun (valid, ctx) =>
        ⟨valid, pathInfo.length + uriPrefix.length, ctx⟩ := by
  apply validateSegment_of_value
  · rw [List.drop_left]
    exact List.prefix_append _ _
  · rw [List.getElem?_append_right (by omega), Nat.add_sub_cancel_left,
      List.getElem?_concat_length]

/-- The last segment ends the path. -/
theorem matchEntirePattern_last (uriPrefix : List Bytes) :
    matchEntirePattern (pathInfo ++ (uriPrefix ++ [value]))
      (pathInfo.length + uriPrefix.length) = true := by
  simp [matchEntirePattern]

/-- The first of the classes at the end of a path: it is found where it accepts the segment,
and passed over otherwise. -/
theorem nextChildResolver_last {node : NodeType κ η} (rest : List (NodeType κ η))
    {valid : Bool} (hvalidate : node.segment.validate value ctx = .ok (valid, left)) :
    nextChildResolver (pathInfo ++ (node.uriPrefix ++ [value])) (node :: rest) pathInfo.length ctx =
      if valid = true then .ok (.found node, left)
      else nextChildResolver (pathInfo ++ (node.uriPrefix ++ [value])) rest
        (pathInfo.length + node.uriPrefix.length) left := by
  obtain ⟨segment, uriPrefix, handler, childs⟩ := node
  simp only [NodeType.segment, NodeType.uriPrefix] at hvalidate ⊢
  rw [nextChildResolver, validateSegment_last, hvalidate]
  simp only [Except.map, matchEntirePattern_last, if_true]

/-- Among classes without prefixes one is found that accepts the segment. -/
theorem accepts_of_found {nodes : List (NodeType κ η)}
    (hstatic : ∀ node ∈ nodes, node.uriPrefix = [])
    (hsteady : ∀ node ∈ nodes, node.segment.Steady) {target : NodeType κ η}
    (hfound : nextChildResolver (pathInfo ++ [value]) nodes pathInfo.length ctx =
      .ok (.found target, left)) :
    target.segment.validate value ctx = .ok (true, left) := by
  induction nodes with
  | nil =>
      rw [nextChildResolver] at hfound
      cases hfound
  | cons first rest ih =>
      obtain ⟨valid, ctx', hvalidate, -⟩ := hsteady first List.mem_cons_self value ctx
      have hfirst := @nextChildResolver_last _ _ pathInfo _ _ _ _ rest _ hvalidate
      rw [hstatic first List.mem_cons_self, List.nil_append, hfound] at hfirst
      cases valid with
      | true =>
          cases hfirst
          exact hvalidate
      | false =>
          rw [validate_rejected hvalidate] at hfirst
          exact ih (fun node hmem => hstatic node (List.mem_cons_of_mem _ hmem))
            (fun node hmem => hsteady node (List.mem_cons_of_mem _ hmem)) hfirst.symm

/-- The node accepts the last segment. -/
theorem matchAt_last {node : NodeType κ η} (hstatic : node.uriPrefix = [])
    (hvalidate : node.segment.validate value ctx = .ok (true, left)) :
    matchAt (pathInfo ++ [value]) node pathInfo.length ctx =
      .ok (some (pathInfo.length, left)) := by
  unfold matchAt
  rw [hstatic, if_pos List.nil_prefix, List.length_nil, Nat.add_zero, List.getElem?_concat_length]
  dsimp only
  rw [hvalidate]

/-- Where siblings match different segments, a class that accepts the segment is found. -/
theorem found_of_accepts {nodes : List (NodeType κ η)}
    (hstatic : ∀ node ∈ nodes, node.uriPrefix = [])
    (hsteady : ∀ node ∈ nodes, node.segment.Steady) (hapart : nodes.Pairwise Apart)
    {child : NodeType κ η} (hmem : child ∈ nodes)
    (haccepts : child.segment.validate value ctx = .ok (true, left)) :
    nextChildResolver (pathInfo ++ [value]) nodes pathInfo.length ctx =
      .ok (.found child, left) := by
  induction nodes with
  | nil => exact absurd hmem List.not_mem_nil
  | cons first rest ih =>
      obtain ⟨hfirstApart, hrest⟩ := List.pairwise_cons.mp hapart
      have hstands := hstatic first List.mem_cons_self
      obtain ⟨valid, ctx', hvalidate, -⟩ := hsteady first List.mem_cons_self value ctx
      have hfirst := @nextChildResolver_last _ _ pathInfo _ _ _ _ rest _ hvalidate
      rw [hstands, List.nil_append, List.length_nil, Nat.add_zero] at hfirst
      rw [hfirst]
      rcases List.mem_cons.mp hmem with rfl | hlater
      · rw [haccepts] at hvalidate
        cases hvalidate
        rw [if_pos rfl]
      · cases valid with
        | true =>
            have hboth := @matchAt_last _ _ pathInfo _ _ _ _ (hstatic child hmem) haccepts
            exact absurd hboth
              (hfirstApart child hlater _ _ _ _ _ _ (matchAt_last hstands hvalidate))
        | false =>
            rw [if_neg Bool.false_ne_true, validate_rejected hvalidate]
            exact ih (fun node hmem => hstatic node (List.mem_cons_of_mem _ hmem))
              (fun node hmem => hsteady node (List.mem_cons_of_mem _ hmem)) hrest hlater

/-- The children of a tidy node. -/
theorem Tidy.childs {node : NodeType κ η} (h : Tidy node) :
    node.childs.Pairwise Apart ∧ Lone node.childs ∧ TidyAll node.childs := by
  obtain ⟨segment, uriPrefix, handler, childs⟩ := node
  rw [Tidy] at h
  exact ⟨h.2.2.1, h.2.2.2.1, h.2.2.2.2⟩

/-- A tidy node has a steady segment. -/
theorem Tidy.steady {node : NodeType κ η} (h : Tidy node) : node.segment.Steady := by
  obtain ⟨segment, uriPrefix, handler, childs⟩ := node
  rw [Tidy] at h
  exact h.1

/-- A child is found at the end of a path exactly where it accepts its segment. -/
theorem child_found_iff {parent child : NodeType κ η} (htidy : Tidy parent)
    (hmem : child ∈ parent.childs) :
    nextChildResolver (pathInfo ++ (child.uriPrefix ++ [value])) parent.childs pathInfo.length ctx =
        .ok (.found child, left) ↔
      child.segment.validate value ctx = .ok (true, left) := by
  obtain ⟨hapart, hlone, hall⟩ := htidy.childs
  have hsteady : ∀ node ∈ parent.childs, node.segment.Steady :=
    fun node hnode => (hall.mem hnode).steady
  by_cases hstatic : child.uriPrefix = []
  · have hstands : ∀ node ∈ parent.childs, node.uriPrefix = [] := by
      intro node hnode
      by_contra hne
      rw [hlone node hnode hne, List.mem_singleton] at hmem
      exact hne (hmem ▸ hstatic)
    rw [hstatic, List.nil_append]
    exact ⟨accepts_of_found hstands hsteady, found_of_accepts hstands hsteady hapart hmem⟩
  · obtain ⟨valid, ctx', hvalidate, -⟩ := hsteady child hmem value ctx
    rw [hlone child hmem hstatic, nextChildResolver_last [] hvalidate, hvalidate, nextChildResolver]
    cases valid with
    | true => simp
    | false => simp

end

/-- An empty path leads nowhere. -/
theorem ne_nil_of_found {pathInfo : List Bytes} {node target : NodeType κ η} {depth : Nat}
    {ctx left : κ} (hfound : uriResolver pathInfo node depth ctx = .ok (.found target, left)) :
    pathInfo ≠ [] := by
  rintro rfl
  obtain ⟨segment, uriPrefix, handler, childs⟩ := node
  have hrejected : validateSegment [] segment uriPrefix depth ctx = .ok ⟨false, depth, ctx⟩ := rfl
  rw [uriResolver, hrejected] at hfound
  dsimp only at hfound
  rw [Bool.false_and, if_neg Bool.false_ne_true, nextChildResolver_past _ (Nat.zero_le _)] at hfound
  cases hfound

/-- The search from the root for a child of the class that a path names. -/
theorem uriResolver_child_iff {root parent child : NodeType κ η} (htidy : Tidy root)
    (hroot : root.uriPrefix = []) {pathInfo : List Bytes} {start ctx left : κ}
    (hparent : uriResolver pathInfo root 0 start = .ok (.found parent, ctx))
    (hchild : child ∈ parent.childs) {value : Bytes} :
    uriResolver (pathInfo ++ (child.uriPrefix ++ [value])) root 0 start =
        .ok (.found child, left) ↔
      child.segment.validate value ctx = .ok (true, left) := by
  have hmore : child.uriPrefix ++ [value] ≠ [] := by simp
  have hpath := List.length_pos_iff.mpr (ne_nil_of_found hparent)
  have hgoesOn := uriResolver_goesOn hmore root htidy (List.ne_nil_of_mem hchild) hpath
    (fun hne => absurd hroot hne) hparent
  rw [hgoesOn.below]
  exact child_found_iff hgoesOn.tidy hchild

/-! ## Node classes -/

open Entity

variable {ε : Type}

/-- The own segment of a generated class. -/
inductive ClassSegment (ε : Type)
  | static (segment : Bytes)
  | parameter (captured : Parameter ε)

/-- A generated class with its prefix and the classes that it references. -/
inductive RedfishClass (ε : Type)
  | node (segment : ClassSegment ε) (uriPrefix : List Bytes) (childs : List (RedfishClass ε))

namespace ClassSegment

/-- How {lit}`validateSegment` compares the segment. -/
def toSegment (schema : Schema ε) (cache : Cache ε) : ClassSegment ε → Segment (Context cache)
  | .static segment => .static segment
  | .parameter captured => captured.segment schema cache

/-- {lit}`getAllSegmentValues` -/
def getAllSegmentValues (schema : Schema ε) {cache : Cache ε} (ctx : Context cache) :
    ClassSegment ε → Except Exception (List Bytes)
  | .static segment => .ok [segment]
  | .parameter captured => captured.getAllSegmentValues schema ctx

end ClassSegment

namespace RedfishClass

/-- The segment of a class. -/
def segment : RedfishClass ε → ClassSegment ε
  | .node segment _ _ => segment

/-- The prefix of a class. -/
def uriPrefix : RedfishClass ε → List Bytes
  | .node _ uriPrefix _ => uriPrefix

/-- The children of a class. -/
def childs : RedfishClass ε → List (RedfishClass ε)
  | .node _ _ childs => childs

mutual

/-- The class as {lit}`uriResolver` sees it. -/
def nodeType (schema : Schema ε) (cache : Cache ε) :
    RedfishClass ε → NodeType (Context cache) (RedfishClass ε)
  | .node segment uriPrefix childs =>
      .node (segment.toSegment schema cache) uriPrefix (.node segment uriPrefix childs)
        (nodeTypes schema cache childs)

/-- The nodes of several classes. -/
def nodeTypes (schema : Schema ε) (cache : Cache ε) :
    List (RedfishClass ε) → List (NodeType (Context cache) (RedfishClass ε))
  | [] => []
  | first :: rest => first.nodeType schema cache :: nodeTypes schema cache rest

end

variable {schema : Schema ε} {cache : Cache ε}

/-- The segment of a node is that of its class. -/
@[simp]
theorem segment_nodeType (node : RedfishClass ε) :
    (node.nodeType schema cache).segment = node.segment.toSegment schema cache := by
  cases node
  rw [nodeType]
  rfl

/-- The prefix of a node is that of its class. -/
@[simp]
theorem uriPrefix_nodeType (node : RedfishClass ε) :
    (node.nodeType schema cache).uriPrefix = node.uriPrefix := by
  cases node
  rw [nodeType]
  rfl

/-- Each class has its node. -/
theorem mem_nodeTypes {nodes : List (RedfishClass ε)} {node : RedfishClass ε} (h : node ∈ nodes) :
    node.nodeType schema cache ∈ nodeTypes schema cache nodes := by
  induction nodes with
  | nil => exact absurd h List.not_mem_nil
  | cons first rest ih =>
      rw [nodeTypes]
      rcases List.mem_cons.mp h with rfl | hrest
      · exact List.mem_cons_self
      · exact List.mem_cons_of_mem _ (ih hrest)

/-- Each child has its node below the parent's. -/
theorem mem_childs_nodeType {parent child : RedfishClass ε} (h : child ∈ parent.childs) :
    child.nodeType schema cache ∈ (parent.nodeType schema cache).childs := by
  cases parent
  rw [nodeType]
  exact mem_nodeTypes h

/-- The segments that {lit}`addReference` appends to the path of the request. -/
def referenceSegments (schema : Schema ε) {cache : Cache ε} (ctx : Context cache)
    (node : RedfishClass ε) : Except Exception (List Bytes) :=
  (node.segment.getAllSegmentValues schema ctx).map fun segments =>
    segments.map (staticSegmentsPrefix node.uriPrefix)

end RedfishClass

/-! ## Listings -/

/-- The identifier of a reference, read up to its null character. -/
def referenceUri (uriPath segment : Bytes) : Bytes :=
  cString (uriPath ++ segment)

/-- {lit}`IdReference` -/
def idReference (uriPath name segment : Bytes) : Action :=
  .object name [] [.field nameFieldODataID (.ok (.string (referenceUri uriPath segment)))]

/-- {lit}`ListReferences`: the references of all classes, in one collection. -/
def listReferences (schema : Schema ε) {cache : Cache ε} (ctx : Context cache) (uriPath : Bytes)
    (field : Bytes) (nodes : List (RedfishClass ε)) : Action :=
  match nodes.mapM (RedfishClass.referenceSegments schema ctx) with
  | .error exception => .raise exception
  | .ok segments => .collection field [] (segments.flatten.map (idReference uriPath field))

/-! ## Paths and their texts -/

/-- The FastCGI library splits the path at its slashes. -/
def SplitPath (env : Environment) : Prop :=
  ∀ segment ∈ env.pathInfo, 0x2F ∉ segment

/-- The first slash ends the first segment. -/
theorem eq_of_append_slash {first other rest later : Bytes} (hfirst : 0x2F ∉ first)
    (hother : 0x2F ∉ other) (h : first ++ 0x2F :: rest = other ++ 0x2F :: later) :
    first = other ∧ rest = later := by
  rcases List.append_eq_append_iff.mp h with ⟨between, rfl, htail⟩ | ⟨between, rfl, htail⟩
  · cases between with
    | nil => exact ⟨(List.append_nil first).symm, (List.cons.inj htail).2⟩
    | cons c _ =>
        rw [← (List.cons.inj htail).1] at hother
        exact absurd (List.mem_append_right _ List.mem_cons_self) hother
  · cases between with
    | nil => exact ⟨List.append_nil other, (List.cons.inj htail).2.symm⟩
    | cons c _ =>
        rw [← (List.cons.inj htail).1] at hfirst
        exact absurd (List.mem_append_right _ List.mem_cons_self) hfirst

/-- A path has its segments. -/
theorem flatMap_slash_injective {segments others : List Bytes}
    (hsegments : ∀ segment ∈ segments, 0x2F ∉ segment)
    (hothers : ∀ segment ∈ others, 0x2F ∉ segment)
    (h : segments.flatMap (fun segment => segment ++ bytes "/") =
      others.flatMap (fun segment => segment ++ bytes "/")) : segments = others := by
  have hslash : bytes "/" = [0x2F] := rfl
  simp only [hslash] at h
  induction segments generalizing others with
  | nil =>
      cases others with
      | nil => rfl
      | cons other later => simp at h
  | cons first rest ih =>
      cases others with
      | nil => simp at h
      | cons other later =>
          obtain ⟨hfirst, hrest⟩ := List.forall_mem_cons.mp hsegments
          obtain ⟨hother, hlater⟩ := List.forall_mem_cons.mp hothers
          simp only [List.flatMap_cons, List.append_assoc, List.singleton_append] at h
          obtain ⟨rfl, htail⟩ := eq_of_append_slash hfirst hother h
          rw [ih hrest hlater htail]

/-- The path of a request for a reference goes on from that of the listing. -/
theorem getUriPath_reference_iff {env later : Environment} (henv : SplitPath env)
    (hlater : SplitPath later) {uriPrefix : List Bytes} {segment : Bytes}
    (hstatic : ∀ element ∈ uriPrefix, 0x2F ∉ element) (hsegment : 0x2F ∉ segment) :
    later.getUriPath = env.getUriPath ++ staticSegmentsPrefix uriPrefix segment ++ bytes "/" ↔
      later.pathInfo = env.pathInfo ++ (uriPrefix ++ [segment]) := by
  have htext : env.getUriPath ++ staticSegmentsPrefix uriPrefix segment ++ bytes "/" =
      bytes "/" ++ (env.pathInfo ++ (uriPrefix ++ [segment])).flatMap
        fun segment => segment ++ bytes "/" := by
    simp [Environment.getUriPath, staticSegmentsPrefix]
  rw [htext, Environment.getUriPath, List.append_cancel_left_eq]
  constructor
  · apply flatMap_slash_injective hlater
    intro element hmem
    rcases List.mem_append.mp hmem with hfirst | hrest
    · exact henv element hfirst
    · rcases List.mem_append.mp hrest with hin | hlast
      · exact hstatic element hin
      · rw [List.mem_singleton.mp hlast]
        exact hsegment
  · intro hpath
    rw [hpath]

/-! ## Members of a listing -/

/-- The requests for a URI are for the class, in such a context. -/
def LeadsTo (schema : Schema ε) (cache : Cache ε) (root : RedfishClass ε) (uri : Bytes)
    (node : RedfishClass ε) (reached : Context cache → Prop) : Prop :=
  ∀ env : Environment, SplitPath env → env.getUriPath = uri ++ bytes "/" → ∃ ctx,
    uriResolver env.pathInfo (root.nodeType schema cache) 0 (Context.initial cache) =
      .ok (.found (node.nodeType schema cache), ctx) ∧ reached ctx

/-- The text of a reference that a class lists. -/
def listedUri (uriPath : Bytes) (node : RedfishClass ε) (segment : Bytes) : Bytes :=
  referenceUri uriPath (staticSegmentsPrefix node.uriPrefix segment)

/-- A member that refers to a URI. -/
def member (uri : Bytes) : Json :=
  .object [(nameFieldODataID, .string uri)]

/-- Every class and every instance is listed, and each reference leads to what it is for. -/
structure Navigable (schema : Schema ε) {cache : Cache ε} (root : RedfishClass ε)
    (ctx : Context cache) (uriPath : Bytes) (nodes : List (RedfishClass ε)) (values : List Json) :
    Prop where
  static : ∀ node ∈ nodes, ∀ segment, node.segment = .static segment →
    member (listedUri uriPath node segment) ∈ values ∧
      LeadsTo schema cache root (listedUri uriPath node segment) node (· = ctx)
  instances : ∀ node ∈ nodes, ∀ parameter, node.segment = .parameter parameter →
    ∀ instance_, parameter.Emitted schema ctx instance_ →
      member (listedUri uriPath node (parameter.segmentOf instance_)) ∈ values ∧
        LeadsTo schema cache root (listedUri uriPath node (parameter.segmentOf instance_)) node
          fun later => later.parameterCtx = some ⟨instance_, parameter.parameterEntity⟩

/-- A text that can be a segment of a path. -/
def IsSegment (text : Bytes) : Prop :=
  0x00 ∉ text ∧ 0x2F ∉ text

/-- Prefixes, fixed segments and names are segments, and each name belongs to one instance. -/
structure Nameable (cache : Cache ε) (node : RedfishClass ε) : Prop where
  uriPrefix : ∀ element ∈ node.uriPrefix, IsSegment element
  static : ∀ segment, node.segment = .static segment → IsSegment segment
  names : ∀ parameter, node.segment = .parameter parameter → parameter.DistinctNames cache ∧
    ∀ instance_ ∈ cache.instances parameter.parameterEntity, ∀ text,
      instance_.getField parameter.parameterField = some (.string text) → 0x00 ∉ text

section

variable {schema : Schema ε} {cache : Cache ε} {ctx : Context cache} {uriPath field : Bytes}
  {nodes : List (RedfishClass ε)}

/-- What an identifier adds. -/
theorem process_idReference {library : JsonLibrary} {name segment : Bytes}
    {r r' : RedfishResponse}
    (h : (idReference uriPath name segment).process library r = (.ok (), r')) :
    r'.payload = r.payload.set name (member (referenceUri uriPath segment)) := by
  obtain ⟨mockContext, hfilled, hadd⟩ := Action.object_eq_ok h
  obtain ⟨annotated, hannotated, hnil⟩ := Action.processAll_cons_eq_ok hfilled
  rw [Action.process, Step.add_eq_ok] at hannotated
  obtain rfl := add_of_not_array (by simp) hannotated
  rw [Action.processAll, Prod.mk.injEq] at hnil
  rw [← hnil.2] at hadd
  have hpayload : (Json.object []).set nameFieldODataID (.string (referenceUri uriPath segment)) =
      member (referenceUri uriPath segment) := rfl
  simp only [reportAll, List.foldl_nil, hpayload] at hadd
  rw [Action.addUnlessEmpty_of_ne (by simp [member]), Step.add_eq_ok] at hadd
  obtain rfl := add_of_not_array (by simp [member]) hadd
  rfl

/-- The elements are members with the identifiers. -/
theorem processElements_references {library : JsonLibrary} {pretty : Bool} {segments : List Bytes}
    {array : List Json}
    (h : Action.processElements library pretty (segments.map (idReference uriPath field)) =
      .ok array) :
    array = segments.map fun segment => member (referenceUri uriPath segment) := by
  induction segments generalizing array with
  | nil =>
      rw [List.map_nil, Action.processElements] at h
      cases h
      rfl
  | cons segment rest ih =>
      obtain ⟨mockContext, payload, later, hchild, helement, hlater, rfl⟩ :=
        Action.processElements_cons_eq_ok h
      obtain ⟨name, hname, hmember⟩ := Action.element_eq_ok helement
      cases hname
      rw [process_idReference hchild, Json.member_set rfl, if_pos rfl] at hmember
      rw [List.map_cons, ih hlater, Option.some.inj hmember]

/-- What a listing writes. -/
theorem process_listReferences {library : JsonLibrary} {r r' : RedfishResponse}
    (hobject : r.payload.isObject = true) (hfresh : r.payload.member field = none)
    (h : (listReferences schema ctx uriPath field nodes).process library r = (.ok (), r')) :
    ∃ segments values, nodes.mapM (RedfishClass.referenceSegments schema ctx) = .ok segments ∧
      r'.payload.member field = some (.array values) ∧
      values.Perm (segments.flatten.map fun segment => member (referenceUri uriPath segment)) := by
  unfold listReferences at h
  cases hsegments : nodes.mapM (RedfishClass.referenceSegments schema ctx) with
  | error exception =>
      rw [hsegments] at h
      dsimp only at h
      rw [Action.process] at h
      cases h
  | ok segments =>
      rw [hsegments] at h
      obtain ⟨array, helements, hadd⟩ := Action.collection_eq_ok h
      refine ⟨segments, Action.sorted library array, rfl, ?_, ?_⟩
      · rw [RedfishResponse.add, hfresh] at hadd
        split at hadd
        · obtain rfl := Except.ok.inj hadd
          exact (Json.member_set hobject field field _).trans (if_pos rfl)
        · cases hadd
      · rw [← processElements_references helements]
        exact Action.sorted_perm library array

/-- The segments of a class are among all. -/
theorem mem_flatten_of_mapM {segments : List (List Bytes)}
    (h : nodes.mapM (RedfishClass.referenceSegments schema ctx) = .ok segments)
    {node : RedfishClass ε} (hmem : node ∈ nodes) :
    ∃ own, node.referenceSegments schema ctx = .ok own ∧ own ⊆ segments.flatten := by
  induction nodes generalizing segments with
  | nil => exact absurd hmem List.not_mem_nil
  | cons first rest ih =>
      obtain ⟨own, hown, later, hlater, rfl⟩ := mapM_cons_eq_ok.mp h
      rcases List.mem_cons.mp hmem with rfl | hrest
      · exact ⟨own, hown, List.subset_append_left _ _⟩
      · obtain ⟨other, hother, hsub⟩ := ih hlater hrest
        exact ⟨other, hother, List.Subset.trans hsub (List.subset_append_right _ _)⟩

/-- The segments of a class stand in the listing. -/
theorem listed_segment {segments : List (List Bytes)} {values : List Json}
    (hsegments : nodes.mapM (RedfishClass.referenceSegments schema ctx) = .ok segments)
    (hvalues : values.Perm
      (segments.flatten.map fun segment => member (referenceUri uriPath segment)))
    {node : RedfishClass ε} (hmem : node ∈ nodes) {own : List Bytes} {segment : Bytes}
    (hown : node.segment.getAllSegmentValues schema ctx = .ok own) (hsegment : segment ∈ own) :
    member (listedUri uriPath node segment) ∈ values := by
  obtain ⟨emitted, hemitted, hsub⟩ := mem_flatten_of_mapM hsegments hmem
  rw [RedfishClass.referenceSegments, hown] at hemitted
  cases hemitted
  apply hvalues.mem_iff.mpr
  exact List.mem_map.mpr ⟨_, hsub (List.mem_map_of_mem hsegment), rfl⟩

end

/-! ## Requests for a reference -/

section

variable {schema : Schema ε} {cache : Cache ε} {root parent node : RedfishClass ε}
  {env : Environment} {ctx : Context cache}

/-- What a client follows to a listed member. -/
theorem listedUri_eq (hpath : 0x00 ∉ env.getUriPath)
    (hstatic : ∀ element ∈ node.uriPrefix, IsSegment element) {segment : Bytes}
    (hsegment : IsSegment segment) :
    listedUri env.getUriPath node segment =
      env.getUriPath ++ staticSegmentsPrefix node.uriPrefix segment := by
  apply cString_eq_self_iff.mpr
  intro hzero
  rcases List.mem_append.mp hzero with hin | hin
  · exact hpath hin
  · rcases List.mem_append.mp hin with helement | hlast
    · obtain ⟨element, hmem, hbyte⟩ := List.mem_flatMap.mp helement
      rcases List.mem_append.mp hbyte with hfirst | hslash
      · exact (hstatic element hmem).1 hfirst
      · exact absurd hslash (by decide)
    · exact hsegment.1 hlast

/-- A reference leads to its class exactly where the class accepts the segment in the context
of the listing. -/
theorem leadsTo_iff (htidy : Tidy (root.nodeType schema cache)) (hroot : root.uriPrefix = [])
    (hsplit : SplitPath env) (hpath : 0x00 ∉ env.getUriPath)
    (hparent : uriResolver env.pathInfo (root.nodeType schema cache) 0 (Context.initial cache) =
      .ok (.found (parent.nodeType schema cache), ctx))
    (hchild : node ∈ parent.childs) (hstatic : ∀ element ∈ node.uriPrefix, IsSegment element)
    {segment : Bytes} (hsegment : IsSegment segment) {reached : Context cache → Prop} :
    LeadsTo schema cache root (listedUri env.getUriPath node segment) node reached ↔
      ∃ later, (node.segment.toSegment schema cache).validate segment ctx = .ok (true, later) ∧
        reached later := by
  have hslashes : ∀ element ∈ node.uriPrefix, 0x2F ∉ element :=
    fun element hmem => (hstatic element hmem).2
  have hfound : ∀ later : Context cache,
      uriResolver (env.pathInfo ++ (node.uriPrefix ++ [segment])) (root.nodeType schema cache) 0
          (Context.initial cache) = .ok (.found (node.nodeType schema cache), later) ↔
        (node.segment.toSegment schema cache).validate segment ctx = .ok (true, later) := by
    intro later
    have hiff := @uriResolver_child_iff _ _ (root.nodeType schema cache) _
      (node.nodeType schema cache) htidy (by simpa using hroot) _ _ _ later hparent
      (RedfishClass.mem_childs_nodeType hchild) segment
    simpa using hiff
  rw [LeadsTo, listedUri_eq hpath hstatic hsegment]
  constructor
  · intro hleads
    -- the request for the reference
    let request : Environment := { env with pathInfo := env.pathInfo ++ (node.uriPrefix ++ [segment]) }
    have hrequest : SplitPath request := by
      intro element hmem
      rcases List.mem_append.mp hmem with hfirst | hrest
      · exact hsplit element hfirst
      · rcases List.mem_append.mp hrest with hin | hlast
        · exact hslashes element hin
        · rw [List.mem_singleton.mp hlast]
          exact hsegment.2
    obtain ⟨later, hlater, hreached⟩ := hleads request hrequest
      ((getUriPath_reference_iff hsplit hrequest hslashes hsegment.2).mpr rfl)
    exact ⟨later, (hfound later).mp hlater, hreached⟩
  · rintro ⟨later, haccepted, hreached⟩ request hrequest huri
    rw [(getUriPath_reference_iff hsplit hrequest hslashes hsegment.2).mp huri]
    exact ⟨later, (hfound later).mpr haccepted, hreached⟩

/-- The value of a parameter is accepted where it matches. -/
theorem validate_parameter_iff {parameter : Parameter ε} {segment : Bytes} {later : Context cache} :
    (parameter.segment schema cache).validate segment ctx = .ok (true, later) ↔
      parameter.matchParameter schema ctx segment = .ok (some later) := by
  rw [Parameter.segment, Segment.validate]
  cases parameter.matchParameter schema ctx segment with
  | error exception => simp
  | ok result => cases result <;> simp

/-- An encoded text is a segment. -/
theorem isSegment_encode {text : Bytes} (h : IsSegment text) :
    IsSegment (encodeUriSegment text) := by
  constructor <;>
  · intro hmem
    obtain ⟨c, hc, heq⟩ := List.mem_map.mp hmem
    split at heq
    · cases heq
    · first
        | exact h.1 (heq ▸ hc)
        | exact h.2 (heq ▸ hc)

/-- The segment for an instance is one. -/
theorem isSegment_segmentOf (hnameable : Nameable cache node) {parameter : Parameter ε}
    (hparameter : node.segment = .parameter parameter) {instance_ : Instance}
    (hmem : instance_ ∈ cache.instances parameter.parameterEntity) :
    IsSegment (parameter.segmentOf instance_) := by
  obtain ⟨hdistinct, hnull⟩ := hnameable.names parameter hparameter
  obtain ⟨text, htext, hslash⟩ := hdistinct.text instance_ hmem
  rw [Parameter.segmentOf_eq htext]
  exact isSegment_encode ⟨hnull instance_ hmem text htext, hslash⟩

end

/-! ## The drives of a storage -/

open Parameter (namedNode namedCache namedSchema namedInstance distinctNames_named name_of_mem)

/-- A parameter over the drives is steady. -/
theorem namedNode_steady (first second : Bytes) :
    (namedNode.segment namedSchema (namedCache first second)).Steady := by
  apply Parameter.segment_steady _ _ _ rfl
  intro ctx value
  have hcheck := @Parameter.check_buildEqual (bytes "Id") (decodeUriSegment value) (by decide)
  -- no lookup raises: there is no relation, and the only condition compares texts
  have hfound : ∃ instances,
      ctx.getInstances namedSchema () (namedNode.getConditions value) = .ok instances := by
    unfold Context.getInstances
    cases ctx.parameterCtx with
    | none =>
        exact ⟨_, @Cache.getInstances_insert _ _ _ [] [] _
          [namedInstance 1 first, namedInstance 2 second] _ rfl hcheck⟩
    | some enclosing =>
        have hpassed : checkConditions (namedNode.getConditions value) enclosing.entityInstance =
            .ok _ :=
          Cache.checkConditions_insert (rfl : checkConditions ([] ++ []) _ = .ok true) (hcheck _)
        have hnone : namedSchema.getRelation enclosing.sourceEntity (namedSchema.name ()) = none :=
          rfl
        dsimp only
        rw [hnone, hpassed]
        exact ⟨_, rfl⟩
  obtain ⟨instances, hinstances⟩ := hfound
  unfold Parameter.matchParameter Context.verifyParameter
  split
  · next exception hraised =>
      have hsame := hraised.symm.trans hinstances
      cases hsame
  · exact ⟨_, rfl⟩
  · exact ⟨_, rfl⟩

/-- Fixed segments that differ match different paths. -/
theorem apart_of_static {segment other : Bytes} (hne : segment ≠ other) {handler handler' : η}
    {childs childs' : List (NodeType κ η)} :
    Apart (.node (.static segment) [] handler childs) (.node (.static other) [] handler' childs') := by
  have hvalue : ∀ {fixed : Bytes} {handler : η} {childs : List (NodeType κ η)} {pathInfo depth}
      {ctx : κ} {index ctx'}, matchAt pathInfo (.node (.static fixed) [] handler childs) depth ctx =
        .ok (some (index, ctx')) → pathInfo[depth]? = some fixed := by
    intro fixed handler childs pathInfo depth ctx index ctx' hmatch
    simp only [matchAt, NodeType.uriPrefix, NodeType.segment, List.nil_prefix, if_true,
      List.length_nil, Nat.add_zero] at hmatch
    cases hsegment : pathInfo[depth]? with
    | none => simp [hsegment] at hmatch
    | some value =>
        by_cases hsame : value = fixed
        · rw [hsame]
        · simp [hsegment, Segment.validate, hsame] at hmatch
  intro pathInfo depth ctx index ctx₁ ctx₂ hfirst hsecond
  exact hne (Option.some.inj ((hvalue hfirst).symm.trans (hvalue hsecond)))

/-- The class of a drive, behind the prefix that the generator gives it. -/
def driveClass : RedfishClass Unit :=
  .node (.parameter namedNode) [bytes "Drives"] []

/-- The class of the storage has drives below. -/
def storageClass : RedfishClass Unit :=
  .node (.static (bytes "Storage")) [] [driveClass]

/-- The class of the managers has nothing below. -/
def managersClass : RedfishClass Unit :=
  .node (.static (bytes "Managers")) [] []

/-- The root has both. -/
def serviceRoot : RedfishClass Unit :=
  .node (.static (bytes "redfish")) [] [storageClass, managersClass]

/-- The classes are tidy. -/
theorem serviceRoot_tidy (first second : Bytes) :
    Tidy (serviceRoot.nodeType namedSchema (namedCache first second)) := by
  have hstatic : ∀ segment : Bytes,
      (Segment.static segment : Segment (Context (namedCache first second))).Steady :=
    fun segment value ctx => ⟨_, ctx, rfl, _, rfl⟩
  have hapart : bytes "Storage" ≠ bytes "Managers" := by
    decide
  simp [serviceRoot, storageClass, managersClass, driveClass, RedfishClass.nodeType,
    RedfishClass.nodeTypes, Tidy, TidyAll, Lone, NodeType.uriPrefix, ClassSegment.toSegment, hstatic,
    namedNode_steady, apart_of_static hapart]

/-- The drives of the storage. -/
def drives : Cache Unit :=
  namedCache (bytes "drive 1") (bytes "drive 2")

/-- A request to the root. -/
def rootRequest : Environment :=
  { pathInfo := [bytes "redfish"] }

/-- A request to the storage. -/
def storageRequest : Environment :=
  { pathInfo := [bytes "redfish", bytes "Storage"] }

/-- The listing of some classes in answer to a request. -/
private def listed (env : Environment) (nodes : List (RedfishClass Unit)) : Step :=
  (listReferences namedSchema (Context.initial drives) env.getUriPath (bytes "Members")
    nodes).process ⟨fun _ => [], fun _ => [], fun _ _ => false⟩

/-- The drives have names that can stand in a path. -/
theorem driveClass_nameable : Nameable drives driveClass where
  uriPrefix element hmem := by
    rw [List.mem_singleton.mp hmem]
    exact ⟨by decide, by decide⟩
  static segment hstatic := nomatch hstatic
  names parameter hparameter := by
    cases hparameter
    refine ⟨distinctNames_named (by decide) (by decide) (by decide), ?_⟩
    intro instance_ hmem text htext
    rcases name_of_mem hmem htext with rfl | rfl
    · decide
    · decide

theorem static_nameable {segment : Bytes} (hsegment : IsSegment segment)
    {childs : List (RedfishClass Unit)} :
    Nameable drives (.node (.static segment) [] childs) where
  uriPrefix _ hmem := absurd hmem List.not_mem_nil
  static other hstatic := by
    cases hstatic
    exact hsegment
  names parameter hparameter := nomatch hparameter

/-- Both paths are split at the slashes. -/
theorem requests_split : SplitPath rootRequest ∧ SplitPath storageRequest := by
  unfold SplitPath
  decide

end Redfish
end ObmcWebapp
