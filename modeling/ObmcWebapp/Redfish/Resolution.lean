import ObmcWebapp.Redfish.Resolver

/-!
# Redfish - What a path resolves to

The chain of classes that a path names, every segment evaluated once in the context
that the class above leaves, and the paths for which the search finds it.

Main results:

- Theorem {lit}`uriResolver_resolves`: an undisturbed search finds the class that the
  path names.
- Theorem {lit}`undisturbedAmong_of_plain`: without prefixes every search is
  undisturbed.
-/

open Library

namespace ObmcWebapp
namespace Redfish

variable {κ η : Type}

/-! ## The classes that a path names -/

/-- The index of the segment and the context after it, where the class matches the path
at a depth. -/
def matchAt (pathInfo : List Bytes) (node : NodeType κ η) (depth : Nat) (ctx : κ) :
    Except Exception (Option (Nat × κ)) :=
  if node.uriPrefix <+: pathInfo.drop depth then
    match pathInfo[depth + node.uriPrefix.length]? with
    | none => .ok none
    | some value =>
        match node.segment.validate value ctx with
        | .error exception => .error exception
        | .ok (false, _) => .ok none
        | .ok (true, ctx) => .ok (some (depth + node.uriPrefix.length, ctx))
  else
    .ok none

/-- The chain of prefixes and segments from a class down to another one matches the rest
of the path. -/
inductive Chain (pathInfo : List Bytes) : NodeType κ η → Nat → κ → NodeType κ η → κ → Prop
  | last {node : NodeType κ η} {depth index : Nat} {ctx ctx' : κ}
      (hmatch : matchAt pathInfo node depth ctx = .ok (some (index, ctx')))
      (hlast : index + 1 = pathInfo.length) : Chain pathInfo node depth ctx node ctx'
  | child {node child target : NodeType κ η} {depth index : Nat} {ctx ctx' ctx'' : κ}
      (hmatch : matchAt pathInfo node depth ctx = .ok (some (index, ctx')))
      (hchild : child ∈ node.childs)
      (hrest : Chain pathInfo child (index + 1) ctx' target ctx'') :
      Chain pathInfo node depth ctx target ctx''

/-- One of the classes leads to the end of the path. -/
def Leads (pathInfo : List Bytes) (nodes : List (NodeType κ η)) (depth : Nat) (ctx : κ) : Prop :=
  ∃ node ∈ nodes, ∃ target ctx', Chain pathInfo node depth ctx target ctx'

/-- The result is the class at the end of a chain, or there is none. -/
def Resolves (pathInfo : List Bytes) (nodes : List (NodeType κ η)) (depth : Nat) (ctx : κ) :
    Except Exception (INode κ η × κ) → Prop
  | .ok (.found target, ctx') => ∃ node ∈ nodes, Chain pathInfo node depth ctx target ctx'
  | .ok (.notFound, _) => ¬ Leads pathInfo nodes depth ctx
  | .error _ => False

/-! ## Undisturbed searches -/

/-- The prefix of a class stands at a depth of the path. -/
def PrefixOccurs (pathInfo : List Bytes) (node : NodeType κ η) (depth : Nat) : Prop :=
  node.uriPrefix ≠ [] ∧ node.uriPrefix <+: pathInfo.drop depth

/-- The second validation of a class, at the index of its own segment, changes
nothing. -/
def RepeatsUnchanged (pathInfo : List Bytes) (node : NodeType κ η) (index : Nat) (ctx : κ) :
    Prop :=
  ¬ PrefixOccurs pathInfo node index ∧
    (node.uriPrefix = [] → ∀ value, pathInfo[index]? = some value →
      ∃ valid, node.segment.validate value ctx = .ok (valid, ctx))

mutual

/-- Below a class whose segment stands at the index. -/
def UndisturbedBelow (pathInfo : List Bytes) : NodeType κ η → Nat → κ → Prop
  | .node _ _ _ childs, index, ctx => UndisturbedAmong pathInfo childs (index + 1) ctx

/-- No parameter raises; a class that is passed over has no prefix standing there that
shifts the classes after it; and a class that is entered is validated again without
effect, and is on the way to the end of the path if any class after it is. -/
def UndisturbedAmong (pathInfo : List Bytes) : List (NodeType κ η) → Nat → κ → Prop
  | [], _, _ => True
  | node :: rest, depth, ctx =>
      match matchAt pathInfo node depth ctx with
      | .error _ => False
      | .ok none =>
          (rest ≠ [] → ¬ PrefixOccurs pathInfo node depth) ∧
            UndisturbedAmong pathInfo rest depth ctx
      | .ok (some (index, ctx')) =>
          index + 1 ≠ pathInfo.length →
            RepeatsUnchanged pathInfo node index ctx' ∧ UndisturbedBelow pathInfo node index ctx' ∧
              (Leads pathInfo rest depth ctx → Leads pathInfo [node] depth ctx)

end

/-! ## One validation -/

/-- The index of a match is one of the path. -/
theorem matchAt_index {pathInfo : List Bytes} {node : NodeType κ η} {depth index : Nat}
    {ctx ctx' : κ} (h : matchAt pathInfo node depth ctx = .ok (some (index, ctx'))) :
    index < pathInfo.length := by
  unfold matchAt at h
  split at h
  · split at h
    · cases h
    · next value hvalue =>
        split at h
        · cases h
        · cases h
        · cases h
          exact (List.getElem?_eq_some_iff.mp hvalue).1
  · cases h

/-- A rejected value leaves the context. -/
theorem validate_rejected {segment : Segment κ} {value : Bytes} {ctx left : κ}
    (h : segment.validate value ctx = .ok (false, left)) : left = ctx := by
  unfold Segment.validate at h
  split at h
  · rw [Except.ok.injEq, Prod.mk.injEq] at h
    exact h.2.symm
  · split at h
    · cases h
    · cases h
      rfl
    · cases h

/-- A prefix that stands there is found. -/
theorem verifyStaticSegments_match {pathInfo uriPrefix : List Bytes} {depth : Nat}
    (hdepth : depth < pathInfo.length) (hstands : uriPrefix <+: pathInfo.drop depth) :
    verifyStaticSegments pathInfo uriPrefix depth =
      (decide (depth + uriPrefix.length < pathInfo.length), depth + uriPrefix.length) := by
  unfold verifyStaticSegments
  rw [if_neg (Nat.not_le.mpr hdepth), if_pos (List.isPrefixOf_iff_prefix.mpr hstands)]

/-- Any other prefix is not found. -/
theorem verifyStaticSegments_mismatch {pathInfo uriPrefix : List Bytes} {depth : Nat}
    (h : depth < pathInfo.length → ¬ uriPrefix <+: pathInfo.drop depth) :
    verifyStaticSegments pathInfo uriPrefix depth = (false, depth) := by
  unfold verifyStaticSegments
  split
  · rfl
  · next hdepth =>
      rw [if_neg]
      intro hstands
      exact h (Nat.not_le.mp hdepth) (List.isPrefixOf_iff_prefix.mp hstands)

/-- The segment is validated where the prefix stands before it. -/
theorem validateSegment_of_value {pathInfo uriPrefix : List Bytes} {segment : Segment κ}
    {depth : Nat} {ctx : κ} {value : Bytes} (hstands : uriPrefix <+: pathInfo.drop depth)
    (hvalue : pathInfo[depth + uriPrefix.length]? = some value) :
    validateSegment pathInfo segment uriPrefix depth ctx =
      (segment.validate value ctx).map fun (valid, ctx) =>
        ⟨valid, depth + uriPrefix.length, ctx⟩ := by
  obtain ⟨hindex, -⟩ := List.getElem?_eq_some_iff.mp hvalue
  have hdepth : depth < pathInfo.length := by omega
  unfold validateSegment
  rw [verifyStaticSegments_match hdepth hstands]
  simp only [hindex, decide_true, if_true]
  rw [hvalue]

/-- A match is validated. -/
theorem validateSegment_of_match {pathInfo : List Bytes} {node : NodeType κ η}
    {depth index : Nat} {ctx ctx' : κ}
    (h : matchAt pathInfo node depth ctx = .ok (some (index, ctx'))) :
    validateSegment pathInfo node.segment node.uriPrefix depth ctx = .ok ⟨true, index, ctx'⟩ := by
  unfold matchAt at h
  split at h
  · next hstands =>
      split at h
      · cases h
      · next value hvalue =>
          rw [validateSegment_of_value hstands hvalue]
          split at h
          · cases h
          · cases h
          · next hvalidate =>
              cases h
              rw [hvalidate]
              rfl
  · cases h

/-- A class that does not match leaves the depth as it was, unless its prefix stands
there: then the prefix is added to it. -/
theorem validateSegment_of_none {pathInfo : List Bytes} {node : NodeType κ η} {depth : Nat}
    {ctx : κ} (h : matchAt pathInfo node depth ctx = .ok none) :
    ∃ left, validateSegment pathInfo node.segment node.uriPrefix depth ctx =
        .ok ⟨false, left, ctx⟩ ∧ (¬ PrefixOccurs pathInfo node depth → left = depth) := by
  unfold matchAt at h
  split at h
  · next hstands =>
      have hleft : ¬ PrefixOccurs pathInfo node depth →
          depth + node.uriPrefix.length = depth := by
        intro hno
        have hempty : node.uriPrefix = [] := by
          by_contra hne
          exact hno ⟨hne, hstands⟩
        simp [hempty]
      split at h
      · next hnone =>
          have hend := List.getElem?_eq_none_iff.mp hnone
          by_cases hdepth : depth < pathInfo.length
          · refine ⟨depth + node.uriPrefix.length, ?_, hleft⟩
            unfold validateSegment
            rw [verifyStaticSegments_match hdepth hstands]
            simp only [Nat.not_lt.mpr hend, decide_false, Bool.false_eq_true, if_false]
          · refine ⟨depth, ?_, fun _ => rfl⟩
            unfold validateSegment
            rw [verifyStaticSegments_mismatch fun hlt => absurd hlt hdepth]
            rfl
      · next value hvalue =>
          refine ⟨depth + node.uriPrefix.length, ?_, hleft⟩
          rw [validateSegment_of_value hstands hvalue]
          split at h
          · cases h
          · next left hvalidate =>
              rw [hvalidate, validate_rejected hvalidate]
              rfl
          · cases h
  · next hstands =>
      refine ⟨depth, ?_, fun _ => rfl⟩
      unfold validateSegment
      rw [verifyStaticSegments_mismatch fun _ => hstands]
      rfl

/-- The second validation of a class leaves the depth and the context. -/
theorem validateSegment_repeated {pathInfo : List Bytes} {node : NodeType κ η} {index : Nat}
    {ctx : κ} (hindex : index < pathInfo.length)
    (h : RepeatsUnchanged pathInfo node index ctx) :
    ∃ valid, validateSegment pathInfo node.segment node.uriPrefix index ctx =
      .ok ⟨valid, index, ctx⟩ := by
  by_cases hempty : node.uriPrefix = []
  · have hvalue := List.getElem?_eq_getElem hindex
    obtain ⟨valid, hvalidate⟩ := h.2 hempty _ hvalue
    refine ⟨valid, ?_⟩
    rw [hempty, validateSegment_of_value List.nil_prefix hvalue, hvalidate]
    rfl
  · refine ⟨false, ?_⟩
    unfold validateSegment
    rw [verifyStaticSegments_mismatch fun _ hstands => h.1 ⟨hempty, hstands⟩]
    rfl

/-! ## The search -/

/-- A path ends with its last segment. -/
theorem matchEntirePattern_iff {pathInfo : List Bytes} {index : Nat}
    (hindex : index < pathInfo.length) :
    matchEntirePattern pathInfo index = true ↔ index + 1 = pathInfo.length := by
  unfold matchEntirePattern
  rw [decide_eq_true_iff]
  omega

/-- Of a class that matches before the end of the path only the classes below it lead
there. -/
theorem leads_below {pathInfo : List Bytes} {node : NodeType κ η} {depth index : Nat}
    {ctx ctx' : κ} (hmatch : matchAt pathInfo node depth ctx = .ok (some (index, ctx')))
    (hnot : index + 1 ≠ pathInfo.length) (h : Leads pathInfo [node] depth ctx) :
    Leads pathInfo node.childs (index + 1) ctx' := by
  obtain ⟨node', hmem, target, left, hchain⟩ := h
  rw [List.mem_singleton.mp hmem] at hchain
  cases hchain with
  | last hmatch' hlast =>
      rw [hmatch] at hmatch'
      cases hmatch'
      exact absurd hlast hnot
  | child hmatch' hchild hrest =>
      rw [hmatch] at hmatch'
      cases hmatch'
      exact ⟨_, hchild, _, _, hrest⟩

/-- A class that does not match leads nowhere. -/
theorem not_chain_of_none {pathInfo : List Bytes} {node : NodeType κ η} {depth : Nat} {ctx : κ}
    (hmatch : matchAt pathInfo node depth ctx = .ok none) {target : NodeType κ η} {ctx' : κ} :
    ¬ Chain pathInfo node depth ctx target ctx' := by
  intro hchain
  cases hchain with
  | last hmatch' _ =>
      rw [hmatch] at hmatch'
      cases hmatch'
  | child hmatch' _ _ =>
      rw [hmatch] at hmatch'
      cases hmatch'

/-- What the classes below an entered one resolve to is what it resolves to. -/
theorem resolves_entered {pathInfo : List Bytes} {node : NodeType κ η}
    {rest : List (NodeType κ η)} {depth index : Nat} {ctx ctx' : κ}
    (hmatch : matchAt pathInfo node depth ctx = .ok (some (index, ctx')))
    (hnot : index + 1 ≠ pathInfo.length)
    (hway : Leads pathInfo rest depth ctx → Leads pathInfo [node] depth ctx)
    {result : Except Exception (INode κ η × κ)}
    (h : Resolves pathInfo node.childs (index + 1) ctx' result) :
    Resolves pathInfo (node :: rest) depth ctx result := by
  match result with
  | .error _ => exact h
  | .ok (.found target, left) =>
      obtain ⟨child, hchild, hchain⟩ := h
      exact ⟨node, List.mem_cons_self .., Chain.child hmatch hchild hchain⟩
  | .ok (.notFound, left) =>
      intro hleads
      apply h
      apply leads_below hmatch hnot
      obtain ⟨node', hmem, target, left', hchain⟩ := hleads
      rcases List.mem_cons.mp hmem with hnode | hrest
      · exact ⟨node, List.mem_singleton_self _, target, left', hnode ▸ hchain⟩
      · exact hway ⟨node', hrest, target, left', hchain⟩

/-- What the later classes resolve to is what all do after one that does not match. -/
theorem resolves_passed {pathInfo : List Bytes} {node : NodeType κ η}
    {rest : List (NodeType κ η)} {depth : Nat} {ctx : κ}
    (hmatch : matchAt pathInfo node depth ctx = .ok none)
    {result : Except Exception (INode κ η × κ)} (h : Resolves pathInfo rest depth ctx result) :
    Resolves pathInfo (node :: rest) depth ctx result := by
  match result with
  | .error _ => exact h
  | .ok (.found target, left) =>
      obtain ⟨node', hmem, hchain⟩ := h
      exact ⟨node', List.mem_cons_of_mem _ hmem, hchain⟩
  | .ok (.notFound, left) =>
      intro hleads
      obtain ⟨node', hmem, target, left', hchain⟩ := hleads
      rcases List.mem_cons.mp hmem with hnode | hrest
      · rw [hnode] at hchain
        exact not_chain_of_none hmatch hchain
      · exact h ⟨node', hrest, target, left', hchain⟩

mutual

/-- Below a node that does not end the path. -/
theorem uriResolver_below (pathInfo : List Bytes) : (node : NodeType κ η) → (index : Nat) →
    (ctx : κ) → index < pathInfo.length → index + 1 ≠ pathInfo.length →
      RepeatsUnchanged pathInfo node index ctx → UndisturbedBelow pathInfo node index ctx →
        Resolves pathInfo node.childs (index + 1) ctx (uriResolver pathInfo node index ctx)
  | .node segment uriPrefix handler childs, index, ctx, hindex, hnot, hrepeat, hbelow => by
      obtain ⟨valid, hvalidate⟩ := validateSegment_repeated hindex hrepeat
      simp only [NodeType.segment, NodeType.uriPrefix] at hvalidate
      have hentire : matchEntirePattern pathInfo index = false := by
        rw [Bool.eq_false_iff, ne_eq, matchEntirePattern_iff hindex]
        exact hnot
      rw [uriResolver, hvalidate]
      simp only [hentire, Bool.and_false, Bool.false_eq_true, if_false]
      simp only [UndisturbedBelow] at hbelow
      exact nextChildResolver_resolves pathInfo childs (index + 1) ctx hbelow

/-- Among several nodes. -/
theorem nextChildResolver_resolves (pathInfo : List Bytes) : (nodes : List (NodeType κ η)) →
    (depth : Nat) → (ctx : κ) → UndisturbedAmong pathInfo nodes depth ctx →
      Resolves pathInfo nodes depth ctx (nextChildResolver pathInfo nodes depth ctx)
  | [], depth, ctx, _ => by
      simp [nextChildResolver, Resolves, Leads]
  | .node segment uriPrefix handler childs :: rest, depth, ctx, h => by
      rw [UndisturbedAmong] at h
      rw [nextChildResolver]
      match hmatch : matchAt pathInfo (.node segment uriPrefix handler childs) depth ctx with
      | .error exception =>
          rw [hmatch] at h
          exact h.elim
      | .ok none =>
          rw [hmatch] at h
          obtain ⟨left, hvalidate, hleft⟩ := validateSegment_of_none hmatch
          simp only [NodeType.segment, NodeType.uriPrefix] at hvalidate
          rw [hvalidate]
          apply resolves_passed hmatch
          cases rest with
          | nil => simp [nextChildResolver, Resolves, Leads]
          | cons next others =>
              rw [hleft (h.1 (List.cons_ne_nil _ _))]
              exact nextChildResolver_resolves pathInfo (next :: others) depth ctx h.2
      | .ok (some (index, ctx')) =>
          rw [hmatch] at h
          have hindex := matchAt_index hmatch
          have hvalidate := validateSegment_of_match hmatch
          simp only [NodeType.segment, NodeType.uriPrefix] at hvalidate
          rw [hvalidate]
          by_cases hlast : index + 1 = pathInfo.length
          · simp only [(matchEntirePattern_iff hindex).mpr hlast, if_true]
            exact ⟨_, List.mem_cons_self .., Chain.last hmatch hlast⟩
          · have hentire := mt (matchEntirePattern_iff hindex).mp hlast
            obtain ⟨hrepeat, hbelow, hway⟩ := h hlast
            simp only [hentire, if_true]
            apply resolves_entered hmatch hlast hway
            exact uriResolver_below pathInfo (.node segment uriPrefix handler childs) index ctx'
              hindex hlast hrepeat hbelow

end

/-- An undisturbed search from the root resolves every path that begins with the root's
segment. -/
theorem uriResolver_resolves (segment : Bytes) (rest : List Bytes) (handler : η)
    (childs : List (NodeType κ η)) (ctx : κ)
    (h : UndisturbedAmong (segment :: rest) childs 1 ctx) :
    Resolves (segment :: rest) [.node (.static segment) [] handler childs] 0 ctx
      (uriResolver (segment :: rest) (.node (.static segment) [] handler childs) 0 ctx) := by
  have hmatch : matchAt (segment :: rest)
      (.node (.static segment) [] handler childs : NodeType κ η) 0 ctx =
        .ok (some (0, ctx)) := by
    simp [matchAt, NodeType.uriPrefix, NodeType.segment, Segment.validate]
  have hvalidate := validateSegment_of_match hmatch
  simp only [NodeType.segment, NodeType.uriPrefix] at hvalidate
  rw [uriResolver, hvalidate]
  have hindex : 0 < (segment :: rest).length := Nat.zero_lt_succ _
  by_cases hlast : 0 + 1 = (segment :: rest).length
  · simp only [(matchEntirePattern_iff hindex).mpr hlast, Bool.and_self, if_true]
    exact ⟨_, List.mem_singleton_self _, Chain.last hmatch hlast⟩
  · have hentire := mt (matchEntirePattern_iff hindex).mp hlast
    simp only [hentire, Bool.and_false, Bool.false_eq_true, if_false]
    apply resolves_entered hmatch hlast
    · intro hleads
      obtain ⟨_, hmem, _⟩ := hleads
      exact absurd hmem List.not_mem_nil
    · exact nextChildResolver_resolves (segment :: rest) childs 1 ctx h

/-! ## The sensors of a chassis -/

/-- A class with a prefix, which the path does not name. -/
def sessions : NodeType (Option Bytes) Nat :=
  .node (.static (bytes "Sessions")) [bytes "SessionService"] 2 []

/-- The class of the sensors. -/
def sensors : NodeType (Option Bytes) Nat :=
  .node (.static (bytes "Sensors")) [] 4 []

/-- A class with a prefix and a parameter, which records every value. -/
def chassis : NodeType (Option Bytes) Nat :=
  .node (.parameter fun _ value => .ok (some (some value))) [bytes "Chassis"] 3 [sensors]

/-- The class of the version has several children. -/
def versionClass : NodeType (Option Bytes) Nat :=
  .node (.static (bytes "v1")) [] 1
    [sessions, chassis, .node (.static (bytes "Systems")) [] 5 []]

/-- The path of the sensors of a chassis. -/
def sensorsPath : List Bytes :=
  [bytes "redfish", bytes "v1", bytes "Chassis", bytes "BMC", bytes "Sensors"]

/-- The resolver finds the sensors. -/
theorem uriResolver_resolves_sensors :
    Resolves sensorsPath [.node (.static (bytes "redfish")) [] 0 [versionClass]] 0 none
      (uriResolver sensorsPath (.node (.static (bytes "redfish")) [] 0 [versionClass]) 0 none) := by
  apply uriResolver_resolves
  have hversion : matchAt sensorsPath versionClass 1 none = .ok (some (1, none)) := by
    rfl
  have hsessions : matchAt sensorsPath sessions 2 none = .ok none := by
    rfl
  have hchassis : matchAt sensorsPath chassis 2 none =
      .ok (some (3, some (bytes "BMC"))) := by
    rfl
  have hsensors : matchAt sensorsPath sensors 4 (some (bytes "BMC")) =
      .ok (some (4, some (bytes "BMC"))) := by
    rfl
  change UndisturbedAmong sensorsPath [versionClass] 1 none
  rw [UndisturbedAmong, hversion]
  intro _
  refine ⟨⟨fun hoccurs => hoccurs.1 rfl, fun _ value _ => ⟨_, rfl⟩⟩, ?_, ?_⟩
  · rw [versionClass, UndisturbedBelow, UndisturbedAmong, hsessions]
    refine ⟨fun _ hoccurs => absurd hoccurs.2 (by decide), ?_⟩
    rw [UndisturbedAmong, hchassis]
    intro _
    refine ⟨⟨fun hoccurs => absurd hoccurs.2 (by decide), fun hempty => by cases hempty⟩, ?_, ?_⟩
    · rw [chassis, UndisturbedBelow, UndisturbedAmong, hsensors]
      exact fun hnot => absurd rfl hnot
    · intro _
      exact ⟨chassis, List.mem_singleton_self _, sensors, _,
        .child hchassis (List.mem_singleton_self _) (.last hsensors rfl)⟩
  · intro hleads
    obtain ⟨_, hmem, _⟩ := hleads
    exact absurd hmem List.not_mem_nil

/-! ## Siblings -/

/-- No two siblings match the same segments of a path. -/
def Apart (first second : NodeType κ η) : Prop :=
  ∀ pathInfo depth ctx index ctx₁ ctx₂,
    matchAt pathInfo first depth ctx = .ok (some (index, ctx₁)) →
      matchAt pathInfo second depth ctx ≠ .ok (some (index, ctx₂))

/-- A match moves past its prefix. -/
theorem matchAt_length {pathInfo : List Bytes} {node : NodeType κ η} {depth index : Nat}
    {ctx ctx' : κ} (h : matchAt pathInfo node depth ctx = .ok (some (index, ctx'))) :
    index = depth + node.uriPrefix.length := by
  unfold matchAt at h
  split at h
  · split at h
    · cases h
    · split at h
      · cases h
      · cases h
      · cases h
        rfl
  · cases h

/-- A parameter never raises, and evaluated again it keeps the context. -/
def Segment.Steady (segment : Segment κ) : Prop :=
  ∀ value ctx, ∃ valid ctx', segment.validate value ctx = .ok (valid, ctx') ∧
    ∃ valid', segment.validate value ctx' = .ok (valid', ctx')

mutual

/-- A tree without prefixes in which no two siblings match the same segments. -/
def Plain : NodeType κ η → Prop
  | .node segment uriPrefix _ childs =>
      uriPrefix = [] ∧ segment.Steady ∧ childs.Pairwise Apart ∧ PlainAll childs

/-- The same for several nodes. -/
def PlainAll : List (NodeType κ η) → Prop
  | [] => True
  | node :: rest => Plain node ∧ PlainAll rest

end

/-- Plain nodes have no prefix. -/
theorem PlainAll.uriPrefix {nodes : List (NodeType κ η)} (h : PlainAll nodes)
    {node : NodeType κ η} (hmem : node ∈ nodes) : node.uriPrefix = [] := by
  induction nodes with
  | nil => exact absurd hmem List.not_mem_nil
  | cons first rest ih =>
      rw [PlainAll] at h
      rcases List.mem_cons.mp hmem with hfirst | hrest
      · obtain ⟨segment, uriPrefix, handler, childs⟩ := first
        have hplain := h.1
        rw [Plain] at hplain
        rw [hfirst]
        exact hplain.1
      · exact ih h.2 hrest

/-- A steady segment raises nothing. -/
theorem matchAt_steady {pathInfo : List Bytes} {node : NodeType κ η}
    (hsteady : node.segment.Steady) {depth : Nat} {ctx : κ} {exception : Exception} :
    matchAt pathInfo node depth ctx ≠ .error exception := by
  intro h
  unfold matchAt at h
  split at h
  · split at h
    · cases h
    · next value _ =>
        obtain ⟨valid, ctx', hvalidate, -⟩ := hsteady value ctx
        rw [hvalidate] at h
        cases valid <;> cases h
  · cases h

/-- Where the next siblings have no prefix, only one of two that are apart leads on. -/
theorem not_leads_of_apart {pathInfo : List Bytes} {node : NodeType κ η}
    {rest : List (NodeType κ η)} {depth index : Nat} {ctx ctx' : κ}
    (hmatch : matchAt pathInfo node depth ctx = .ok (some (index, ctx')))
    (hstands : node.uriPrefix = []) (hrest : PlainAll rest) (hapart : ∀ next ∈ rest, Apart node next) :
    ¬ Leads pathInfo rest depth ctx := by
  intro hleads
  obtain ⟨next, hmem, target, left, hchain⟩ := hleads
  have hsame : ∀ {index' ctx''}, matchAt pathInfo next depth ctx = .ok (some (index', ctx'')) →
      False := by
    intro index' ctx'' hnext
    have hindex := matchAt_length hmatch
    have hindex' := matchAt_length hnext
    rw [hstands] at hindex
    rw [hrest.uriPrefix hmem, ← hindex] at hindex'
    rw [hindex'] at hnext
    exact hapart next hmem _ _ _ _ _ _ hmatch hnext
  cases hchain with
  | last hnext _ => exact hsame hnext
  | child hnext _ _ => exact hsame hnext

/-- A steady segment is repeated without a change. -/
theorem repeatsUnchanged_of_steady {pathInfo : List Bytes} {node : NodeType κ η}
    {depth index : Nat} {ctx ctx' : κ} (hstands : node.uriPrefix = [])
    (hsteady : node.segment.Steady)
    (hmatch : matchAt pathInfo node depth ctx = .ok (some (index, ctx'))) :
    RepeatsUnchanged pathInfo node index ctx' := by
  refine ⟨fun hoccurs => hoccurs.1 hstands, ?_⟩
  intro _ value hvalue
  have hindex := matchAt_length hmatch
  rw [hstands, List.length_nil, Nat.add_zero] at hindex
  rw [hindex] at hvalue
  unfold matchAt at hmatch
  rw [hstands, if_pos List.nil_prefix, List.length_nil, Nat.add_zero, hvalue] at hmatch
  obtain ⟨valid, left, hvalidate, hagain⟩ := hsteady value ctx
  dsimp only at hmatch
  rw [hvalidate] at hmatch
  cases valid with
  | false => cases hmatch
  | true =>
      cases hmatch
      exact hagain

mutual

/-- Below a plain node nothing is disturbed. -/
theorem undisturbedBelow_of_plain (pathInfo : List Bytes) : (node : NodeType κ η) →
    Plain node → (index : Nat) → (ctx : κ) → UndisturbedBelow pathInfo node index ctx
  | .node _ _ _ childs, h, index, ctx => by
      rw [Plain] at h
      rw [UndisturbedBelow]
      exact undisturbedAmong_of_plain pathInfo childs h.2.2.2 h.2.2.1 (index + 1) ctx

theorem undisturbedAmong_of_plain (pathInfo : List Bytes) : (nodes : List (NodeType κ η)) →
    PlainAll nodes → nodes.Pairwise Apart → (depth : Nat) → (ctx : κ) →
      UndisturbedAmong pathInfo nodes depth ctx
  | [], _, _, _, _ => by
      rw [UndisturbedAmong]
      exact trivial
  | node :: rest, h, hapart, depth, ctx => by
      rw [PlainAll] at h
      rw [List.pairwise_cons] at hapart
      have hsingle : PlainAll [node] := ⟨h.1, trivial⟩
      have hstands := hsingle.uriPrefix (List.mem_singleton_self node)
      have hsteady : node.segment.Steady := by
        obtain ⟨segment, uriPrefix, handler, childs⟩ := node
        have hplain := h.1
        rw [Plain] at hplain
        exact hplain.2.1
      rw [UndisturbedAmong]
      match hmatch : matchAt pathInfo node depth ctx with
      | .error exception => exact absurd hmatch (matchAt_steady hsteady)
      | .ok none =>
          exact ⟨fun _ hoccurs => hoccurs.1 hstands,
            undisturbedAmong_of_plain pathInfo rest h.2 hapart.2 depth ctx⟩
      | .ok (some (index, ctx')) =>
          intro _
          refine ⟨repeatsUnchanged_of_steady hstands hsteady hmatch,
            undisturbedBelow_of_plain pathInfo node h.1 index ctx', ?_⟩
          intro hleads
          exact absurd hleads (not_leads_of_apart hmatch hstands h.2 hapart.1)

end

/-- A class whose prefix stands in the path hides the class after it. -/
theorem passed_prefix_hides_sibling :
    ∃ certificates https : NodeType Unit Nat,
      [certificates, https].Pairwise Apart ∧
        ¬ Resolves [bytes "redfish", bytes "HTTPS"]
          [.node (.static (bytes "redfish")) [] 0 [certificates, https]] 0 ()
          (uriResolver [bytes "redfish", bytes "HTTPS"]
            (.node (.static (bytes "redfish")) [] 0 [certificates, https]) 0 ()) := by
  refine ⟨.node (.static (bytes "Certificates")) [bytes "HTTPS"] 1 [],
    .node (.static (bytes "HTTPS")) [] 2 [], ?_, ?_⟩
  · rw [List.pairwise_pair]
    intro pathInfo depth ctx index ctx₁ ctx₂ hfirst hsecond
    have hone := matchAt_length hfirst
    have hnone := matchAt_length hsecond
    simp only [NodeType.uriPrefix, List.length_cons, List.length_nil] at hone hnone
    omega
  · have hresult : uriResolver [bytes "redfish", bytes "HTTPS"]
        (.node (.static (bytes "redfish")) [] 0
          [.node (.static (bytes "Certificates")) [bytes "HTTPS"] 1 [],
            .node (.static (bytes "HTTPS")) [] 2 []] : NodeType Unit Nat) 0 () =
          .ok (.notFound, ()) := by
      rfl
    rw [hresult]
    intro hnone
    apply hnone
    refine ⟨_, List.mem_singleton_self _, .node (.static (bytes "HTTPS")) [] 2 [], (), ?_⟩
    have hroot : matchAt [bytes "redfish", bytes "HTTPS"]
        (.node (.static (bytes "redfish")) [] 0
          [.node (.static (bytes "Certificates")) [bytes "HTTPS"] 1 [],
            .node (.static (bytes "HTTPS")) [] 2 []] : NodeType Unit Nat) 0 () =
          .ok (some (0, ())) := by
      rfl
    have hhttps : matchAt [bytes "redfish", bytes "HTTPS"]
        (.node (.static (bytes "HTTPS")) [] 2 [] : NodeType Unit Nat) 1 () =
          .ok (some (1, ())) := by
      rfl
    apply Chain.child hroot (List.mem_cons_of_mem _ (List.mem_cons_self ..))
    exact Chain.last hhttps rfl

end Redfish
end ObmcWebapp
