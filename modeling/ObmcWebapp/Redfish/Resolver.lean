import ObmcWebapp.Core

/-!
# Redfish - Resolving a path to a node

The tree of node classes and the search of {lit}`Node::uriResolver` over it.  The
context of the request, which {lit}`matchParameter` reads and changes, and what a
class does with a request are parameters.  The depth is passed by reference: it
comes back from {lit}`validateSegment` with the prefix added, whatever the outcome.
-/

open Library

namespace ObmcWebapp
namespace Redfish

variable {κ η : Type}

/-- The last segment of a class: a fixed one, or a parameter whose
{lit}`matchParameter` gives the changed context where it accepts. -/
inductive Segment (κ : Type)
  | static (segment : Bytes)
  | parameter (matchParameter : κ → Bytes → Except Exception (Option κ))

/-- A node class with its static prefix, empty for a class without
{lit}`IStaticSegments`, and its child classes. -/
inductive NodeType (κ η : Type)
  | node (segment : Segment κ) (uriPrefix : List Bytes) (handler : η)
      (childs : List (NodeType κ η))

namespace NodeType

/-- The segment of a node. -/
def segment : NodeType κ η → Segment κ
  | .node segment _ _ _ => segment

/-- The prefix of a node. -/
def uriPrefix : NodeType κ η → List Bytes
  | .node _ uriPrefix _ _ => uriPrefix

/-- The handler of a node. -/
def handler : NodeType κ η → η
  | .node _ _ handler _ => handler

/-- The children of a node. -/
def childs : NodeType κ η → List (NodeType κ η)
  | .node _ _ _ childs => childs

end NodeType

/-- What {lit}`uriResolver` builds. -/
inductive INode (κ η : Type)
  | notFound
  | found (node : NodeType κ η)

/-- {lit}`verifyStaticSegments`: the result and the depth it leaves. -/
def verifyStaticSegments (pathInfo uriPrefix : List Bytes) (depth : Nat) : Bool × Nat :=
  if pathInfo.length ≤ depth then
    (false, depth)
  else if uriPrefix.isPrefixOf (pathInfo.drop depth) then
    (decide (depth + uriPrefix.length < pathInfo.length), depth + uriPrefix.length)
  else
    (false, depth)

/-- The check of the segment itself. -/
def Segment.validate (segment : Segment κ) (value : Bytes) (ctx : κ) :
    Except Exception (Bool × κ) :=
  match segment with
  | .static expected => .ok (decide (value = expected), ctx)
  | .parameter matchParameter =>
      match matchParameter ctx value with
      | .error exception => .error exception
      | .ok none => .ok (false, ctx)
      | .ok (some matched) => .ok (true, matched)

/-- What {lit}`validateSegment` answers, and the depth and the context it leaves. -/
structure Validated (κ : Type) where
  valid : Bool
  depth : Nat
  ctx : κ

/-- {lit}`validateSegment` -/
def validateSegment (pathInfo : List Bytes) (segment : Segment κ) (uriPrefix : List Bytes)
    (depth : Nat) (ctx : κ) : Except Exception (Validated κ) :=
  let (present, index) := verifyStaticSegments pathInfo uriPrefix depth
  if present then
    match pathInfo[index]? with
    | none => .ok ⟨false, index, ctx⟩
    | some value => (segment.validate value ctx).map fun (valid, ctx) => ⟨valid, index, ctx⟩
  else
    .ok ⟨false, index, ctx⟩

/-- {lit}`matchEntirePattern` -/
def matchEntirePattern (pathInfo : List Bytes) (depth : Nat) : Bool :=
  depth = pathInfo.length - 1

mutual

/-- {lit}`uriResolver` -/
def uriResolver (pathInfo : List Bytes) :
    NodeType κ η → Nat → κ → Except Exception (INode κ η × κ)
  | .node segment uriPrefix handler childs, depth, ctx =>
      match validateSegment pathInfo segment uriPrefix depth ctx with
      | .error exception => .error exception
      | .ok ⟨valid, depth, ctx⟩ =>
          if valid && matchEntirePattern pathInfo depth then
            .ok (.found (.node segment uriPrefix handler childs), ctx)
          else
            -- a class without children gives NodeNotFound, as the search among none does
            nextChildResolver pathInfo childs (depth + 1) ctx

/-- {lit}`nextChildResolver` -/
def nextChildResolver (pathInfo : List Bytes) :
    List (NodeType κ η) → Nat → κ → Except Exception (INode κ η × κ)
  | [], _, ctx => .ok (.notFound, ctx)
  | .node segment uriPrefix handler childs :: rest, depth, ctx =>
      match validateSegment pathInfo segment uriPrefix depth ctx with
      | .error exception => .error exception
      | .ok ⟨valid, depth, ctx⟩ =>
          if valid then
            if matchEntirePattern pathInfo depth then
              .ok (.found (.node segment uriPrefix handler childs), ctx)
            else
              uriResolver pathInfo (.node segment uriPrefix handler childs) depth ctx
          else
            nextChildResolver pathInfo rest depth ctx

end

end Redfish
end ObmcWebapp
