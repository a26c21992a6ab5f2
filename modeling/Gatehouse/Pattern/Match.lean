import Gatehouse.Text.Pieces

/-!
What a permission pattern matches.

Operations and resources are segments with colons between them. In an operation pattern a segment
`*` matches any segment, and nothing else is special. In a resource pattern a last segment `*`
matches whatever follows, be it nothing, and a segment that ends in `.*` matches every longer
segment with the same start.
-/

namespace Gatehouse.Pattern

open Gatehouse.Text

/-- The segment, or the pattern, that matches everything. -/
def wildcard : String := "*"

/-- Segment by segment, `*` matches anything and any other segment itself. -/
def operationSegmentsMatch : List String → List String → Bool
  | [], [] => true
  | p :: ps, c :: cs => (p = wildcard || p = c) && operationSegmentsMatch ps cs
  | _, _ => false

/-- An operation pattern matches a concrete operation. -/
def matchesOperation (pattern candidate : String) : Bool :=
  operationSegmentsMatch (split ':' pattern) (split ':' candidate)

/-- What stands before the `*` of a segment that ends in `.*`, the point included. -/
def stem? (segment : String) : Option (List Char) :=
  match segment.toList.reverse with
  | '*' :: '.' :: rest => some ('.' :: rest).reverse
  | _ => none

/-- A segment of a resource pattern matches a segment of a candidate. -/
def segmentMatches (p c : String) : Bool :=
  p = wildcard ||
    match stem? p with
    | some stem => stem.isPrefixOf c.toList && stem.length < c.toList.length
    | none => p = c

/-- Segment by segment; a last `*` matches whatever is left. -/
def resourceSegmentsMatch : List String → List String → Bool
  | [], cs => cs.isEmpty
  | [p], cs =>
    p = wildcard ||
      match cs with
      | [c] => segmentMatches p c
      | _ => false
  | p :: ps, c :: cs => segmentMatches p c && resourceSegmentsMatch ps cs
  | _ :: _, [] => false

/-- A resource pattern matches a resource. -/
def matchesResource (pattern candidate : String) : Bool :=
  resourceSegmentsMatch (split ':' pattern) (split ':' candidate)

end Gatehouse.Pattern
