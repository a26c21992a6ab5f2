import Gatehouse.Error
import Gatehouse.Pattern.Match

/-!
Which permission patterns may be stored.

An operation pattern has three segments, each `*` or a name. A resource pattern has three segments,
or fewer when the last is `*`; a segment is `*`, or components with points between them, each a name
or a variable, the last of several may be `*`. The first fault from the left is the one reported.
-/

namespace Gatehouse.Pattern

open Gatehouse.Text

/-- A character of a name: an ASCII letter or digit, an underscore or a hyphen. -/
def isNameChar (c : Char) : Bool := c.isAlphanum || c = '_' || c = '-'

/-- A non-empty row of name characters. -/
def isName (cs : List Char) : Bool := !cs.isEmpty && cs.all isNameChar

/-- A name, or a variable: a name after `@`. -/
def isComponent (s : String) : Bool :=
  match s.toList with
  | '@' :: cs => isName cs
  | cs => isName cs

/-- The fault of one segment of an operation pattern. -/
def operationFault? (pattern segment : String) : Option PatternFault :=
  if segment = wildcard then none
  else if segment = "" then some (.emptyOperationSegment pattern)
  else if segment.toList.contains '*' then some (.partialWildcard segment)
  else if isName segment.toList then none
  else some (.operationCharacters segment)

/-- Accepts the operation patterns that may be stored. -/
def checkOperation (pattern : String) : Except PatternFault Unit :=
  if pattern = "" then .error .emptyOperation
  else
    let segments := split ':' pattern
    if segments.length ≠ 3 then .error (.operationSegments pattern segments.length)
    else match segments.findSome? (operationFault? pattern) with
      | some fault => .error fault
      | none => .ok ()

/-- The fault of the components of a segment; `first`: none stands before them. -/
def componentsFault? (pattern segment : String) (first : Bool) :
    List String → Option PatternFault
  | [] => none
  | component :: rest =>
    if component = wildcard ∧ rest = [] ∧ first = false then none
    else if component.toList.contains '*' then some (.wildcardInside segment)
    else if isComponent component then componentsFault? pattern segment false rest
    else some (.resourceComponent component pattern)

/-- The fault of one segment of a resource pattern. -/
def resourceFault? (pattern segment : String) : Option PatternFault :=
  if segment = wildcard then none
  else if segment = "" then some (.emptyResourceSegment pattern)
  else componentsFault? pattern segment true (split '.' segment)

/-- Accepts the resource patterns that may be stored. -/
def checkResource (pattern : String) : Except PatternFault Unit :=
  if pattern = "" then .error .emptyResource
  else
    let segments := split ':' pattern
    if 3 < segments.length then .error (.tooManySegments pattern)
    else if segments.length < 3 ∧ segments.getLast? ≠ some wildcard then
      .error (.tooFewSegments pattern)
    else match segments.findSome? (resourceFault? pattern) with
      | some fault => .error fault
      | none => .ok ()

end Gatehouse.Pattern
