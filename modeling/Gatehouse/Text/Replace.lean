/-!
Replacing every occurrence of a text by another.

Occurrences are found from left to right and do not overlap; what has been put in is not searched
again. The empty text occurs before every character and at the end.
-/

namespace Gatehouse.Text

/-- Replaces from here on, after leaving out `skip` characters that belong to the occurrence found
last. -/
def replaceFrom (old new : List Char) : Nat → List Char → List Char
  | _, [] => []
  | skip + 1, _ :: cs => replaceFrom old new skip cs
  | 0, c :: cs =>
    if old.isPrefixOf (c :: cs) then new ++ replaceFrom old new (old.length - 1) cs
    else c :: replaceFrom old new 0 cs

/-- Every occurrence of `old` replaced by `new`. -/
def replaced (old new cs : List Char) : List Char :=
  match old with
  | [] => cs.flatMap (fun c => new ++ [c]) ++ new
  | _ => replaceFrom old new 0 cs

/-- `replaced` on strings. -/
def replace (old new s : String) : String :=
  String.ofList (replaced old.toList new.toList s.toList)

end Gatehouse.Text
