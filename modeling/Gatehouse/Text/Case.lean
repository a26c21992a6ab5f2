/-!
Letter case of ASCII letters. Other letters have one form here: `'É'` and `'é'` stay different.
-/

namespace Gatehouse.Text

/-- ASCII letters in lower case, all else as it is. -/
def lower (s : String) : String :=
  String.ofList (s.toList.map Char.toLower)

/-- ASCII letters in upper case, all else as it is. -/
def upper (s : String) : String :=
  String.ofList (s.toList.map Char.toUpper)

/-- The two texts differ at most in the case of ASCII letters. -/
def sameLetters (s t : String) : Bool :=
  s.toList.map Char.toLower == t.toList.map Char.toLower

end Gatehouse.Text
