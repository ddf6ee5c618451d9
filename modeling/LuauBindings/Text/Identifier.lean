import LuauBindings.Text.Newline

/-!
# Plain tokens

A class name is an identifier, an internal suffix a word of letters and digits. Both tests pass
over one final newline.
-/

namespace LuauBindings.Text

/-- An ASCII letter or an underscore. -/
def isNameStart (c : Char) : Bool :=
  c.isAlpha || c == '_'

/-- An ASCII letter, a digit or an underscore. -/
def isNamePart (c : Char) : Bool :=
  c.isAlphanum || c == '_'

/-- A non-empty word of ASCII letters, digits and underscores that starts with no digit. -/
def isIdentifier : List Char → Bool
  | [] => false
  | c :: s => isNameStart c && s.all isNamePart

/-- A non-empty word of ASCII letters and digits. -/
def isWord (s : List Char) : Bool :=
  !s.isEmpty && s.all Char.isAlphanum

/-- Whether `name` passes as a class name: an identifier, one final newline aside. -/
def passesAsIdentifier (name : String) : Bool :=
  isIdentifier (dropFinalNewline name.toList)

/-- Whether `suffix` passes as an internal suffix: a word, one final newline aside. -/
def passesAsWord (suffix : String) : Bool :=
  isWord (dropFinalNewline suffix.toList)

end LuauBindings.Text
