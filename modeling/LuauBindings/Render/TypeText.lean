import LuauBindings.Hierarchy.Properties
import LuauBindings.NameSet
import LuauBindings.Text.Identifier
import LuauBindings.Text.Literal

/-!
# Luau types of properties

A property map is written as a table type: one line for each property, which may be its type, a
signal of it, or nil. A key that is no identifier is written as a string literal in brackets.
-/

namespace LuauBindings

/-- The reserved words of Luau. -/
def reservedWords : List String :=
  ["and", "break", "do", "else", "elseif", "end", "false", "for", "function", "if", "in", "local",
    "nil", "not", "or", "repeat", "return", "then", "true", "until", "while"]

/-- The key of a table type for the property `name`, white space at its ends aside. -/
def propertyKey (name : String) : String :=
  let name := Text.strip name
  let quoted := Text.Literal.encode name
  if quoted ≠ "\"" ++ name ++ "\"" ∨ name.toList.contains ' ' ∨ !Text.passesAsIdentifier name ∨
      reservedWords.contains name then
    "[" ++ quoted ++ "]"
  else name

/-- The Luau type of the built-in and opaque types of the engine. -/
def builtinType? (type : String) : Option String :=
  match type with
  | "bool" => some "boolean"
  | "int" | "float" | "int64" | "double" => some "number"
  | "UniqueId" | "Content" | "QDir" | "QFont" | "BinaryString" | "ProtectedString"
  | "Path2DControlPoint" => some "unknown"
  | _ => none

/-- The Luau type of a documented type. `Font` is a data type even where there is an enum of that
name; a type that is neither an enum nor built in stands for itself. -/
def luauType (type : String) (enums : NameSet) : String :=
  if type ∈ enums ∧ type ≠ "Font" then "Enum." ++ type
  else (builtinType? type).getD type

/-- The line of a property in a table type. -/
def propertyLine (key type : String) : String :=
  "\t" ++ key ++ ": " ++ type ++ " | Signal<" ++ type ++ "> | nil"

/-- The table type of a property map. -/
def tableType (props : PropertyMap) (enums : NameSet) : String :=
  let lines := props.entries.map fun e => propertyLine (propertyKey e.1) (luauType e.2 enums)
  "\x7b\n" ++ ",\n".intercalate lines ++ "\n\x7d"

end LuauBindings
