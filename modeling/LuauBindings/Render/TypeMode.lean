import LuauBindings.Render.TypeText

/-!
# Named and flattened types

In named mode every class has a type of its own, the intersection of its table type with the types
of its parents. In flattened mode there are no declarations; every wrapper's parameter has the table
type of all properties, inherited ones included.
-/

namespace LuauBindings

/-- How the types of properties reach the wrappers. -/
inductive TypeMode
  | named
  | flattened
deriving DecidableEq, Repr

/-- The name of a class's type. -/
def propsTypeName (className : String) : String :=
  "_" ++ className ++ "Props"

namespace TypeMode

/-- The properties in a class's type. Only the named mode needs the class itself. -/
def properties? (mode : TypeMode) (classes : ClassMap) (name : String) : Option PropertyMap :=
  match mode with
  | .named => (classes.get? name).map ownProperties
  | .flattened => some (allProperties classes name)

/-- A class's type, given its table type. Only the named mode needs the class itself. -/
def contents? (mode : TypeMode) (classes : ClassMap) (name table : String) : Option String :=
  match mode with
  | .named => (classes.get? name).map fun c =>
    table ++ String.join (c.inherits.map fun parent => " & " ++ propsTypeName parent)
  | .flattened => some table

/-- The declaration of a class's type, empty in flattened mode. -/
def declaration (mode : TypeMode) (name contents : String) : String :=
  match mode with
  | .named => "type " ++ propsTypeName name ++ " = " ++ contents ++ "\n"
  | .flattened => ""

/-- How a wrapper refers to a class's type. -/
def propsType (mode : TypeMode) (name contents : String) : String :=
  match mode with
  | .named => propsTypeName name
  | .flattened => contents

/-- The mode as the report names it. -/
def text : TypeMode → String
  | .named => "named"
  | .flattened => "flattened"

end TypeMode

end LuauBindings
