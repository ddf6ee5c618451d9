import LuauBindings.Text.Blank
import LuauBindings.Text.Literal
import LuauBindings.Text.Newline

/-!
# Wrapper functions

Every class gets a function that draws it through one internal function, whose name the finished
build extends by a suffix.
-/

namespace LuauBindings

/-- The end of the internal function's name. -/
def internalSymbol : String := "_internal"

/-- The internal function that draws an instance. -/
def drawFunction : String := "Rover.drawInstance" ++ internalSymbol

/-- The comment above a wrapper: every line of the description, white space at its ends aside, on a
comment line of its own. -/
def docComment (name description : String) : String :=
  let shown := Text.lines (Text.trim description.toList)
  let lines := ["-- Renders a " ++ name ++ " using props and content", "-- "] ++
    shown.map fun line => "-- " ++ String.ofList line
  "\n".intercalate lines ++ "\n"

/-- The wrapper of a class; `description` is given if it is to have a comment. -/
def wrapper (name propsType : String) (description : Option String) : String :=
  let comment := match description with
    | some d => docComment name d
    | none => ""
  comment ++
    ("function Rover." ++ name ++ "(props: " ++ propsType ++ ", content: ((elm: " ++ name ++
      ") -> ())?): ()\n") ++
    ("\t" ++ drawFunction ++ "(" ++ Text.Literal.encode name ++
      ", props, content or function() end)\n") ++
    "end\n\n"

end LuauBindings
