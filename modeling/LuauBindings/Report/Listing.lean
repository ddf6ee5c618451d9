import LuauBindings.Render.TypeText
import LuauBindings.Text.Column

/-!
# Listings of classes

The table of all classes, and the details of one class.
-/

namespace LuauBindings

/-- The parents of a class in one line; a hyphen if there are none. -/
def parentsText (c : ClassDoc) : String :=
  let parents := ", ".intercalate c.inherits
  if parents.isEmpty then "-" else parents

/-- A row for every class, with the number of its own properties and its parents, and the number of
classes at the end. -/
def classesTable (classes : ClassMap) : String :=
  let width := classes.keys.foldl (fun w name => max w name.length) 5
  let row (e : String × ClassDoc) : String :=
    Text.padRight width e.1 ++ "  " ++ Text.padLeft 5 e.2.properties.length.repr ++ "  " ++
      parentsText e.2
  let lines :=
    [Text.padRight width "Class" ++ "  Props  Inherits",
      String.ofList (List.replicate width '-') ++ "  -----  --------"] ++
    classes.entries.map row ++ ["", classes.size.repr ++ " classes"]
  "\n".intercalate lines ++ "\n"

/-- A class with its summary, its parents and the given properties. -/
def classDetail (name : String) (c : ClassDoc) (props : PropertyMap) (enums : NameSet) : String :=
  let property (e : String × String) : String :=
    "    " ++ propertyKey e.1 ++ ": " ++ luauType e.2 enums
  let lines :=
    [name] ++ (if c.summary.isEmpty then [] else ["  " ++ Text.strip c.summary]) ++
    ["", "  Inherits: " ++ parentsText c, "  Properties (" ++ props.size.repr ++ "):"] ++
    props.entries.map property
  "\n".intercalate lines ++ "\n"

end LuauBindings
