import LuauBindings.OrderedMap
import LuauBindings.Text.Blank
import LuauBindings.Yaml.Value

/-!
# Class documents

A class document names a class, its parents and its properties. `ClassDoc.ofValue` accepts the
values of this shape: a mapping with a `name` that is not blank, `inherits` a list of texts,
`properties` a list of mappings with `name` and `type`, `description` and `summary` texts. All but
the name may be missing; other keys are passed over. What is wrong with any other value is a
`DocumentFault`.
-/

namespace LuauBindings

/-- A property as its class document declares it. -/
structure Property where
  name : String
  type : String
deriving DecidableEq, Repr

/-- The name without the class in front of it: what follows the last point. -/
def Property.shortName (p : Property) : String :=
  Text.strip (String.ofList (p.name.toList.reverse.takeWhile (· ≠ '.')).reverse)

/-- A class of the engine. -/
structure ClassDoc where
  name : String
  inherits : List String := []
  properties : List Property := []
  description : String := ""
  summary : String := ""
deriving DecidableEq, Repr

/-- The classes by name, in the order of their documents. -/
abbrev ClassMap := OrderedMap String ClassDoc

/-- What is wrong with a document. -/
inductive DocumentFault
  /-- The text is no document. -/
  | malformed
  | notMapping (kind : String)
  | noName
  | inheritsShape
  | propertiesShape
  /-- Nothing is shown of an entry that messages cannot show. -/
  | propertyNotMapping (shown : Option String)
  | propertyWithoutName
  | propertyWithoutType (name : String)
  | notText (key : String)
  | duplicateClass (name : String)
deriving DecidableEq, Repr

def DocumentFault.message : DocumentFault → String
  | .malformed => "malformed YAML"
  | .notMapping kind => "expected a mapping, got " ++ kind
  | .noName => "missing required field 'name'"
  | .inheritsShape => "'inherits' must be a list of class names"
  | .propertiesShape => "'properties' must be a list"
  | .propertyNotMapping (some shown) => "property entry must be a mapping, got " ++ shown
  | .propertyNotMapping none =>
    "Exceeds the limit (4300 digits) for integer string conversion; " ++
      "use sys.set_int_max_str_digits() to increase the limit"
  | .propertyWithoutName => "property entry missing 'name'"
  | .propertyWithoutType name => "property '" ++ name ++ "' missing 'type'"
  | .notText key => "'" ++ key ++ "' must be a string"
  | .duplicateClass name => "duplicate class name '" ++ name ++ "'"

/-- Whether a message can name the document and say what is wrong with it. It cannot if it had to show
a number of too many digits. -/
def DocumentFault.isAttributable : DocumentFault → Bool
  | .propertyNotMapping none => false
  | _ => true

/-- A fault and the document that has it. -/
structure DocumentError where
  source : String
  fault : DocumentFault
deriving DecidableEq, Repr

def DocumentError.message (e : DocumentError) : String :=
  if e.fault.isAttributable then e.source ++ ": " ++ e.fault.message else e.fault.message

open Yaml (Value)

/-- The name that a document gives, without white space at its ends. -/
def documentName (v : Value) : Except DocumentFault String :=
  match v with
  | .map entries =>
    match Value.find? "name" entries with
    | some (.str s) =>
      let name := Text.strip s
      if name.isEmpty then .error .noName else .ok name
    | _ => .error .noName
  | v => .error (.notMapping v.typeName)

namespace Property

/-- The property that an entry of `properties` declares. -/
def ofValue (v : Value) : Except DocumentFault Property :=
  match v.written with
  | .map entries =>
    match Value.find? "name" entries with
    | some (.str name) =>
      if name.isEmpty then .error .propertyWithoutName
      else match Value.find? "type" entries with
        | some (.str type) =>
          if type.isEmpty then .error (.propertyWithoutType name) else .ok ⟨name, type⟩
        | _ => .error (.propertyWithoutType name)
    | _ => .error .propertyWithoutName
  | v => .error (.propertyNotMapping v.shown?)

end Property

namespace ClassDoc

/-- The texts of a list that holds nothing else. -/
def texts? : List Value → Option (List String)
  | [] => some []
  | .str s :: vs => (texts? vs).map (s :: ·)
  | _ :: _ => none

/-- The list under `key`; a value that stands for nothing is the empty list. -/
def listAt? (key : String) (entries : List (Value × Value)) : Option (List Value) :=
  match Value.find? key entries with
  | none => some []
  | some v =>
    if v.isEmpty then some []
    else match v.written with
      | .list items => some items
      | _ => none

/-- The text under `key`, empty if there is none. -/
def textAt (key : String) (entries : List (Value × Value)) : Except DocumentFault String :=
  match Value.find? key entries with
  | none => .ok ""
  | some .null => .ok ""
  | some (.str s) => .ok s
  | some _ => .error (.notText key)

/-- The parents that a document declares. -/
def inheritsOf (entries : List (Value × Value)) : Except DocumentFault (List String) :=
  match (listAt? "inherits" entries).bind texts? with
  | some names => .ok names
  | none => .error .inheritsShape

/-- The properties that a document declares. -/
def propertiesOf (entries : List (Value × Value)) : Except DocumentFault (List Property) :=
  match listAt? "properties" entries with
  | some items => items.mapM Property.ofValue
  | none => .error .propertiesShape

/-- The class that a document describes. The fields are looked at in the order name, parents,
properties, description, summary. -/
def ofValue (v : Value) : Except DocumentFault ClassDoc := do
  let name ← documentName v
  let entries := match v with
    | .map entries => entries
    | _ => []
  let inherits ← inheritsOf entries
  let properties ← propertiesOf entries
  let description ← textAt "description" entries
  let summary ← textAt "summary" entries
  return { name, inherits, properties, description, summary }

end ClassDoc

end LuauBindings
