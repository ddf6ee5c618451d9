import LuauBindings.Corpus.ClassDoc

/-!
# Property maps

The properties of a class by short name, its own (`ownProperties`) or with those of its ancestors
(`allProperties`). Ancestors are visited in preorder, the parents of a class in declared order and
every class once, and the first class that declares a short name gives its type.
-/

namespace LuauBindings

/-- Types by short property name. -/
abbrev PropertyMap := OrderedMap String String

/-- The properties that a class declares: a short name keeps its first place and its last type. -/
def ownProperties (c : ClassDoc) : PropertyMap :=
  .ofList (c.properties.map fun p => (p.shortName, p.type))

/-- The classes met from `stack`, first to last, when every class is followed by its parents and
then by the rest of the stack; `visited` are left out. `fuel` bounds the number of names still to be
looked at. -/
def preorderFrom (classes : ClassMap) :
    (fuel : Nat) → (visited stack : List String) → List String
  | 0, _, _ => []
  | _ + 1, _, [] => []
  | fuel + 1, visited, name :: stack =>
    if visited.contains name then preorderFrom classes fuel visited stack
    else match classes.get? name with
      | none => preorderFrom classes fuel visited stack
      | some c => name :: preorderFrom classes fuel (name :: visited) (c.inherits ++ stack)

/-- `name` and its ancestors that are classes, in preorder. -/
def preorder (classes : ClassMap) (name : String) : List String :=
  let fuel := 1 + (classes.entries.flatMap fun e => e.2.inherits).length
  preorderFrom classes fuel [] [name]

/-- `m` with the entries of `n` whose keys it lacks. -/
def PropertyMap.addMissing (m n : PropertyMap) : PropertyMap :=
  n.entries.foldl (fun m e => m.insertNew e.1 e.2) m

/-- The properties of a class and its ancestors. -/
def allProperties (classes : ClassMap) (name : String) : PropertyMap :=
  (preorder classes name).foldl
    (fun m n => match classes.get? n with
      | some c => m.addMissing (ownProperties c)
      | none => m)
    .empty

end LuauBindings
