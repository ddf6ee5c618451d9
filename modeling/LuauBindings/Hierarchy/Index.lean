import LuauBindings.Corpus.ClassDoc

/-!
# The inheritance relation

`InheritIndex.ofClasses` lists for every class its parents and for every parent its children. A
parent need not be a class; its children are listed all the same.
-/

namespace LuauBindings

/-- Which names each name leads to. -/
abbrev NameGraph := OrderedMap String (List String)

/-- The names that `name` leads to. -/
def NameGraph.next (g : NameGraph) (name : String) : List String :=
  (g.get? name).getD []

/-- The inheritance relation in both directions. -/
structure InheritIndex where
  parents : NameGraph
  children : NameGraph

namespace InheritIndex

/-- `children` with `child` once more under `parent`. -/
def addChild (child : String) (children : NameGraph) (parent : String) : NameGraph :=
  children.insert parent (children.next parent ++ [child])

/-- The relation that the classes declare: the children of a parent stand in the order of the
classes, once for each time the parent is declared. -/
def ofClasses (classes : ClassMap) : InheritIndex where
  parents := classes.mapValues fun _ c => c.inherits
  children :=
    classes.entries.foldl (fun children e => e.2.inherits.foldl (addChild e.1) children) .empty

end InheritIndex

end LuauBindings
