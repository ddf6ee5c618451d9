import LuauBindings.Hierarchy.Closure

/-!
# Pruning

Pruning keeps the classes that the seed leads to: first down, to every class with a parent that is
kept, then from all of those up, to every parent of a class that is kept. The siblings of a seed
class are not kept on its account.
-/

namespace LuauBindings

/-- What pruning added to the seed and removed from the classes. -/
structure PruneStats where
  /-- The number of names in the seed. -/
  seedCount : Nat
  descendantsAdded : NameSet
  /-- The names that are kept as parents; not all of them need be classes. -/
  ancestorsAdded : NameSet
  /-- The number of classes that are left. -/
  retainedCount : Nat
  removed : NameSet

/-- The names kept on the way down and up from `seed`. -/
def inheritClosure (classes : ClassMap) (seed : NameSet) : NameSet × NameSet :=
  let index := InheritIndex.ofClasses classes
  let down := closeOver seed index.children
  (down, closeOver down index.parents)

/-- The classes that `allowed` leads to, in their order, with the account of what was added and
removed. -/
def prune (classes : ClassMap) (allowed : List String) : PruneStats × ClassMap :=
  let seed := NameSet.ofList allowed
  let (down, kept) := inheritClosure classes seed
  let left := classes.filterKeys fun name => decide (name ∈ kept)
  let stats :=
    { seedCount := seed.size
      descendantsAdded := down.diff seed
      ancestorsAdded := kept.diff down
      retainedCount := left.size
      removed := (NameSet.ofList classes.keys).diff kept }
  (stats, left)

end LuauBindings
