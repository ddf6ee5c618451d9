import LuauBindings.Hierarchy.Index
import LuauBindings.NameSet

/-!
# Closed sets of names

`closeOver seed graph` is the least set that holds the seed and everything its members lead to. The
work list `closeFrom` holds the names whose neighbours are still to be added; the names that are
listed or not yet reached become one fewer with every step.
-/

namespace LuauBindings

/-- The names reached when the neighbours of `frontier` are added to `reached` again and again.
`fuel` bounds the number of names still to be looked at. -/
def closeFrom (graph : NameGraph) :
    (fuel : Nat) → (reached frontier : List String) → List String
  | 0, reached, _ => reached
  | _ + 1, reached, [] => reached
  | fuel + 1, reached, name :: frontier =>
    let new := newNames reached (graph.next name)
    closeFrom graph fuel (reached ++ new) (frontier ++ new)

/-- Every name to which the seed leads in zero or more steps. -/
def closeOver (seed : NameSet) (graph : NameGraph) : NameSet :=
  let fuel := seed.size + (graph.entries.flatMap Prod.snd).length
  .ofList (closeFrom graph fuel seed.toList seed.toList)

end LuauBindings
