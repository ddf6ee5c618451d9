import LuauBindings.Cli.Config
import LuauBindings.Corpus.Load
import LuauBindings.Hierarchy.Prune
import LuauBindings.Report.Listing

/-!
# Discovery

A discovery command loads and prunes the corpus as generating does, and shows the classes that are
left or one of them.
-/

namespace LuauBindings

/-- What a discovery command shows. -/
inductive Discovery
  | printed (text : String)
  /-- The class asked for is not left after pruning. -/
  | refused (name : String)
deriving DecidableEq, Repr

/-- The message for a class that is not left. -/
def refusalText (name : String) : String :=
  "Error: class '" ++ name ++ "' is not in the pruned class set\n"

/-- The details of a class with the properties that its type has. -/
def describe (classes : ClassMap) (enums : NameSet) (mode : TypeMode) (name : String) :
    Except BlockFault Discovery :=
  match classes.get? name with
  | none => .ok (.refused name)
  | some c =>
    match mode.properties? classes name with
    | none => .error (.unknownClass name)
    | some props => .ok (.printed (classDetail name c props enums))

def discover (loader : Yaml.Loader) (t : FileTree) (c : DiscoveryConfig) : Except Failure Discovery := do
  let corpus ← Corpus.load loader t c.docsDir
  let (_, classes) := prune corpus.classes c.allowed
  match c.command with
  | none => return .printed ""
  | some .listClasses => return .printed (classesTable classes)
  | some .info =>
    match c.infoClass with
    | none => .error .noClassGiven
    | some name => (describe classes corpus.enums c.mode name).mapError .block

end LuauBindings
