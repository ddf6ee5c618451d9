import LuauBindings.Cli.Options
import LuauBindings.Files.Tree
import LuauBindings.NameSet
import LuauBindings.Render.TypeMode

/-!
# Configuration

`Config.ofOptions` settles what a run is to do: generate the bindings, or list or describe the
classes that they would hold. Options that belong to generating only are refused with a discovery
command, the paths that are read must be there, and names and suffix must be plain tokens.
-/

namespace LuauBindings

/-- The kinds of configuration errors. -/
inductive ConfigCode
  | pathNotFound
  | invalidClassName
  | invalidSuffix
  | conflict
deriving DecidableEq, Repr

namespace ConfigCode

def all : List ConfigCode :=
  [.pathNotFound, .invalidClassName, .invalidSuffix, .conflict]

def text : ConfigCode → String
  | .pathNotFound => "PATH_NOT_FOUND"
  | .invalidClassName => "INVALID_CLASS_NAME"
  | .invalidSuffix => "INVALID_SUFFIX"
  | .conflict => "CONFLICT_GENERATE_DISCOVERY"

def ofText? (s : String) : Option ConfigCode :=
  all.find? fun c => c.text = s

/-- What is said of a text that is no code. -/
def unknownText (s : String) : String :=
  "Unknown config error code: " ++ s

end ConfigCode

/-- A configuration error as it is reported. -/
structure ConfigReport where
  code : ConfigCode
  message : String
  suggestion : Option String
deriving DecidableEq, Repr

/-- What is wrong with a configuration. -/
inductive ConfigFault
  /-- No path is given for an option. -/
  | noPath (flag : String) (suggestion : Option String)
  /-- There is nothing at the path given for an option. -/
  | pathNotFound (flag : String) (path : Path) (suggestion : Option String)
  | badClassName (name : String)
  | badSuffix (suffix : String)
  /-- The allowed names are not a list. -/
  | allowNotList (kind : String)
  /-- An allowed name is not a text. -/
  | nameNotText (kind : String)
  /-- Options of generating stand beside a discovery command. -/
  | conflict
deriving DecidableEq, Repr

namespace ConfigFault

/-- The suggestion given, or `usual` if there is none. -/
def suggestionOr (given : Option String) (usual : String) : String :=
  match given with
  | some s => if s.isEmpty then usual else s
  | none => usual

def report : ConfigFault → ConfigReport
  | .noPath flag suggestion =>
    ⟨.pathNotFound, flag ++ " is required: no path provided.",
      some (suggestionOr suggestion
        ("Pass the path explicitly: " ++ flag ++ " /path/to/resource"))⟩
  | .pathNotFound flag path suggestion =>
    ⟨.pathNotFound, "Path for " ++ flag ++ " does not exist: " ++ path.text,
      some (suggestionOr suggestion "Provide an existing path for this flag.")⟩
  | .badClassName name =>
    ⟨.invalidClassName, "Invalid class name: " ++ name,
      some "Class names are plain identifiers (for example UIListLayout)."⟩
  | .badSuffix suffix =>
    ⟨.invalidSuffix, "Invalid internal suffix: " ++ Text.quote suffix,
      some "Use letters and digits only, e.g. --internal-suffix 3f9a1c."⟩
  | .allowNotList kind =>
    ⟨.invalidClassName, "Invalid --allow value type: " ++ kind,
      some "Pass class names as --allow ClassName."⟩
  | .nameNotText kind =>
    ⟨.invalidClassName, "Invalid class name type: " ++ kind,
      some "Pass class names as --allow ClassName."⟩
  | .conflict =>
    ⟨.conflict, "--comments and --internal-suffix cannot be combined with discovery flags.",
      some "Choose either generate mode or one discovery command."⟩

end ConfigFault

/-- What a discovery command shows. -/
inductive DiscoveryCommand
  | listClasses
  | info
deriving DecidableEq, Repr

def DiscoveryCommand.text : DiscoveryCommand → String
  | .listClasses => "list-classes"
  | .info => "info"

/-- How the bindings are generated. -/
structure GenerateConfig where
  docsDir : Path
  host : Path
  output : Path
  allowed : List String
  mode : TypeMode
  comments : Bool
  suffix : Option String
deriving DecidableEq, Repr

/-- What is shown of the classes; without a command, nothing. -/
structure DiscoveryConfig where
  command : Option DiscoveryCommand
  infoClass : Option String
  docsDir : Path
  allowed : List String
  mode : TypeMode
deriving DecidableEq, Repr

/-- What a run is to do. -/
inductive Config
  | generate (c : GenerateConfig)
  | discover (c : DiscoveryConfig)
deriving DecidableEq, Repr

/-- The classes that are always allowed. -/
def defaultAllowed : List String :=
  ["GuiObject", "UIAspectRatioConstraint", "UIBase", "UIComponent", "UIConstraint", "UICorner",
    "UIFlexItem", "UIGradient", "UIGridLayout", "UIGridStyleLayout", "UILayout", "UIListLayout",
    "UIPadding", "UIPageLayout", "UIScale", "UISizeConstraint", "UIStroke", "UITableLayout",
    "UITextSizeConstraint"]

namespace Config

open Yaml (Value)

def checkClassName (name : String) : Except ConfigFault String :=
  if Text.passesAsIdentifier name then .ok name else .error (.badClassName name)

def checkSuffix (suffix : String) : Except ConfigFault String :=
  if Text.passesAsWord suffix then .ok suffix else .error (.badSuffix suffix)

/-- The path given for `flag`, if there is something at it. -/
def checkPath (t : FileTree) (path : Option Path) (flag : String) (suggestion : Option String) :
    Except ConfigFault Path :=
  match path with
  | none => .error (.noPath flag suggestion)
  | some p => if t.exists? p then .ok p else .error (.pathNotFound flag p suggestion)

/-- The class name that a value holds. -/
def nameOf : Value → Except ConfigFault String
  | .str name => checkClassName name
  | v => .error (.nameNotText v.typeName)

/-- The class names of an entry of the allowed names, which may be a list of them. -/
def namesOfEntry : Value → Except ConfigFault (List String)
  | .list names => names.mapM nameOf
  | v => (nameOf v).map ([·])

/-- The allowed names in one list. -/
def normalizeAllowed : Value → Except ConfigFault (List String)
  | .null => .ok []
  | .list entries => (entries.mapM namesOfEntry).map List.flatten
  | v => .error (.allowNotList v.typeName)

/-- The default names, and after them the others that are new. -/
def allowedWith (extra : List String) : List String :=
  defaultAllowed ++ newNames defaultAllowed extra

/-- The check of an option that may be missing. -/
def checkOptional {α β ε : Type} (check : α → Except ε β) : Option α → Except ε (Option β)
  | none => .ok none
  | some a => (check a).map some

/-- The folder of the corpus. -/
def checkDocs (t : FileTree) (o : Options) : Except ConfigFault Path :=
  checkPath t o.docsDir "--docs-dir" (some
    ("Clone creator-docs:\n" ++
      "  git clone https://github.com/Roblox/creator-docs.git creator-docs\n" ++
      "Or pass a custom path: --docs-dir /your/path/to/reference/engine"))

/-- The host that the block is put into. -/
def checkHost (t : FileTree) (o : Options) : Except ConfigFault Path :=
  checkPath t o.host "--host" (some "Run from the repository root or pass --host /path/to/Rover.luau")

def modeOf (o : Options) : TypeMode :=
  if o.flatten then .flattened else .named

def commandOf (o : Options) : DiscoveryCommand :=
  if o.listClasses then .listClasses else .info

/-- What the options of a discovery command ask for. -/
def discovery (o : Options) (docsDir : Path) (allowed : List String) : Except ConfigFault Config := do
  let infoClass ← checkOptional checkClassName o.info
  return .discover
    { command := some (commandOf o), infoClass, docsDir, allowed, mode := modeOf o }

/-- What the options of generating ask for. -/
def building (t : FileTree) (o : Options) (docsDir : Path) (allowed : List String) :
    Except ConfigFault Config := do
  let host ← checkHost t o
  let suffix ← checkOptional checkSuffix o.internalSuffix
  return .generate
    { docsDir, host, output := o.output, allowed, mode := modeOf o, comments := o.comments, suffix }

/-- What the options ask for. -/
def ofOptions (t : FileTree) (o : Options) : Except ConfigFault Config := do
  let allowed := allowedWith (← normalizeAllowed o.allow)
  let given (s : Option String) : Bool := s.any fun s => !s.isEmpty
  let discovers := o.listClasses || given o.info
  if discovers && (o.comments || given o.internalSuffix) then .error .conflict
  let docsDir ← checkDocs t o
  if discovers then discovery o docsDir allowed else building t o docsDir allowed

end Config

theorem mem_allowedWith {extra : List String} {name : String} :
    name ∈ Config.allowedWith extra ↔ name ∈ defaultAllowed ∨ name ∈ extra := by
  rw [Config.allowedWith, List.mem_append, mem_newNames]
  by_cases hdefault : name ∈ defaultAllowed <;> simp [hdefault]

end LuauBindings
