import LuauBindings.Files.Path
import LuauBindings.Text.DecimalDigit
import LuauBindings.Text.Newline
import LuauBindings.Text.Quoted
import LuauBindings.Yaml.Value

/-!
# Command line options

`Options.parse` reads the words of a command line. A long option may be shortened to any beginning
that no other option has, and a value may be attached to its option by an equals sign. All words are
classified first (`Word.ofText`); what is neither an option nor a value of one is reported last.
-/

namespace LuauBindings

/-- The options of the program. -/
inductive Flag
  | help
  | docsDir
  | host
  | output
  | flatten
  | comments
  | allow
  | internalSuffix
  | listClasses
  | info
deriving DecidableEq, Repr

namespace Flag

/-- All options in the order of the usage text. -/
def all : List Flag :=
  [.help, .docsDir, .host, .output, .flatten, .comments, .allow, .internalSuffix, .listClasses,
    .info]

/-- The long form of an option. -/
def long : Flag → String
  | .help => "--help"
  | .docsDir => "--docs-dir"
  | .host => "--host"
  | .output => "--output"
  | .flatten => "--flatten"
  | .comments => "--comments"
  | .allow => "--allow"
  | .internalSuffix => "--internal-suffix"
  | .listClasses => "--list-classes"
  | .info => "--info"

/-- All forms of an option, as messages name it. -/
def names (f : Flag) : String :=
  if f = .help then "-h/--help" else f.long

/-- Whether an option is followed by a value, or by several. -/
def takesValue : Flag → Bool
  | .docsDir | .host | .output | .allow | .internalSuffix | .info => true
  | .help | .flatten | .comments | .listClasses => false

end Flag

/-- What is wrong with a command line. -/
inductive UsageFault
  | ambiguous (given : String) (candidates : List Flag)
  | noValue (f : Flag)
  | unwantedValue (f : Flag) (value : String)
  | conflict (f other : Flag)
  | unrecognized (words : List String)
deriving DecidableEq, Repr

def UsageFault.message : UsageFault → String
  | .ambiguous given candidates =>
    "ambiguous option: " ++ given ++ " could match " ++ ", ".intercalate (candidates.map Flag.long)
  | .noValue .allow => "argument --allow: expected at least one argument"
  | .noValue f => "argument " ++ f.names ++ ": expected one argument"
  | .unwantedValue f value =>
    "argument " ++ f.names ++ ": ignored explicit argument " ++ Text.quote value
  | .conflict f other => "argument " ++ f.names ++ ": not allowed with argument " ++ other.names
  | .unrecognized words => "unrecognized arguments: " ++ " ".intercalate words

/-- A word of the command line. -/
inductive Word
  | value (s : String)
  /-- An option, and the value attached to it. -/
  | flag (f : Flag) (attached : Option String)
  /-- An option that the program does not have. -/
  | unknown (s : String)
  /-- Two hyphens; only values follow. -/
  | separator
deriving DecidableEq, Repr

namespace Word

def text : Word → String
  | .value s => s
  | .flag f _ => f.long
  | .unknown s => s
  | .separator => "--"

/-- Whether `s` is a hyphen and a decimal number, which is a value and no option. -/
def isNegativeNumber (s : List Char) : Bool :=
  let isDigit (c : Char) : Bool := (Text.digitValue? c).isSome
  match Text.dropFinalNewline s with
  | '-' :: s =>
    let tail := s.dropWhile isDigit
    match tail with
    | [] => !s.isEmpty
    | '.' :: ds => !ds.isEmpty && ds.all isDigit
    | _ => false
  | _ => false

/-- The part of `s` before its first equals sign and the part after it. -/
def splitAtEquals (s : List Char) : String × Option String :=
  match s.dropWhile (· ≠ '=') with
  | _ :: rest => (String.ofList (s.takeWhile (· ≠ '=')), some (String.ofList rest))
  | [] => (String.ofList s, none)

/-- The value attached to `-h` by the letters after it: what stands after an equals sign, or from a
hyphen on. Further letters `h` repeat the option, and any other letter is passed over. -/
def attachedToHelp : List Char → Option (List Char)
  | '=' :: s => some s
  | '-' :: s => some ('-' :: s)
  | 'h' :: s => attachedToHelp s
  | _ => none

/-- The options that the word `s` may stand for, and the value attached to it. -/
def candidates (s : String) : List Word :=
  match s.toList with
  | '-' :: '-' :: _ =>
    let (start, attached) := splitAtEquals s.toList
    (Flag.all.filter fun f => start.toList.isPrefixOf f.long.toList).map fun f => .flag f attached
  | '-' :: 'h' :: rest => [.flag .help ((attachedToHelp rest).map String.ofList)]
  | _ => []

/-- What the word `s` is, before any separator. -/
def ofText (s : String) : Except UsageFault Word :=
  if s = "--" then .ok .separator
  else if s.toList.head? ≠ some '-' ∨ s = "-" then .ok (.value s)
  else
    let (start, attached) := splitAtEquals s.toList
    match Flag.all.find? fun f => f.long = start with
    | some f => .ok (.flag f attached)
    | none =>
      match candidates s with
      | [w] => .ok w
      | [] =>
        if isNegativeNumber s.toList ∨ s.toList.contains ' ' then .ok (.value s)
        else .ok (.unknown s)
      | ws => .error (.ambiguous s (ws.filterMap fun
        | .flag f _ => some f
        | _ => none))

/-- What the words of a command line are; the first ambiguous one is refused. -/
def ofTexts : List String → Except UsageFault (List Word)
  | [] => .ok []
  | s :: rest =>
    match ofText s with
    | .error e => .error e
    | .ok .separator => .ok (.separator :: rest.map .value)
    | .ok w => (ofTexts rest).map (w :: ·)

end Word

/-- The values of all options. -/
structure Options where
  docsDir : Option Path := some (.ofText "creator-docs/content/en-us/reference/engine")
  host : Option Path := some (.ofText "src/lua/Rover.luau")
  output : Path := .ofText "build.luau"
  flatten : Bool := false
  comments : Bool := false
  /-- The names to allow, a list for each time the option is given, or null. -/
  allow : Yaml.Value := .null
  internalSuffix : Option String := none
  listClasses : Bool := false
  info : Option String := none

namespace Options

/-- The options after `f` with the given values. -/
def set (o : Options) (f : Flag) (values : List String) : Options :=
  let value := values.headD ""
  match f with
  | .help => o
  | .docsDir => { o with docsDir := some (.ofText value) }
  | .host => { o with host := some (.ofText value) }
  | .output => { o with output := .ofText value }
  | .flatten => { o with flatten := true }
  | .comments => { o with comments := true }
  | .allow =>
    let given := match o.allow with
      | .list lists => lists
      | _ => []
    { o with allow := .list (given ++ [.list (values.map .str)]) }
  | .internalSuffix => { o with internalSuffix := some value }
  | .listClasses => { o with listClasses := true }
  | .info => { o with info := some value }

/-- The option already given that excludes `f`. -/
def excludes (o : Options) (f : Flag) : Option Flag :=
  match f with
  | .listClasses => if o.info.isSome then some .info else none
  | .info => if o.listClasses then some .listClasses else none
  | _ => none

/-- What a command line asks for. -/
inductive Request
  | run (o : Options)
  | help

/-- The options after the words `ws`; `unread` are the words so far that belong to no option. `fuel`
exceeds the number of words. -/
def read : (fuel : Nat) → (o : Options) → (unread : List String) → List Word →
    Except UsageFault Request
  | 0, o, _, _ => .ok (.run o)
  | _ + 1, o, unread, [] =>
    if unread.isEmpty then .ok (.run o) else .error (.unrecognized unread)
  | fuel + 1, o, unread, .flag f attached :: ws =>
    let take (values : List String) (ws : List Word) : Except UsageFault Request :=
      match o.excludes f with
      | some other => .error (.conflict f other)
      | none => if f = .help then .ok .help else read fuel (o.set f values) unread ws
    match attached with
    | some value =>
      if f.takesValue then take [value] ws else .error (.unwantedValue f value)
    | none =>
      if !f.takesValue then take [] ws
      else
        let values := ws.takeWhile fun
          | .value _ => true
          | _ => false
        let values := if f = .allow then values else values.take 1
        if values.isEmpty then .error (.noValue f)
        else take (values.map Word.text) (ws.drop values.length)
  | fuel + 1, o, unread, w :: ws => read fuel o (unread ++ [w.text]) ws

/-- What the words of a command line ask for. -/
def parse (argv : List String) : Except UsageFault Request :=
  match Word.ofTexts argv with
  | .error e => .error e
  | .ok ws => read (ws.length + 1) {} [] ws

end Options

/-- The usage text. -/
def usageText : String :=
  "usage: rover-gen [-h] [--docs-dir DOCS_DIR] [--host HOST] [--output OUTPUT]\n" ++
  "                 [--flatten] [--comments] [--allow ALLOW [ALLOW ...]]\n" ++
  "                 [--internal-suffix INTERNAL_SUFFIX]\n" ++
  "                 [--list-classes | --info INFO]\n"

/-- The help text. -/
def helpText : String :=
  usageText ++
  "\n" ++
  "Generate Rover Luau bindings\n" ++
  "\n" ++
  "options:\n" ++
  "  -h, --help            show this help message and exit\n" ++
  "  --docs-dir DOCS_DIR\n" ++
  "  --host HOST\n" ++
  "  --output OUTPUT\n" ++
  "  --flatten\n" ++
  "  --comments\n" ++
  "  --allow ALLOW [ALLOW ...]\n" ++
  "  --internal-suffix INTERNAL_SUFFIX\n" ++
  "  --list-classes\n" ++
  "  --info INFO\n"

/-- What is printed for a command line that cannot be read. -/
def UsageFault.text (e : UsageFault) : String :=
  usageText ++ "rover-gen: error: " ++ e.message ++ "\n"

end LuauBindings
