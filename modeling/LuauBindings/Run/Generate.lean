import LuauBindings.Build.Splice
import LuauBindings.Cli.Config
import LuauBindings.Corpus.Load
import LuauBindings.Report.Summary
import LuauBindings.Run.Runtime

/-!
# Generating the bindings

A run loads the corpus, prunes it, renders the block, splices it into the host and writes the build.
Each stage prints a line when it is done; nothing is written unless all stages before have
succeeded. A line that the console refuses ends the run, and what was done before stays done.
-/

namespace LuauBindings

/-- A run that has ended: the file tree it left, what it printed, and its summary or failure. -/
structure GenerateRun where
  tree : FileTree
  printed : String
  result : Except Failure Summary

/-- The build of a corpus and how it came about. -/
structure Build where
  stats : PruneStats
  block : GeneratedBlock
  suffix : String
  source : String

namespace Generate

/-- The pruned corpus as rendering takes it. -/
def context (corpus : Corpus) (c : GenerateConfig) : PruneStats × RenderContext :=
  let (stats, classes) := prune corpus.classes c.allowed
  (stats, { classes, enums := corpus.enums, mode := c.mode })

/-- The text of the host. -/
def readHost (t : FileTree) (c : GenerateConfig) : Except Failure String :=
  match t.read c.host with
  | .error e => .error (.file e)
  | .ok bytes => (Text.Utf8.readText bytes).mapError .encoding

/-- The suffix of a build: the one that is given, or one derived from the block. -/
def suffixFor (c : GenerateConfig) (block : GeneratedBlock) : String :=
  match c.suffix with
  | some s => if s.isEmpty then deriveSuffix block.text else s
  | none => deriveSuffix block.text

/-- What is said of a block that cannot be encoded, though a suffix is to be derived from it. -/
def suffixRefusal? (rt : Runtime) (c : GenerateConfig) (block : GeneratedBlock) : Option String :=
  match c.suffix with
  | some s => if s.isEmpty then rt.files.refusal? block.text else none
  | none => rt.files.refusal? block.text

/-- The build of a block. -/
def build (rt : Runtime) (t : FileTree) (c : GenerateConfig) (stats : PruneStats)
    (block : GeneratedBlock) : Except Failure Build :=
  match readHost t c with
  | .error e => .error e
  | .ok host =>
    match suffixRefusal? rt c block with
    | some message => .error (.unencodable message)
    | none =>
      let suffix := suffixFor c block
      match splice host block.text suffix with
      | .error e => .error (.splice e)
      | .ok source => .ok { stats, block, suffix, source }

/-- `source` written to the output. The file is opened, and so emptied, before the text is encoded. -/
def writeOutput (rt : Runtime) (t : FileTree) (c : GenerateConfig) (source : String) :
    FileTree × Except Failure FileTree.Written :=
  match rt.files.refusal? source with
  | none =>
    match t.write c.output source with
    | (t, .error e) => (t, .error (.file e))
    | (t, .ok w) => (t, .ok w)
  | some message =>
    match t.write c.output "" with
    | (t, .error e) => (t, .error (.file e))
    | (t, .ok _) => (t, .error (.unencodable message))

def loadingLine (c : GenerateConfig) : String :=
  "Loading: " ++ c.docsDir.text ++ "\n"

def corpusLine (corpus : Corpus) : String :=
  "  Corpus: " ++ corpus.classes.size.repr ++ " classes, " ++ corpus.enums.size.repr ++ " enums\n"

def prunedLine (stats : PruneStats) : String :=
  "  Pruned: " ++ stats.retainedCount.repr ++ " retained, " ++ stats.removed.size.repr ++
    " removed\n"

def renderedLine (block : GeneratedBlock) : String :=
  "  Rendered: " ++ block.typeCount.repr ++ " types, " ++ block.stubCount.repr ++ " functions\n"

def writtenLine (w : FileTree.Written) : String :=
  "  Written: " ++ w.lineCount.repr ++ " lines to " ++ w.path ++ "\n"

/-- The summary of a run that wrote `w`. -/
def summary (corpus : Corpus) (c : GenerateConfig) (b : Build) (w : FileTree.Written) :
    Summary where
  mode := c.mode.text
  loadedClasses := corpus.classes.size
  enumCount := corpus.enums.size
  prune := b.stats
  typeCount := b.block.typeCount
  stubCount := b.block.stubCount
  internalSuffix := b.suffix
  output := w

/-- `text` printed after `printed`, and the run that goes on from there. -/
def print (rt : Runtime) (t : FileTree) (printed text : String) (next : String → GenerateRun) :
    GenerateRun :=
  match rt.console.refusal? text with
  | some message => ⟨t, printed, .error (.unencodable message)⟩
  | none => next (printed ++ text)

/-- The last stages: the build written, and the summary printed. -/
def finish (rt : Runtime) (t : FileTree) (c : GenerateConfig) (printed : String) (corpus : Corpus)
    (b : Build) : GenerateRun :=
  match writeOutput rt t c b.source with
  | (t, .error e) => ⟨t, printed, .error e⟩
  | (t, .ok w) =>
    let s := summary corpus c b w
    print rt t printed (writtenLine w) fun printed =>
    print rt t printed s.report.text fun printed => ⟨t, printed, .ok s⟩

/-- The stages after loading. -/
def afterLoading (rt : Runtime) (t : FileTree) (c : GenerateConfig) (printed : String)
    (corpus : Corpus) : GenerateRun :=
  let (stats, ctx) := context corpus c
  print rt t printed (corpusLine corpus) fun printed =>
  print rt t printed (prunedLine stats) fun printed =>
  match ctx.buildBlock c.comments with
  | (_, .error e) => ⟨t, printed, .error (.block e)⟩
  | (_, .ok block) =>
    print rt t printed (renderedLine block) fun printed =>
    match build rt t c stats block with
    | .error e => ⟨t, printed, .error e⟩
    | .ok b => finish rt t c printed corpus b

end Generate

/-- The bindings generated as `c` says. -/
def generate (rt : Runtime) (t : FileTree) (c : GenerateConfig) : GenerateRun :=
  Generate.print rt t "" (Generate.loadingLine c) fun printed =>
  match Corpus.load rt.loader t c.docsDir with
  | .error e => ⟨t, printed, .error e⟩
  | .ok corpus => Generate.afterLoading rt t c printed corpus

end LuauBindings
