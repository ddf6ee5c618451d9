import LuauBindings.Failure

/-!
# Loading the corpus

The corpus is a folder with a folder of class documents and one of enum documents. The documents of
a folder are its files named `.yaml` or `.yml`, read in the order of their names. Class names are
distinct; the first document that cannot be read, or that repeats a name, stops the loading.
-/

namespace LuauBindings

/-- What is loaded: the classes, and the names of the enums. -/
structure Corpus where
  classes : ClassMap
  enums : NameSet

namespace Corpus

/-- Whether a file name is that of a document. -/
def isDocumentName (name : String) : Bool :=
  fileSuffix name == ".yaml" || fileSuffix name == ".yml"

/-- The file names of the documents among the entries of a folder, in order. -/
def documentNames (entries : List (String × FileEntry)) : List String :=
  (entries.filterMap fun
    | (name, .file _) => if isDocumentName name then some name else none
    | (_, .folder) => none).mergeSort fun a b => decide (a ≤ b)

/-- The paths of the documents in a folder. -/
def documentPaths (t : FileTree) (folder : Path) : Except FileError (List Path) :=
  (t.children folder).map fun entries => (documentNames entries).map folder.child

/-- The value of the document in a file. -/
def readDocument (loader : Yaml.Loader) (t : FileTree) (p : Path) : Except Failure Yaml.Value :=
  match t.read p with
  | .error e => .error (.file e)
  | .ok bytes =>
    match Text.Utf8.readText bytes with
    | .error f => .error (.encoding f)
    | .ok text =>
      match loader text with
      | .error .malformed => .error (.document ⟨p.text, .malformed⟩)
      | .error (.scalar f) => .error (.scalar f)
      | .ok v => .ok v

/-- What a document describes, as `read` finds it. -/
def readAs {α : Type} (loader : Yaml.Loader) (read : Yaml.Value → Except DocumentFault α) (t : FileTree)
    (p : Path) : Except Failure α :=
  match readDocument loader t p with
  | .error e => .error e
  | .ok v => (read v).mapError fun f => .document ⟨p.text, f⟩

/-- `classes` with the classes of the documents at `paths`. -/
def addClasses (loader : Yaml.Loader) (t : FileTree) (classes : ClassMap) :
    List Path → Except Failure ClassMap
  | [] => .ok classes
  | p :: paths =>
    match readAs loader ClassDoc.ofValue t p with
    | .error e => .error e
    | .ok c =>
      if classes.contains c.name then .error (.document ⟨p.text, .duplicateClass c.name⟩)
      else addClasses loader t (classes.insert c.name c) paths

/-- The classes of the documents in a folder. -/
def loadClasses (loader : Yaml.Loader) (t : FileTree) (folder : Path) : Except Failure ClassMap :=
  match documentPaths t folder with
  | .error e => .error (.file e)
  | .ok paths => addClasses loader t .empty paths

/-- The names of the documents in a folder. -/
def loadEnums (loader : Yaml.Loader) (t : FileTree) (folder : Path) : Except Failure NameSet :=
  match documentPaths t folder with
  | .error e => .error (.file e)
  | .ok paths => (paths.mapM (readAs loader documentName t)).map .ofList

/-- The corpus in a folder. -/
def load (loader : Yaml.Loader) (t : FileTree) (docs : Path) : Except Failure Corpus := do
  let classes ← loadClasses loader t (docs.child "classes")
  let enums ← loadEnums loader t (docs.child "enums")
  return { classes, enums }

end Corpus

end LuauBindings
