import LuauBindings.Files.Path
import LuauBindings.OrderedMap
import LuauBindings.Text.Quoted

/-!
# File trees

A `FileTree` holds the folders and files below the root folder, each at its location, the list of
names that leads to it. A path is followed name by name from the current folder or the root; every
name but the last must lead to a folder, and two points lead back to the folder above.
-/

namespace LuauBindings

/-- The names that lead from the root folder to a file or folder. -/
abbrev Location := List String

/-- The absolute path of a location. -/
def Location.text (l : Location) : String :=
  "/" ++ "/".intercalate l

inductive FileEntry
  | file (bytes : ByteArray)
  | folder

/-- Why a path cannot be used. -/
inductive FileFault
  | notFound
  | exists
  | notFolder
  | isFolder
  /-- The path holds a null character. -/
  | nullCharacter
deriving DecidableEq, Repr

/-- A fault and the path that has it. -/
structure FileError where
  fault : FileFault
  path : Path
deriving DecidableEq, Repr

def FileError.message (e : FileError) : String :=
  let numbered (n : Nat) (what : String) : String :=
    "[Errno " ++ n.repr ++ "] " ++ what ++ ": " ++ Text.quote e.path.text
  match e.fault with
  | .notFound => numbered 2 "No such file or directory"
  | .exists => numbered 17 "File exists"
  | .notFolder => numbered 20 "Not a directory"
  | .isFolder => numbered 21 "Is a directory"
  | .nullCharacter => "embedded null byte"

/-- The files and folders below the root folder, and the current folder. -/
structure FileTree where
  entries : OrderedMap Location FileEntry
  current : Location

namespace FileTree

/-- What stands at a location; at the root, a folder. -/
def lookup (t : FileTree) (l : Location) : Option FileEntry :=
  if l.isEmpty then some .folder else t.entries.get? l

def put (t : FileTree) (l : Location) (e : FileEntry) : FileTree :=
  { t with entries := t.entries.insert l e }

/-- The tree without what stands at `l` and below. -/
def remove (t : FileTree) (l : Location) : FileTree :=
  { t with entries := t.entries.filterKeys fun k => !l.isPrefixOf k }

/-- The location to which `names` lead from `l`. -/
def follow (t : FileTree) (l : Location) : List String → Except FileFault Location
  | [] => .ok l
  | name :: names =>
    match t.lookup l with
    | none => .error .notFound
    | some (.file _) => .error .notFolder
    | some .folder => follow t (if name = ".." then l.dropLast else l ++ [name]) names

/-- The location of a path. The last name need not be there. -/
def locate (t : FileTree) (p : Path) : Except FileFault Location :=
  if p.hasNull then .error .nullCharacter
  else t.follow (if p.root.isEmpty then t.current else []) p.names

/-- What stands at a path. -/
def find (t : FileTree) (p : Path) : Except FileFault FileEntry :=
  match t.locate p with
  | .error e => .error e
  | .ok l => match t.lookup l with
    | some e => .ok e
    | none => .error .notFound

def exists? (t : FileTree) (p : Path) : Bool :=
  (t.find p).isOk

def isFolder (t : FileTree) (p : Path) : Bool :=
  match t.find p with
  | .ok .folder => true
  | _ => false

/-- The bytes of the file at a path. -/
def read (t : FileTree) (p : Path) : Except FileError ByteArray :=
  match t.find p with
  | .error e => .error ⟨e, p⟩
  | .ok .folder => .error ⟨.isFolder, p⟩
  | .ok (.file bytes) => .ok bytes

/-- The names in the folder at a location with what stands there. -/
def childrenAt (t : FileTree) (l : Location) : List (String × FileEntry) :=
  t.entries.entries.filterMap fun (k, e) =>
    match k.getLast? with
    | some name => if k.dropLast = l then some (name, e) else none
    | none => none

/-- The names in the folder at a path with what stands there. -/
def children (t : FileTree) (p : Path) : Except FileError (List (String × FileEntry)) :=
  match t.locate p with
  | .error e => .error ⟨e, p⟩
  | .ok l => match t.lookup l with
    | none => .error ⟨.notFound, p⟩
    | some (.file _) => .error ⟨.notFolder, p⟩
    | some .folder => .ok (t.childrenAt l)

/-- A new folder at a path, in a folder that is there. -/
def makeFolder (t : FileTree) (p : Path) : Except FileFault FileTree :=
  match t.locate p with
  | .error e => .error e
  | .ok l => if (t.lookup l).isSome then .error .exists else .ok (t.put l .folder)

/-- The folder at a path, made with those above it unless it is there. `up` are the names of the
path, last first. What was made before a failure stays. -/
def makeFolders (t : FileTree) (root : String) :
    (up : List String) → FileTree × Except FileError Unit
  | [] => (t, .ok ())
  | name :: up =>
    let p : Path := ⟨root, (name :: up).reverse⟩
    let settle (t : FileTree) (e : FileFault) : FileTree × Except FileError Unit :=
      (t, if e ≠ .nullCharacter ∧ t.isFolder p then .ok () else .error ⟨e, p⟩)
    match t.makeFolder p with
    | .ok t => (t, .ok ())
    | .error .notFound =>
      match makeFolders t root up with
      | (t, .error e) => (t, .error e)
      | (t, .ok ()) =>
        match t.makeFolder p with
        | .ok t => (t, .ok ())
        | .error e => settle t e
    | .error e => settle t e

/-- What was written: where, and how many lines and bytes. -/
structure Written where
  path : String
  lineCount : Nat
  byteCount : Nat
deriving DecidableEq, Repr

/-- `content` written to the file at a path in place of what it held, the folders above it made as
needed. -/
def write (t : FileTree) (p : Path) (content : String) : FileTree × Except FileError Written :=
  match t.makeFolders p.root p.parent.names.reverse with
  | (t, .error e) => (t, .error e)
  | (t, .ok ()) =>
    match t.locate p with
    | .error e => (t, .error ⟨e, p⟩)
    | .ok l =>
      match t.lookup l with
      | some .folder => (t, .error ⟨.isFolder, p⟩)
      | _ =>
        let bytes := content.toUTF8
        (t.put l (.file bytes), .ok ⟨Location.text l, Text.countNewlines content, bytes.size⟩)

end FileTree

end LuauBindings
