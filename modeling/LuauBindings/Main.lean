import LuauBindings.Run.Program

/-!
# The command line program

The files and folders that the command line names are read into a file tree, the program runs on the
tree, and what it changed there is written back.
-/

namespace LuauBindings

/-- What stands at a path of the file system. -/
def probe (path : String) : IO (Option FileEntry) := do
  let file := (← IO.currentDir) / path
  if ← file.isDir then return some .folder
  else if ← file.pathExists then return some (.file (← IO.FS.readBinFile file))
  else return none

/-- `t` with what stands at a path and at the folders on the way to it. -/
def addPath (t : FileTree) (p : Path) : IO FileTree := do
  let mut t := t
  let mut l : Location := if p.root.isEmpty then t.current else []
  let mut passed : Path := { p with names := [] }
  for name in p.names do
    passed := passed.child name
    l := if name = ".." then l.dropLast else l ++ [name]
    if let some e ← probe passed.text then
      t := t.put l e
  return t

/-- `t` with the documents in a folder. -/
def addDocuments (t : FileTree) (folder : Path) : IO FileTree := do
  let mut t ← addPath t folder
  if t.isFolder folder then
    for e in ← ((← IO.currentDir) / folder.text).readDir do
      if Corpus.isDocumentName e.fileName then
        t ← addPath t (folder.child e.fileName)
  return t

/-- The tree of the files that the options name. -/
def readTree (o : Options) : IO FileTree := do
  let here := (Path.ofText (← IO.currentDir).toString).names
  let mut t : FileTree := ⟨.empty, here⟩
  for n in List.range here.length do
    t := t.put (here.take (n + 1)) .folder
  if let some docs := o.docsDir then
    t ← addPath t docs
    t ← addDocuments t (docs.child "classes")
    t ← addDocuments t (docs.child "enums")
  if let some host := o.host then
    t ← addPath t host
  addPath t o.output

/-- What is in `after` and was not in `before`, written to the file system. -/
def writeTree (before after : FileTree) : IO Unit := do
  for (l, e) in after.entries.entries do
    match before.lookup l, e with
    | none, .folder => IO.FS.createDirAll l.text
    | some .folder, _ => pure ()
    | some (.file old), .file new => if old != new then IO.FS.writeBinFile l.text new
    | none, .file new => IO.FS.writeBinFile l.text new
    | some (.file _), .folder => pure ()

end LuauBindings

open LuauBindings in
/-- The program run in the current folder. -/
def main (args : List String) : IO UInt32 := do
  let before ← match Options.parse args with
    | .ok (.run o) => readTree o
    | _ => pure ⟨.empty, []⟩
  let outcome := runProgram {} before args
  writeTree before outcome.tree
  IO.print outcome.stdout
  IO.eprint outcome.stderr
  match outcome.ending with
  | .completed => return 0
  | .exited code => return code.toUInt32
  | .unreported f =>
    IO.eprintln f.message
    return 1
