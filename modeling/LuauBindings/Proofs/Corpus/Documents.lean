import LuauBindings.Corpus.Load
import LuauBindings.Proofs.Files.Tree
import LuauBindings.Proofs.Sequence

/-!
# How loading fails

Loading a folder fails because it cannot be listed, because one of its documents cannot be read, or
because a document does not have the shape asked for or repeats a name (`LoadFailure`). The program
reports all of these itself, except for a scalar of a kind of its own: one whose text has not even the
form that its tag asks for. `FileTree.DocumentsRead` says that the documents of a tree have none.
-/

namespace LuauBindings

/-- A scalar that has the form its tag asks for but no value: no number, a number of too many digits,
or a day or time that is in no calendar. -/
def Yaml.ScalarFault.OfValue : Yaml.ScalarFault → Prop
  | .notInteger _ _ | .tooManyDigits _ | .notFloat _ | .calendar _ => True
  | .emptyNumber | .notTruthWord _ | .notTimestamp | .timestampMapping => False

instance : DecidablePred Yaml.ScalarFault.OfValue := fun f => by
  cases f <;> unfold Yaml.ScalarFault.OfValue <;> infer_instance

/-- The loader finds a value in the text, or the text is malformed or has a scalar without a value. -/
def Yaml.Loader.Reads (loader : Loader) (text : String) : Prop :=
  ∀ f, loader text = .error (.scalar f) → f.OfValue

/-- The loader reads the texts of all files of the tree that are named as documents. -/
def FileTree.DocumentsRead (t : FileTree) (loader : Yaml.Loader) : Prop :=
  ∀ l name bytes text, l.getLast? = some name → Corpus.isDocumentName name = true →
    t.fileAt? l = some bytes → Text.Utf8.readText bytes = .ok text → loader.Reads text

/-- The program reports the failure itself. -/
def Failure.Reported (f : Failure) : Prop :=
  f.report ≠ .none

namespace Failure.Reported

theorem document (e : DocumentError) : Reported (.document e) := by
  simp only [Reported, report]
  split <;> simp

theorem file (e : FileError) : Reported (.file e) := by
  simp only [Reported, report]
  split <;> simp

theorem encoding (f : Text.Utf8.Fault) : Reported (.encoding f) := by simp [Reported, report]

theorem scalar {f : Yaml.ScalarFault} (h : f.OfValue) : Reported (.scalar f) := by
  cases f <;> simp_all [Yaml.ScalarFault.OfValue, Reported, report]

theorem unencodable (message : String) : Reported (.unencodable message) := by simp [Reported, report]

theorem holdsMarker : Reported (.block .holdsMarker) := by simp [Reported, report]

theorem splice (f : SpliceFault) : Reported (.splice f) := by simp [Reported, report]

end Failure.Reported

namespace Corpus
variable {loader : Yaml.Loader} {t : FileTree} {folder docs p : Path} {f : Failure} {α : Type}

/-- `p` is the path of one of the documents in a folder. -/
def IsDocument (t : FileTree) (folder p : Path) : Prop :=
  ∃ paths, documentPaths t folder = .ok paths ∧ p ∈ paths

/-- How reading the document at a path fails. -/
inductive ReadFailure (loader : Yaml.Loader) (t : FileTree) (p : Path) : Failure → Prop
  | file {e : FileError} (h : t.read p = .error e) : ReadFailure loader t p (.file e)
  | encoding {bytes : ByteArray} {fault : Text.Utf8.Fault} (hbytes : t.read p = .ok bytes)
    (h : Text.Utf8.readText bytes = .error fault) : ReadFailure loader t p (.encoding fault)
  | malformed : ReadFailure loader t p (.document ⟨p.text, .malformed⟩)
  | scalar {bytes : ByteArray} {text : String} {fault : Yaml.ScalarFault} (hbytes : t.read p = .ok bytes)
    (htext : Text.Utf8.readText bytes = .ok text) (h : loader text = .error (.scalar fault)) :
    ReadFailure loader t p (.scalar fault)

/-- How loading the documents of a folder fails. -/
inductive LoadFailure (loader : Yaml.Loader) (t : FileTree) (folder : Path) : Failure → Prop
  | folder {e : FileError} (h : documentPaths t folder = .error e) : LoadFailure loader t folder (.file e)
  | unread {p : Path} {f : Failure} (hp : IsDocument t folder p) (h : readDocument loader t p = .error f) :
    LoadFailure loader t folder f
  /-- The document is not of the shape of a class, or gives no name. -/
  | shape {p : Path} {v : Yaml.Value} {fault : DocumentFault} (hp : IsDocument t folder p)
    (hread : readDocument loader t p = .ok v)
    (h : ClassDoc.ofValue v = .error fault ∨ documentName v = .error fault) :
    LoadFailure loader t folder (.document ⟨p.text, fault⟩)
  | repeated {p : Path} (hp : IsDocument t folder p) (name : String) :
    LoadFailure loader t folder (.document ⟨p.text, .duplicateClass name⟩)

theorem isDocumentName_of_mem {name : String} {entries : List (String × FileEntry)}
    (h : name ∈ documentNames entries) : isDocumentName name = true := by
  simp only [documentNames, List.mem_mergeSort, List.mem_filterMap] at h
  obtain ⟨⟨other, e⟩, -, h⟩ := h
  cases e with
  | folder => simp at h
  | file bytes =>
    simp only [Option.ite_none_right_eq_some, Option.some.injEq] at h
    rw [← h.2]
    exact h.1

theorem IsDocument.exists_name (h : IsDocument t folder p) :
    ∃ name, p = folder.child name ∧ isDocumentName name = true := by
  obtain ⟨paths, hpaths, hp⟩ := h
  obtain ⟨entries, -, rfl⟩ := map_eq_ok.mp hpaths
  obtain ⟨name, hname, rfl⟩ := List.mem_map.mp hp
  exact ⟨name, rfl, isDocumentName_of_mem hname⟩

theorem loadFailure_of_readAs {read : Yaml.Value → Except DocumentFault α} (hp : IsDocument t folder p)
    (hshape : ∀ v fault, read v = .error fault →
      ClassDoc.ofValue v = .error fault ∨ documentName v = .error fault)
    (h : readAs loader read t p = .error f) : LoadFailure loader t folder f := by
  unfold readAs at h
  split at h
  · next e he =>
    cases h
    exact .unread hp he
  · next v hv =>
    obtain ⟨fault, hfault, rfl⟩ := mapError_eq_error.mp h
    exact .shape hp hv (hshape v fault hfault)

theorem loadFailure_of_addClasses {classes : ClassMap} {paths : List Path}
    (hpaths : ∀ p ∈ paths, IsDocument t folder p) (h : addClasses loader t classes paths = .error f) :
    LoadFailure loader t folder f := by
  induction paths generalizing classes with
  | nil => cases h
  | cons p paths ih =>
    have hp : IsDocument t folder p := hpaths p (by simp)
    rw [addClasses] at h
    split at h
    · next e he =>
      cases h
      exact loadFailure_of_readAs hp (fun _ _ => .inl) he
    · next c _ =>
      split at h
      · cases h
        exact .repeated hp _
      · exact ih (fun q hq => hpaths q (by simp [hq])) h

theorem loadFailure_of_loadClasses (h : loadClasses loader t folder = .error f) :
    LoadFailure loader t folder f := by
  unfold loadClasses at h
  split at h
  · next e he =>
    cases h
    exact .folder he
  · next paths hpaths => exact loadFailure_of_addClasses (fun p hp => ⟨paths, hpaths, hp⟩) h

theorem loadFailure_of_loadEnums (h : loadEnums loader t folder = .error f) :
    LoadFailure loader t folder f := by
  unfold loadEnums at h
  split at h
  · next e he =>
    cases h
    exact .folder he
  · next paths hpaths =>
    obtain ⟨p, hp, hread⟩ := exists_of_mapM_eq_error (map_eq_error.mp h)
    exact loadFailure_of_readAs ⟨paths, hpaths, hp⟩ (fun _ _ => .inr) hread

theorem loadFailure_of_load (h : load loader t docs = .error f) :
    ∃ name ∈ ["classes", "enums"], LoadFailure loader t (docs.child name) f := by
  rw [load, bind_eq_error] at h
  rcases h with h | ⟨classes, -, h⟩
  · exact ⟨"classes", by simp, loadFailure_of_loadClasses h⟩
  · rw [bind_eq_error] at h
    rcases h with h | ⟨enums, -, h⟩
    · exact ⟨"enums", by simp, loadFailure_of_loadEnums h⟩
    · cases h

theorem readFailure_of_readDocument (h : readDocument loader t p = .error f) :
    ReadFailure loader t p f := by
  unfold readDocument at h
  split at h
  · next e he =>
    cases h
    exact .file he
  · next bytes hbytes =>
    split at h
    · next fault hfault =>
      cases h
      exact .encoding hbytes hfault
    · next text htext =>
      split at h
      · cases h
        exact .malformed
      · next fault hload =>
        cases h
        exact .scalar hbytes htext hload
      · cases h

theorem reported_of_readDocument {name : String} (hread : t.DocumentsRead loader)
    (hname : isDocumentName name = true) (h : readDocument loader t (folder.child name) = .error f) :
    f.Reported := by
  cases readFailure_of_readDocument h with
  | file _ => exact .file _
  | encoding _ _ => exact .encoding _
  | malformed => exact .document _
  | @scalar bytes text fault hbytes htext hload =>
    -- the path leads to a file of the tree that is named as a document
    have hup : name ≠ ".." := by
      rintro rfl
      exact absurd hname (by decide)
    obtain ⟨l, hlocate, hfile⟩ := FileTree.read_eq_ok_iff.mp hbytes
    have hlast := FileTree.getLast?_of_locate_child hup hlocate
    exact .scalar (hread l name bytes text hlast hname hfile htext fault hload)

theorem LoadFailure.reported (hread : t.DocumentsRead loader) (h : LoadFailure loader t folder f) :
    f.Reported := by
  cases h with
  | folder _ => exact .file _
  | unread hp h =>
    obtain ⟨name, rfl, hname⟩ := hp.exists_name
    exact reported_of_readDocument hread hname h
  | shape _ _ _ => exact .document _
  | repeated _ _ => exact .document _

/-- The entry is no document, or the loader reads its text. -/
def entryReads (loader : Yaml.Loader) : Location × FileEntry → Bool
  | (_, .folder) => true
  | (l, .file bytes) =>
    if l.getLast?.any isDocumentName then
      match Text.Utf8.readText bytes with
      | .error _ => true
      | .ok text =>
        match loader text with
        | .error (.scalar f) => decide f.OfValue
        | _ => true
    else true

theorem documentsRead_of_entries (h : t.entries.entries.all (entryReads loader) = true) :
    t.DocumentsRead loader := by
  intro l name bytes text hlast hname hfile htext f hload
  have hentry : (l, .file bytes) ∈ t.entries.entries := by
    rw [FileTree.fileAt?_eq_some, FileTree.lookup] at hfile
    split at hfile
    · cases hfile
    · exact OrderedMap.get?_eq_some_iff.mp hfile
  have hreads := List.all_eq_true.mp h _ hentry
  simpa [entryReads, htext, hload, hlast, hname] using hreads

theorem reported_of_load (hread : t.DocumentsRead loader) (h : load loader t docs = .error f) : f.Reported := by
  obtain ⟨name, -, hfailure⟩ := loadFailure_of_load h
  exact hfailure.reported hread

/-- The name of a document among the entries of a folder. -/
def documentName? : String × FileEntry → Option String
  | (name, .file _) => if isDocumentName name then some name else none
  | (_, .folder) => none

theorem documentPaths_of_sorted {entries : List (String × FileEntry)} {names : List String}
    (hentries : t.children folder = .ok entries) (hnames : entries.filterMap documentName? = names)
    (hsorted : names.Pairwise fun a b => decide (a ≤ b) = true) :
    documentPaths t folder = .ok (names.map folder.child) := by
  have hsame : documentNames entries =
      (entries.filterMap documentName?).mergeSort fun a b => decide (a ≤ b) := rfl
  rw [documentPaths, hentries, Except.map, hsame, hnames, List.mergeSort_of_pairwise hsorted]

end Corpus

section SmallTree

/-- The files of a corpus of three classes, two of which are related, and an enum; and a host. -/
def smallTree : FileTree where
  entries := .ofList
    [(["docs"], .folder), (["docs", "classes"], .folder), (["docs", "enums"], .folder),
      (["docs", "classes", "Base.yml"], .file "name: Base".toUTF8),
      (["docs", "classes", "GuiObject.yaml"], .file
        "name: GuiObject\ninherits: [Base]\nproperties: [\x7bname: end, type: Style\x7d]".toUTF8),
      (["docs", "classes", "Part.yaml"], .file "name: Part".toUTF8),
      (["docs", "enums", "Style.yaml"], .file "name: Style".toUTF8),
      (["host.luau"], .file "--!strict\n-- AUTOGEN\n".toUTF8)]
  current := []

def smallCorpus : Corpus where
  classes := .ofList
    [("Base", { name := "Base" }),
      ("GuiObject",
        { name := "GuiObject", inherits := ["Base"], properties := [⟨"end", "Style"⟩] }),
      ("Part", { name := "Part" })]
  enums := .ofList ["Style"]

theorem documentsRead_smallTree : smallTree.DocumentsRead Yaml.load :=
  Corpus.documentsRead_of_entries (by decide +kernel)

theorem load_smallTree : Corpus.load Yaml.load smallTree (.ofText "docs") = .ok smallCorpus := by
  let classNames := ["Base.yml", "GuiObject.yaml", "Part.yaml"]
  have hchildren : smallTree.children (.ofText "docs/classes") =
      .ok (smallTree.childrenAt ["docs", "classes"]) := rfl
  have hclassPaths : Corpus.documentPaths smallTree (.ofText "docs/classes") =
      .ok (classNames.map (Path.ofText "docs/classes").child) :=
    Corpus.documentPaths_of_sorted hchildren (by decide +kernel) (by decide)
  have hclasses : Corpus.loadClasses Yaml.load smallTree (.ofText "docs/classes") = .ok smallCorpus.classes := by
    have hread : ((Corpus.addClasses Yaml.load smallTree .empty
        (classNames.map (Path.ofText "docs/classes").child)).map OrderedMap.entries).toOption =
          some smallCorpus.classes.entries := by decide +kernel
    rw [Corpus.loadClasses, hclassPaths]
    dsimp only
    generalize Corpus.addClasses Yaml.load smallTree .empty _ = classes at hread
    rcases classes with f | classes
    · cases hread
    · exact congrArg Except.ok (OrderedMap.ext (Option.some.inj hread))
  have henums : Corpus.loadEnums Yaml.load smallTree (.ofText "docs/enums") = .ok smallCorpus.enums := by
    have hread : ((Corpus.loadEnums Yaml.load smallTree (.ofText "docs/enums")).map NameSet.toList).toOption =
        some ["Style"] := by decide +kernel
    generalize Corpus.loadEnums Yaml.load smallTree _ = enums at hread
    rcases enums with f | enums
    · cases hread
    · refine congrArg Except.ok (NameSet.ext fun name => ?_)
      rw [NameSet.mem_def, Option.some.inj hread]
      rfl
  have hdocs : (Path.ofText "docs").child "classes" = .ofText "docs/classes" ∧
      (Path.ofText "docs").child "enums" = .ofText "docs/enums" := by decide
  rw [Corpus.load, hdocs.1, hdocs.2, hclasses, henums]
  rfl

end SmallTree

end LuauBindings
