import LuauBindings.Proofs.Corpus.InOrder

/-!
# Which failures tell the document

A failure to load tells where it comes from if it is that of a file or folder, which has its path, or if it
carries the path of the document at fault (`Attributed`). A document whose text is malformed, or whose value
has the wrong shape, is told in this way.

What goes wrong before the text is parsed, or inside a scalar, is not: bytes that are not UTF-8, and a scalar
without a value of its tag, leave without the path (`LosesSource`), and so do a number that no message can show and
a path that the system does not take. There is nothing else (`attributed_or_losesSource`).
-/

namespace LuauBindings.Corpus
open Yaml (Value)
variable {loader : Yaml.Loader} {t : FileTree} {docs p : Path} {name : String} {f : Failure}

/-- `p` is the path of one of the documents of the corpus in `docs`. -/
def IsCorpusDocument (t : FileTree) (docs p : Path) : Prop :=
  ∃ folder ∈ ["classes", "enums"], IsDocument t (docs.child folder) p

/-- The failure is that of a file or folder, or it names the document of the corpus that is at fault. -/
inductive Attributed (t : FileTree) (docs : Path) : Failure → Prop
  | file {e : FileError} (h : e.fault ≠ .nullCharacter) : Attributed t docs (.file e)
  | document {p : Path} {e : DocumentError} (hp : IsCorpusDocument t docs p) (hsource : e.source = p.text)
    (h : e.fault.isAttributable = true) : Attributed t docs (.document e)

/-- Nothing on the way to the document at `p`, in its bytes or in its scalars makes loading fail without its
name. -/
structure Legible (loader : Yaml.Loader) (t : FileTree) (p : Path) : Prop where
  path : p.hasNull = false
  text : ∀ bytes, t.read p = .ok bytes → ∃ text, Text.Utf8.readText bytes = .ok text
  scalars : ∀ fault, readDocument loader t p ≠ .error (.scalar fault)
  entries : ∀ v, readDocument loader t p = .ok v → ClassDoc.EntriesShowable v

/-- How a failure comes about that does not tell the document. -/
inductive LosesSource (loader : Yaml.Loader) (t : FileTree) (docs : Path) : Failure → Prop
  | encoding {p : Path} {bytes : ByteArray} {fault : Text.Utf8.Fault} (hp : IsCorpusDocument t docs p)
    (hread : t.read p = .ok bytes) (h : Text.Utf8.readText bytes = .error fault) :
    LosesSource loader t docs (.encoding fault)
  | scalar {p : Path} {fault : Yaml.ScalarFault} (hp : IsCorpusDocument t docs p)
    (h : readDocument loader t p = .error (.scalar fault)) : LosesSource loader t docs (.scalar fault)
  /-- A number is where a property should be, and it has too many digits to be shown. -/
  | number {p : Path} {v : Value} {e : DocumentError} (hp : IsCorpusDocument t docs p)
    (hread : readDocument loader t p = .ok v) (h : ClassDoc.ofValue v = .error e.fault)
    (hfault : e.fault.isAttributable = false) : LosesSource loader t docs (.document e)
  | folder {e : FileError} (hnull : docs.hasNull = true) (h : e.fault = .nullCharacter) :
    LosesSource loader t docs (.file e)
  | path {p : Path} {e : FileError} (hp : IsCorpusDocument t docs p) (hnull : p.hasNull = true)
    (h : e.fault = .nullCharacter) : LosesSource loader t docs (.file e)

theorem attributed_or_losesSource_of_readDocument (hp : IsCorpusDocument t docs p)
    (h : readDocument loader t p = .error f) : Attributed t docs f ∨ LosesSource loader t docs f := by
  cases readFailure_of_readDocument h with
  | @file e he =>
    by_cases hnull : e.fault = .nullCharacter
    · have hread : t.read p = .error ⟨.nullCharacter, e.path⟩ := by rw [he, ← hnull]
      exact .inr (.path hp (FileTree.hasNull_of_read hread).2 hnull)
    · exact .inl (.file hnull)
  | encoding hbytes hfault => exact .inr (.encoding hp hbytes hfault)
  | malformed => exact .inl (.document hp rfl rfl)
  | scalar _ _ _ => exact .inr (.scalar hp h)

theorem hasNull_child (docs : Path) (name : String) :
    (docs.child name).hasNull = (docs.hasNull || name.toList.contains '\x00') := by
  simp [Path.hasNull, Path.child, List.any_append]

/-- Every failure tells where it comes from, or came about in one of the ways that do not. -/
theorem attributed_or_losesSource (h : load loader t docs = .error f) :
    Attributed t docs f ∨ LosesSource loader t docs f := by
  obtain ⟨name, hname, hfailure⟩ := loadFailure_of_load h
  have hdocument {p : Path} (hp : IsDocument t (docs.child name) p) : IsCorpusDocument t docs p :=
    ⟨name, hname, hp⟩
  cases hfailure with
  | @folder e he =>
    by_cases hnull : e.fault = .nullCharacter
    · have hchildren : t.children (docs.child name) = .error ⟨.nullCharacter, e.path⟩ := by
        rw [documentPaths, map_eq_error] at he
        rw [he, ← hnull]
      have hfolder := (FileTree.hasNull_of_children hchildren).2
      have hplain : ∀ name ∈ ["classes", "enums"], name.toList.contains '\x00' = false := by decide
      rw [hasNull_child, hplain name hname, Bool.or_false] at hfolder
      exact .inr (.folder hfolder hnull)
    · exact .inl (.file hnull)
  | unread hp hread => exact attributed_or_losesSource_of_readDocument (hdocument hp) hread
  | @shape p v fault hp hread hv =>
    cases hfault : fault.isAttributable with
    | true => exact .inl (.document (hdocument hp) rfl hfault)
    | false =>
      rcases hv with hv | hv
      · exact .inr (.number (hdocument hp) hread hv hfault)
      · rw [ClassDoc.isAttributable_of_documentName hv] at hfault
        cases hfault
  | repeated hp _ => exact .inl (.document (hdocument hp) rfl rfl)

theorem LosesSource.not_attributed (h : LosesSource loader t docs f) : ¬ Attributed t docs f := by
  intro hattributed
  cases h with
  | encoding _ _ _ => cases hattributed
  | scalar _ _ => cases hattributed
  | number _ _ _ hfault =>
    cases hattributed with
    | document _ _ h =>
      rw [hfault] at h
      cases h
  | folder _ h =>
    cases hattributed with
    | file hne => exact hne h
  | path _ _ h =>
    cases hattributed with
    | file hne => exact hne h

theorem not_losesSource_of_legible (hdocs : docs.hasNull = false)
    (h : ∀ p, IsCorpusDocument t docs p → Legible loader t p) : ¬ LosesSource loader t docs f := by
  intro hloses
  cases hloses with
  | encoding hp hread hfault =>
    obtain ⟨text, htext⟩ := (h _ hp).text _ hread
    rw [hfault] at htext
    cases htext
  | scalar hp hread => exact (h _ hp).scalars _ hread
  | number hp hread hv hfault =>
    rw [ClassDoc.isAttributable_of_ofValue_eq_error ((h _ hp).entries _ hread) hv] at hfault
    cases hfault
  | folder hnull _ =>
    rw [hdocs] at hnull
    cases hnull
  | path hp hnull _ =>
    rw [(h _ hp).path] at hnull
    cases hnull

/-- A corpus of legible documents fails to load only with an error of a file or folder or with one that names
the document at fault. Whatever the documents hold, the failures that do neither are those of bytes that are
not UTF-8, of a scalar without a value, of a number that cannot be shown, and of a path with a null character. -/
theorem load_attributes_failures (loader : Yaml.Loader) (t : FileTree) (docs : Path) :
    (docs.hasNull = false → (∀ p, IsCorpusDocument t docs p → Legible loader t p) →
      ∀ f, load loader t docs = .error f → Attributed t docs f) ∧
    ∀ f, load loader t docs = .error f → (¬ Attributed t docs f ↔ LosesSource loader t docs f) := by
  refine ⟨fun hdocs hlegible f hf => ?_, fun f hf => ⟨fun hnot => ?_, LosesSource.not_attributed⟩⟩
  · exact (attributed_or_losesSource hf).resolve_right (not_losesSource_of_legible hdocs hlegible)
  · exact (attributed_or_losesSource hf).resolve_left hnot

section OneDocument

/-- A corpus of one class document, with these bytes. -/
def oneDocument (bytes : ByteArray) : FileTree where
  entries := .ofList
    [(["docs"], .folder), (["docs", "classes"], .folder), (["docs", "enums"], .folder),
      (["docs", "classes", "Frame.yaml"], .file bytes)]
  current := []

def framePath : Path := .ofText "docs/classes/Frame.yaml"

theorem documentPaths_oneDocument (bytes : ByteArray) :
    documentPaths (oneDocument bytes) ((Path.ofText "docs").child "classes") = .ok [framePath] ∧
    documentPaths (oneDocument bytes) ((Path.ofText "docs").child "enums") = .ok [] := by
  have hclasses : (oneDocument bytes).children (.ofText "docs/classes") = .ok [("Frame.yaml", .file bytes)] := rfl
  have henums : (oneDocument bytes).children (.ofText "docs/enums") = .ok [] := rfl
  exact ⟨documentPaths_of_sorted hclasses rfl (List.pairwise_singleton ..), documentPaths_of_sorted henums rfl .nil⟩

theorem isCorpusDocument_oneDocument {bytes : ByteArray}
    (hp : IsCorpusDocument (oneDocument bytes) (.ofText "docs") p) : p = framePath := by
  obtain ⟨hclasses, henums⟩ := documentPaths_oneDocument bytes
  obtain ⟨folder, hfolder, hp⟩ := hp
  simp only [List.mem_cons, List.not_mem_nil, or_false] at hfolder
  rcases hfolder with rfl | rfl
  · exact List.mem_singleton.mp ((isDocument_iff_mem hclasses).mp hp)
  · exact absurd ((isDocument_iff_mem henums).mp hp) List.not_mem_nil

theorem load_oneDocument {bytes : ByteArray} (h : readDocument loader (oneDocument bytes) framePath = .error f) :
    load loader (oneDocument bytes) (.ofText "docs") = .error f := by
  have hrefused : readAs loader ClassDoc.ofValue (oneDocument bytes) framePath = .error f := by rw [readAs, h]
  have hclasses : loadClasses loader (oneDocument bytes) ((Path.ofText "docs").child "classes") = .error f := by
    rw [loadClasses_of_paths (documentPaths_oneDocument bytes).1]
    exact addClasses_of_refused (.unread hrefused) []
  rw [load, hclasses]
  rfl

theorem read_oneDocument (bytes : ByteArray) : (oneDocument bytes).read framePath = .ok bytes := rfl

theorem load_attributes_failures_malformed :
    load Yaml.load (oneDocument "name: [unclosed".toUTF8) (.ofText "docs") =
      .error (.document ⟨"docs/classes/Frame.yaml", .malformed⟩) ∧
    Attributed (oneDocument "name: [unclosed".toUTF8) (.ofText "docs")
      (.document ⟨"docs/classes/Frame.yaml", .malformed⟩) := by
  have hfault : (readDocument Yaml.load (oneDocument "name: [unclosed".toUTF8) framePath).map (fun _ => ()) =
      .error (.document ⟨"docs/classes/Frame.yaml", .malformed⟩) := by decide +kernel
  have htext : (Text.Utf8.readText "name: [unclosed".toUTF8).toOption = some "name: [unclosed" := by
    decide +kernel
  have hread : readDocument Yaml.load (oneDocument "name: [unclosed".toUTF8) framePath =
      .error (.document ⟨"docs/classes/Frame.yaml", .malformed⟩) := map_eq_error.mp hfault
  have hload := load_oneDocument hread
  refine ⟨hload, (load_attributes_failures _ _ _).1 rfl (fun p hp => ?_) _ hload⟩
  obtain rfl := isCorpusDocument_oneDocument hp
  refine ⟨by decide, fun bytes hbytes => ?_, fun fault hfault => ?_, fun v hv => ?_⟩
  · rw [read_oneDocument] at hbytes
    cases hbytes
    cases hdecoded : Text.Utf8.readText "name: [unclosed".toUTF8 with
    | ok text => exact ⟨text, rfl⟩
    | error fault =>
      rw [hdecoded] at htext
      cases htext
  · rw [hread] at hfault
    cases hfault
  · rw [hread] at hv
    cases hv

/-- A document of one byte that is not UTF-8, and one with a day that is in no calendar, do not load, and the
failure does not tell that it is theirs. -/
theorem load_loses_source :
    (∃ f, load Yaml.load (oneDocument ⟨#[0xff]⟩) (.ofText "docs") = .error f ∧
      ¬ Attributed (oneDocument ⟨#[0xff]⟩) (.ofText "docs") f) ∧
    ∃ f, load Yaml.load (oneDocument "name: 2020-13-45".toUTF8) (.ofText "docs") = .error f ∧
      ¬ Attributed (oneDocument "name: 2020-13-45".toUTF8) (.ofText "docs") f := by
  have hbyte : (readDocument Yaml.load (oneDocument ⟨#[0xff]⟩) framePath).map (fun _ => ()) =
      .error (.encoding ⟨0, 1, 0xff, .invalidStart⟩) := by decide +kernel
  have hday : (readDocument Yaml.load (oneDocument "name: 2020-13-45".toUTF8) framePath).map (fun _ => ()) =
      .error (.scalar (.calendar .month)) := by decide +kernel
  refine ⟨⟨_, load_oneDocument (map_eq_error.mp hbyte), fun h => ?_⟩,
    ⟨_, load_oneDocument (map_eq_error.mp hday), fun h => ?_⟩⟩
  · cases h
  · cases h

end OneDocument

end LuauBindings.Corpus
