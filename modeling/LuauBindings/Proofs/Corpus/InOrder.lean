import LuauBindings.Proofs.Corpus.Loaded
import LuauBindings.Proofs.Corpus.Shape

/-!
# Loading goes document by document

The documents of a folder are taken in the order of their names. Each class document adds one entry at the
end, the class it describes under the name it gives (`addClasses_eq_ok_iff`), and the first document that
is refused is what loading fails with (`addClasses_eq_error_iff`): one that cannot be read as a class, or
one that repeats a name. Names of enums are collected in the same order, but there a name may come twice.

All of it depends on nothing but the bytes of the files that are named as documents (`readDocument_congr`),
so neither the order in which a folder is listed nor anything else in it can be told from the outcome.
-/

namespace LuauBindings

theorem Yaml.Value.NameUnder.unique {entries : List (Yaml.Value × Yaml.Value)} {name other : String}
    (h : NameUnder entries name) (h' : NameUnder entries other) : name = other := by
  obtain ⟨s, hs, -, rfl⟩ := h
  obtain ⟨s', hs', -, rfl⟩ := h'
  rw [hs] at hs'
  cases hs'
  rfl

namespace Corpus
open Yaml (Value)
variable {loader : Yaml.Loader} {t u : FileTree} {l k : Location} {folder p : Path} {name : String}
  {names : List String} {paths : List Path} {known loaded classes : ClassMap} {enums : NameSet}
  {f : Failure} {α : Type} {a : α} {read : Value → Except DocumentFault α}

section Documents

theorem isDocumentName_iff : isDocumentName name = true ↔
    ∃ stem, stem ≠ "" ∧ (name = stem ++ ".yaml" ∨ name = stem ++ ".yml") := by
  have hyaml : fileSuffix name = ".yaml" ↔ ∃ stem, stem ≠ "" ∧ name = stem ++ ".yaml" :=
    @fileSuffix_eq_iff name "yaml" (by decide) (by decide)
  have hyml : fileSuffix name = ".yml" ↔ ∃ stem, stem ≠ "" ∧ name = stem ++ ".yml" :=
    @fileSuffix_eq_iff name "yml" (by decide) (by decide)
  rw [isDocumentName, Bool.or_eq_true, beq_iff_eq, beq_iff_eq, hyaml, hyml, ← exists_or]
  simp only [← and_or_left]

theorem ne_up_of_isDocumentName (h : isDocumentName name = true) : name ≠ ".." := by
  rintro rfl
  exact absurd h (by decide)

theorem strictly_sorted_documentNames (t : FileTree) (l : Location) :
    (documentNames (t.childrenAt l)).Pairwise (· < ·) := by
  refine ((sorted_documentNames _).and (nodup_documentNames t l)).imp fun {a b} h => ?_
  exact String.not_le.mp fun hba => h.2 (String.le_antisymm h.1 hba)

theorem documentPaths_of_folder (hl : t.locate folder = .ok l) (hfolder : t.lookup l = some .folder) :
    documentPaths t folder = .ok ((documentNames (t.childrenAt l)).map folder.child) :=
  documentPaths_eq_ok_iff.mpr ⟨l, hl, hfolder, rfl⟩

end Documents

section Read

theorem readAs_eq_ok_iff :
    readAs loader read t p = .ok a ↔ ∃ v, readDocument loader t p = .ok v ∧ read v = .ok a := by
  unfold readAs
  cases readDocument loader t p with
  | error e => simp
  | ok v => cases hv : read v <;> simp [hv, Except.mapError]

def GivesName (loader : Yaml.Loader) (t : FileTree) (p : Path) (name : String) : Prop :=
  ∃ entries, readDocument loader t p = .ok (.map entries) ∧ Value.NameUnder entries name

theorem readAs_documentName_eq_ok_iff :
    readAs loader documentName t p = .ok name ↔ GivesName loader t p name := by
  rw [readAs_eq_ok_iff, GivesName]
  constructor
  · rintro ⟨v, hv, h⟩
    obtain ⟨entries, rfl, hname⟩ := ClassDoc.documentName_eq_ok_iff.mp h
    exact ⟨entries, hv, hname⟩
  · rintro ⟨entries, hv, hname⟩
    exact ⟨_, hv, ClassDoc.documentName_eq_ok_iff.mpr ⟨entries, rfl, hname⟩⟩

theorem GivesName.unique {other : String} (h : GivesName loader t p name)
    (h' : GivesName loader t p other) : name = other := by
  obtain ⟨entries, hread, hname⟩ := h
  obtain ⟨entries', hread', hname'⟩ := h'
  rw [hread] at hread'
  cases hread'
  exact hname.unique hname'

theorem givesName_of_readAs {c : ClassDoc} (h : readAs loader ClassDoc.ofValue t p = .ok c) :
    GivesName loader t p c.name := by
  obtain ⟨v, hv, hc⟩ := readAs_eq_ok_iff.mp h
  obtain ⟨entries, rfl, hfields⟩ := ClassDoc.ofValue_eq_ok_iff.mp hc
  exact ⟨entries, hv, hfields.name⟩

theorem readDocument_congr (hl : t.locate folder = .ok l) (hfolder : t.lookup l = some .folder)
    (hk : u.locate folder = .ok k) (hfolder' : u.lookup k = some .folder) (hname : name ≠ "..")
    (hfile : (t.fileAt? (l ++ [name])).isSome) (hsame : u.fileAt? (k ++ [name]) = t.fileAt? (l ++ [name])) :
    readDocument loader u (folder.child name) = readDocument loader t (folder.child name) := by
  obtain ⟨bytes, hbytes⟩ := Option.isSome_iff_exists.mp hfile
  have hread := FileTree.read_child hl hfolder hname hbytes
  have hread' := FileTree.read_child hk hfolder' hname (hsame.trans hbytes)
  rw [readDocument, readDocument, hread, hread']

end Read

section Classes

/-- `e` is the entry for the document at `p`: the class it describes, under the name it gives. -/
structure IsEntryOf (loader : Yaml.Loader) (t : FileTree) (p : Path) (e : String × ClassDoc) : Prop where
  describes : readAs loader ClassDoc.ofValue t p = .ok e.2
  name : GivesName loader t p e.1

/-- Why a class document is refused after others have been read. -/
inductive Refused (loader : Yaml.Loader) (t : FileTree) (reached : ClassMap) (p : Path) : Failure → Prop
  | unread {f : Failure} (h : readAs loader ClassDoc.ofValue t p = .error f) : Refused loader t reached p f
  | repeated {c : ClassDoc} (h : readAs loader ClassDoc.ofValue t p = .ok c) (hc : c.name ∈ reached.keys) :
    Refused loader t reached p (.document ⟨p.text, .duplicateClass c.name⟩)

theorem isEntryOf_iff {e : String × ClassDoc} :
    IsEntryOf loader t p e ↔ readAs loader ClassDoc.ofValue t p = .ok e.2 ∧ e.1 = e.2.name := by
  constructor
  · rintro ⟨hread, hname⟩
    exact ⟨hread, hname.unique (givesName_of_readAs hread)⟩
  · rintro ⟨hread, hname⟩
    exact ⟨hread, hname ▸ givesName_of_readAs hread⟩

/-- Every document adds its entry, and nothing else is added. -/
theorem addClasses_eq_ok_iff : addClasses loader t known paths = .ok loaded ↔
    ∃ added, loaded.entries = known.entries ++ added ∧ List.Forall₂ (IsEntryOf loader t) paths added := by
  induction paths generalizing known with
  | nil =>
    simp only [addClasses, Except.ok.injEq, List.forall₂_nil_left_iff, exists_eq_right, List.append_nil]
    rw [eq_comm, OrderedMap.ext_iff]
  | cons p paths ih =>
    rw [addClasses]
    constructor
    · intro h
      split at h
      · cases h
      · next c hc =>
        split at h
        · cases h
        · next hnew =>
          rw [OrderedMap.contains_iff] at hnew
          obtain ⟨added, hentries, hadded⟩ := ih.mp h
          rw [OrderedMap.entries_insert_of_not_mem hnew, List.append_assoc] at hentries
          exact ⟨_, hentries, .cons (isEntryOf_iff.mpr ⟨hc, rfl⟩) hadded⟩
    · rintro ⟨added, hentries, hadded⟩
      cases hadded with
      | @cons _ e _ added he hadded =>
        obtain ⟨hc, hname⟩ := isEntryOf_iff.mp he
        -- the keys of what is loaded are distinct, so this one was not there before
        have hnew : e.2.name ∉ known.keys := by
          have hnodup := loaded.nodup
          rw [hentries, List.map_append, List.map_cons, hname] at hnodup
          exact fun hmem => (List.nodup_append.mp hnodup).2.2 _ hmem _ (List.mem_cons_self ..) rfl
        have hcontains : ¬ known.contains e.2.name = true := fun h => hnew (OrderedMap.contains_iff.mp h)
        rw [hc]
        dsimp only
        rw [if_neg hcontains, ih]
        refine ⟨added, ?_, hadded⟩
        rw [OrderedMap.entries_insert_of_not_mem hnew, hentries, ← hname, List.append_assoc]
        rfl

theorem addClasses_append (loader : Yaml.Loader) (t : FileTree) (known : ClassMap)
    (before after : List Path) :
    addClasses loader t known (before ++ after) =
      (addClasses loader t known before).bind fun reached => addClasses loader t reached after := by
  induction before generalizing known with
  | nil => rfl
  | cons p before ih =>
    rw [List.cons_append, addClasses, addClasses]
    split
    · rfl
    · split
      · rfl
      · exact ih _

theorem addClasses_of_refused (h : Refused loader t known p f) (after : List Path) :
    addClasses loader t known (p :: after) = .error f := by
  rw [addClasses]
  cases h with
  | unread h => rw [h]
  | repeated h hc =>
    rw [h]
    dsimp only
    rw [if_pos (OrderedMap.contains_iff.mpr hc)]

/-- Loading stops at the first document that is refused. -/
theorem addClasses_eq_error_iff : addClasses loader t known paths = .error f ↔
    ∃ before p after reached, paths = before ++ p :: after ∧ addClasses loader t known before = .ok reached ∧
      Refused loader t reached p f := by
  constructor
  · intro h
    induction paths generalizing known with
    | nil => cases h
    | cons p paths ih =>
      rw [addClasses] at h
      split at h
      · next e he =>
        cases h
        exact ⟨[], p, paths, known, rfl, rfl, .unread he⟩
      · next c hc =>
        split at h
        · next hold =>
          cases h
          exact ⟨[], p, paths, known, rfl, rfl, .repeated hc (OrderedMap.contains_iff.mp hold)⟩
        · next hnew =>
          obtain ⟨before, q, after, reached, rfl, hbefore, hq⟩ := ih h
          refine ⟨p :: before, q, after, reached, rfl, ?_, hq⟩
          rw [addClasses, hc]
          dsimp only
          rw [if_neg hnew, hbefore]
  · rintro ⟨before, p, after, reached, rfl, hbefore, hp⟩
    rw [addClasses_append, hbefore]
    exact addClasses_of_refused hp after

theorem addClasses_congr (h : ∀ p ∈ paths, readDocument loader u p = readDocument loader t p) :
    addClasses loader u known paths = addClasses loader t known paths := by
  induction paths generalizing known with
  | nil => rfl
  | cons p paths ih =>
    obtain ⟨hp, hpaths⟩ := List.forall_mem_cons.mp h
    have hread : readAs loader ClassDoc.ofValue u p = readAs loader ClassDoc.ofValue t p := by
      rw [readAs, readAs, hp]
    rw [addClasses, addClasses, hread]
    split
    · rfl
    · split
      · rfl
      · exact ih hpaths

end Classes

section Folder

/-- How the documents `names` of a folder are loaded as classes. -/
structure LoadsClasses (loader : Yaml.Loader) (t : FileTree) (folder : Path) (names : List String) :
    Prop where
  /-- There is one entry for each document, in their order. -/
  ok : ∀ classes, loadClasses loader t folder = .ok classes ↔
    List.Forall₂ (fun name => IsEntryOf loader t (folder.child name)) names classes.entries
  /-- There are classes if every document is read as one, and no two documents give one name. -/
  exists_ok : (∃ classes, loadClasses loader t folder = .ok classes) ↔
    (∀ name ∈ names, ∃ c, readAs loader ClassDoc.ofValue t (folder.child name) = .ok c) ∧
      names.Pairwise fun a b => ∀ n,
        GivesName loader t (folder.child a) n → ¬ GivesName loader t (folder.child b) n
  /-- Otherwise the first document that is refused, after the ones before it have been read, is to blame. -/
  error : ∀ f, loadClasses loader t folder = .error f ↔ ∃ before name after reached,
    names = before ++ name :: after ∧
      List.Forall₂ (fun name => IsEntryOf loader t (folder.child name)) before (OrderedMap.entries reached) ∧
      Refused loader t reached (folder.child name) f

/-- How the documents `names` of a folder are loaded as enums. -/
structure LoadsEnums (loader : Yaml.Loader) (t : FileTree) (folder : Path) (names : List String) :
    Prop where
  /-- The names that the documents give are collected. -/
  ok : ∀ enums, loadEnums loader t folder = .ok enums ↔
    (∀ name ∈ names, ∃ n, GivesName loader t (folder.child name) n) ∧
      ∀ n, n ∈ enums ↔ ∃ name ∈ names, GivesName loader t (folder.child name) n
  /-- Otherwise the first document that gives no name is to blame. -/
  error : ∀ f, loadEnums loader t folder = .error f ↔ ∃ before name after,
    names = before ++ name :: after ∧ (∀ name ∈ before, ∃ n, GivesName loader t (folder.child name) n) ∧
      readAs loader documentName t (folder.child name) = .error f

theorem addClasses_empty_iff : addClasses loader t .empty (names.map folder.child) = .ok classes ↔
    List.Forall₂ (fun name => IsEntryOf loader t (folder.child name)) names classes.entries := by
  rw [addClasses_eq_ok_iff, ← List.forall₂_map_left_iff]
  simp [OrderedMap.empty]

theorem loadClasses_of_paths (h : documentPaths t folder = .ok paths) :
    loadClasses loader t folder = addClasses loader t .empty paths := by
  rw [loadClasses, h]

theorem loadEnums_of_paths (h : documentPaths t folder = .ok paths) :
    loadEnums loader t folder = (paths.mapM (readAs loader documentName t)).map .ofList := by
  rw [loadEnums, h]

theorem loadClasses_eq_ok_iff_of_paths (h : documentPaths t folder = .ok (names.map folder.child)) :
    loadClasses loader t folder = .ok classes ↔
      List.Forall₂ (fun name => IsEntryOf loader t (folder.child name)) names classes.entries := by
  rw [loadClasses_of_paths h, addClasses_empty_iff]

theorem loadClasses_eq_error_iff_of_paths {f : Failure}
    (h : documentPaths t folder = .ok (names.map folder.child)) :
    loadClasses loader t folder = .error f ↔ ∃ before name after reached, names = before ++ name :: after ∧
      List.Forall₂ (fun name => IsEntryOf loader t (folder.child name)) before (OrderedMap.entries reached) ∧
        Refused loader t reached (folder.child name) f := by
  rw [loadClasses_of_paths h, addClasses_eq_error_iff]
  constructor
  · rintro ⟨before, p, after, reached, hnames, hbefore, hp⟩
    obtain ⟨before, name, after, rfl, rfl, rfl, -⟩ := map_eq_append_cons hnames
    exact ⟨before, name, after, reached, rfl, addClasses_empty_iff.mp hbefore, hp⟩
  · rintro ⟨before, name, after, reached, rfl, hbefore, hname⟩
    exact ⟨before.map folder.child, _, after.map folder.child, reached, List.map_append,
      addClasses_empty_iff.mpr hbefore, hname⟩

theorem loadsClasses_of_paths (h : documentPaths t folder = .ok (names.map folder.child)) :
    LoadsClasses loader t folder names := by
  refine ⟨fun _ => loadClasses_eq_ok_iff_of_paths h, ⟨?_, ?_⟩, fun _ => loadClasses_eq_error_iff_of_paths h⟩
  · rintro ⟨classes, hclasses⟩
    have hentries := (loadClasses_eq_ok_iff_of_paths h).mp hclasses
    refine ⟨fun name hname => ?_, ?_⟩
    · obtain ⟨e, -, he⟩ := exists_mem_of_forall₂ hentries hname
      exact ⟨e.2, he.describes⟩
    · refine pairwise_of_forall₂ hentries (List.pairwise_map.mp classes.nodup) ?_
      intro a b e e' he he' hne n ha hb
      exact hne ((he.name.unique ha).trans (hb.unique he'.name))
  · rintro ⟨hread, hdistinct⟩
    cases hclasses : loadClasses loader t folder with
    | ok classes => exact ⟨classes, rfl⟩
    | error f =>
      obtain ⟨before, name, after, reached, rfl, hbefore, hrefused⟩ :=
        (loadClasses_eq_error_iff_of_paths h).mp hclasses
      cases hrefused with
      | unread h =>
        obtain ⟨c, hc⟩ := hread name (by simp)
        rw [hc] at h
        cases h
      | @repeated c h hc =>
        -- the name was given by one of the documents before
        obtain ⟨e, he, hname⟩ := List.mem_map.mp hc
        obtain ⟨other, hother, hentry⟩ := exists_mem_of_forall₂ hbefore.flip he
        have hgives : GivesName loader t (folder.child other) c.name := hname ▸ hentry.name
        have hnot := (List.pairwise_append.mp hdistinct).2.2 other hother name (List.mem_cons_self ..)
        exact absurd (givesName_of_readAs h) (hnot c.name hgives)

theorem loadsEnums_of_paths (h : documentPaths t folder = .ok (names.map folder.child)) :
    LoadsEnums loader t folder names := by
  have hload := @loadEnums_of_paths loader _ _ _ h
  have hmem {ns : List String} (hns : (names.map folder.child).mapM (readAs loader documentName t) = .ok ns)
      (n : String) : n ∈ NameSet.ofList ns ↔ ∃ name ∈ names, GivesName loader t (folder.child name) n := by
    rw [NameSet.mem_ofList, mem_of_mapM_eq_ok hns]
    simp only [List.mem_map, exists_exists_and_eq_and, readAs_documentName_eq_ok_iff]
  refine ⟨fun enums => ⟨fun hok => ?_, ?_⟩, fun f => ?_⟩
  · rw [hload] at hok
    obtain ⟨ns, hns, rfl⟩ := map_eq_ok.mp hok
    refine ⟨fun name hname => ?_, hmem hns⟩
    obtain ⟨n, -, hn⟩ := exists_mem_of_forall₂ (mapM_eq_ok_iff.mp hns) (List.mem_map_of_mem hname)
    exact ⟨n, readAs_documentName_eq_ok_iff.mp hn⟩
  · rintro ⟨hread, hset⟩
    rw [hload]
    cases hns : (names.map folder.child).mapM (readAs loader documentName t) with
    | ok ns =>
      refine congrArg Except.ok (NameSet.ext fun n => ?_)
      rw [hmem hns, hset]
    | error e =>
      obtain ⟨p, hp, he⟩ := exists_of_mapM_eq_error hns
      obtain ⟨name, hname, rfl⟩ := List.mem_map.mp hp
      obtain ⟨n, hn⟩ := hread name hname
      rw [readAs_documentName_eq_ok_iff.mpr hn] at he
      cases he
  · rw [hload, map_eq_error, mapM_eq_error_iff]
    simp only [readAs_documentName_eq_ok_iff]
    constructor
    · rintro ⟨before, p, after, hnames, hbefore, hp⟩
      obtain ⟨before, name, after, rfl, rfl, rfl, -⟩ := map_eq_append_cons hnames
      exact ⟨before, name, after, rfl, fun n hn => hbefore _ (List.mem_map_of_mem hn), hp⟩
    · rintro ⟨before, name, after, rfl, hbefore, hname⟩
      refine ⟨before.map folder.child, _, after.map folder.child, List.map_append, ?_, hname⟩
      intro p hp
      obtain ⟨n, hn, rfl⟩ := List.mem_map.mp hp
      exact hbefore n hn

/-- The folder has the same documents in both trees, each with the same bytes. -/
def SameDocuments (t u : FileTree) (l k : Location) : Prop :=
  ∀ name, isDocumentName name = true → u.fileAt? (k ++ [name]) = t.fileAt? (l ++ [name])

theorem load_of_sameDocuments (hl : t.locate folder = .ok l) (hfolder : t.lookup l = some .folder)
    (hk : u.locate folder = .ok k) (hfolder' : u.lookup k = some .folder) (h : SameDocuments t u l k) :
    loadClasses loader u folder = loadClasses loader t folder ∧
      loadEnums loader u folder = loadEnums loader t folder := by
  have hpaths := documentPaths_of_folder hl hfolder
  have hpaths' : documentPaths u folder = .ok ((documentNames (t.childrenAt l)).map folder.child) := by
    have hnames : documentNames (u.childrenAt k) = documentNames (t.childrenAt l) :=
      documentNames_congr fun name hname => congrArg Option.isSome (h name hname)
    rw [documentPaths_of_folder hk hfolder', hnames]
  have hread : ∀ p ∈ (documentNames (t.childrenAt l)).map folder.child,
      readDocument loader u p = readDocument loader t p := by
    intro p hp
    obtain ⟨name, hname, rfl⟩ := List.mem_map.mp hp
    obtain ⟨hdocument, hfile⟩ := mem_documentNames.mp hname
    exact readDocument_congr hl hfolder hk hfolder' (ne_up_of_isDocumentName hdocument) hfile
      (h name hdocument)
  constructor
  · rw [loadClasses_of_paths hpaths, loadClasses_of_paths hpaths', addClasses_congr hread]
  · have hsame : ∀ p ∈ (documentNames (t.childrenAt l)).map folder.child,
        readAs loader documentName u p = readAs loader documentName t p := by
      intro p hp
      rw [readAs, readAs, hread p hp]
    rw [loadEnums_of_paths hpaths, loadEnums_of_paths hpaths', mapM_congr hsame]

/-- A folder is loaded document by document, in the order of the file names. Its documents are the files
with an ending of documents and something before it; neither the order in which they are listed nor anything
else in the folder matters. -/
theorem loads_documents_in_order (loader : Yaml.Loader) (hl : t.locate folder = .ok l)
    (hfolder : t.lookup l = some .folder) :
    (∃ names : List String, names.Pairwise (· < ·) ∧
      (∀ name, name ∈ names ↔
        (∃ stem, stem ≠ "" ∧ (name = stem ++ ".yaml" ∨ name = stem ++ ".yml")) ∧
          ∃ bytes, t.lookup (l ++ [name]) = some (.file bytes)) ∧
      LoadsClasses loader t folder names ∧ LoadsEnums loader t folder names) ∧
    ∀ (u : FileTree) (k : Location), u.locate folder = .ok k → u.lookup k = some .folder →
      SameDocuments t u l k →
        loadClasses loader u folder = loadClasses loader t folder ∧
          loadEnums loader u folder = loadEnums loader t folder := by
  have hpaths := documentPaths_of_folder hl hfolder
  refine ⟨⟨documentNames (t.childrenAt l), strictly_sorted_documentNames t l, fun name => ?_,
    loadsClasses_of_paths hpaths, loadsEnums_of_paths hpaths⟩, fun u k hk hfolder' h => ?_⟩
  · rw [mem_documentNames, isDocumentName_iff, Option.isSome_iff_exists]
    simp only [FileTree.fileAt?_eq_some]
  · exact load_of_sameDocuments hl hfolder hk hfolder' h

/-- A folder, not listed in order, in which two documents give one name, one is no mapping, and two entries
are no documents. -/
def repeatingTree : FileTree where
  entries := .ofList
    [(["c.yaml"], .file "- 1".toUTF8), (["b.yml"], .file "name: ' Frame '".toUTF8),
      ([".yaml"], .file "name: Hidden".toUTF8), (["d.yaml"], .folder),
      (["a.yaml"], .file "name: Frame".toUTF8)]
  current := []

theorem loads_documents_in_order_repeated :
    repeatingTree.locate (.ofText ".") = .ok [] ∧ repeatingTree.lookup [] = some .folder ∧
    loadClasses Yaml.load repeatingTree (.ofText ".") = .error (.document ⟨"b.yml", .duplicateClass "Frame"⟩) := by
  have hl : repeatingTree.locate (.ofText ".") = .ok [] := rfl
  have hfolder : repeatingTree.lookup [] = some .folder := rfl
  refine ⟨hl, hfolder, ?_⟩
  obtain ⟨⟨names, hsorted, hmem, hclasses, -⟩, -⟩ := loads_documents_in_order Yaml.load hl hfolder
  have hnames : names = ["a.yaml", "b.yml", "c.yaml"] := by
    refine NameSet.eq_of_sorted hsorted (by decide) fun name => ?_
    have hfile (bytes : ByteArray) : repeatingTree.lookup ([] ++ [name]) = some (.file bytes) ↔
        ([name], .file bytes) ∈ repeatingTree.entries.entries := OrderedMap.get?_eq_some_iff
    rw [hmem, ← isDocumentName_iff]
    simp only [hfile]
    constructor
    · rintro ⟨hdocument, bytes, hbytes⟩
      have hkeys : [name] ∈ repeatingTree.entries.keys := List.mem_map_of_mem hbytes
      have hlisted : [name] ∈ [["c.yaml"], ["b.yml"], [".yaml"], ["d.yaml"], ["a.yaml"]] := hkeys
      simp only [List.mem_cons, List.cons.injEq, and_true, List.not_mem_nil, or_false] at hlisted
      rcases hlisted with rfl | rfl | rfl | rfl | rfl
      · decide
      · decide
      · exact absurd hdocument (by decide)
      · cases (hfile bytes).mpr hbytes
      · decide
    · intro hname
      simp only [List.mem_cons, List.not_mem_nil, or_false] at hname
      rcases hname with rfl | rfl | rfl
      · exact ⟨by decide, "name: Frame".toUTF8, List.mem_of_getElem? (i := 4) rfl⟩
      · exact ⟨by decide, "name: ' Frame '".toUTF8, List.mem_of_getElem? (i := 1) rfl⟩
      · exact ⟨by decide, "- 1".toUTF8, List.mem_of_getElem? (i := 0) rfl⟩
  subst hnames
  have hread (name : String) (hname : name ∈ ["a.yaml", "b.yml"]) :
      readAs Yaml.load ClassDoc.ofValue repeatingTree ((Path.ofText ".").child name) = .ok { name := "Frame" } := by
    have hevaluated : ∀ name ∈ ["a.yaml", "b.yml"],
        (readAs Yaml.load ClassDoc.ofValue repeatingTree ((Path.ofText ".").child name)).toOption =
          some { name := "Frame" } := by decide +kernel
    have h := hevaluated name hname
    cases hc : readAs Yaml.load ClassDoc.ofValue repeatingTree ((Path.ofText ".").child name) with
    | error e =>
      rw [hc] at h
      cases h
    | ok c =>
      rw [hc] at h
      exact congrArg Except.ok (Option.some.inj h)
  refine (hclasses.error _).mpr ⟨["a.yaml"], "b.yml", ["c.yaml"], .ofList [("Frame", { name := "Frame" })], rfl,
    .cons (isEntryOf_iff.mpr ⟨hread _ (by decide), rfl⟩) .nil, ?_⟩
  exact .repeated (c := { name := "Frame" }) (hread _ (by decide)) (by decide)

end Folder

end Corpus

end LuauBindings
