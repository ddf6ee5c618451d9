import LuauBindings.Proofs.Corpus.Documents
import LuauBindings.Proofs.Files.Write
import Mathlib.Data.Set.Card

/-!
# What loading reads

The documents of a folder are the files in it that are named as documents, each of them once
(`mem_documentNames`, `nodup_documentNames`). They are sorted by name, so it does not matter in which order
a tree lists them, nor what else it has. Loading reads these files and no others: another tree that keeps
the folders, and every file but one that is not in the place of a document, has the same corpus
(`load_of_keepsBut`).

Every class document gives one class (`size_of_addClasses`), while enums may share a name.
-/

namespace LuauBindings
open FileTree (KeepsBut)

theorem encard_mem_of_nodup {α : Type} [DecidableEq α] {l : List α} (h : l.Nodup) :
    {a | a ∈ l}.encard = l.length := by
  rw [← List.coe_toFinset, Set.encard_coe_eq_coe_finsetCard, List.toFinset_card_of_nodup h]

theorem NameSet.encard_mem (s : NameSet) : {n | n ∈ s}.encard = s.size :=
  encard_mem_of_nodup s.nodup

theorem Path.child_injective (p : Path) : Function.Injective p.child := by
  intro name other h
  simpa [child] using h

namespace Corpus
variable {loader : Yaml.Loader} {t u : FileTree} {l k : Location} {folder docs p : Path} {name : String}
  {paths : List Path} {corpus : Corpus} {classes loaded : ClassMap} {enums : NameSet} {α : Type}
  {read : Yaml.Value → Except DocumentFault α}

section Documents

theorem documentNames_eq (entries : List (String × FileEntry)) : documentNames entries =
    (entries.filterMap documentName?).mergeSort fun a b => decide (a ≤ b) := rfl

theorem documentName?_eq_some {child : String × FileEntry} : documentName? child = some name ↔
    child.1 = name ∧ isDocumentName name = true ∧ ∃ bytes, child.2 = .file bytes := by
  obtain ⟨n, e⟩ := child
  cases e with
  | folder => simp [documentName?]
  | file bytes =>
    simp only [documentName?, Option.ite_none_right_eq_some, Option.some.injEq]
    constructor
    · rintro ⟨hn, rfl⟩
      exact ⟨rfl, hn, bytes, rfl⟩
    · rintro ⟨rfl, hn, -⟩
      exact ⟨hn, rfl⟩

theorem mem_documentNames : name ∈ documentNames (t.childrenAt l) ↔
    isDocumentName name = true ∧ (t.fileAt? (l ++ [name])).isSome := by
  rw [documentNames_eq, List.mem_mergeSort, List.mem_filterMap, Option.isSome_iff_exists]
  simp only [FileTree.fileAt?_eq_some, ← FileTree.mem_childrenAt]
  constructor
  · rintro ⟨⟨n, e⟩, hmem, hname⟩
    obtain ⟨rfl, hdocument, bytes, rfl⟩ := documentName?_eq_some.mp hname
    exact ⟨hdocument, bytes, hmem⟩
  · rintro ⟨hdocument, bytes, hmem⟩
    exact ⟨_, hmem, documentName?_eq_some.mpr ⟨rfl, hdocument, bytes, rfl⟩⟩

theorem nodup_documentNames (t : FileTree) (l : Location) : (documentNames (t.childrenAt l)).Nodup := by
  have hnames : (t.childrenAt l).Pairwise fun a b => a.1 ≠ b.1 :=
    List.pairwise_map.mp (t.nodup_childrenAt l)
  rw [documentNames_eq, List.nodup_mergeSort]
  refine hnames.filterMap documentName? fun a b hne n ha m hb hnm => hne ?_
  rw [(documentName?_eq_some.mp ha).1, (documentName?_eq_some.mp hb).1, hnm]

theorem sorted_documentNames (entries : List (String × FileEntry)) :
    (documentNames entries).Pairwise (· ≤ ·) := by
  have htrans (a b c : String) (hab : decide (a ≤ b) = true) (hbc : decide (b ≤ c) = true) :
      decide (a ≤ c) = true :=
    decide_eq_true (String.le_trans (of_decide_eq_true hab) (of_decide_eq_true hbc))
  have htotal (a b : String) : (decide (a ≤ b) || decide (b ≤ a)) = true := by
    simpa using String.le_total a b
  have hsorted := List.pairwise_mergeSort htrans htotal (entries.filterMap documentName?)
  exact hsorted.imp of_decide_eq_true

/-- Folders with documents of the same names list them alike. -/
theorem documentNames_congr (h : ∀ name, isDocumentName name = true →
    (u.fileAt? (k ++ [name])).isSome = (t.fileAt? (l ++ [name])).isSome) :
    documentNames (u.childrenAt k) = documentNames (t.childrenAt l) := by
  have hperm : (documentNames (u.childrenAt k)).Perm (documentNames (t.childrenAt l)) := by
    refine (List.perm_ext_iff_of_nodup (nodup_documentNames u k) (nodup_documentNames t l)).mpr fun name => ?_
    rw [mem_documentNames, mem_documentNames]
    exact and_congr_right fun hname => by rw [h name hname]
  exact hperm.eq_of_pairwise (fun _ _ _ _ => String.le_antisymm) (sorted_documentNames _)
    (sorted_documentNames _)

theorem documentPaths_eq_ok_iff : documentPaths t folder = .ok paths ↔ ∃ l, t.locate folder = .ok l ∧
    t.lookup l = some .folder ∧ paths = (documentNames (t.childrenAt l)).map folder.child := by
  rw [documentPaths, map_eq_ok]
  unfold FileTree.children
  cases t.locate folder with
  | error e => simp
  | ok l => rcases hl : t.lookup l with _ | _ | _ <;> simp [hl, eq_comm]

theorem nodup_of_documentPaths (h : documentPaths t folder = .ok paths) : paths.Nodup := by
  obtain ⟨l, -, -, rfl⟩ := documentPaths_eq_ok_iff.mp h
  exact (nodup_documentNames t l).map folder.child_injective

theorem isDocument_iff_mem (h : documentPaths t folder = .ok paths) :
    IsDocument t folder p ↔ p ∈ paths := by
  constructor
  · rintro ⟨paths', h', hp⟩
    rwa [Except.ok.inj (h.symm.trans h')]
  · exact fun hp => ⟨paths, h, hp⟩

theorem encard_isDocument (h : documentPaths t folder = .ok paths) :
    {p | IsDocument t folder p}.encard = paths.length := by
  simp only [isDocument_iff_mem h]
  exact encard_mem_of_nodup (nodup_of_documentPaths h)

end Documents

section Stages

theorem load_eq_ok_iff : load loader t docs = .ok corpus ↔
    loadClasses loader t (docs.child "classes") = .ok corpus.classes ∧
    loadEnums loader t (docs.child "enums") = .ok corpus.enums := by
  simp only [load, bind_eq_ok]
  constructor
  · rintro ⟨classes, hclasses, enums, henums, h⟩
    cases h
    exact ⟨hclasses, henums⟩
  · rintro ⟨hclasses, henums⟩
    exact ⟨_, hclasses, _, henums, rfl⟩

theorem loadClasses_eq_ok_iff : loadClasses loader t folder = .ok classes ↔
    ∃ paths, documentPaths t folder = .ok paths ∧ addClasses loader t .empty paths = .ok classes := by
  unfold loadClasses
  cases documentPaths t folder <;> simp

theorem loadEnums_eq_ok_iff : loadEnums loader t folder = .ok enums ↔ ∃ paths names,
    documentPaths t folder = .ok paths ∧ paths.mapM (readAs loader documentName t) = .ok names ∧
    .ofList names = enums := by
  unfold loadEnums
  cases documentPaths t folder <;> simp [map_eq_ok]

theorem mem_of_loadEnums (h : loadEnums loader t folder = .ok enums) :
    name ∈ enums ↔ ∃ p, IsDocument t folder p ∧ readAs loader documentName t p = .ok name := by
  obtain ⟨paths, names, hpaths, hnames, rfl⟩ := loadEnums_eq_ok_iff.mp h
  simp only [NameSet.mem_ofList, mem_of_mapM_eq_ok hnames, isDocument_iff_mem hpaths]

theorem size_of_addClasses (h : addClasses loader t classes paths = .ok loaded) :
    loaded.size = classes.size + paths.length := by
  induction paths generalizing classes with
  | nil =>
    cases h
    rfl
  | cons p paths ih =>
    rw [addClasses] at h
    split at h
    · cases h
    · next c _ =>
      split at h
      · cases h
      · next hnew =>
        have hsize : (classes.insert c.name c).size = classes.size + 1 := by
          rw [OrderedMap.contains_iff] at hnew
          rw [OrderedMap.size, OrderedMap.entries_insert_of_not_mem hnew, List.length_append]
          rfl
        rw [ih h, hsize, List.length_cons, Nat.add_assoc, Nat.add_comm 1]

theorem size_of_loadClasses (h : loadClasses loader t folder = .ok classes) :
    {p | IsDocument t folder p}.encard = classes.size := by
  obtain ⟨paths, hpaths, hadded⟩ := loadClasses_eq_ok_iff.mp h
  rw [encard_isDocument hpaths, size_of_addClasses hadded]
  simp [OrderedMap.size, OrderedMap.empty]

end Stages

section Frame

/-- A document in `folder` may stand at `l`. -/
def PlaceIn (t : FileTree) (folder : Path) (l : Location) : Prop :=
  ∃ name, isDocumentName name = true ∧ l = t.resolve folder ++ [name]

/-- A document of the corpus in `docs` may stand at `l`. -/
def DocumentPlace (t : FileTree) (docs : Path) (l : Location) : Prop :=
  ∃ folder ∈ ["classes", "enums"], PlaceIn t (docs.child folder) l

theorem readAs_of_keepsBut {a : α} (h : KeepsBut l t u) (hp : t.resolve p ≠ l)
    (hread : readAs loader read t p = .ok a) : readAs loader read u p = .ok a := by
  have hsame : readDocument loader u p = readDocument loader t p := by
    cases hbytes : t.read p with
    | error e => simp [readAs, readDocument, hbytes] at hread
    | ok bytes => rw [readDocument, readDocument, hbytes, h.read hp hbytes]
  rwa [readAs, hsame]

theorem addClasses_of_reads (hreads : ∀ p ∈ paths, ∀ c, readAs loader ClassDoc.ofValue t p = .ok c →
    readAs loader ClassDoc.ofValue u p = .ok c) (h : addClasses loader t classes paths = .ok loaded) :
    addClasses loader u classes paths = .ok loaded := by
  induction paths generalizing classes with
  | nil => exact h
  | cons p paths ih =>
    rw [addClasses] at h ⊢
    split at h
    · cases h
    · next c hc =>
      rw [hreads p (List.mem_cons_self ..) c hc]
      dsimp only
      split at h
      · cases h
      · next hnew =>
        rw [if_neg hnew]
        exact ih (fun q hq => hreads q (List.mem_cons_of_mem _ hq)) h

theorem documentPaths_of_keepsBut (h : KeepsBut l t u) (hl : ¬ PlaceIn t folder l)
    (hpaths : documentPaths t folder = .ok paths) : documentPaths u folder = .ok paths := by
  obtain ⟨k, hlocate, hk, rfl⟩ := documentPaths_eq_ok_iff.mp hpaths
  have hfiles : ∀ name, isDocumentName name = true →
      (u.fileAt? (k ++ [name])).isSome = (t.fileAt? (k ++ [name])).isSome := by
    intro name hname
    refine congrArg _ (h.files _ fun hkl => hl ⟨name, hname, ?_⟩)
    rw [FileTree.resolve_eq_of_locate hlocate, hkl]
  refine documentPaths_eq_ok_iff.mpr ⟨k, ?_, h.folders.folder k hk, by rw [documentNames_congr hfiles]⟩
  exact FileTree.locate_of_foldersKept h.folders hlocate

theorem placeIn_of_isDocument (h : IsDocument t folder p) : PlaceIn t folder (t.resolve p) := by
  obtain ⟨name, rfl, hname⟩ := h.exists_name
  refine ⟨name, hname, FileTree.resolve_child ?_⟩
  rintro rfl
  exact absurd hname (by decide)

/-- What a document is read as does not depend on a file that is in no document's place. -/
theorem readAs_document_of_keepsBut {a : α} (h : KeepsBut l t u) (hl : ¬ PlaceIn t folder l)
    (hp : IsDocument t folder p) (hread : readAs loader read t p = .ok a) :
    readAs loader read u p = .ok a := by
  refine readAs_of_keepsBut h ?_ hread
  rintro rfl
  exact hl (placeIn_of_isDocument hp)

theorem loadClasses_of_keepsBut (h : KeepsBut l t u) (hl : ¬ PlaceIn t folder l)
    (hload : loadClasses loader t folder = .ok classes) : loadClasses loader u folder = .ok classes := by
  obtain ⟨paths, hpaths, hadded⟩ := loadClasses_eq_ok_iff.mp hload
  refine loadClasses_eq_ok_iff.mpr ⟨paths, documentPaths_of_keepsBut h hl hpaths, ?_⟩
  exact addClasses_of_reads
    (fun p hp c hc => readAs_document_of_keepsBut h hl ⟨paths, hpaths, hp⟩ hc) hadded

theorem loadEnums_of_keepsBut (h : KeepsBut l t u) (hl : ¬ PlaceIn t folder l)
    (hload : loadEnums loader t folder = .ok enums) : loadEnums loader u folder = .ok enums := by
  obtain ⟨paths, names, hpaths, hnames, hset⟩ := loadEnums_eq_ok_iff.mp hload
  refine loadEnums_eq_ok_iff.mpr ⟨paths, names, documentPaths_of_keepsBut h hl hpaths, ?_, hset⟩
  exact mapM_eq_ok_of_forall
    (fun p hp name hname => readAs_document_of_keepsBut h hl ⟨paths, hpaths, hp⟩ hname) hnames

theorem load_of_keepsBut (h : KeepsBut l t u) (hl : ¬ DocumentPlace t docs l)
    (hload : load loader t docs = .ok corpus) : load loader u docs = .ok corpus := by
  obtain ⟨hclasses, henums⟩ := load_eq_ok_iff.mp hload
  have hplace : ∀ folder ∈ ["classes", "enums"], ¬ PlaceIn t (docs.child folder) l :=
    fun folder hfolder hin => hl ⟨folder, hfolder, hin⟩
  exact load_eq_ok_iff.mpr ⟨loadClasses_of_keepsBut h (hplace _ (by simp)) hclasses,
    loadEnums_of_keepsBut h (hplace _ (by simp)) henums⟩

end Frame

end Corpus

end LuauBindings
