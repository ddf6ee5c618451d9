import LuauBindings.Files.Tree
import Mathlib.Logic.Relation

/-!
# What operations on a file tree leave

The files of a tree are what `FileTree.fileAt?` finds. A folder lists each name in it once, with what stands
there (`mem_childrenAt`, `nodup_childrenAt`). A new folder only ever stands where nothing was
(`newFolders_makeFolders`), so making folders changes no file (`SameFiles.makeFolders`). Writing changes
one file, the one to which the path leads when its folders are made, and none at all if it fails
(`write_cases`). A path that leads somewhere still leads there after folders have been added, since
following it reads folders only (`locate_of_foldersKept`).
-/

namespace LuauBindings.FileTree
open Relation
variable {t u v : FileTree} {l k : Location} {p : Path} {names : List String}

/-- The bytes of the file at a location, if one is there. -/
def fileAt? (t : FileTree) (l : Location) : Option ByteArray :=
  match t.lookup l with
  | some (.file bytes) => some bytes
  | _ => none

/-- `u` has the files of `t`; its folders may be others. -/
def SameFiles (t u : FileTree) : Prop :=
  ∀ l, u.fileAt? l = t.fileAt? l

/-- The folders of `t` are folders of `u`, and paths start at the same folder in both. -/
structure FoldersKept (t u : FileTree) : Prop where
  current : u.current = t.current
  folder : ∀ l, t.lookup l = some .folder → u.lookup l = some .folder

section Lookup

theorem lookup_root (t : FileTree) : t.lookup [] = some .folder := rfl

theorem ne_root (h : t.lookup l ≠ some .folder) : l ≠ [] := by
  rintro rfl
  exact h (lookup_root t)

theorem lookup_put (hl : l ≠ []) (e : FileEntry) :
    (t.put l e).lookup k = if l = k then some e else t.lookup k := by
  unfold lookup put
  cases k with
  | nil => simp [hl]
  | cons n k => simp [OrderedMap.get?_insert]

theorem fileAt?_eq_some {bytes : ByteArray} :
    t.fileAt? l = some bytes ↔ t.lookup l = some (.file bytes) := by
  unfold fileAt?
  split <;> simp_all

end Lookup

section Children
variable {name : String} {e : FileEntry}

/-- The name of an entry of the folder `l`, with what stands there. -/
def child? (l : Location) : Location × FileEntry → Option (String × FileEntry)
  | (k, e) =>
    match k.getLast? with
    | some name => if k.dropLast = l then some (name, e) else none
    | none => none

theorem child?_eq_some {child : String × FileEntry} :
    child? l (k, e) = some child ↔ k = l ++ [child.1] ∧ e = child.2 := by
  constructor
  · intro h
    cases hlast : k.getLast? with
    | none => simp [child?, hlast] at h
    | some name =>
      obtain ⟨above, rfl⟩ := List.getLast?_eq_some_iff.mp hlast
      simp only [child?, hlast, List.dropLast_concat, Option.ite_none_right_eq_some,
        Option.some.injEq] at h
      obtain ⟨rfl, rfl⟩ := h
      exact ⟨rfl, rfl⟩
  · rintro ⟨rfl, rfl⟩
    simp [child?]

theorem mem_childrenAt : (name, e) ∈ t.childrenAt l ↔ t.lookup (l ++ [name]) = some e := by
  have hlookup : t.lookup (l ++ [name]) = t.entries.get? (l ++ [name]) := by simp [lookup]
  have hchildren : t.childrenAt l = t.entries.entries.filterMap (child? l) := rfl
  rw [hlookup, OrderedMap.get?_eq_some_iff, hchildren, List.mem_filterMap]
  constructor
  · rintro ⟨⟨k, e'⟩, hmem, hk⟩
    obtain ⟨rfl, rfl⟩ := child?_eq_some.mp hk
    exact hmem
  · exact fun h => ⟨_, h, child?_eq_some.mpr ⟨rfl, rfl⟩⟩

theorem nodup_childrenAt (t : FileTree) (l : Location) : ((t.childrenAt l).map Prod.fst).Nodup := by
  have hkeys : t.entries.entries.Pairwise fun a b => a.1 ≠ b.1 := List.pairwise_map.mp t.entries.nodup
  refine List.pairwise_map.mpr (hkeys.filterMap (child? l) fun a b hne child ha child' hb hname => hne ?_)
  rw [(child?_eq_some.mp ha).1, (child?_eq_some.mp hb).1, hname]

end Children

section Folders

/-- `u` is `t` with a folder where nothing was. -/
def NewFolder (t u : FileTree) : Prop :=
  ∃ l, t.lookup l = none ∧ u = t.put l .folder

theorem newFolder_of_makeFolder (h : t.makeFolder p = .ok u) : NewFolder t u := by
  unfold makeFolder at h
  cases hl : t.locate p with
  | error e => simp [hl] at h
  | ok l =>
    cases hk : t.lookup l with
    | some e => simp [hl, hk] at h
    | none =>
      simp only [hl, hk, Option.isSome_none, Bool.false_eq_true, if_false, Except.ok.injEq] at h
      exact ⟨l, hk, h.symm⟩

theorem newFolders_makeFolders (t : FileTree) (root : String) (up : List String) :
    ReflTransGen NewFolder t (t.makeFolders root up).1 := by
  -- a folder is tried at once, and once more after those above it have been made
  induction up generalizing t with
  | nil => exact .refl
  | cons name up ih =>
    unfold makeFolders
    dsimp only
    split
    · next h => exact .single (newFolder_of_makeFolder h)
    · split
      · next h => simpa [h] using ih t
      · next above h =>
        have hup : ReflTransGen NewFolder t above := by simpa [h] using ih t
        split
        · next h' => exact hup.tail (newFolder_of_makeFolder h')
        · exact hup
    · exact .refl

end Folders

namespace SameFiles

theorem refl (t : FileTree) : SameFiles t t := fun _ => rfl

theorem trans (h : SameFiles t u) (h' : SameFiles u v) : SameFiles t v :=
  fun l => (h' l).trans (h l)

theorem put_folder (h : t.lookup l = none) : SameFiles t (t.put l .folder) := by
  intro k
  have hl : t.lookup l ≠ some .folder := by simp [h]
  unfold fileAt?
  rw [lookup_put (ne_root hl)]
  by_cases hk : l = k
  · simp [← hk, h]
  · simp [hk]

theorem of_newFolders (h : ReflTransGen NewFolder t u) : SameFiles t u := by
  induction h with
  | refl => exact refl t
  | tail _ hnew ih =>
    obtain ⟨l, hl, rfl⟩ := hnew
    exact ih.trans (put_folder hl)

theorem makeFolders (t : FileTree) (root : String) (up : List String) :
    SameFiles t (t.makeFolders root up).1 :=
  of_newFolders (newFolders_makeFolders t root up)

end SameFiles

section Follow

theorem follow_append (t : FileTree) (l : Location) (names more : List String) :
    t.follow l (names ++ more) = (t.follow l names).bind fun l => t.follow l more := by
  induction names generalizing l with
  | nil => rfl
  | cons name names ih =>
    simp only [List.cons_append, follow]
    split
    · rfl
    · rfl
    · exact ih _

theorem follow_of_foldersKept (h : FoldersKept t u) (hf : t.follow l names = .ok k) :
    u.follow l names = .ok k := by
  induction names generalizing l with
  | nil => exact hf
  | cons name names ih =>
    simp only [follow] at hf ⊢
    cases hl : t.lookup l with
    | none => simp [hl] at hf
    | some e =>
      cases e with
      | file bytes => simp [hl] at hf
      | folder =>
        simp only [hl] at hf
        simp only [h.folder l hl]
        exact ih hf

/-- Where a path starts. -/
def start (t : FileTree) (p : Path) : Location :=
  if p.root.isEmpty then t.current else []

theorem start_child (t : FileTree) (p : Path) (name : String) : t.start (p.child name) = t.start p := rfl

theorem locate_eq_ok_iff :
    t.locate p = .ok l ↔ p.hasNull = false ∧ t.follow (t.start p) p.names = .ok l := by
  unfold locate
  cases p.hasNull <;> simp [start]

theorem locate_of_foldersKept (h : FoldersKept t u) (hp : t.locate p = .ok l) : u.locate p = .ok l := by
  have hstart : u.start p = t.start p := by rw [start, start, h.current]
  rw [locate_eq_ok_iff] at hp ⊢
  rw [hstart]
  exact ⟨hp.1, follow_of_foldersKept h hp.2⟩

theorem follow_ne_nullCharacter : t.follow l names ≠ .error .nullCharacter := by
  induction names generalizing l with
  | nil => simp [follow]
  | cons name names ih =>
    rw [follow]
    split
    · simp
    · simp
    · exact ih

theorem hasNull_of_locate (h : t.locate p = .error .nullCharacter) : p.hasNull = true := by
  unfold locate at h
  split at h
  · assumption
  · exact absurd h follow_ne_nullCharacter

/-- A path in a folder leads to an entry of its last name. -/
theorem getLast?_of_locate_child {name : String} (hname : name ≠ "..")
    (h : t.locate (p.child name) = .ok l) : l.getLast? = some name := by
  have hf := (locate_eq_ok_iff.mp h).2
  rw [start_child, Path.child, follow_append] at hf
  rcases hfolder : t.follow (t.start p) p.names with e | k
  · rw [hfolder] at hf
    cases hf
  · rw [hfolder] at hf
    change t.follow k [name] = .ok l at hf
    simp only [follow, hname, if_false] at hf
    split at hf
    · cases hf
    · cases hf
    · rw [← Except.ok.inj hf, List.getLast?_concat]

theorem locate_child {name : String} (hp : t.locate p = .ok l) (hl : t.lookup l = some .folder)
    (hname : name ≠ "..") : t.locate (p.child name) =
      if (p.child name).hasNull then .error .nullCharacter else .ok (l ++ [name]) := by
  obtain ⟨-, hfollow⟩ := locate_eq_ok_iff.mp hp
  have hchild : t.follow (t.start (p.child name)) (p.child name).names = .ok (l ++ [name]) := by
    rw [start_child, Path.child, follow_append, hfollow]
    change t.follow l [name] = _
    simp only [follow, hl, hname, if_false]
  unfold locate
  rw [← start, hchild]

/-- A file in a folder is read by its name, unless the path holds a null character. -/
theorem read_child {name : String} {bytes : ByteArray} (hp : t.locate p = .ok l)
    (hl : t.lookup l = some .folder) (hname : name ≠ "..") (hfile : t.fileAt? (l ++ [name]) = some bytes) :
    t.read (p.child name) =
      if (p.child name).hasNull then .error ⟨.nullCharacter, p.child name⟩ else .ok bytes := by
  unfold read find
  rw [locate_child hp hl hname]
  cases (p.child name).hasNull with
  | true => rfl
  | false => simp [fileAt?_eq_some.mp hfile]

theorem hasNull_of_read {q : Path} (h : t.read p = .error ⟨.nullCharacter, q⟩) :
    q = p ∧ p.hasNull = true := by
  unfold read find at h
  cases hl : t.locate p with
  | error e =>
    simp only [hl, Except.error.injEq, FileError.mk.injEq] at h
    obtain ⟨rfl, rfl⟩ := h
    exact ⟨rfl, hasNull_of_locate hl⟩
  | ok l => rcases hk : t.lookup l with _ | _ | _ <;> simp [hl, hk] at h

theorem hasNull_of_children {q : Path} (h : t.children p = .error ⟨.nullCharacter, q⟩) :
    q = p ∧ p.hasNull = true := by
  unfold children at h
  cases hl : t.locate p with
  | error e =>
    simp only [hl, Except.error.injEq, FileError.mk.injEq] at h
    obtain ⟨rfl, rfl⟩ := h
    exact ⟨rfl, hasNull_of_locate hl⟩
  | ok l => rcases hk : t.lookup l with _ | _ | _ <;> simp [hl, hk] at h

theorem read_eq_ok_iff {bytes : ByteArray} :
    t.read p = .ok bytes ↔ ∃ l, t.locate p = .ok l ∧ t.fileAt? l = some bytes := by
  simp only [read, find, fileAt?_eq_some]
  cases t.locate p with
  | error e => simp
  | ok l =>
    rcases hl : t.lookup l with _ | bytes' | _ <;> simp [hl]

end Follow

section Write
variable {bytes : ByteArray}

theorem FoldersKept.put_file (hl : t.lookup l ≠ some .folder) :
    FoldersKept t (t.put l (.file bytes)) where
  current := rfl
  folder := by
    intro k hk
    rw [lookup_put (ne_root hl), if_neg, hk]
    rintro rfl
    exact hl hk

theorem fileAt?_put_file (hl : t.lookup l ≠ some .folder) :
    (t.put l (.file bytes)).fileAt? k = if l = k then some bytes else t.fileAt? k := by
  unfold fileAt?
  rw [lookup_put (ne_root hl)]
  by_cases hk : l = k <;> simp [hk]

/-- What writing can do: it fails and leaves the files as they are, or one file has the new content,
the one to which the path leads. -/
theorem write_cases (t : FileTree) (p : Path) (content : String) :
    (∃ u e, t.write p content = (u, .error e) ∧ SameFiles t u) ∨
    ∃ u l, t.write p content =
        (u, .ok ⟨Location.text l, Text.countNewlines content, content.toUTF8.size⟩) ∧
      u.locate p = .ok l ∧ u.fileAt? l = some content.toUTF8 ∧
      ∀ k, k ≠ l → u.fileAt? k = t.fileAt? k := by
  have hfolders := SameFiles.makeFolders t p.root p.parent.names.reverse
  unfold write
  split
  · next u e h => exact .inl ⟨u, e, rfl, by simpa [h] using hfolders⟩
  · next u h =>
    replace hfolders : SameFiles t u := by simpa [h] using hfolders
    split
    · next e _ => exact .inl ⟨u, ⟨e, p⟩, rfl, hfolders⟩
    · next l hl =>
      split
      · exact .inl ⟨u, ⟨.isFolder, p⟩, rfl, hfolders⟩
      · next hfile =>
        replace hfile : u.lookup l ≠ some .folder := fun h => hfile h
        refine .inr ⟨_, l, rfl, locate_of_foldersKept (.put_file hfile) hl, ?_, fun k hk => ?_⟩
        · rw [fileAt?_put_file hfile, if_pos rfl]
        · rw [fileAt?_put_file hfile, if_neg (Ne.symm hk), hfolders k]

end Write

end LuauBindings.FileTree
