import LuauBindings.Proofs.Files.Tree

/-!
# What a write leaves as it was

Where a path leads does not depend on what stands in the tree: `FileTree.resolve` reads it off the names
of the path, and a path that can be followed leads there (`resolve_eq_of_locate`). A write keeps all folders
and all other files (`keepsBut_of_write`), and what it has written it can write once more to no effect
(`write_again`).
-/

namespace LuauBindings.FileTree
open Relation
variable {t u : FileTree} {l k : Location} {p : Path} {name content : String} {names : List String}

/-- The location that a path names; two points lead back to the folder above. -/
def resolve (t : FileTree) (p : Path) : Location :=
  p.names.foldl (fun l name => if name = ".." then l.dropLast else l ++ [name]) (t.start p)

/-- `u` has the folders of `t`, and the files of `t` everywhere but at `l`. -/
structure KeepsBut (l : Location) (t u : FileTree) : Prop where
  folders : FoldersKept t u
  files : ∀ k, k ≠ l → u.fileAt? k = t.fileAt? k

section Resolve

theorem eq_foldl_of_follow (h : t.follow l names = .ok k) :
    names.foldl (fun l name => if name = ".." then l.dropLast else l ++ [name]) l = k := by
  induction names generalizing l with
  | nil => exact Except.ok.inj h
  | cons name names ih =>
    rw [follow] at h
    split at h
    · cases h
    · cases h
    · exact ih h

theorem resolve_eq_of_locate (h : t.locate p = .ok l) : t.resolve p = l :=
  eq_foldl_of_follow (locate_eq_ok_iff.mp h).2

theorem resolve_child (hname : name ≠ "..") : t.resolve (p.child name) = t.resolve p ++ [name] := by
  rw [resolve, start_child, Path.child, List.foldl_append, ← resolve]
  simp only [List.foldl_cons, List.foldl_nil, hname, if_false]

theorem start_congr (h : u.current = t.current) : u.start p = t.start p := by
  rw [start, start, h]

theorem resolve_congr (h : u.current = t.current) : u.resolve p = t.resolve p := by
  rw [resolve, resolve, start_congr h]

end Resolve

section Folders

theorem FoldersKept.refl (t : FileTree) : FoldersKept t t := ⟨rfl, fun _ h => h⟩

theorem FoldersKept.trans {v : FileTree} (h : FoldersKept t u) (h' : FoldersKept u v) :
    FoldersKept t v :=
  ⟨h'.current.trans h.current, fun l hl => h'.folder l (h.folder l hl)⟩

theorem FoldersKept.of_newFolders (h : ReflTransGen NewFolder t u) : FoldersKept t u := by
  induction h with
  | refl => exact .refl t
  | @tail u v _ hnew ih =>
    obtain ⟨l, hl, rfl⟩ := hnew
    refine ih.trans ⟨rfl, fun k hk => ?_⟩
    have hroot : u.lookup l ≠ some .folder := by simp [hl]
    rw [lookup_put (ne_root hroot)]
    split
    · rfl
    · exact hk

/-- The folder in which a path leads to something is there. -/
theorem locate_parent (h : t.locate p = .ok l) (hp : p.names ≠ []) :
    ∃ k, t.locate p.parent = .ok k ∧ t.lookup k = some .folder := by
  obtain ⟨hnull, hfollow⟩ := locate_eq_ok_iff.mp h
  rw [← List.dropLast_concat_getLast hp, follow_append] at hfollow
  cases hk : t.follow (t.start p) p.names.dropLast with
  | error e => rw [hk] at hfollow; cases hfollow
  | ok k =>
    rw [hk] at hfollow
    change t.follow k [_] = .ok l at hfollow
    refine ⟨k, locate_eq_ok_iff.mpr ⟨?_, hk⟩, ?_⟩
    · rw [Path.hasNull, Bool.eq_false_iff, ne_eq, List.any_eq_true] at hnull ⊢
      rintro ⟨n, hn, hnnull⟩
      exact hnull ⟨n, List.dropLast_subset _ hn, hnnull⟩
    · rw [follow] at hfollow
      split at hfollow
      · cases hfollow
      · cases hfollow
      · assumption

/-- No folder is made where there is one. -/
theorem makeFolders_of_folder {root : String} {up : List String}
    (h : t.locate ⟨root, up.reverse⟩ = .ok k) (hk : t.lookup k = some .folder) :
    t.makeFolders root up = (t, .ok ()) := by
  cases up with
  | nil => rfl
  | cons name up =>
    have hmake : t.makeFolder ⟨root, (name :: up).reverse⟩ = .error .exists := by
      simp only [makeFolder, h, hk, Option.isSome_some, if_true]
    have hfolder : t.isFolder ⟨root, (name :: up).reverse⟩ = true := by
      simp only [isFolder, find, h, hk]
    simp only [makeFolders, hmake, hfolder]
    rfl

theorem KeepsBut.read {bytes : ByteArray} (h : KeepsBut l t u) (hp : t.resolve p ≠ l)
    (hread : t.read p = .ok bytes) : u.read p = .ok bytes := by
  obtain ⟨k, hlocate, hfile⟩ := read_eq_ok_iff.mp hread
  refine read_eq_ok_iff.mpr ⟨k, locate_of_foldersKept h.folders hlocate, ?_⟩
  rw [h.files k (by rwa [← resolve_eq_of_locate hlocate]), hfile]

end Folders

section Write
variable {w : Written}

theorem put_of_fileAt? {bytes : ByteArray} (h : t.fileAt? l = some bytes) : t.put l (.file bytes) = t := by
  rw [fileAt?_eq_some, lookup] at h
  split at h
  · cases h
  · rw [put, OrderedMap.insert_of_get? h]

theorem of_write_eq_ok (h : t.write p content = (u, .ok w)) :
    ∃ l, w = ⟨Location.text l, Text.countNewlines content, content.toUTF8.size⟩ ∧
      u.locate p = .ok l ∧ u.fileAt? l = some content.toUTF8 ∧
      ∀ k, k ≠ l → u.fileAt? k = t.fileAt? k := by
  rcases t.write_cases p content with ⟨v, e, hw, -⟩ | ⟨v, l, hw, hlocate, hfile, hothers⟩
  · cases (Prod.mk.inj (hw.symm.trans h)).2
  · obtain ⟨hv, hwritten⟩ := Prod.mk.inj (hw.symm.trans h)
    subst v
    exact ⟨l, (Except.ok.inj hwritten).symm, hlocate, hfile, hothers⟩

theorem foldersKept_write (t : FileTree) (p : Path) (content : String) :
    FoldersKept t (t.write p content).1 := by
  have hmade := FoldersKept.of_newFolders (newFolders_makeFolders t p.root p.parent.names.reverse)
  unfold write
  split
  · next made e hfolders =>
    rw [hfolders] at hmade
    exact hmade
  · next made hfolders =>
    rw [hfolders] at hmade
    split
    · exact hmade
    · split
      · exact hmade
      · next hfile => exact hmade.trans (.put_file fun h => hfile h)

theorem keepsBut_of_write (h : t.write p content = (u, .ok w)) :
    ∃ l, u.locate p = .ok l ∧ KeepsBut l t u ∧ u.fileAt? l = some content.toUTF8 := by
  obtain ⟨l, -, hlocate, hfile, hothers⟩ := of_write_eq_ok h
  have hkept := foldersKept_write t p content
  rw [h] at hkept
  exact ⟨l, hlocate, ⟨hkept, hothers⟩, hfile⟩

theorem counts_of_write (h : t.write p content = (u, .ok w)) :
    w.lineCount = content.toList.count '\n' ∧ w.byteCount = content.toUTF8.size := by
  obtain ⟨l, rfl, -⟩ := of_write_eq_ok h
  exact ⟨rfl, rfl⟩

theorem read_of_write (h : t.write p content = (u, .ok w)) : u.read p = .ok content.toUTF8 := by
  obtain ⟨l, -, hlocate, hfile, -⟩ := of_write_eq_ok h
  exact read_eq_ok_iff.mpr ⟨l, hlocate, hfile⟩

theorem write_again (h : t.write p content = (u, .ok w)) : u.write p content = (u, .ok w) := by
  obtain ⟨l, rfl, hlocate, hfile, -⟩ := of_write_eq_ok h
  have hfolders : u.makeFolders p.root p.parent.names.reverse = (u, .ok ()) := by
    by_cases hp : p.names = []
    · simp [Path.parent, hp, makeFolders]
    · obtain ⟨k, hparent, hk⟩ := locate_parent hlocate hp
      exact makeFolders_of_folder (by rwa [List.reverse_reverse]) hk
  rw [write, hfolders]
  simp only [hlocate, fileAt?_eq_some.mp hfile, put_of_fileAt? hfile]

end Write

end LuauBindings.FileTree
