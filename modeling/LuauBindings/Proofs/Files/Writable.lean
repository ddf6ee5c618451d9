import LuauBindings.Proofs.Files.Write

/-!
# Which paths can be written

A path passes the locations of `wayFrom` before it comes to its last name. A folder that is missing there is made,
so what can be in the way is a file, and nothing else (`makeFolders_of_clear`). The write itself fails only where
the path leads to a folder: one that was there, or one that has been made on the way, as for `a/b/../b`. So
whether a write succeeds can be told from the tree before it (`write_succeeds_iff`).
-/

namespace LuauBindings.FileTree
variable {t u : FileTree} {l k : Location} {p : Path} {name root content : String} {names more up : List String}

/-- The location to which a name leads from `l`. -/
def next (l : Location) (name : String) : Location :=
  if name = ".." then l.dropLast else l ++ [name]

/-- The locations to which names lead from `l`, one after another. -/
def wayFrom (l : Location) : List String → List Location
  | [] => []
  | name :: names => next l name :: wayFrom (next l name) names

/-- Nothing is in the way of a write to `p`. -/
structure Writable (t : FileTree) (p : Path) : Prop where
  noNull : p.hasNull = false
  clear : ∀ k ∈ wayFrom (t.start p) p.parent.names, t.fileAt? k = none
  apart : t.resolve p ∉ wayFrom (t.start p) p.parent.names
  notFolder : t.lookup (t.resolve p) ≠ some .folder

section Follow

theorem resolve_eq_foldl (t : FileTree) (p : Path) : t.resolve p = p.names.foldl next (t.start p) := rfl

theorem wayFrom_concat (l : Location) (names : List String) (name : String) :
    wayFrom l (names ++ [name]) = wayFrom l names ++ [next (names.foldl next l) name] := by
  induction names generalizing l with
  | nil => rfl
  | cons n names ih => rw [List.cons_append, wayFrom, ih, wayFrom, List.foldl_cons, List.cons_append]

theorem wayFrom_names (hnames : p.names = names ++ [name]) :
    wayFrom (t.start p) p.names = wayFrom (t.start p) names ++ [t.resolve p] := by
  rw [resolve_eq_foldl, hnames, wayFrom_concat, List.foldl_append]
  rfl

theorem follow_cons_of_folder (hl : t.lookup l = some .folder) :
    t.follow l (name :: names) = t.follow (next l name) names := by
  rw [follow, hl]
  rfl

theorem folder_of_follow_cons (h : t.follow l (name :: names) = .ok k) : t.lookup l = some .folder := by
  rw [follow] at h
  split at h
  · cases h
  · cases h
  · assumption

theorem follow_of_folders (hl : t.lookup l = some .folder) (h : ∀ k ∈ wayFrom l names, t.lookup k = some .folder) :
    t.follow l names = .ok (names.foldl next l) ∧ t.lookup (names.foldl next l) = some .folder := by
  induction names generalizing l with
  | nil => exact ⟨rfl, hl⟩
  | cons name names ih =>
    obtain ⟨hnext, hrest⟩ := List.forall_mem_cons.mp h
    rw [follow_cons_of_folder hl]
    exact ih hnext hrest

theorem folders_of_follow (h : t.follow l (names ++ [name]) = .ok k) :
    ∀ k ∈ wayFrom l names, t.lookup k = some .folder := by
  induction names generalizing l with
  | nil => exact fun _ hk => absurd hk List.not_mem_nil
  | cons n names ih =>
    rw [List.cons_append, follow] at h
    split at h
    · cases h
    · cases h
    · refine List.forall_mem_cons.mpr ⟨?_, ih h⟩
      -- the names that are left begin at the next location, so that is a folder
      cases names with
      | nil => exact folder_of_follow_cons h
      | cons m names => exact folder_of_follow_cons h

theorem lookup_of_clear (h : t.fileAt? k = none) : t.lookup k = none ∨ t.lookup k = some .folder := by
  unfold fileAt? at h
  rcases hk : t.lookup k with _ | bytes | _
  · exact .inl rfl
  · simp [hk] at h
  · exact .inr rfl

/-- If no file is on the way, all that a path can meet with is a folder that is missing. -/
theorem follow_of_missing (hclear : ∀ k ∈ l :: wayFrom l names, t.fileAt? k = none)
    (hmissing : ¬ ∀ k ∈ l :: wayFrom l names, t.lookup k = some .folder) :
    t.follow l (names ++ [name]) = .error .notFound := by
  induction names generalizing l with
  | nil =>
    rw [wayFrom, List.forall_mem_singleton] at hclear hmissing
    have hl := (lookup_of_clear hclear).resolve_right hmissing
    simp only [List.nil_append, follow, hl]
  | cons n names ih =>
    obtain ⟨hl, hrest⟩ := List.forall_mem_cons.mp hclear
    rcases lookup_of_clear hl with hl | hl
    · simp only [List.cons_append, follow, hl]
    · rw [List.cons_append, follow_cons_of_folder hl]
      exact ih hrest fun hfolders => hmissing (List.forall_mem_cons.mpr ⟨hl, hfolders⟩)

end Follow

section Folders

theorem locate_of_folders (hnull : p.hasNull = false) (hnames : p.names = names ++ [name])
    (hstart : t.lookup (t.start p) = some .folder)
    (habove : ∀ k ∈ wayFrom (t.start p) names, t.lookup k = some .folder) : t.locate p = .ok (t.resolve p) := by
  obtain ⟨hfollow, hfolder⟩ := follow_of_folders hstart habove
  refine locate_eq_ok_iff.mpr ⟨hnull, ?_⟩
  rw [resolve_eq_foldl, hnames, follow_append, hfollow, List.foldl_append]
  exact follow_cons_of_folder hfolder

/-- Where all folders above it are there and no file is in its place, a folder is made or is there already. -/
theorem makeFolder_cases (hnull : p.hasNull = false) (hnames : p.names = names ++ [name])
    (hstart : t.lookup (t.start p) = some .folder)
    (habove : ∀ k ∈ wayFrom (t.start p) names, t.lookup k = some .folder)
    (hclear : t.fileAt? (t.resolve p) = none) :
    (t.lookup (t.resolve p) = none ∧ t.makeFolder p = .ok (t.put (t.resolve p) .folder)) ∨
    (t.lookup (t.resolve p) = some .folder ∧ t.makeFolder p = .error .exists ∧ t.isFolder p = true) := by
  have hlocate := locate_of_folders hnull hnames hstart habove
  rcases lookup_of_clear hclear with hl | hl
  · refine .inl ⟨hl, ?_⟩
    simp only [makeFolder, hlocate, hl, Option.isSome_none, Bool.false_eq_true, if_false]
  · refine .inr ⟨hl, ?_, ?_⟩
    · simp only [makeFolder, hlocate, hl, Option.isSome_some, if_true]
    · simp only [isFolder, find, hlocate, hl]

/-- Where a folder above it is missing, a folder cannot be made. -/
theorem makeFolder_of_missing (hnull : p.hasNull = false) (hnames : p.names = names ++ [name])
    (hstart : t.lookup (t.start p) = some .folder)
    (hclear : ∀ k ∈ wayFrom (t.start p) names, t.fileAt? k = none)
    (hmissing : ¬ ∀ k ∈ wayFrom (t.start p) names, t.lookup k = some .folder) :
    t.makeFolder p = .error .notFound := by
  have hfollow : t.follow (t.start p) p.names = .error .notFound := by
    rw [hnames]
    refine follow_of_missing (List.forall_mem_cons.mpr ⟨?_, hclear⟩) fun h => ?_
    · rw [fileAt?, hstart]
    · exact hmissing (List.forall_mem_cons.mp h).2
  have hlocate : t.locate p = .error .notFound := by
    rw [locate, hnull]
    exact hfollow
  rw [makeFolder, hlocate]

/-- `u` is `t` with folders on the way to the last of `names`. -/
structure Paved (t u : FileTree) (l : Location) (names : List String) : Prop where
  current : u.current = t.current
  way : ∀ k ∈ wayFrom l names, u.lookup k = some .folder
  others : ∀ k, k ∉ wayFrom l names → u.lookup k = t.lookup k

theorem Paved.folder (h : Paved t u l names) (hk : t.lookup k = some .folder) : u.lookup k = some .folder := by
  by_cases hway : k ∈ wayFrom l names
  · exact h.way k hway
  · rw [h.others k hway, hk]

theorem Paved.clear (h : Paved t u l names) (hk : t.fileAt? k = none) : u.fileAt? k = none := by
  by_cases hway : k ∈ wayFrom l names
  · rw [fileAt?, h.way k hway]
  · rw [fileAt?, h.others k hway, ← fileAt?, hk]

/-- One more folder is made, or it is there already. -/
theorem Paved.step (h : Paved t u (u.start p) names) (hnames : p.names = names ++ [name])
    (hnull : p.hasNull = false) (hstart : u.lookup (u.start p) = some .folder)
    (hclear : t.fileAt? (u.resolve p) = none) :
    (∃ v, u.makeFolder p = .ok v ∧ Paved t v (u.start p) p.names) ∨
    (u.makeFolder p = .error .exists ∧ u.isFolder p = true ∧ Paved t u (u.start p) p.names) := by
  have hway : wayFrom (u.start p) p.names = wayFrom (u.start p) names ++ [u.resolve p] := wayFrom_names hnames
  rcases makeFolder_cases hnull hnames hstart h.way (h.clear hclear) with ⟨hnone, hmade⟩ | ⟨hfolder, hmade, his⟩
  · have hroot : u.lookup (u.resolve p) ≠ some .folder := by simp [hnone]
    refine .inl ⟨_, hmade, h.current, fun k hk => ?_, fun k hk => ?_⟩
    · rw [lookup_put (ne_root hroot)]
      split
      · rfl
      · next hne =>
        rw [hway, List.mem_append, List.mem_singleton] at hk
        exact h.way k (hk.resolve_right (Ne.symm hne))
    · rw [hway, List.mem_append, List.mem_singleton, not_or] at hk
      rw [lookup_put (ne_root hroot), if_neg (Ne.symm hk.2), h.others k hk.1]
  · refine .inr ⟨hmade, his, h.current, fun k hk => ?_, fun k hk => ?_⟩
    · rw [hway, List.mem_append, List.mem_singleton] at hk
      rcases hk with hk | rfl
      · exact h.way k hk
      · exact hfolder
    · rw [hway, List.mem_append, not_or] at hk
      exact h.others k hk.1

theorem hasNull_of_append (hnames : p.names = names ++ more) (hnull : p.hasNull = false) :
    Path.hasNull ⟨root, names⟩ = false := by
  rw [Path.hasNull, hnames, List.any_append, Bool.or_eq_false_iff] at hnull
  exact hnull.1

/-- Folders are made as long as no file is in their place. -/
theorem makeFolders_of_clear (hnull : Path.hasNull ⟨root, up.reverse⟩ = false)
    (hstart : t.lookup (t.start ⟨root, up.reverse⟩) = some .folder)
    (hclear : ∀ k ∈ wayFrom (t.start ⟨root, up.reverse⟩) up.reverse, t.fileAt? k = none) :
    ∃ u, t.makeFolders root up = (u, .ok ()) ∧ Paved t u (t.start ⟨root, up.reverse⟩) up.reverse := by
  induction up with
  | nil => exact ⟨t, rfl, rfl, fun _ hk => absurd hk List.not_mem_nil, fun _ _ => rfl⟩
  | cons name up ih =>
    let p : Path := ⟨root, (name :: up).reverse⟩
    have hnames : p.names = up.reverse ++ [name] := List.reverse_cons
    have hway : wayFrom (t.start p) p.names = wayFrom (t.start p) up.reverse ++ [t.resolve p] := wayFrom_names hnames
    rw [hway, List.forall_mem_append, List.forall_mem_singleton] at hclear
    by_cases hall : ∀ k ∈ wayFrom (t.start p) up.reverse, t.lookup k = some .folder
    · have hpaved : Paved t t (t.start p) up.reverse := ⟨rfl, hall, fun _ _ => rfl⟩
      rcases hpaved.step hnames hnull hstart hclear.2 with ⟨v, hmade, hv⟩ | ⟨hmade, his, hv⟩
      · refine ⟨v, ?_, hv⟩
        simp only [makeFolders, hmade, p]
      · refine ⟨t, ?_, hv⟩
        simp only [makeFolders, hmade, his, p]
        rfl
    · -- what is missing above is made first
      have hmissing := makeFolder_of_missing hnull hnames hstart hclear.1 hall
      obtain ⟨u, hu, hpaved⟩ := ih (hasNull_of_append hnames hnull) hstart hclear.1
      have hstart' : u.start p = t.start p := start_congr hpaved.current
      have hreached : Paved t u (u.start p) up.reverse := by
        rw [hstart']
        exact hpaved
      have hfolder : u.lookup (u.start p) = some .folder := by
        rw [hstart']
        exact hpaved.folder hstart
      have hlast : t.fileAt? (u.resolve p) = none := by
        rw [resolve_congr hpaved.current]
        exact hclear.2
      rcases hreached.step hnames hnull hfolder hlast with ⟨v, hmade, hv⟩ | ⟨hmade, his, hv⟩
      · refine ⟨v, ?_, hstart' ▸ hv⟩
        simp only [makeFolders, hmissing, hu, hmade, p]
      · refine ⟨u, ?_, hstart' ▸ hv⟩
        simp only [makeFolders, hmissing, hu, hmade, his, p]
        rfl

end Folders

section Write

theorem names_eq_parent_concat (hp : p.names ≠ []) : p.names = p.parent.names ++ [p.names.getLast hp] :=
  (List.dropLast_concat_getLast hp).symm

theorem folders_of_locate (h : t.locate p = .ok l) :
    ∀ k ∈ wayFrom (t.start p) p.parent.names, t.lookup k = some .folder := by
  obtain ⟨-, hfollow⟩ := locate_eq_ok_iff.mp h
  by_cases hp : p.names = []
  · rw [Path.parent, hp]
    exact fun _ hk => absurd hk List.not_mem_nil
  · rw [names_eq_parent_concat hp] at hfollow
    exact folders_of_follow hfollow

/-- A write that succeeds has made its folders and found no folder in the place of the file. -/
theorem of_write_succeeds {w : Written} (h : (t.write p content).2 = .ok w) :
    ∃ u l, SameFiles t u ∧ FoldersKept t u ∧ u.locate p = .ok l ∧ u.lookup l ≠ some .folder := by
  have hsame := SameFiles.makeFolders t p.root p.parent.names.reverse
  have hkept := FoldersKept.of_newFolders (newFolders_makeFolders t p.root p.parent.names.reverse)
  unfold write at h
  generalize t.makeFolders p.root p.parent.names.reverse = made at h hsame hkept
  obtain ⟨u, e | _⟩ := made
  · cases h
  · dsimp only at h
    split at h
    · cases h
    · next l hl =>
      refine ⟨u, l, hsame, hkept, hl, fun hfolder => ?_⟩
      rw [hfolder] at h
      cases h

theorem writable_of_write {w : Written} (h : (t.write p content).2 = .ok w) : t.Writable p := by
  obtain ⟨u, l, hsame, hkept, hlocate, hl⟩ := of_write_succeeds h
  have hstart : u.start p = t.start p := start_congr hkept.current
  have hresolve : t.resolve p = l := (resolve_congr hkept.current).symm.trans (resolve_eq_of_locate hlocate)
  have hway := folders_of_locate hlocate
  rw [hstart] at hway
  refine ⟨(locate_eq_ok_iff.mp hlocate).1, fun k hk => ?_, fun hk => ?_, fun hfolder => ?_⟩
  · rw [← hsame k, fileAt?, hway k hk]
  · rw [hresolve] at hk
    exact hl (hway l hk)
  · rw [hresolve] at hfolder
    exact hl (hkept.folder l hfolder)

/-- Whether a write succeeds can be told from the tree before it. -/
theorem write_succeeds_iff (hstart : t.lookup (t.start p) = some .folder) (content : String) :
    (∃ w, (t.write p content).2 = .ok w) ↔ t.Writable p := by
  refine ⟨fun ⟨w, hw⟩ => writable_of_write hw, fun h => ?_⟩
  have hp : p.names ≠ [] := by
    -- without names the path leads to the folder where it starts
    intro hp
    have hresolve : t.resolve p = t.start p := by rw [resolve, hp, List.foldl_nil]
    exact h.notFolder (hresolve ▸ hstart)
  have hup : p.parent.names.reverse.reverse = p.parent.names := List.reverse_reverse _
  have hnull : Path.hasNull ⟨p.root, p.parent.names.reverse.reverse⟩ = false := by
    rw [hup]
    exact hasNull_of_append (names_eq_parent_concat hp) h.noNull
  obtain ⟨u, hmade, hpaved⟩ := makeFolders_of_clear hnull hstart (by rw [hup]; exact h.clear)
  rw [hup] at hpaved
  have hsame : u.start p = t.start p := start_congr hpaved.current
  have hlocate : u.locate p = .ok (t.resolve p) := by
    rw [← resolve_congr hpaved.current]
    refine locate_of_folders h.noNull (names_eq_parent_concat hp) ?_ ?_
    · rw [hsame]
      exact hpaved.folder hstart
    · rw [hsame]
      exact hpaved.way
  have hfile : u.lookup (t.resolve p) ≠ some .folder := by
    rw [hpaved.others _ h.apart]
    exact h.notFolder
  unfold write
  rw [hmade]
  dsimp only
  rw [hlocate]
  dsimp only
  split
  · next hl => exact absurd hl hfile
  · exact ⟨_, rfl⟩

end Write

end LuauBindings.FileTree
