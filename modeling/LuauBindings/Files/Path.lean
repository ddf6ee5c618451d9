import LuauBindings.Text.Newline

/-!
# Paths

A path is written as names between slashes. Empty names and single points are left out when it is
read, so `a//b/./c/` is the path `a/b/c`; two points stay. A path without names is the current
folder.
-/

namespace LuauBindings

/-- A path: `root` is empty for one that starts at the current folder, otherwise the slash or two
slashes it starts with. -/
structure Path where
  root : String
  names : List String
deriving DecidableEq, Repr

namespace Path

/-- The path written as `s`. Two slashes at the front are kept, three or more count as one. -/
def ofText (s : String) : Path where
  root :=
    match (s.toList.takeWhile (· = '/')).length with
    | 0 => ""
    | 2 => "//"
    | _ => "/"
  names := ((Text.fields '/' s.toList).map String.ofList).filter fun n => n ≠ "" ∧ n ≠ "."

/-- The path as it is shown. -/
def text (p : Path) : String :=
  if p.root.isEmpty && p.names.isEmpty then "." else p.root ++ "/".intercalate p.names

/-- The path of `name` in the folder `p`. -/
def child (p : Path) (name : String) : Path :=
  { p with names := p.names ++ [name] }

/-- The path without its last name. -/
def parent (p : Path) : Path :=
  { p with names := p.names.dropLast }

/-- Whether some name holds a null character, which no file name can. -/
def hasNull (p : Path) : Bool :=
  p.names.any fun n => n.toList.contains '\x00'

end Path

/-- The ending of a file name from its last point on; empty if nothing stands before that point or
nothing after it. -/
def fileSuffix (name : String) : String :=
  let reversed := name.toList.reverse
  let ending := (reversed.takeWhile (· ≠ '.')).reverse
  let before := (reversed.dropWhile (· ≠ '.')).drop 1
  if before.isEmpty || ending.isEmpty then "" else String.ofList ('.' :: ending)

theorem fileSuffix_eq_iff {name ending : String} (hne : ending ≠ "") (hpoint : '.' ∉ ending.toList) :
    fileSuffix name = "." ++ ending ↔ ∃ stem, stem ≠ "" ∧ name = stem ++ ("." ++ ending) := by
  have hnoPoint : ∀ c ∈ ending.toList.reverse, decide (c ≠ '.') = true := by
    intro c hc
    rw [decide_eq_true_eq]
    rintro rfl
    exact hpoint (List.mem_reverse.mp hc)
  constructor
  · intro h
    unfold fileSuffix at h
    dsimp only at h
    split at h
    · exact absurd (congrArg String.toList h) (by simp)
    · next hparts =>
      rw [Bool.or_eq_true, not_or] at hparts
      have hending : (name.toList.reverse.takeWhile (· ≠ '.')).reverse = ending.toList := by
        simpa using congrArg String.toList h
      -- what is before the ending begins, read backwards, with a point
      have hhead := List.head?_dropWhile_not (fun c => decide (c ≠ '.')) name.toList.reverse
      cases hdrop : name.toList.reverse.dropWhile (· ≠ '.') with
      | nil =>
        rw [hdrop] at hparts
        exact absurd rfl hparts.1
      | cons c before =>
        rw [hdrop] at hhead hparts
        obtain rfl : c = '.' := by simpa using hhead
        refine ⟨String.ofList before.reverse, by simpa using hparts.1, ?_⟩
        have hwhole : name.toList.reverse.takeWhile (· ≠ '.') ++ name.toList.reverse.dropWhile (· ≠ '.') =
            name.toList.reverse := List.takeWhile_append_dropWhile
        rw [← String.toList_inj, ← List.reverse_inj, ← hwhole, hdrop]
        simp [← hending]
  · rintro ⟨stem, hstem, rfl⟩
    have hreverse : (stem ++ ("." ++ ending)).toList.reverse =
        ending.toList.reverse ++ '.' :: stem.toList.reverse := by simp
    have htake : (stem ++ ("." ++ ending)).toList.reverse.takeWhile (· ≠ '.') =
        ending.toList.reverse := by
      rw [hreverse, List.takeWhile_append_of_pos hnoPoint]
      simp
    have hdrop : (stem ++ ("." ++ ending)).toList.reverse.dropWhile (· ≠ '.') =
        '.' :: stem.toList.reverse := by
      rw [hreverse, List.dropWhile_append_of_pos hnoPoint]
      simp
    unfold fileSuffix
    dsimp only
    rw [htake, hdrop]
    simp [hstem, hne]

end LuauBindings
