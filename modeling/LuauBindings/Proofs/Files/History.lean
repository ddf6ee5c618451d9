import LuauBindings.Proofs.Files.Writable

/-!
# A history of writes

Requests to write are carried out one after another, and a request that fails does not keep the later ones
from being tried. One write puts its content into the file to which its path leads, or changes no file
(`fileAt?_write`). So after any number of them a file holds the content of the last request that succeeded
there, and a file that no such request has reached is as it was (`fileAt?_writeAll`).
-/

namespace LuauBindings.FileTree
variable {t u : FileTree} {l : Location} {requests : List (Path × String)}

/-- The tree that the requests leave, and what came of each of them. -/
def writeAll (t : FileTree) :
    (requests : List (Path × String)) → FileTree × List (Except FileError Written)
  | [] => (t, [])
  | (p, content) :: requests =>
    let (u, answer) := t.write p content
    let (v, answers) := writeAll u requests
    (v, answer :: answers)

/-- The content that a request, with what came of it, has put into the file at `l`. -/
def contentAt? (t : FileTree) (l : Location) :
    (Path × String) × Except FileError Written → Option String
  | ((p, content), .ok _) => if t.resolve p = l then some content else none
  | (_, .error _) => none

/-- The contents that the requests have put into the file at `l`, first to last. -/
def contentsAt (t : FileTree) (requests : List (Path × String)) (l : Location) : List String :=
  (requests.zip (t.writeAll requests).2).filterMap (t.contentAt? l)

theorem lookup_start (h : t.lookup t.current = some .folder) (p : Path) :
    t.lookup (t.start p) = some .folder := by
  unfold start
  split
  · exact h
  · exact t.lookup_root

/-- What a write can do, by the place to which its path leads. -/
theorem write_cases_resolve (t : FileTree) (p : Path) (content : String) :
    (∃ u e, t.write p content = (u, .error e) ∧ SameFiles t u) ∨
    ∃ u, t.write p content =
        (u, .ok ⟨Location.text (t.resolve p), Text.countNewlines content, content.toUTF8.size⟩) ∧
      u.fileAt? (t.resolve p) = some content.toUTF8 ∧ ∀ k, k ≠ t.resolve p → u.fileAt? k = t.fileAt? k := by
  have hcurrent := (foldersKept_write t p content).current
  rcases t.write_cases p content with h | ⟨u, l, hw, hlocate, hfile, hothers⟩
  · exact .inl h
  · rw [hw] at hcurrent
    obtain rfl : t.resolve p = l := (resolve_congr hcurrent).symm.trans (resolve_eq_of_locate hlocate)
    exact .inr ⟨u, hw, hfile, hothers⟩

theorem fileAt?_write (t : FileTree) (p : Path) (content : String) (l : Location) :
    (t.write p content).1.fileAt? l =
      ((t.contentAt? l ((p, content), (t.write p content).2)).map String.toUTF8).or (t.fileAt? l) := by
  rcases t.write_cases_resolve p content with ⟨u, e, hw, hsame⟩ | ⟨u, hw, hfile, hothers⟩
  · rw [hw]
    exact hsame l
  · rw [hw]
    by_cases hl : t.resolve p = l
    · subst hl
      rw [contentAt?, if_pos rfl]
      exact hfile
    · rw [contentAt?, if_neg hl]
      exact hothers l (Ne.symm hl)

/-- A write that fails changes no file, and one that succeeds reports what it has written. -/
theorem write_reports (t : FileTree) (p : Path) (content : String) :
    (∀ e, (t.write p content).2 = .error e → SameFiles t (t.write p content).1) ∧
    ∀ w, (t.write p content).2 = .ok w →
      w.path = "/" ++ "/".intercalate (t.resolve p) ∧ w.lineCount = content.toList.count '\n' ∧
      ∃ bytes, (t.write p content).1.fileAt? (t.resolve p) = some bytes ∧ w.byteCount = bytes.size := by
  rcases t.write_cases_resolve p content with ⟨u, e, hw, hsame⟩ | ⟨u, hw, hfile, -⟩
  · rw [hw]
    refine ⟨fun _ _ => hsame, ?_⟩
    rintro w ⟨⟩
  · rw [hw]
    constructor
    · rintro e ⟨⟩
    · rintro w ⟨⟩
      exact ⟨rfl, rfl, _, hfile, rfl⟩

theorem contentAt?_congr (h : u.current = t.current) : u.contentAt? l = t.contentAt? l := by
  funext ⟨⟨p, content⟩, answer⟩
  cases answer with
  | error e => rfl
  | ok w => simp only [contentAt?, resolve_congr h]

theorem writeAll_cons (t : FileTree) (p : Path) (content : String) (requests : List (Path × String)) :
    t.writeAll ((p, content) :: requests) =
      (((t.write p content).1.writeAll requests).1,
        (t.write p content).2 :: ((t.write p content).1.writeAll requests).2) := rfl

theorem contentsAt_cons (t : FileTree) (p : Path) (content : String) (requests : List (Path × String)) :
    t.contentsAt ((p, content) :: requests) l =
      (t.contentAt? l ((p, content), (t.write p content).2)).toList ++
        (t.write p content).1.contentsAt requests l := by
  have hsame := contentAt?_congr (l := l) (foldersKept_write t p content).current
  rw [contentsAt, contentsAt, writeAll_cons, List.zip_cons_cons, List.filterMap_cons, hsame]
  cases t.contentAt? l ((p, content), (t.write p content).2) <;> rfl

theorem fileAt?_writeAll (t : FileTree) (requests : List (Path × String)) (l : Location) :
    (t.writeAll requests).1.fileAt? l =
      ((t.contentsAt requests l).getLast?.map String.toUTF8).or (t.fileAt? l) := by
  induction requests generalizing t with
  | nil => rfl
  | cons request requests ih =>
    obtain ⟨p, content⟩ := request
    rw [writeAll_cons, ih, fileAt?_write, contentsAt_cons]
    cases hlast : ((t.write p content).1.contentsAt requests l).getLast? with
    | none =>
      rw [List.getLast?_eq_none_iff] at hlast
      cases t.contentAt? l ((p, content), (t.write p content).2) <;> simp [hlast]
    | some last =>
      rw [List.getLast?_append, hlast]
      rfl

theorem length_writeAll (t : FileTree) (requests : List (Path × String)) :
    (t.writeAll requests).2.length = requests.length := by
  induction requests generalizing t with
  | nil => rfl
  | cons request requests ih => rw [writeAll_cons, List.length_cons, List.length_cons, ih]

theorem writeAll_append (t : FileTree) (before requests : List (Path × String)) :
    t.writeAll (before ++ requests) =
      (((t.writeAll before).1.writeAll requests).1,
        (t.writeAll before).2 ++ ((t.writeAll before).1.writeAll requests).2) := by
  induction before generalizing t with
  | nil => rfl
  | cons request before ih => rw [List.cons_append, writeAll_cons, ih, writeAll_cons]; rfl

theorem foldersKept_writeAll (t : FileTree) (requests : List (Path × String)) :
    FoldersKept t (t.writeAll requests).1 := by
  induction requests generalizing t with
  | nil => exact .refl t
  | cons request requests ih =>
    rw [writeAll_cons]
    exact (foldersKept_write t request.1 request.2).trans (ih _)

/-- A request after others is carried out on the tree that these leave, and answered in its turn. -/
theorem writeAll_at (t : FileTree) (before later : List (Path × String)) (p : Path) (content : String) :
    let reached := (t.writeAll before).1
    (t.writeAll (before ++ [(p, content)])).1 = (reached.write p content).1 ∧
    (t.writeAll (before ++ (p, content) :: later)).2[before.length]? = some (reached.write p content).2 := by
  intro reached
  have hbefore := length_writeAll t before
  constructor
  · rw [writeAll_append]
    rfl
  · rw [writeAll_append, ← hbefore, List.getElem?_append_right (Nat.le_refl _), Nat.sub_self]
    rfl

/-- What any number of requests leave and answer. A file holds the content of the last request that succeeded
there, byte for byte, or what it held before if there was none. A request succeeds just if nothing is in its way.
One that fails changes no file; one that succeeds reports the place to which its path leads, the newlines of its
content, and the size that the file has then. -/
theorem writeAll_exact (t : FileTree) (requests : List (Path × String)) :
    let answers := (t.writeAll requests).2
    (∀ l, (t.writeAll requests).1.fileAt? l =
      ((t.contentsAt requests l).getLast?.map String.toUTF8).or (t.fileAt? l)) ∧
    answers.length = requests.length ∧
    ∀ before p content later, requests = before ++ (p, content) :: later →
      let reached := (t.writeAll before).1
      let next := (t.writeAll (before ++ [(p, content)])).1
      (t.lookup t.current = some .folder →
        ((∃ w, answers[before.length]? = some (.ok w)) ↔ reached.Writable p)) ∧
      (∀ e, answers[before.length]? = some (.error e) → SameFiles reached next) ∧
      ∀ w, answers[before.length]? = some (.ok w) →
        w.path = "/" ++ "/".intercalate (t.resolve p) ∧ w.lineCount = content.toList.count '\n' ∧
        ∃ bytes, next.fileAt? (t.resolve p) = some bytes ∧ w.byteCount = bytes.size := by
  intro answers
  refine ⟨fileAt?_writeAll t requests, length_writeAll t requests, ?_⟩
  rintro before p content later rfl reached next
  have hkept : FoldersKept t reached := foldersKept_writeAll t before
  have hplace : t.resolve p = reached.resolve p := (resolve_congr hkept.current).symm
  obtain ⟨hnext, hanswer⟩ := writeAll_at t before later p content
  obtain ⟨hfails, hsucceeds⟩ := reached.write_reports p content
  have hsame (answer : Except FileError Written) :
      answers[before.length]? = some answer ↔ (reached.write p content).2 = answer := by
    rw [show answers[before.length]? = _ from hanswer, Option.some.injEq]
  simp only [hsame]
  rw [show next = _ from hnext, hplace]
  refine ⟨fun hcurrent => ?_, hfails, hsucceeds⟩
  have hstart : reached.lookup (reached.start p) = some .folder := by
    refine lookup_start ?_ p
    rw [hkept.current]
    exact hkept.folder _ hcurrent
  exact write_succeeds_iff hstart content

/-- The second request finds a file in place of a folder; the third makes a folder to come back from. -/
example :
    let t : FileTree := { entries := .ofList [(["a"], .folder)], current := [] }
    t.contentsAt [(.ofText "a/f", "one\ntwo"), (.ofText "a/f/g", "x"), (.ofText "a//x/../f", "y")] ["a", "f"] =
      ["one\ntwo", "y"] := by
  decide

end LuauBindings.FileTree
