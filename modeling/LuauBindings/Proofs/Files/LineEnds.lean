import LuauBindings.Proofs.Files.Write
import LuauBindings.Text.Utf8

/-!
# Trees that differ in line ends

A text without carriage returns may be written with either of two other line ends; reading the file gives the
text back (`readText_of_rewritten`). Two trees that hold the same folders, and files that differ in no more than
that, answer every path alike: it leads to the same place, or fails for the same fault (`Restyled.locate_eq`).
Making folders and writing keep the trees so and report the same (`Restyled.makeFolders`, `Restyled.write`).
-/

namespace LuauBindings

namespace Text

/-- The line ends other than the newline character. -/
inductive LineEnd
  | crlf
  | cr

/-- What ends a line. -/
def LineEnd.chars : LineEnd → List Char
  | .crlf => ['\r', '\n']
  | .cr => ['\r']

/-- `s` with this end for every line. -/
def LineEnd.rewrite (e : LineEnd) (s : List Char) : List Char :=
  s.flatMap fun c => if c = '\n' then e.chars else [c]

def LineEnd.rewriteText (e : LineEnd) (s : String) : String :=
  String.ofList (e.rewrite s.toList)

example : LineEnd.crlf.rewriteText "--!strict\n\n" = "--!strict\r\n\r\n" := by decide

theorem unifyNewlines_cons {c : Char} (h : c ≠ '\r') (s : List Char) :
    unifyNewlines (c :: s) = c :: unifyNewlines s := by
  rw [unifyNewlines, if_neg h]
  rintro rest rfl
  exact absurd rfl h

theorem unifyNewlines_cr_cons {s : List Char} (h : s.head? ≠ some '\n') :
    unifyNewlines ('\r' :: s) = '\n' :: unifyNewlines s := by
  rw [unifyNewlines, if_pos rfl]
  rintro rest - rfl
  exact h rfl

/-- After a carriage return that ends a line no newline character stands. -/
theorem head?_rewrite_cr (s : List Char) : (LineEnd.cr.rewrite s).head? ≠ some '\n' := by
  cases s with
  | nil => simp [LineEnd.rewrite]
  | cons c s =>
    rw [LineEnd.rewrite, List.flatMap_cons]
    split
    · simp [LineEnd.chars]
    · next hc => simpa using hc

theorem unifyNewlines_rewrite (e : LineEnd) {s : List Char} (h : '\r' ∉ s) : unifyNewlines (e.rewrite s) = s := by
  induction s with
  | nil => rfl
  | cons c s ih =>
    rw [List.mem_cons, not_or] at h
    rw [LineEnd.rewrite, List.flatMap_cons, ← LineEnd.rewrite]
    by_cases hc : c = '\n'
    · subst hc
      rw [if_pos rfl]
      cases e with
      | crlf =>
        change '\n' :: unifyNewlines (LineEnd.crlf.rewrite s) = _
        rw [ih h.2]
      | cr =>
        change unifyNewlines ('\r' :: LineEnd.cr.rewrite s) = _
        rw [unifyNewlines_cr_cons (head?_rewrite_cr s), ih h.2]
    · rw [if_neg hc]
      change unifyNewlines (c :: e.rewrite s) = _
      rw [unifyNewlines_cons (Ne.symm h.1), ih h.2]

/-- The bytes are the same, or they hold one text without carriage returns, the second with all its newlines
rewritten. -/
inductive Rewritten : ByteArray → ByteArray → Prop
  | refl (bytes : ByteArray) : Rewritten bytes bytes
  | lineEnds (e : LineEnd) (s : String) (h : '\r' ∉ s.toList) :
    Rewritten s.toUTF8 (e.rewriteText s).toUTF8

theorem readText_of_rewritten {bytes bytes' : ByteArray} (h : Rewritten bytes bytes') :
    Utf8.readText bytes' = Utf8.readText bytes := by
  cases h with
  | refl => rfl
  | lineEnds e s h =>
    rw [Utf8.readText_toUTF8, Utf8.readText_toUTF8, LineEnd.rewriteText, String.toList_ofList,
      unifyNewlines_rewrite e h, unifyNewlines_of_not_mem h]

end Text

open Text (Rewritten)

/-- Both operations fail with the same error, or both have a result, and the results are related. -/
inductive SameAnswer {ε α β : Type} (R : α → β → Prop) : Except ε α → Except ε β → Prop
  | error (e : ε) : SameAnswer R (.error e) (.error e)
  | ok {a : α} {b : β} (h : R a b) : SameAnswer R (.ok a) (.ok b)

namespace FileTree
variable {t u : FileTree} {l : Location}

/-- What stands at one place of two trees: nothing, a folder, or files that differ in line ends. -/
inductive SameEntry : Option FileEntry → Option FileEntry → Prop
  | absent : SameEntry none none
  | folder : SameEntry (some .folder) (some .folder)
  | file {bytes bytes' : ByteArray} (h : Rewritten bytes bytes') :
    SameEntry (some (.file bytes)) (some (.file bytes'))

/-- `u` is `t` with the newlines of some files rewritten. -/
structure Restyled (t u : FileTree) : Prop where
  current : u.current = t.current
  entry : ∀ l, SameEntry (t.lookup l) (u.lookup l)

/-- Two operations that each leave a tree have the same answer. -/
inductive SameOutcome {α : Type} : FileTree × α → FileTree × α → Prop
  | mk {t u : FileTree} (h : Restyled t u) (answer : α) : SameOutcome (t, answer) (u, answer)

namespace Restyled

theorem refl (t : FileTree) : Restyled t t := by
  refine ⟨rfl, fun l => ?_⟩
  rcases t.lookup l with _ | bytes | _
  · exact .absent
  · exact .file (.refl bytes)
  · exact .folder

theorem put {e e' : FileEntry} (h : Restyled t u) (l : Location) (he : SameEntry (some e) (some e')) :
    Restyled (t.put l e) (u.put l e') := by
  refine ⟨h.current, fun k => ?_⟩
  cases k with
  | nil => exact .folder
  | cons name k =>
    have hentry := h.entry (name :: k)
    simp only [lookup, FileTree.put, List.isEmpty_cons, Bool.false_eq_true, if_false,
      OrderedMap.get?_insert] at hentry ⊢
    split
    · exact he
    · exact hentry

theorem follow_eq (h : Restyled t u) (l : Location) (names : List String) : u.follow l names = t.follow l names := by
  induction names generalizing l with
  | nil => rfl
  | cons name names ih =>
    have hentry := h.entry l
    rw [follow, follow]
    generalize t.lookup l = e at hentry ⊢
    generalize u.lookup l = e' at hentry ⊢
    cases hentry with
    | absent => rfl
    | folder => exact ih _
    | file _ => rfl

theorem locate_eq (h : Restyled t u) (p : Path) : u.locate p = t.locate p := by
  rw [locate, locate, h.current, h.follow_eq]

theorem find (h : Restyled t u) (p : Path) :
    SameAnswer (fun e e' => SameEntry (some e) (some e')) (t.find p) (u.find p) := by
  rw [FileTree.find, FileTree.find, h.locate_eq]
  rcases t.locate p with fault | l
  · exact .error fault
  · have hentry := h.entry l
    dsimp only
    generalize t.lookup l = e at hentry ⊢
    generalize u.lookup l = e' at hentry ⊢
    cases hentry with
    | absent => exact .error _
    | folder => exact .ok .folder
    | file hbytes => exact .ok (.file hbytes)

theorem isFolder_eq (h : Restyled t u) (p : Path) : u.isFolder p = t.isFolder p := by
  have hfind := h.find p
  rw [isFolder, isFolder]
  generalize t.find p = found at hfind ⊢
  generalize u.find p = found' at hfind ⊢
  cases hfind with
  | error _ => rfl
  | ok hentry => cases hentry <;> rfl

theorem read (h : Restyled t u) (p : Path) : SameAnswer Rewritten (t.read p) (u.read p) := by
  have hfind := h.find p
  rw [FileTree.read, FileTree.read]
  generalize t.find p = found at hfind ⊢
  generalize u.find p = found' at hfind ⊢
  cases hfind with
  | error fault => exact .error _
  | ok hentry =>
    cases hentry with
    | folder => exact .error _
    | file hbytes => exact .ok hbytes

theorem isSome_fileAt? (h : Restyled t u) (l : Location) : (u.fileAt? l).isSome = (t.fileAt? l).isSome := by
  have hentry := h.entry l
  rw [fileAt?, fileAt?]
  generalize t.lookup l = e at hentry ⊢
  generalize u.lookup l = e' at hentry ⊢
  cases hentry <;> rfl

theorem makeFolder (h : Restyled t u) (p : Path) : SameAnswer Restyled (t.makeFolder p) (u.makeFolder p) := by
  rw [FileTree.makeFolder, FileTree.makeFolder, h.locate_eq]
  rcases t.locate p with fault | l
  · exact .error fault
  · have hentry := h.entry l
    dsimp only
    generalize t.lookup l = e at hentry ⊢
    generalize u.lookup l = e' at hentry ⊢
    cases hentry with
    | absent => exact .ok (h.put l .folder)
    | folder => exact .error _
    | file _ => exact .error _

theorem makeFolders (h : Restyled t u) (root : String) (up : List String) :
    SameOutcome (t.makeFolders root up) (u.makeFolders root up) := by
  induction up with
  | nil => exact .mk h _
  | cons name up ih =>
    have hmake := h.makeFolder ⟨root, (name :: up).reverse⟩
    rw [FileTree.makeFolders, FileTree.makeFolders]
    dsimp only
    generalize t.makeFolder ⟨root, (name :: up).reverse⟩ = made at hmake ⊢
    generalize u.makeFolder ⟨root, (name :: up).reverse⟩ = made' at hmake ⊢
    cases hmake with
    | ok hmade => exact .mk hmade _
    | error fault =>
      cases fault with
      | notFound =>
        generalize t.makeFolders root up = folders at ih ⊢
        generalize u.makeFolders root up = folders' at ih ⊢
        cases ih with
        | @mk above above' habove answer =>
          rcases answer with e | _
          · exact .mk habove _
          · have hagain := habove.makeFolder ⟨root, (name :: up).reverse⟩
            dsimp only
            generalize above.makeFolder ⟨root, (name :: up).reverse⟩ = made at hagain ⊢
            generalize above'.makeFolder ⟨root, (name :: up).reverse⟩ = made' at hagain ⊢
            cases hagain with
            | ok hmade => exact .mk hmade _
            | error fault =>
              dsimp only
              rw [habove.isFolder_eq]
              exact .mk habove _
      | _ =>
        dsimp only
        rw [h.isFolder_eq]
        exact .mk h _

/-- A write succeeds in both trees or fails in both, and it leaves the same in its place. -/
theorem write (h : Restyled t u) (p : Path) (content : String) :
    SameOutcome (t.write p content) (u.write p content) := by
  have hfolders := h.makeFolders p.root p.parent.names.reverse
  rw [FileTree.write, FileTree.write]
  generalize t.makeFolders p.root p.parent.names.reverse = folders at hfolders ⊢
  generalize u.makeFolders p.root p.parent.names.reverse = folders' at hfolders ⊢
  cases hfolders with
  | @mk made made' hmade answer =>
    rcases answer with e | _
    · exact .mk hmade _
    · dsimp only
      rw [hmade.locate_eq]
      rcases made.locate p with fault | l
      · exact .mk hmade _
      · have hentry := hmade.entry l
        have hwritten := hmade.put l (.file (.refl content.toUTF8))
        dsimp only
        generalize made.lookup l = e at hentry ⊢
        generalize made'.lookup l = e' at hentry ⊢
        cases hentry with
        | absent => exact .mk hwritten _
        | folder => exact .mk hmade _
        | file _ => exact .mk hwritten _

end Restyled

end FileTree

end LuauBindings
