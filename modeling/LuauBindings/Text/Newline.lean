/-!
# Line ends

`unifyNewlines` reads the line ends CR LF and CR as the newline character, so a text has one kind
of line end whatever system wrote it. Lines are what stands between newline characters.
-/

namespace LuauBindings.Text

/-- Every CR LF and every other CR read as a newline. -/
def unifyNewlines : List Char → List Char
  | [] => []
  | '\r' :: '\n' :: s => '\n' :: unifyNewlines s
  | c :: s => (if c = '\r' then '\n' else c) :: unifyNewlines s

/-- The parts of `s` between the characters `sep`; one part more than there are such characters. -/
def fields (sep : Char) : List Char → List (List Char)
  | [] => [[]]
  | c :: s => if c = sep then [] :: fields sep s else (fields sep s).modifyHead (c :: ·)

/-- The lines of `s`; a final newline is followed by one empty line. -/
def lines (s : List Char) : List (List Char) :=
  fields '\n' s

/-- The number of newline characters of `s`. -/
def countNewlines (s : String) : Nat :=
  s.toList.count '\n'

/-- `s` without its last character if that is a newline. -/
def dropFinalNewline (s : List Char) : List Char :=
  if s.getLast? = some '\n' then s.dropLast else s

theorem fields_eq_splitOn (sep : Char) (s : List Char) : fields sep s = s.splitOn sep := by
  induction s with
  | nil => rfl
  | cons c s ih => simp [fields, ih, List.splitOn_cons_eq_if_modifyHead]

theorem not_mem_of_mem_fields {sep : Char} {s field : List Char} (h : field ∈ fields sep s) :
    sep ∉ field := by
  induction s generalizing field with
  | nil => simp_all [fields]
  | cons c s ih =>
    rw [fields] at h
    split at h
    · rcases List.mem_cons.mp h with rfl | h
      · exact List.not_mem_nil
      · exact ih h
    · next hc =>
      -- the character goes to the front of the first field
      cases hs : fields sep s with
      | nil => simp [hs] at h
      | cons first rest =>
        rw [hs] at ih h
        rcases List.mem_cons.mp h with rfl | h
        · rw [List.mem_cons, not_or]
          exact ⟨Ne.symm hc, ih (List.mem_cons_self ..)⟩
        · exact ih (List.mem_cons_of_mem first h)

theorem lines_append (s t : List Char) : lines (s ++ '\n' :: t) = lines s ++ lines t := by
  rw [lines, lines, lines, fields_eq_splitOn, fields_eq_splitOn, fields_eq_splitOn,
    List.splitOn_append_cons_self]

theorem lines_intercalate {l : List (List Char)} (h : ∀ line ∈ l, '\n' ∉ line) (hl : l ≠ []) :
    lines (['\n'].intercalate l) = l := by
  rw [lines, fields_eq_splitOn, List.splitOn_intercalate '\n' h hl]

theorem not_mem_unifyNewlines (s : List Char) : '\r' ∉ unifyNewlines s := by
  fun_induction unifyNewlines s with
  | case1 => simp
  | case2 s ih => simpa using ih
  | case3 c s _ ih => by_cases h : c = '\r' <;> simp [h, ih, Ne.symm]

theorem unifyNewlines_of_not_mem {s : List Char} (h : '\r' ∉ s) : unifyNewlines s = s := by
  fun_induction unifyNewlines s with
  | case1 => rfl
  | case2 => simp at h
  | case3 c s _ ih =>
    simp only [List.mem_cons, not_or] at h
    rw [ih h.2, if_neg (Ne.symm h.1)]

theorem prefix_of_prefix_unifyNewlines {p s : List Char} (hp : '\n' ∉ p) (h : p <+: unifyNewlines s) :
    p <+: s := by
  -- a line end is read as a newline, which `p` has none of; every other character is kept
  induction p generalizing s with
  | nil => exact List.nil_prefix
  | cons a p ih =>
    rw [List.mem_cons, not_or] at hp
    unfold unifyNewlines at h
    split at h
    · exact h
    · exact absurd (List.cons_prefix_cons.mp h).1.symm hp.1
    · next c s _ =>
      obtain ⟨ha, h⟩ := List.cons_prefix_cons.mp h
      by_cases hc : c = '\r'
      · rw [if_pos hc] at ha
        exact absurd ha.symm hp.1
      · rw [if_neg hc] at ha
        exact List.cons_prefix_cons.mpr ⟨ha, ih hp.2 h⟩

theorem infix_of_infix_unifyNewlines {p s : List Char} (hp : '\n' ∉ p) (h : p <:+: unifyNewlines s) :
    p <:+: s := by
  fun_induction unifyNewlines s with
  | case1 => exact h
  | case2 s ih =>
    rcases List.infix_cons_iff.mp h with hpre | hin
    · have hread : p <+: unifyNewlines ('\r' :: '\n' :: s) := hpre
      exact (prefix_of_prefix_unifyNewlines hp hread).isInfix
    · exact List.infix_cons (List.infix_cons (ih hin))
  | case3 c s hcr ih =>
    rcases List.infix_cons_iff.mp h with hpre | hin
    · have hread : p <+: unifyNewlines (c :: s) := by
        rw [unifyNewlines]
        · exact hpre
        · exact hcr
      exact (prefix_of_prefix_unifyNewlines hp hread).isInfix
    · exact List.infix_cons (ih hin)

end LuauBindings.Text
