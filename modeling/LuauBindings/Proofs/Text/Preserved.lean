import LuauBindings.Proofs.Text.Literal
import LuauBindings.Proofs.Text.Occurrence
import LuauBindings.Text.Blank
import LuauBindings.Text.Newline
import Mathlib.Data.List.TakeWhile

/-!
# Occurrences that stripping, cutting into lines and quoting keep

A text that begins and ends with characters that are not blank is found in a stripped text where it was
found before. A text without a newline is found in the lines. A text of characters that stand for
themselves in a literal is found in the literal, unless it begins with a character that may follow the
backslash of an escape.
-/

namespace LuauBindings.Text
variable {p s t : List Char}

theorem infix_append_of_head_not_mem {c : Char} (hc : p.head? = some c) (hs : c ∉ s) :
    p <:+: s ++ t ↔ p <:+: t := by
  obtain ⟨l, rfl⟩ := List.head?_eq_some_iff.mp hc
  induction s with
  | nil => rfl
  | cons d s ih =>
    rw [List.mem_cons, not_or] at hs
    rw [List.cons_append, List.infix_cons_iff, List.cons_prefix_cons, ih hs.2]
    exact or_iff_right fun h => hs.1 h.1

section Blank
variable {drops : Char → Bool}

theorem infix_dropWhile_iff {c : Char} (hc : p.head? = some c) (h : drops c = false) :
    p <:+: s.dropWhile drops ↔ p <:+: s := by
  have hfront : c ∉ s.takeWhile drops := fun hmem => by
    rw [List.mem_takeWhile_imp hmem] at h
    exact absurd h (by decide)
  rw [← infix_append_of_head_not_mem (t := s.dropWhile drops) hc hfront,
    List.takeWhile_append_dropWhile]

theorem infix_trim_iff {c d : Char} (hc : p.head? = some c) (hd : p.getLast? = some d)
    (hcb : isBlank c = false) (hdb : isBlank d = false) : p <:+: trim s ↔ p <:+: s := by
  have hd' : p.reverse.head? = some d := by rw [List.head?_reverse, hd]
  rw [trim, ← List.reverse_infix, List.reverse_reverse, infix_dropWhile_iff hd' hdb,
    List.reverse_infix, infix_dropWhile_iff hc hcb]

end Blank

section Lines

theorem infix_lines_iff (h : Bars p ['\n']) (hne : p ≠ []) :
    (∃ line ∈ lines s, p <:+: line) ↔ p <:+: s := by
  rw [← h.infix_intercalate hne, lines, fields_eq_splitOn, List.intercalate_splitOn]

end Lines

namespace Literal

/-- The characters that may follow the backslash of an escape. -/
def escapeLetters : List Char :=
  ['"', '\\', 'n', 'r', 't', 'f', 'b', 'u'] ++ hexDigits

/-- A character stands for itself, or there is an escape for it. -/
theorem escapeChar_cases (c : Char) :
    escapeChar c = [c] ∨ ∃ e, escapeChar c = '\\' :: e ∧ ∀ d ∈ e, d ∈ escapeLetters := by
  rcases of_escapeChar_eq (c := c) rfl with ⟨letter, hletter, hc⟩ | ⟨-, hc⟩ | ⟨-, -, -, hc⟩
  · have hletters : ∀ e ∈ letterEscapes, e.1 ∈ escapeLetters := by decide
    exact .inr ⟨[letter], hc, List.forall_mem_singleton.mpr (hletters _ hletter)⟩
  · refine .inr ⟨_, hc, fun d hd => ?_⟩
    rcases List.mem_cons.mp hd with rfl | hd
    · decide
    · exact List.mem_append_right _ (mem_hexDigits_of_mem_hex hd)
  · exact .inl hc

theorem prefix_flatMap_escapeChar_iff (h : ∀ d ∈ p, escapeChar d = [d]) :
    p <+: s.flatMap escapeChar ↔ p <+: s := by
  induction p generalizing s with
  | nil => simp
  | cons a p ih =>
    cases s with
    | nil => simp
    | cons c s =>
      have ha : escapeChar a = [a] := h a (List.mem_cons_self ..)
      rw [List.flatMap_cons]
      rcases escapeChar_cases c with hc | ⟨e, hc, -⟩
      · rw [hc, List.singleton_append, List.cons_prefix_cons, List.cons_prefix_cons,
          ih fun d hd => h d (List.mem_cons_of_mem a hd)]
      · -- the pattern has no backslash, and its characters have no escape
        rw [hc, List.cons_append, List.cons_prefix_cons, List.cons_prefix_cons]
        constructor
        · rintro ⟨rfl, -⟩
          exact absurd ha (by decide)
        · rintro ⟨rfl, -⟩
          rw [ha] at hc
          obtain ⟨rfl, rfl⟩ := List.cons.inj hc
          exact absurd ha (by decide)

theorem infix_flatMap_escapeChar_iff {a : Char} (ha : p.head? = some a) (hletter : a ∉ escapeLetters)
    (h : ∀ d ∈ p, escapeChar d = [d]) : p <:+: s.flatMap escapeChar ↔ p <:+: s := by
  have hmem : a ∈ p := List.mem_of_mem_head? ha
  induction s with
  | nil => simp
  | cons c s ih =>
    rcases escapeChar_cases c with hc | ⟨e, hc, he⟩
    · have hfront : p <+: (c :: s).flatMap escapeChar ↔ p <+: c :: s :=
        prefix_flatMap_escapeChar_iff h
      rw [List.flatMap_cons, hc, List.singleton_append] at hfront ⊢
      rw [List.infix_cons_iff, List.infix_cons_iff, hfront]
      exact or_congr_right ih
    · have haescape : a ∉ escapeChar c := by
        rw [hc, List.mem_cons, not_or]
        refine ⟨?_, fun hae => hletter (he a hae)⟩
        rintro rfl
        exact absurd (h _ hmem) (by decide)
      have hac : a ∉ [c] := by
        rw [List.mem_singleton]
        rintro rfl
        exact haescape (by rw [h a hmem]; exact List.mem_singleton_self a)
      rw [List.flatMap_cons, infix_append_of_head_not_mem ha haescape, ← List.singleton_append (l := s),
        infix_append_of_head_not_mem ha hac]
      exact ih

theorem infix_encodeChars_iff {a : Char} (hq : Bars p ['"']) (ha : p.head? = some a)
    (hletter : a ∉ escapeLetters) (h : ∀ d ∈ p, escapeChar d = [d]) :
    p <:+: encodeChars s ↔ p <:+: s := by
  have hencode : encodeChars s = ['"'] ++ (s.flatMap escapeChar ++ ['"']) := rfl
  rw [hencode, hq.infix_right, hq.infix_left, infix_flatMap_escapeChar_iff ha hletter h]

end Literal

end LuauBindings.Text
