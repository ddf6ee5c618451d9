/-!
# White space around names and descriptions

`strip` drops the white space at both ends of a text. The class of `isBlank` is that of the
Unicode property White_Space together with the four information separators U+001C to U+001F; the
zero width space and the byte order mark are not in it.
-/

namespace LuauBindings.Text

/-- White space, as names and descriptions are stripped of it. -/
def isBlank (c : Char) : Bool :=
  let n := c.toNat
  (0x09 ≤ n && n ≤ 0x0d) || (0x1c ≤ n && n ≤ 0x20) || n == 0x85 || n == 0xa0 || n == 0x1680 ||
    (0x2000 ≤ n && n ≤ 0x200a) || n == 0x2028 || n == 0x2029 || n == 0x202f || n == 0x205f ||
    n == 0x3000

/-- `s` without the white space at its ends. -/
def trim (s : List Char) : List Char :=
  ((s.dropWhile isBlank).reverse.dropWhile isBlank).reverse

/-- `s` without the white space at its ends. -/
def strip (s : String) : String :=
  String.ofList (trim s.toList)

@[simp] theorem toList_strip (s : String) : (strip s).toList = trim s.toList := by
  simp [strip]

@[simp] theorem trim_nil : trim [] = [] := rfl

theorem trim_isPrefix (s : List Char) : trim s <+: s.dropWhile isBlank := by
  have hsuffix := List.dropWhile_suffix isBlank (l := (s.dropWhile isBlank).reverse)
  rwa [← List.reverse_prefix, List.reverse_reverse] at hsuffix

theorem mem_of_mem_trim {s : List Char} {c : Char} (h : c ∈ trim s) : c ∈ s :=
  (List.dropWhile_sublist _).mem ((trim_isPrefix s).mem h)

theorem isBlank_head_trim {s : List Char} {c : Char} (h : (trim s).head? = some c) : isBlank c = false := by
  obtain ⟨rest, hrest⟩ := trim_isPrefix s
  have hhead := List.head?_dropWhile_not isBlank s
  rw [← hrest, List.head?_append, h] at hhead
  exact hhead

theorem isBlank_getLast_trim {s : List Char} {c : Char} (h : (trim s).getLast? = some c) :
    isBlank c = false := by
  have hhead := List.head?_dropWhile_not isBlank (s.dropWhile isBlank).reverse
  rw [trim, List.getLast?_reverse] at h
  rw [h] at hhead
  exact hhead

/-- A text without white space at its ends is kept. -/
theorem trim_eq_self {s : List Char} (hhead : ∀ c, s.head? = some c → isBlank c = false)
    (hlast : ∀ c, s.getLast? = some c → isBlank c = false) : trim s = s := by
  have hkept {l : List Char} (h : ∀ c, l.head? = some c → isBlank c = false) : l.dropWhile isBlank = l := by
    cases l with
    | nil => rfl
    | cons c l => rw [List.dropWhile_cons_of_neg (by simp [h c rfl])]
  rw [trim, hkept hhead, hkept, List.reverse_reverse]
  simpa using hlast

@[simp] theorem trim_trim (s : List Char) : trim (trim s) = trim s :=
  trim_eq_self (fun _ => isBlank_head_trim) fun _ => isBlank_getLast_trim

@[simp] theorem strip_strip (s : String) : strip (strip s) = strip s := by
  rw [← String.toList_inj, toList_strip, toList_strip, trim_trim]

/-- Every character that core counts as white space is blank. -/
theorem isBlank_of_isWhitespace {c : Char} (h : c.isWhitespace = true) : isBlank c = true := by
  simp only [Char.isWhitespace, Bool.or_eq_true, decide_eq_true_eq] at h
  rcases h with ((rfl | rfl) | rfl) | rfl <;> rfl

end LuauBindings.Text
