import LuauBindings.Text.Identifier

/-!
# What passes for a token

An identifier is told by its characters (`IsIdentifier`), and so is a word (`IsWord`). The two tests let one
newline at the end of the text pass as well, and nothing else: what they accept is a token, or a token and a
newline (`passesAsIdentifier_iff`, `passesAsWord_iff`).
-/

namespace LuauBindings.Text
variable {s t : String} {P : String → Prop}

/-- A text of ASCII letters, digits and underscores that is not empty and does not start with a digit. -/
structure IsIdentifier (s : String) : Prop where
  ne_empty : s ≠ ""
  start : ∀ c, s.toList.head? = some c → c.isDigit = false
  plain : ∀ c ∈ s.toList, c.isAlphanum = true ∨ c = '_'

/-- A text of ASCII letters and digits that is not empty. -/
structure IsWord (s : String) : Prop where
  ne_empty : s ≠ ""
  plain : ∀ c ∈ s.toList, c.isAlphanum = true

def EndsInNewline (s : String) : Prop :=
  ∃ t, s = t ++ "\n"

/-- The text has the property, or it is such a text with a newline after it. -/
def UpToNewline (P : String → Prop) (s : String) : Prop :=
  P s ∨ ∃ t, P t ∧ s = t ++ "\n"

theorem toNat_of_isDigit {c : Char} (h : c.isDigit = true) : 0x30 ≤ c.toNat ∧ c.toNat ≤ 0x39 := by
  simpa [Char.isDigit, UInt32.le_iff_toNat_le] using h

theorem le_of_isAlpha {c : Char} (h : c.isAlpha = true) : 0x41 ≤ c.toNat := by
  rcases Bool.or_eq_true_iff.mp h with h | h
  · have hle : 'A'.val ≤ c.val ∧ c.val ≤ 'Z'.val := of_decide_eq_true h
    exact UInt32.le_iff_toNat_le.mp hle.1
  · have hle : 'a'.val ≤ c.val := of_decide_eq_true (Bool.and_eq_true_iff.mp h).1
    exact Nat.le_trans (by decide) (UInt32.le_iff_toNat_le.mp hle)

theorem isNamePart_iff {c : Char} : isNamePart c = true ↔ c.isAlphanum = true ∨ c = '_' := by
  simp [isNamePart]

theorem le_of_isNamePart {c : Char} (h : isNamePart c = true) : 0x30 ≤ c.toNat := by
  rcases isNamePart_iff.mp h with h | rfl
  · rcases Bool.or_eq_true_iff.mp h with h | h
    · have hle := le_of_isAlpha h
      omega
    · exact (toNat_of_isDigit h).1
  · decide

theorem isNameStart_iff {c : Char} : isNameStart c = true ↔ isNamePart c = true ∧ c.isDigit = false := by
  cases hc : c.isDigit with
  | true =>
    have hle := (toNat_of_isDigit hc).2
    have halpha : c.isAlpha = false := by
      rw [Bool.eq_false_iff]
      intro h
      have := le_of_isAlpha h
      omega
    have hne : c ≠ '_' := by
      rintro rfl
      exact absurd hc (by decide)
    simp [isNameStart, halpha, hne]
  | false => simp [isNameStart, isNamePart, Char.isAlphanum, hc]

theorem isIdentifier_iff : isIdentifier s.toList = true ↔ IsIdentifier s := by
  have hempty : s = "" ↔ s.toList = [] := by rw [← String.toList_inj, String.toList_empty]
  cases hs : s.toList with
  | nil => exact iff_of_false (by simp [isIdentifier]) fun h => h.ne_empty (hempty.mpr hs)
  | cons c l =>
    rw [isIdentifier, Bool.and_eq_true, isNameStart_iff, List.all_eq_true]
    constructor
    · rintro ⟨⟨hpart, hstart⟩, hall⟩
      refine ⟨fun h => ?_, fun d hd => ?_, fun d hd => ?_⟩
      · rw [hempty, hs] at h
        cases h
      · rw [hs] at hd
        cases hd
        exact hstart
      · rw [hs] at hd
        rcases List.mem_cons.mp hd with rfl | hd
        · exact isNamePart_iff.mp hpart
        · exact isNamePart_iff.mp (hall d hd)
    · intro h
      have hplain := h.plain
      rw [hs] at hplain
      exact ⟨⟨isNamePart_iff.mpr (hplain c (List.mem_cons_self ..)), h.start c (by rw [hs]; rfl)⟩,
        fun d hd => isNamePart_iff.mpr (hplain d (List.mem_cons_of_mem _ hd))⟩

theorem isWord_iff : isWord s.toList = true ↔ IsWord s := by
  simp only [isWord, Bool.and_eq_true, Bool.not_eq_true', List.isEmpty_eq_false_iff, List.all_eq_true]
  constructor
  · rintro ⟨hne, hall⟩
    refine ⟨?_, hall⟩
    rintro rfl
    exact hne rfl
  · exact fun h => ⟨fun hnil => h.ne_empty (String.toList_eq_nil_iff.mp hnil), h.plain⟩

theorem newline_mem_of_endsInNewline (h : EndsInNewline s) : '\n' ∈ s.toList := by
  obtain ⟨t, rfl⟩ := h
  simp

theorem IsIdentifier.not_endsInNewline (h : IsIdentifier s) : ¬ EndsInNewline s := fun hs =>
  absurd (h.plain _ (newline_mem_of_endsInNewline hs)) (by decide)

theorem IsWord.not_endsInNewline (h : IsWord s) : ¬ EndsInNewline s := fun hs =>
  absurd (h.plain _ (newline_mem_of_endsInNewline hs)) (by decide)

theorem dropFinalNewline_newline (t : String) : dropFinalNewline (t ++ "\n").toList = t.toList := by
  have hlist : (t ++ "\n").toList = t.toList ++ ['\n'] := String.toList_append
  rw [hlist, dropFinalNewline, List.getLast?_concat, if_pos rfl, List.dropLast_concat]

theorem dropFinalNewline_of_not_endsInNewline (h : ¬ EndsInNewline s) :
    dropFinalNewline s.toList = s.toList := by
  rw [dropFinalNewline, if_neg]
  intro hlast
  obtain ⟨l, hl⟩ := List.getLast?_eq_some_iff.mp hlast
  exact h ⟨String.ofList l, String.toList_inj.mp (by simpa using hl)⟩

/-- A test that passes over a final newline accepts what it would without, up to the newline. -/
theorem dropFinalNewline_iff {test : List Char → Bool} (htest : ∀ s : String, test s.toList = true ↔ P s)
    (hplain : ∀ s, P s → ¬ EndsInNewline s) :
    test (dropFinalNewline s.toList) = true ↔ UpToNewline P s := by
  by_cases h : EndsInNewline s
  · obtain ⟨t, rfl⟩ := h
    rw [dropFinalNewline_newline, htest]
    constructor
    · exact fun ht => .inr ⟨t, ht, rfl⟩
    · rintro (hs | ⟨t', ht', heq⟩)
      · exact absurd ⟨t, rfl⟩ (hplain _ hs)
      · rwa [(String.append_left_inj _).mp heq]
  · rw [dropFinalNewline_of_not_endsInNewline h, htest]
    constructor
    · exact .inl
    · rintro (hs | ⟨t, -, heq⟩)
      · exact hs
      · exact absurd ⟨t, heq⟩ h

theorem passesAsIdentifier_iff : passesAsIdentifier s = true ↔ UpToNewline IsIdentifier s :=
  dropFinalNewline_iff (fun _ => isIdentifier_iff) fun _ => IsIdentifier.not_endsInNewline

theorem passesAsWord_iff : passesAsWord s = true ↔ UpToNewline IsWord s :=
  dropFinalNewline_iff (fun _ => isWord_iff) fun _ => IsWord.not_endsInNewline

theorem UpToNewline.iff_not_endsInNewline (hplain : ∀ s, P s → ¬ EndsInNewline s) (h : UpToNewline P s) :
    P s ↔ ¬ EndsInNewline s := by
  refine ⟨hplain s, fun hs => ?_⟩
  rcases h with h | ⟨t, -, heq⟩
  · exact h
  · exact absurd ⟨t, heq⟩ hs

theorem IsIdentifier.append (hs : IsIdentifier s) (ht : IsWord t) : IsIdentifier (s ++ t) := by
  refine ⟨?_, fun c hc => ?_, fun c hc => ?_⟩
  · intro h
    exact hs.ne_empty (String.append_eq_empty_iff.mp h).1
  · refine hs.start c ?_
    rw [String.toList_append, List.head?_append] at hc
    cases hlist : s.toList with
    | nil => exact absurd (String.toList_eq_nil_iff.mp hlist) hs.ne_empty
    | cons d l => rwa [hlist] at hc
  · rw [String.toList_append, List.mem_append] at hc
    rcases hc with hc | hc
    · exact hs.plain c hc
    · exact .inl (ht.plain c hc)

end LuauBindings.Text
