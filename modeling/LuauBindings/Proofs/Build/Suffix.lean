import LuauBindings.Build.Splice
import LuauBindings.Cli.Config

/-!
# Suffixes of the internal symbol

The suffix of a build is given, and then it is a word that may end in a newline, or it is derived from
the block, and then it consists of twelve hexadecimal digits. Either way it has none of the punctuation
that the fixed texts of a build are told by.
-/

namespace LuauBindings
variable {suffix : String} {c : Char}

namespace Text

theorem mem_dropFinalNewline_or {s : List Char} (h : c ∈ s) : c ∈ dropFinalNewline s ∨ c = '\n' := by
  unfold dropFinalNewline
  split
  · next hlast =>
    obtain ⟨l, rfl⟩ := List.getLast?_eq_some_iff.mp hlast
    rw [List.dropLast_concat]
    simpa using h
  · exact .inl h

theorem mem_of_passesAsWord (h : passesAsWord suffix = true) (hc : c ∈ suffix.toList) :
    c.isAlphanum = true ∨ c = '\n' := by
  have hall : ∀ c ∈ dropFinalNewline suffix.toList, c.isAlphanum = true := by
    simp only [passesAsWord, isWord, Bool.and_eq_true, List.all_eq_true] at h
    exact h.2
  exact (mem_dropFinalNewline_or hc).imp_left (hall c)

theorem ne_empty_of_passesAsWord (h : passesAsWord suffix = true) : suffix ≠ "" := by
  rintro rfl
  exact absurd h (by decide)

end Text

theorem checkSuffix_eq_ok_iff :
    Config.checkSuffix suffix = .ok suffix ↔ Text.passesAsWord suffix = true := by
  unfold Config.checkSuffix
  split <;> simp_all

theorem length_deriveSuffix (block : String) : (deriveSuffix block).toList.length = 12 := by
  rw [deriveSuffix, String.toList_ofList, List.length_take, Hash.Sha256.hexDigest,
    Text.length_hexOfBytes, Hash.Sha256.length_digest]
  rfl

theorem mem_hexDigits_of_mem_deriveSuffix {block : String} (hc : c ∈ (deriveSuffix block).toList) :
    c ∈ Text.hexDigits := by
  rw [deriveSuffix, String.toList_ofList] at hc
  exact Text.mem_hexDigits_of_mem_hexOfBytes (List.mem_of_mem_take hc)

/-- The suffixes that a build may have: those that pass the check, and those derived from a text. -/
inductive Admissible (suffix : String) : Prop
  | given (h : Config.checkSuffix suffix = .ok suffix)
  | derived (block : String) (h : deriveSuffix block = suffix)

namespace Admissible

theorem ne_empty (h : Admissible suffix) : suffix ≠ "" := by
  cases h with
  | given h => exact Text.ne_empty_of_passesAsWord (checkSuffix_eq_ok_iff.mp h)
  | derived block h =>
    rintro rfl
    have hlength := length_deriveSuffix block
    rw [h] at hlength
    exact absurd hlength (by decide)

theorem mem (h : Admissible suffix) (hc : c ∈ suffix.toList) : c.isAlphanum = true ∨ c = '\n' := by
  cases h with
  | given h => exact Text.mem_of_passesAsWord (checkSuffix_eq_ok_iff.mp h) hc
  | derived block h =>
    have hdigits : Text.hexDigits.all Char.isAlphanum = true := by decide
    rw [← h] at hc
    exact .inl (List.all_eq_true.mp hdigits c (mem_hexDigits_of_mem_deriveSuffix hc))

theorem dash_not_mem (h : Admissible suffix) : '-' ∉ suffix.toList := fun hc =>
  absurd (h.mem hc) (by decide)

end Admissible

end LuauBindings
