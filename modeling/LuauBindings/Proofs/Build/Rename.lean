import LuauBindings.Proofs.Build.Splice

/-!
# Renaming the internal symbol

Renaming puts an underscore and the suffix after every internal symbol. The underscore at the front of
the symbol does not recur in it, so the renamed symbols are found where they were put and taking the
suffix off gives back the text from before. A suffix that is `Distinct` makes no new symbol either: after
the renaming the symbols of the text are the renamed ones.
-/

namespace LuauBindings
open Text

section Extension
variable {d : Char} {w e : List Char}

/-- An extension that begins with the first character of a pattern and goes on otherwise than the pattern
does is sealed at its end. -/
theorem sealedEnd_extension (hw : d ∉ w) (he : d ∉ e) (hew : ¬ e <+: w) :
    SealedEnd (d :: w) (d :: w ++ d :: e) := by
  intro i hi hpos
  obtain ⟨j, rfl⟩ := Nat.exists_eq_succ_of_ne_zero hpos.ne'
  rw [List.take_succ_cons]
  have hsame : w.take j ≠ e := fun h => hew (h ▸ List.take_prefix j w)
  constructor
  · intro hstart
    -- the last `d` of the extended pattern is the one in front of `e`
    rcases List.suffix_or_suffix_of_suffix hstart (List.suffix_append (d :: w) (d :: e)) with h | h
    · rcases List.suffix_cons_iff.mp h with h | h
      · exact hsame (List.cons.inj h).2
      · exact he (h.subset (List.mem_cons_self ..))
    · rcases List.suffix_cons_iff.mp h with h | h
      · exact hsame (List.cons.inj h).2.symm
      · exact hw (List.mem_of_mem_take (h.subset (List.mem_cons_self ..)))
  · intro hall
    have hlength := hall.length_le
    simp only [List.length_append, List.length_cons, List.length_take] at hlength
    omega

theorem not_infix_extension_tail (hw : d ∉ w) (he : d ∉ e) (hwe : ¬ w <+: e) :
    ¬ d :: w <:+: w ++ d :: e := by
  have hapart : Apart (d :: w) w (d :: e) := (sealedStart_cons hw e).apart
  rw [hapart.infix_append, List.infix_cons_iff, List.cons_prefix_cons]
  rintro (h | ⟨-, h⟩ | h)
  · exact hw (h.subset (List.mem_cons_self ..))
  · exact hwe h
  · exact he (h.subset (List.mem_cons_self ..))

theorem followed_extension (hw : d ∉ w) (he : d ∉ e) (hwe : ¬ w <+: e) :
    Followed (d :: w) (d :: e) (d :: w ++ d :: e) := by
  rw [List.cons_append, followed_cons_iff]
  refine ⟨fun _ => List.prefix_refl _, fun before after h => ?_⟩
  exact absurd ⟨before, after, by rw [h, List.append_assoc]⟩ (not_infix_extension_tail hw he hwe)

theorem occurrences_extension (hw : d ∉ w) (he : d ∉ e) (hwe : ¬ w <+: e) :
    occurrences (d :: w) (d :: w ++ d :: e) = occurrences (d :: w) (d :: w) := by
  have hfront : d :: w <+: d :: (w ++ d :: e) := List.prefix_append (d :: w) (d :: e)
  rw [occurrences_self (List.cons_ne_nil d w), List.cons_append, occurrences_cons_of_found hfront,
    occurrences_eq_zero (not_infix_extension_tail hw he hwe)]

end Extension

/-- The suffix has no underscore, and the letters of the internal symbol and the suffix differ before
either ends. -/
structure Distinct (suffix : String) : Prop where
  no_underscore : '_' ∉ suffix.toList
  not_initial : ¬ suffix.toList <+: "internal".toList
  no_word : ¬ "internal".toList <+: suffix.toList

theorem distinct_deriveSuffix (block : String) : Distinct (deriveSuffix block) where
  no_underscore h := absurd (mem_hexDigits_of_mem_deriveSuffix h) (by decide)
  not_initial h := by
    have hlength := h.length_le
    rw [length_deriveSuffix] at hlength
    exact absurd hlength (by decide)
  no_word h := by
    have hi : 'i' ∈ (deriveSuffix block).toList := h.subset (by decide)
    exact absurd (mem_hexDigits_of_mem_deriveSuffix hi) (by decide)

theorem toList_internalSymbol : internalSymbol.toList = '_' :: "internal".toList := by decide

theorem toList_suffixed_symbol (suffix : String) : (internalSymbol ++ "_" ++ suffix).toList =
    '_' :: "internal".toList ++ '_' :: suffix.toList := by
  rw [String.toList_append, String.toList_append, toList_internalSymbol, List.append_assoc]
  rfl

section Rename
variable {suffix : String}

theorem underscore_not_mem_internal : '_' ∉ "internal".toList := by decide

theorem replace_renameInternal (source suffix : String) :
    Text.replace (renameInternal source suffix) (internalSymbol ++ "_" ++ suffix) internalSymbol =
      source := by
  rw [← String.toList_inj, toList_replace, toList_renameInternal, toList_suffixed_symbol,
    toList_internalSymbol]
  exact replaceAll_extension_cancel underscore_not_mem_internal _ _

theorem followed_renameInternal (h : Distinct suffix) (source : String) :
    Followed internalSymbol.toList ("_" ++ suffix).toList (renameInternal source suffix).toList := by
  have hunderscore : ("_" ++ suffix).toList = '_' :: suffix.toList := by
    rw [String.toList_append]
    rfl
  rw [toList_renameInternal, toList_suffixed_symbol, toList_internalSymbol, hunderscore]
  exact followed_replaceAll underscore_not_mem_internal
    (sealedEnd_extension underscore_not_mem_internal h.no_underscore h.not_initial)
    (followed_extension underscore_not_mem_internal h.no_underscore h.no_word) _

theorem occurrences_renameInternal (h : Distinct suffix) (source : String) :
    occurrences internalSymbol.toList (renameInternal source suffix).toList =
      occurrences internalSymbol.toList source.toList := by
  rw [toList_renameInternal, toList_suffixed_symbol, toList_internalSymbol]
  exact occurrences_replaceAll underscore_not_mem_internal
    (sealedEnd_extension underscore_not_mem_internal h.no_underscore h.not_initial) (by decide)
    (occurrences_extension underscore_not_mem_internal h.no_underscore h.no_word) _

end Rename

/-- Taking the suffix off the symbols of a build gives the text from before the renaming. With a suffix
that is distinct, such as every derived one, the build has as many symbols as that text, and the suffix
stands after each of them. -/
theorem rename_reversible (host block : String) {suffix : String}
    (hhost : Text.contains host spliceMarker = true) (hsuffix : suffix ≠ "") :
    ∃ build, splice host block suffix = .ok build ∧
      Text.replace build (internalSymbol ++ "_" ++ suffix) internalSymbol = insertBlock host block ∧
      (Distinct suffix →
        Followed internalSymbol.toList ("_" ++ suffix).toList build.toList ∧
        occurrences internalSymbol.toList build.toList =
          occurrences internalSymbol.toList (insertBlock host block).toList) ∧
      ∀ text, Distinct (deriveSuffix text) :=
  ⟨_, splice_eq_ok hhost hsuffix, replace_renameInternal _ _,
    fun h => ⟨followed_renameInternal h _, occurrences_renameInternal h _⟩, distinct_deriveSuffix⟩

/-- Symbols that look renamed already, and a suffix that would go on in one of them. -/
theorem rename_reversible_lookalikes :
    let host := "_internal_ab-- AUTOGEN_internal_"
    let block := "_internalab_internalabernal"
    ∃ build, Text.contains host spliceMarker = true ∧ "ab" ≠ "" ∧ Distinct "ab" ∧
      splice host block "ab" = .ok build ∧
      Text.replace build "_internal_ab" "_internal" =
        "_internal_ab_internalab_internalabernal_internal_" ∧
      Followed internalSymbol.toList "_ab".toList build.toList ∧
      occurrences internalSymbol.toList build.toList = 4 := by
  intro host block
  have hhost : Text.contains host spliceMarker = true := by decide
  have hsuffix : "ab" ≠ "" := by decide
  have hdistinct : Distinct "ab" := ⟨by decide, by decide, by decide⟩
  obtain ⟨build, hbuild, hback, hcounted, -⟩ := rename_reversible host block hhost hsuffix
  obtain ⟨hfollowed, hcount⟩ := hcounted hdistinct
  have hinserted : insertBlock host block = "_internal_ab_internalab_internalabernal_internal_" := by
    decide
  rw [hinserted] at hback hcount
  exact ⟨build, hhost, hsuffix, hdistinct, hbuild, hback, hfollowed, hcount.trans (by decide)⟩

end LuauBindings
