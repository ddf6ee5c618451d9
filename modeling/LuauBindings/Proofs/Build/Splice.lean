import LuauBindings.Proofs.Build.Suffix
import LuauBindings.Proofs.Render.Marker
import LuauBindings.Proofs.Text.Replacement

/-!
# Splicing piece by piece

A block begins and ends with marker lines of its own (`Framed`). They are sealed against the splice
marker, the strict directive and the internal symbol, and they come through the replacements, so no
replacement acts across an end of the block: the build is the block, finished by itself, between the
pieces of the host, each finished by itself.

For the same reason nothing that is put in brings the marker or the directive back, neither by itself nor
together with the text around it.
-/

namespace LuauBindings
open Text (replaceAll pieces Bars Sealed SealedStart SealedEnd)

/-- A text with strict checking off. -/
def unchecked (text : String) : String :=
  Text.replace text strictDirective nocheckDirective

/-- A text with strict checking off and its internal symbols renamed. -/
def finishText (suffix text : String) : String :=
  renameInternal (unchecked text) suffix

/-- `content` is the host with the block in the place of every splice marker, with strict checking off, and with
the suffix after every internal symbol. -/
def Spliced (host block suffix content : String) : Prop :=
  ∃ marked loose, Text.Replaced "-- AUTOGEN" block host marked ∧
    Text.Replaced "--!strict\n"
      "--!nocheck\n-- Typechecking is disabled due to the sheer number of autogen types\n" marked loose ∧
    Text.Replaced "_internal" ("_internal_" ++ suffix) loose content

/-- The parts of the host between its splice markers. -/
def hostPieces (host : String) : List String :=
  (pieces spliceMarker.toList host.toList).map String.ofList

/-- The first lines of a block. -/
def blockHead : List Char :=
  "-- BEGIN AUTOGEN\n-- Types\n".toList

/-- The last line of a block. -/
def blockFoot : List Char :=
  "-- END AUTOGEN".toList

/-- The text begins and ends as a block does. -/
def Framed (text : List Char) : Prop :=
  ∃ middle, text = blockHead ++ (middle ++ blockFoot)

namespace Framed
variable {p text : List Char}

theorem sealed (h : Framed text) (hhead : SealedStart p blockHead) (hfoot : SealedEnd p blockFoot) :
    Sealed p text := by
  obtain ⟨middle, rfl⟩ := h
  rw [← List.append_assoc]
  exact Sealed.of_ends hhead hfoot middle

/-- The ends of a block come through a replacement that they bar. -/
theorem replaceAll (h : Framed text) (hp : p ≠ []) (hhead : Bars p blockHead)
    (hfoot : Bars p blockFoot) (r : List Char) : Framed (Text.replaceAll p r text) := by
  obtain ⟨middle, rfl⟩ := h
  refine ⟨Text.replaceAll p r middle, ?_⟩
  rw [hhead.stop.apart.replaceAll_append hp, hfoot.start.apart.replaceAll_append hp,
    Text.replaceAll_of_not_infix hhead.absent, Text.replaceAll_of_not_infix hfoot.absent]

end Framed

section Block
variable {ctx : RenderContext} {comments : Bool} {block : GeneratedBlock}

theorem framed_blockText (declarations wrappers : List String) :
    Framed (RenderContext.blockText declarations wrappers).toList := by
  refine ⟨(String.join declarations ++ "-- Code\n" ++ String.join wrappers).toList, ?_⟩
  unfold RenderContext.blockText blockHead blockFoot
  simp only [String.toList_append, List.append_assoc]

theorem framed_of_buildBlock (h : (ctx.buildBlock comments).2 = .ok block) :
    Framed block.text.toList := by
  rw [(RenderContext.of_buildBlock h).2]
  exact framed_blockText _ _

theorem not_contains_of_buildBlock (h : (ctx.buildBlock comments).2 = .ok block) :
    ¬ spliceMarker.toList <:+: block.text.toList := by
  obtain ⟨hmarker, hblock⟩ := RenderContext.of_buildBlock h
  rw [hblock, ← Text.contains_iff, hmarker]
  exact Bool.false_ne_true

end Block

section Splice
variable {host block suffix : String}

theorem splice_eq_ok (hhost : Text.contains host spliceMarker = true) (hsuffix : suffix ≠ "") :
    splice host block suffix = .ok (renameInternal (insertBlock host block) suffix) := by
  have hne : suffix.isEmpty = false := by
    rw [Bool.eq_false_iff, ne_eq, String.isEmpty_iff]
    exact hsuffix
  simp [splice, hhost, hne]

theorem splice_eq_error (hhost : Text.contains host spliceMarker = false) :
    splice host block suffix = .error .hostLacksMarker := by
  simp [splice, hhost]

theorem of_splice_eq_ok {source : String} (h : splice host block suffix = .ok source) :
    Text.contains host spliceMarker = true ∧ suffix ≠ "" ∧
      source = renameInternal (insertBlock host block) suffix := by
  unfold splice at h
  split at h
  · cases h
  · next hhost =>
    split at h
    · cases h
    · next hsuffix =>
      refine ⟨by simpa using hhost, ?_, (Except.ok.inj h).symm⟩
      rintro rfl
      exact hsuffix rfl

theorem spliced_of_splice {source : String} (h : splice host block suffix = .ok source) :
    Spliced host block suffix source := by
  obtain ⟨-, -, rfl⟩ := of_splice_eq_ok h
  have hrenamed := Text.replaced_replace (p := internalSymbol) (by decide) (insertBlock host block)
    (internalSymbol ++ "_" ++ suffix)
  exact ⟨_, _, Text.replaced_replace (by decide) host block, Text.replaced_replace (by decide) _ _, hrenamed⟩

theorem toList_renameInternal (source suffix : String) : (renameInternal source suffix).toList =
    replaceAll internalSymbol.toList (internalSymbol ++ "_" ++ suffix).toList source.toList :=
  Text.toList_replace _ _ _

theorem toList_insertBlock (host block : String) : (insertBlock host block).toList =
    replaceAll strictDirective.toList nocheckDirective.toList
      (replaceAll spliceMarker.toList block.toList host.toList) := by
  rw [insertBlock, Text.toList_replace, Text.toList_replace]

theorem intercalate_hostPieces (host : String) : spliceMarker.intercalate (hostPieces host) = host := by
  rw [hostPieces, Text.intercalate_map_ofList, Text.intercalate_pieces (by decide), String.ofList_toList]

theorem not_contains_of_mem_hostPieces {piece : String} (h : piece ∈ hostPieces host) :
    Text.contains piece spliceMarker = false := by
  obtain ⟨x, hx, rfl⟩ := List.mem_map.mp h
  rw [Bool.eq_false_iff, ne_eq, Text.contains_iff, String.toList_ofList]
  exact Text.not_infix_of_mem_pieces (by decide) hx

theorem toList_unchecked (text : String) : (unchecked text).toList =
    replaceAll strictDirective.toList nocheckDirective.toList text.toList :=
  Text.toList_replace _ _ _

theorem toList_finishText (suffix text : String) : (finishText suffix text).toList =
    replaceAll internalSymbol.toList (internalSymbol ++ "_" ++ suffix).toList (unchecked text).toList :=
  toList_renameInternal _ _

theorem insertBlock_eq_intercalate (hframed : Framed block.toList) :
    insertBlock host block = (unchecked block).intercalate ((hostPieces host).map unchecked) := by
  have hstrict : Sealed strictDirective.toList block.toList :=
    hframed.sealed (by decide) (by decide)
  have hpieces : replaceAll spliceMarker.toList block.toList host.toList =
      block.toList.intercalate (pieces spliceMarker.toList host.toList) := rfl
  rw [← String.toList_inj, toList_insertBlock, hpieces, hstrict.replaceAll_intercalate (by decide),
    String.toList_intercalate, hostPieces, toList_unchecked]
  simp only [List.map_map, Function.comp_def, toList_unchecked, String.toList_ofList]

theorem renameInternal_insertBlock (hframed : Framed block.toList) :
    renameInternal (insertBlock host block) suffix =
      (finishText suffix block).intercalate ((hostPieces host).map (finishText suffix)) := by
  -- turning strict checking off keeps the ends of the block, and these are sealed against the symbol
  have hchecked : Framed (unchecked block).toList := by
    rw [toList_unchecked]
    exact hframed.replaceAll (by decide) (by decide) (by decide) _
  have hinternal : Sealed internalSymbol.toList (unchecked block).toList :=
    hchecked.sealed (by decide) (by decide)
  rw [insertBlock_eq_intercalate hframed, ← String.toList_inj, toList_renameInternal,
    String.toList_intercalate, hinternal.replaceAll_intercalate (by decide), String.toList_intercalate,
    toList_finishText]
  simp only [List.map_map, Function.comp_def, toList_finishText]

/-- The symbol with a suffix is barred from every text that begins with a dash and has no underscore, if
the suffix has no dash. -/
theorem bars_suffixed_symbol {p : List Char} (hp : p.head? = some '-') (hunderscore : '_' ∉ p)
    (hdash : '-' ∉ suffix.toList) : Bars p (internalSymbol ++ "_" ++ suffix).toList := by
  have hsymbol : (internalSymbol ++ "_" ++ suffix).toList =
      '_' :: ("internal_".toList ++ suffix.toList) := by
    rw [String.toList_append]
    rfl
  have hno : '-' ∉ '_' :: ("internal_".toList ++ suffix.toList) := by
    have hfixed : '-' ∉ '_' :: "internal_".toList := by decide
    rw [← List.cons_append, List.mem_append, not_or]
    exact ⟨hfixed, hdash⟩
  rw [hsymbol]
  exact {
    start := Text.sealedStart_cons (fun h => hunderscore (List.mem_of_mem_tail h)) _
    stop := Text.sealedEnd_of_not_mem hp hno (List.mem_cons_self ..) hunderscore
    absent := fun h => hno (h.subset (List.mem_of_mem_head? hp)) }

/-- Renaming the internal symbols does not bring such a text back. -/
theorem not_contains_of_inserted {p source : String} (hp : p.toList.head? = some '-')
    (hunderscore : '_' ∉ p.toList) (hinserted : ¬ p.toList <:+: (insertBlock host block).toList)
    (hdash : '-' ∉ suffix.toList) (h : splice host block suffix = .ok source) :
    Text.contains source p = false := by
  have hne : p.toList ≠ [] := by
    intro hempty
    rw [hempty] at hp
    cases hp
  have hbars := bars_suffixed_symbol hp hunderscore hdash
  rw [(of_splice_eq_ok h).2.2, Bool.eq_false_iff, ne_eq, Text.contains_iff, toList_renameInternal]
  exact Text.not_infix_replaceAll hbars hne (by decide) hinserted

/-- Nothing that is done to a host with a block in it brings the splice marker back. -/
theorem not_contains_of_splice {source : String} (hframed : Framed block.toList)
    (hblock : ¬ spliceMarker.toList <:+: block.toList) (hdash : '-' ∉ suffix.toList)
    (h : splice host block suffix = .ok source) : Text.contains source spliceMarker = false := by
  have hinserted : ¬ spliceMarker.toList <:+: replaceAll spliceMarker.toList block.toList host.toList :=
    Text.not_infix_replaceAll_self ⟨hframed.sealed (by decide) (by decide), hblock⟩ (by decide) _
  refine not_contains_of_inserted (by decide) (by decide) ?_ hdash h
  rw [toList_insertBlock]
  exact Text.not_infix_replaceAll (by decide) (by decide) (by decide) hinserted

theorem not_strict_of_splice {source : String} (hdash : '-' ∉ suffix.toList)
    (h : splice host block suffix = .ok source) : Text.contains source strictDirective = false := by
  refine not_contains_of_inserted (by decide) (by decide) ?_ hdash h
  rw [toList_insertBlock]
  exact Text.not_infix_replaceAll_self (by decide) (by decide) _

end Splice

section Results
variable {ctx : RenderContext} {comments : Bool} {block : GeneratedBlock} {host suffix : String}

/-- The build is the finished block between the finished pieces of the host, once for every marker. -/
theorem splice_piecewise (hblock : (ctx.buildBlock comments).2 = .ok block)
    (hhost : Text.contains host spliceMarker = true) (hsuffix : suffix ≠ "") :
    splice host block.text suffix =
      .ok ((finishText suffix block.text).intercalate ((hostPieces host).map (finishText suffix))) ∧
    spliceMarker.intercalate (hostPieces host) = host ∧
    (∀ piece ∈ hostPieces host, Text.contains piece spliceMarker = false) ∧
    (hostPieces host).length = Text.occurrences spliceMarker.toList host.toList + 1 := by
  refine ⟨?_, intercalate_hostPieces host, fun _ => not_contains_of_mem_hostPieces, ?_⟩
  · rw [splice_eq_ok hhost hsuffix, renameInternal_insertBlock (framed_of_buildBlock hblock)]
  · rw [hostPieces, List.length_map]
    exact Text.length_pieces (by decide) (by decide) host.toList

/-- A class whose comment has a strict directive at the end of a line and an internal symbol. -/
def commentedFrame : RenderContext where
  classes := .ofList [("Frame", { name := "Frame", description := "--!strict\nfor _internal use" })]
  enums := .ofList []
  mode := .named

theorem exists_block_commentedFrame : ∃ block, (commentedFrame.buildBlock true).2 = .ok block :=
  RenderContext.exists_block (by decide +kernel)

theorem splice_piecewise_adjacent_markers :
    let host := "--!strict\n-- AUTOGEN-- AUTOGEN_internal"
    ∃ block, (commentedFrame.buildBlock true).2 = .ok block ∧
      Text.contains host spliceMarker = true ∧ "int" ≠ "" ∧
      splice host block.text "int" =
        .ok ((finishText "int" block.text).intercalate [nocheckDirective, "", "_internal_int"]) := by
  intro host
  obtain ⟨block, hblock⟩ := exists_block_commentedFrame
  have hhost : Text.contains host spliceMarker = true := by decide
  have hsuffix : "int" ≠ "" := by decide
  have hpieces : (hostPieces host).map (finishText "int") = [nocheckDirective, "", "_internal_int"] := by
    decide +kernel
  have hsplice := (splice_piecewise hblock hhost hsuffix).1
  rw [hpieces] at hsplice
  exact ⟨block, hblock, hhost, hsuffix, hsplice⟩

/-- A build holds neither the splice marker nor the strict directive, so it is no host itself. -/
theorem build_is_no_host (hblock : (ctx.buildBlock comments).2 = .ok block)
    (hhost : Text.contains host spliceMarker = true) (hsuffix : Admissible suffix) :
    ∃ build, splice host block.text suffix = .ok build ∧
      Text.contains build spliceMarker = false ∧ Text.contains build strictDirective = false ∧
      ∀ block' suffix', splice build block' suffix' = .error .hostLacksMarker := by
  have hbuild : splice host block.text suffix = .ok _ := splice_eq_ok hhost hsuffix.ne_empty
  have hnohost := not_contains_of_splice (framed_of_buildBlock hblock) (not_contains_of_buildBlock hblock)
    hsuffix.dash_not_mem hbuild
  exact ⟨_, hbuild, hnohost, not_strict_of_splice hsuffix.dash_not_mem hbuild,
    fun _ _ => splice_eq_error hnohost⟩

theorem build_is_no_host_strict_word :
    let host := "--!strict\n-- AUTOGEN-- AUTOGEN_internal"
    ∃ block build, (commentedFrame.buildBlock true).2 = .ok block ∧
      Text.contains host spliceMarker = true ∧ Admissible "strict\n" ∧
      splice host block.text "strict\n" = .ok build ∧
      Text.contains build spliceMarker = false ∧ Text.contains build strictDirective = false ∧
      splice build block.text "strict\n" = .error .hostLacksMarker := by
  intro host
  obtain ⟨block, hblock⟩ := exists_block_commentedFrame
  have hhost : Text.contains host spliceMarker = true := by decide
  have hsuffix : Admissible "strict\n" := .given (checkSuffix_eq_ok_iff.mpr (by decide))
  obtain ⟨build, hbuild, hmarker, hstrict, hagain⟩ := build_is_no_host hblock hhost hsuffix
  exact ⟨block, build, hblock, hhost, hsuffix, hbuild, hmarker, hstrict, hagain _ _⟩

end Results

end LuauBindings
