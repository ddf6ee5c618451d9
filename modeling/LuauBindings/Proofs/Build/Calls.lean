import LuauBindings.Proofs.Build.Rename

/-!
# The calls that are renamed

The internal symbol is foreign to a block (`foreign_internalSymbol`), but for the underscore before the name of a
type, which a name that begins with `internal` completes. If no class brings it in (`RenderContext.LacksSymbol`),
it is in the block once for every wrapper, as the end of the function that the wrapper calls.

A text with the symbol in it is the symbol between its gaps (`Text.gaps`). Renaming puts another symbol between
them, and turning strict checking off acts on each gap by itself.
-/

namespace LuauBindings

namespace Text
variable {α : Type} {p q front last : List Char} {before after : α → List Char} {l : List α}

/-- What stands around the symbol in `front`, then `before e`, the symbol and `after e` for each `e` of the list,
then `last`. -/
def gaps (before after : α → List Char) (front : List Char) (l : List α) (last : List Char) : List (List Char) :=
  match l with
  | [] => [front ++ last]
  | e :: l => (front ++ before e) :: gaps before after (after e) l last

theorem gaps_ne_nil (before after : α → List Char) (front : List Char) (l : List α) (last : List Char) :
    gaps before after front l last ≠ [] := by
  cases l <;> exact List.cons_ne_nil _ _

theorem length_gaps (before after : α → List Char) (front : List Char) (l : List α) (last : List Char) :
    (gaps before after front l last).length = l.length + 1 := by
  induction l generalizing front with
  | nil => rfl
  | cons e l ih => rw [gaps, List.length_cons, ih, List.length_cons]

theorem intercalate_gaps (p : List Char) (before after : α → List Char) (front : List Char) (l : List α)
    (last : List Char) : p.intercalate (gaps before after front l last) =
      front ++ ((l.flatMap fun e => before e ++ (p ++ after e)) ++ last) := by
  induction l generalizing front with
  | nil => rw [gaps, List.intercalate_singleton, List.flatMap_nil, List.nil_append]
  | cons e l ih =>
    obtain ⟨x, rest, hrest⟩ := List.exists_cons_of_ne_nil (gaps_ne_nil before after (after e) l last)
    rw [gaps, hrest, List.intercalate_cons_cons, ← hrest, ih, List.flatMap_cons]
    simp only [List.append_assoc]

theorem not_infix_of_mem_gaps {x : List Char} (hfront : SealedEnd q front) (hfrontLacks : ¬ q <:+: front)
    (hl : ∀ e ∈ l, SealedEnd q (after e)) (hlacks : ∀ e ∈ l, ¬ q <:+: before e ∧ ¬ q <:+: after e)
    (hlast : ¬ q <:+: last) (hx : x ∈ gaps before after front l last) : ¬ q <:+: x := by
  induction l generalizing front with
  | nil =>
    obtain rfl := List.mem_singleton.mp hx
    rw [hfront.apart.infix_append]
    exact not_or.mpr ⟨hfrontLacks, hlast⟩
  | cons e l ih =>
    obtain ⟨hafter, hl⟩ := List.forall_mem_cons.mp hl
    obtain ⟨⟨hbefore, hlacksAfter⟩, hlacks⟩ := List.forall_mem_cons.mp hlacks
    rcases List.mem_cons.mp hx with rfl | hx
    · rw [hfront.apart.infix_append]
      exact not_or.mpr ⟨hfrontLacks, hbefore⟩
    · exact ih hafter hlacksAfter hl hlacks hx

/-- Replacement in the gaps is replacement in their parts, if it does not act across the front of a gap. -/
theorem map_replaceAll_gaps (hp : p ≠ []) (r : List Char) (hfront : SealedEnd p front)
    (hl : ∀ e ∈ l, SealedEnd p (after e)) (last : List Char) :
    (gaps before after front l last).map (replaceAll p r) =
      gaps (fun e => replaceAll p r (before e)) (fun e => replaceAll p r (after e)) (replaceAll p r front) l
        (replaceAll p r last) := by
  induction l generalizing front with
  | nil => rw [gaps, List.map_singleton, hfront.apart.replaceAll_append hp, gaps]
  | cons e l ih =>
    obtain ⟨he, hl⟩ := List.forall_mem_cons.mp hl
    rw [gaps, List.map_cons, hfront.apart.replaceAll_append hp, ih he hl, gaps]

end Text

open Text (replaceAll pieces gaps)

theorem foreign_internalSymbol : Foreign internalSymbol where
  bars := by decide +kernel
  builtin := by decide +kernel
  first := ⟨'_', rfl, rfl, by decide⟩
  last := ⟨'l', rfl, rfl⟩
  plain := by decide

/-- The underscore before a name makes the symbol with a name that begins with the rest of it. -/
theorem holdsSymbol_underscore_append {s : String} :
    Holds internalSymbol ("_" ++ s) ↔ "internal".toList <+: s.toList ∨ Holds internalSymbol s := by
  have hunderscore : ("_" ++ s).toList = '_' :: s.toList := by
    rw [String.toList_append]
    rfl
  rw [holds_iff, hunderscore, List.infix_cons_iff, ← holds_iff, toList_internalSymbol, List.prefix_cons_inj]

theorem holdsSymbol_docComment {name description : String} : Holds internalSymbol (docComment name description) ↔
    Holds internalSymbol name ∨ Holds internalSymbol description := by
  have hdashes : Text.Bars internalSymbol.toList "-- ".toList := by decide
  have hbare : ¬ Holds internalSymbol "-- " := by decide
  have hline (line : List Char) :
      Holds internalSymbol ("-- " ++ String.ofList line) ↔ internalSymbol.toList <:+: line := by
    rw [holds_iff, String.toList_append, hdashes.infix_right, String.toList_ofList]
  rw [foreign_internalSymbol.holds_docComment, or_iff_right hbare]
  simp only [hline, foreign_internalSymbol.infix_lines_iff]

namespace RenderContext
variable {ctx : RenderContext} {comments : Bool} {name : String} {c : ClassDoc} {block : GeneratedBlock}

/-- The class `c` does not bring the internal symbol into the block under the name `name`. -/
structure LacksSymbol (ctx : RenderContext) (comments : Bool) (name : String) (c : ClassDoc) : Prop where
  className : ¬ Holds internalSymbol name
  property : ∀ e ∈ (ctx.mode.propertiesOf ctx.classes name c).entries,
    ¬ Holds internalSymbol e.1 ∧ ¬ Holds internalSymbol e.2
  description : comments = true → ¬ Holds internalSymbol c.description
  /-- The names of types in named mode. -/
  typeName : ctx.mode = .named → ¬ "internal".toList <+: name.toList ∧
    ∀ parent ∈ c.inherits, ¬ Holds internalSymbol parent ∧ ¬ "internal".toList <+: parent.toList

/-- The block up to its wrappers. -/
def front (ctx : RenderContext) : String :=
  "-- BEGIN AUTOGEN\n-- Types\n" ++ String.join ctx.declarations ++ "-- Code\n"

/-- The wrapper of a class up to the internal symbol. -/
def beforeSymbol (ctx : RenderContext) (comments : Bool) (e : String × ClassDoc) : String :=
  wrapperHead e.1 (ctx.mode.propsType e.1 (ctx.contentsOf e.1 e.2))
    (if comments then some e.2.description else none) ++ "Rover.drawInstance"

/-- The wrappers of the classes `l` after the front of the block and before `last`, with `symbol` in the place of the
internal symbol and `f` applied to all that stands around it. -/
def textAround (ctx : RenderContext) (comments : Bool) (f : String → String) (symbol : String)
    (l : List (String × ClassDoc)) (last : String) : String :=
  f ctx.front ++
    (String.join (l.map fun e => f (ctx.beforeSymbol comments e) ++ (symbol ++ f (wrapperTail e.1))) ++ f last)

/-- The block that calls the primitive with `symbol`. -/
def blockAround (ctx : RenderContext) (comments : Bool) (f : String → String) (symbol : String) : String :=
  ctx.textAround comments f symbol ctx.classes.entries "-- END AUTOGEN"

theorem lacksSymbol_iff : ctx.LacksSymbol comments name c ↔ ¬ Holds internalSymbol name ∧
    (∀ e ∈ (ctx.mode.propertiesOf ctx.classes name c).entries,
      ¬ Holds internalSymbol e.1 ∧ ¬ Holds internalSymbol e.2) ∧
    (comments = true → ¬ Holds internalSymbol c.description) ∧
    (ctx.mode = .named → ¬ "internal".toList <+: name.toList ∧
      ∀ parent ∈ c.inherits, ¬ Holds internalSymbol parent ∧ ¬ "internal".toList <+: parent.toList) :=
  ⟨fun ⟨h₁, h₂, h₃, h₄⟩ => ⟨h₁, h₂, h₃, h₄⟩, fun ⟨h₁, h₂, h₃, h₄⟩ => ⟨h₁, h₂, h₃, h₄⟩⟩

instance : Decidable (ctx.LacksSymbol comments name c) :=
  decidable_of_iff' _ lacksSymbol_iff

namespace LacksSymbol

theorem contentsOf (h : ctx.LacksSymbol comments name c) : ¬ Holds internalSymbol (ctx.contentsOf name c) := by
  rw [foreign_internalSymbol.holds_contentsOf]
  rintro (⟨e, he, hkey | htype⟩ | ⟨hmode, parent, hparent, hsymbol⟩)
  · exact (h.property e he).1 hkey
  · exact (h.property e he).2 htype
  · rw [holdsSymbol_underscore_append] at hsymbol
    exact hsymbol.elim ((h.typeName hmode).2 parent hparent).2 ((h.typeName hmode).2 parent hparent).1

theorem underscore_name (h : ctx.LacksSymbol comments name c) (hmode : ctx.mode = .named) :
    ¬ Holds internalSymbol ("_" ++ name) := by
  rw [holdsSymbol_underscore_append]
  exact not_or.mpr ⟨(h.typeName hmode).1, h.className⟩

theorem propsType (h : ctx.LacksSymbol comments name c) :
    ¬ Holds internalSymbol (ctx.mode.propsType name (ctx.contentsOf name c)) := by
  rw [foreign_internalSymbol.holds_propsType]
  cases hmode : ctx.mode with
  | named => exact h.underscore_name hmode
  | flattened => exact h.contentsOf

theorem beforeSymbol {e : String × ClassDoc} (h : ctx.LacksSymbol comments e.1 e.2) :
    ¬ Holds internalSymbol (ctx.beforeSymbol comments e) := by
  rw [RenderContext.beforeSymbol, foreign_internalSymbol.holds_append_fixed (by decide),
    foreign_internalSymbol.holds_wrapperHead]
  rintro (⟨d, hd, hsymbol⟩ | hsymbol | hsymbol)
  · rw [holdsSymbol_docComment] at hsymbol
    split at hd
    · next hcomments =>
      obtain rfl := Option.some.inj hd
      exact hsymbol.elim h.className (h.description hcomments)
    · cases hd
  · exact h.className hsymbol
  · exact h.propsType hsymbol

theorem front (h : ∀ e ∈ ctx.classes.entries, ctx.LacksSymbol comments e.1 e.2) :
    ¬ Holds internalSymbol ctx.front := by
  have hdeclarations := foreign_internalSymbol.holds_join fun d (hd : d ∈ ctx.declarations) =>
    foreign_internalSymbol.sealedEnd_declarations hd
  unfold RenderContext.front
  rw [foreign_internalSymbol.holds_append_fixed (by decide),
    foreign_internalSymbol.holds_fixed_append (by decide), hdeclarations,
    foreign_internalSymbol.holds_declarations]
  rintro ⟨hmode, e, he, hname | hcontents⟩
  · exact (h e he).underscore_name hmode hname
  · exact (h e he).contentsOf hcontents

end LacksSymbol

/-- The gaps of the symbol in `textAround`. -/
def gapsAround (ctx : RenderContext) (comments : Bool) (f : String → String)
    (l : List (String × ClassDoc)) (last : String) : List (List Char) :=
  gaps (fun e => (f (ctx.beforeSymbol comments e)).toList) (fun e => (f (wrapperTail e.1)).toList)
    (f ctx.front).toList l (f last).toList

theorem gapsAround_id (l : List (String × ClassDoc)) (last : String) : ctx.gapsAround comments id l last =
    gaps (fun e => (ctx.beforeSymbol comments e).toList) (fun e => (wrapperTail e.1).toList) ctx.front.toList l
      last.toList := by
  unfold gapsAround
  simp only [id]

theorem toList_textAround (f : String → String) (symbol : String) (l : List (String × ClassDoc)) (last : String) :
    (ctx.textAround comments f symbol l last).toList =
      symbol.toList.intercalate (ctx.gapsAround comments f l last) := by
  rw [gapsAround, Text.intercalate_gaps, textAround, String.toList_append, String.toList_append,
    String.toList_join, List.flatMap_map]
  simp only [String.toList_append]

theorem sealedEnd_front {p : String} (h : Text.SealedEnd p.toList "-- Code\n".toList) :
    Text.SealedEnd p.toList ctx.front.toList := by
  unfold front
  rw [String.toList_append]
  exact h.append _

theorem sealedEnd_wrapperTail {p : String} (h : Text.SealedEnd p.toList "end\n\n".toList) (name : String) :
    Text.SealedEnd p.toList (wrapperTail name).toList := by
  rw [wrapperTail, String.toList_append]
  exact h.append _

theorem not_infix_of_mem_gapsAround {l : List (String × ClassDoc)} {last : String} {x : List Char}
    (h : ∀ e ∈ ctx.classes.entries, ctx.LacksSymbol comments e.1 e.2) (hl : l ⊆ ctx.classes.entries)
    (hlast : ¬ Holds internalSymbol last) (hx : x ∈ ctx.gapsAround comments id l last) :
    ¬ internalSymbol.toList <:+: x := by
  have hfront := LacksSymbol.front h
  rw [holds_iff] at hfront hlast
  have hparts (e : String × ClassDoc) (he : e ∈ l) :
      ¬ internalSymbol.toList <:+: (ctx.beforeSymbol comments e).toList ∧
        ¬ internalSymbol.toList <:+: (wrapperTail e.1).toList := by
    have hclass := h e (hl he)
    rw [← holds_iff, ← holds_iff, foreign_internalSymbol.holds_wrapperTail]
    exact ⟨hclass.beforeSymbol, hclass.className⟩
  have hsealed : Text.SealedEnd internalSymbol.toList ctx.front.toList := sealedEnd_front (by decide)
  have htails (e : String × ClassDoc) (_ : e ∈ l) :
      Text.SealedEnd internalSymbol.toList (wrapperTail e.1).toList := sealedEnd_wrapperTail (by decide) e.1
  rw [gapsAround_id] at hx
  exact Text.not_infix_of_mem_gaps hsealed hfront htails hparts hlast hx

theorem gapsAround_unchecked (l : List (String × ClassDoc)) (last : String) :
    ctx.gapsAround comments unchecked l last = (ctx.gapsAround comments id l last).map
      (replaceAll strictDirective.toList nocheckDirective.toList) := by
  have hfront : Text.SealedEnd strictDirective.toList ctx.front.toList := sealedEnd_front (by decide)
  have htails (e : String × ClassDoc) (_ : e ∈ l) :
      Text.SealedEnd strictDirective.toList (wrapperTail e.1).toList := sealedEnd_wrapperTail (by decide) e.1
  rw [gapsAround_id, Text.map_replaceAll_gaps (by decide) _ hfront htails]
  simp only [gapsAround, toList_unchecked]

section Around
variable {f : String → String} {l : List (String × ClassDoc)} {last : String}

theorem pieces_textAround (h : ∀ x ∈ ctx.gapsAround comments f l last, ¬ internalSymbol.toList <:+: x) :
    pieces internalSymbol.toList (ctx.textAround comments f internalSymbol l last).toList =
      ctx.gapsAround comments f l last := by
  rw [toList_textAround]
  exact Text.pieces_intercalate (by decide) (by decide) (Text.gaps_ne_nil _ _ _ _ _) h

theorem occurrences_textAround
    (h : ∀ x ∈ ctx.gapsAround comments f l last, ¬ internalSymbol.toList <:+: x) :
    Text.occurrences internalSymbol.toList (ctx.textAround comments f internalSymbol l last).toList =
      l.length := by
  have hlength := Text.length_pieces (p := internalSymbol.toList) (by decide) (by decide)
    (ctx.textAround comments f internalSymbol l last).toList
  rw [pieces_textAround h, gapsAround, Text.length_gaps] at hlength
  exact (Nat.succ.inj hlength).symm

theorem renameInternal_textAround
    (h : ∀ x ∈ ctx.gapsAround comments f l last, ¬ internalSymbol.toList <:+: x) (suffix : String) :
    renameInternal (ctx.textAround comments f internalSymbol l last) suffix =
      ctx.textAround comments f (internalSymbol ++ "_" ++ suffix) l last := by
  rw [← String.toList_inj, toList_renameInternal, replaceAll, pieces_textAround h, toList_textAround]

theorem unchecked_textAround : unchecked (ctx.textAround comments id internalSymbol l last) =
    ctx.textAround comments unchecked internalSymbol l last := by
  -- no directive reaches into the symbol, so turning strict checking off acts on the gaps
  have hbars : Text.Bars strictDirective.toList internalSymbol.toList := by decide
  rw [← String.toList_inj, toList_unchecked, toList_textAround, toList_textAround,
    hbars.toSealed.replaceAll_intercalate (by decide), Text.replaceAll_of_not_infix hbars.absent,
    gapsAround_unchecked]

theorem not_infix_of_mem_gapsAround_unchecked
    (h : ∀ x ∈ ctx.gapsAround comments id l last, ¬ internalSymbol.toList <:+: x) :
    ∀ x ∈ ctx.gapsAround comments unchecked l last, ¬ internalSymbol.toList <:+: x := by
  rw [gapsAround_unchecked]
  intro x hx
  obtain ⟨gap, hgap, rfl⟩ := List.mem_map.mp hx
  exact Text.not_infix_replaceAll (by decide) (by decide) (by decide) (h gap hgap)

end Around

theorem stubs_eq_around (ctx : RenderContext) (comments : Bool) : ctx.stubs comments =
    ctx.classes.entries.map fun e => ctx.beforeSymbol comments e ++ (internalSymbol ++ wrapperTail e.1) := by
  refine List.map_congr_left fun e _ => ?_
  rw [wrapper_eq]
  unfold beforeSymbol drawFunction
  simp only [String.append_assoc]

theorem blockText_eq_blockAround (ctx : RenderContext) (comments : Bool) :
    blockText ctx.declarations (ctx.stubs comments) = ctx.blockAround comments id internalSymbol := by
  rw [stubs_eq_around]
  unfold blockText blockAround textAround front
  simp only [id, String.append_assoc]

theorem blockAround_of_split {l r : List (String × ClassDoc)} {e : String × ClassDoc}
    (hsplit : ctx.classes.entries = l ++ e :: r) :
    ∃ rest, ctx.blockAround comments id internalSymbol =
      ctx.textAround comments id internalSymbol l (ctx.beforeSymbol comments e) ++
        (internalSymbol ++ (wrapperTail e.1 ++ rest)) := by
  unfold blockAround textAround
  rw [hsplit, List.map_append, List.map_cons, String.join_append, String.join_cons]
  simp only [id, String.append_assoc]
  exact ⟨_, rfl⟩

/-- The symbol is in the block once for each class, as the end of the function that the wrapper of the class calls:
as many symbols stand before it as there are classes before this one. The renaming step of a build changes the block
at these places only. -/
theorem renames_calls_only (hblock : (ctx.buildBlock comments).2 = .ok block)
    (h : ∀ e ∈ ctx.classes.entries, ctx.LacksSymbol comments e.1 e.2) :
    (ctx.stubs comments = ctx.classes.entries.map fun e =>
      ctx.beforeSymbol comments e ++ (internalSymbol ++ wrapperTail e.1)) ∧
    block.text = ctx.blockAround comments id internalSymbol ∧
    Text.occurrences internalSymbol.toList block.text.toList = block.stubCount ∧
    (∀ l e r, ctx.classes.entries = l ++ e :: r →
      (∃ rest, block.text = ctx.textAround comments id internalSymbol l (ctx.beforeSymbol comments e) ++
        (internalSymbol ++ (wrapperTail e.1 ++ rest))) ∧
      Text.occurrences internalSymbol.toList
        (ctx.textAround comments id internalSymbol l (ctx.beforeSymbol comments e)).toList = l.length) ∧
    (∀ suffix, renameInternal block.text suffix =
      ctx.blockAround comments id (internalSymbol ++ "_" ++ suffix)) ∧
    (∀ host, insertBlock host block.text =
      (ctx.blockAround comments unchecked internalSymbol).intercalate ((hostPieces host).map unchecked)) ∧
    ∀ host suffix, Text.contains host spliceMarker = true → suffix ≠ "" →
      splice host block.text suffix =
        .ok ((ctx.blockAround comments unchecked (internalSymbol ++ "_" ++ suffix)).intercalate
          ((hostPieces host).map (finishText suffix))) := by
  have hframed := framed_of_buildBlock hblock
  obtain ⟨htext, hcount⟩ : block.text = ctx.blockAround comments id internalSymbol ∧
      block.stubCount = ctx.classes.entries.length := by
    obtain ⟨-, rfl⟩ := of_buildBlock hblock
    exact ⟨blockText_eq_blockAround ctx comments, length_stubs ctx comments⟩
  have hgaps : ∀ x ∈ ctx.gapsAround comments id ctx.classes.entries "-- END AUTOGEN",
      ¬ internalSymbol.toList <:+: x :=
    fun x => not_infix_of_mem_gapsAround h (List.Subset.refl _) (by decide)
  have hunchecked : unchecked block.text = ctx.blockAround comments unchecked internalSymbol := by
    rw [htext, blockAround, unchecked_textAround, blockAround]
  refine ⟨stubs_eq_around ctx comments, htext, ?_, fun l e r hsplit => ⟨?_, ?_⟩, fun suffix => ?_,
    fun host => ?_, fun host suffix hhost hsuffix => ?_⟩
  · rw [htext, hcount]
    exact occurrences_textAround hgaps
  · rw [htext]
    exact blockAround_of_split hsplit
  · -- the text up to a symbol has the gaps of the classes before it
    have hsub : l ⊆ ctx.classes.entries := hsplit ▸ List.subset_append_left l (e :: r)
    have he : e ∈ ctx.classes.entries := hsplit ▸ List.mem_append_right l (List.mem_cons_self ..)
    exact occurrences_textAround fun x => not_infix_of_mem_gapsAround h hsub (h e he).beforeSymbol
  · rw [htext]
    exact renameInternal_textAround hgaps suffix
  · rw [insertBlock_eq_intercalate hframed, hunchecked]
  · have hrenamed : renameInternal (ctx.blockAround comments unchecked internalSymbol) suffix =
        ctx.blockAround comments unchecked (internalSymbol ++ "_" ++ suffix) :=
      renameInternal_textAround (not_infix_of_mem_gapsAround_unchecked hgaps) suffix
    rw [splice_eq_ok hhost hsuffix, renameInternal_insertBlock hframed, ← hrenamed, ← hunchecked]
    rfl

/-- Two classes whose names and texts come close to the symbol. -/
def nearlyInternal : RenderContext where
  classes := .ofList
    [("_inter",
      { name := "_inter", properties := [⟨"_inter.internal", "int"⟩, ⟨"_inter. a_ ", "_intern"⟩]
        description := "internal\n_inter\nnal" }),
    ("Internal", { name := "Internal", inherits := ["_inter"], description := "--!strict" })]
  enums := .ofList ["_intern"]
  mode := .named

theorem renames_calls_only_near_misses :
    let host := "_internal-- AUTOGEN"
    ∃ block, (nearlyInternal.buildBlock true).2 = .ok block ∧
      (∀ e ∈ nearlyInternal.classes.entries, nearlyInternal.LacksSymbol true e.1 e.2) ∧
      Text.contains host spliceMarker = true ∧ "ab" ≠ "" ∧
      Text.occurrences internalSymbol.toList block.text.toList = 2 ∧
      splice host block.text "ab" =
        .ok ("_internal_ab" ++ nearlyInternal.blockAround true unchecked "_internal_ab") := by
  intro host
  have hlacks : ∀ e ∈ nearlyInternal.classes.entries, nearlyInternal.LacksSymbol true e.1 e.2 := by
    decide +kernel
  obtain ⟨block, hblock⟩ : ∃ block, (nearlyInternal.buildBlock true).2 = .ok block := by
    refine exists_block fun e he => ?_
    revert e
    simp only [collides_iff, CommentHoldsMarker]
    decide +kernel
  have hhost : Text.contains host spliceMarker = true := by decide
  have hsuffix : "ab" ≠ "" := by decide
  have hpieces : (hostPieces host).map (finishText "ab") = ["_internal_ab", ""] := by decide +kernel
  obtain ⟨-, -, hcount, -, -, -, hsplice⟩ := renames_calls_only hblock hlacks
  refine ⟨block, hblock, hlacks, hhost, hsuffix, ?_, ?_⟩
  · rw [hcount, (of_buildBlock hblock).2]
    exact length_stubs nearlyInternal true
  · have hsymbol : internalSymbol ++ "_" ++ "ab" = "_internal_ab" := by decide
    rw [hsplice host "ab" hhost hsuffix, hpieces, hsymbol, String.intercalate_cons_of_ne_nil (by decide),
      String.intercalate_singleton, String.append_empty]

end RenderContext

end LuauBindings
