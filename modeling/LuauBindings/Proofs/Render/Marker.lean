import LuauBindings.Proofs.Render.Foreign

/-!
# How the splice marker gets into a block

The splice marker is foreign to a block (`foreign_spliceMarker`), and it takes nothing of an underscore or of the
internal symbol either. So it is in the block only where it is in a text that comes from a class
(`RenderContext.Collides`), with one exception: the start of a comment line is also the start of the
marker, and a line of the description may supply the rest.
-/

namespace LuauBindings

/-- The splice marker stands in `s`. -/
def HoldsMarker (s : String) : Prop :=
  Text.contains s spliceMarker = true

instance (s : String) : Decidable (HoldsMarker s) :=
  inferInstanceAs (Decidable (Text.contains s spliceMarker = true))

theorem foreign_spliceMarker : Foreign spliceMarker where
  bars := by decide +kernel
  builtin := by decide +kernel
  first := ⟨'-', rfl, rfl, by decide⟩
  last := ⟨'N', rfl, rfl⟩
  plain := by decide

theorem holdsMarker_iff_holds {s : String} : HoldsMarker s ↔ Holds spliceMarker s :=
  Iff.rfl

theorem holdsMarker_underscore_append {s : String} : HoldsMarker ("_" ++ s) ↔ HoldsMarker s := by
  have hbars : Text.Bars spliceMarker.toList "_".toList := by decide
  rw [holdsMarker_iff_holds, holds_iff, String.toList_append, hbars.infix_right, ← holds_iff, holdsMarker_iff_holds]

section Wrappers

theorem holdsMarker_commentLine {line : List Char} :
    HoldsMarker ("-- " ++ String.ofList line) ↔
      "AUTOGEN".toList <+: line ∨ spliceMarker.toList <:+: line := by
  have hmarker : spliceMarker.toList = '-' :: '-' :: ' ' :: "AUTOGEN".toList := by decide
  have hdashes : "-- ".toList = ['-', '-', ' '] := by decide
  have hline : ("-- " ++ String.ofList line).toList = '-' :: '-' :: ' ' :: line := by
    rw [String.toList_append, String.toList_ofList (l := line), hdashes]
    rfl
  -- the marker begins with two dashes, so it cannot begin at the second dash or at the blank
  have hsecond : ¬ spliceMarker.toList <+: '-' :: ' ' :: line := by
    rw [hmarker, List.cons_prefix_cons, List.cons_prefix_cons]
    exact fun h => absurd h.2.1 (by decide)
  have hblank : ¬ spliceMarker.toList <+: ' ' :: line := by
    rw [hmarker, List.cons_prefix_cons]
    exact fun h => absurd h.1 (by decide)
  have hfront : spliceMarker.toList <+: '-' :: '-' :: ' ' :: line ↔ "AUTOGEN".toList <+: line := by
    rw [hmarker]
    simp only [List.cons_prefix_cons, true_and]
  rw [holdsMarker_iff_holds, holds_iff, hline, List.infix_cons_iff, List.infix_cons_iff, List.infix_cons_iff, hfront,
    or_iff_right hsecond, or_iff_right hblank]

/-- A comment with this description has the marker from it: as a part of the description, or from the
start of a comment line on. -/
def CommentHoldsMarker (description : String) : Prop :=
  HoldsMarker description ∨
    ∃ line ∈ Text.lines (Text.trim description.toList), "AUTOGEN".toList <+: line

instance (description : String) : Decidable (CommentHoldsMarker description) :=
  inferInstanceAs (Decidable (HoldsMarker description ∨
    ∃ line ∈ Text.lines (Text.trim description.toList), "AUTOGEN".toList <+: line))

theorem holdsMarker_commentLines {description : String} :
    (∃ line ∈ Text.lines (Text.trim description.toList), HoldsMarker ("-- " ++ String.ofList line)) ↔
      CommentHoldsMarker description := by
  rw [CommentHoldsMarker, holdsMarker_iff_holds, ← foreign_spliceMarker.infix_lines_iff]
  simp only [holdsMarker_commentLine, and_or_left, exists_or]
  exact or_comm

theorem holdsMarker_docComment {name description : String} :
    HoldsMarker (docComment name description) ↔ CommentHoldsMarker description ∨ HoldsMarker name := by
  have hbare : ¬ Holds spliceMarker "-- " := by decide
  rw [holdsMarker_iff_holds, foreign_spliceMarker.holds_docComment, or_iff_right hbare]
  exact or_comm.trans (or_congr_left holdsMarker_commentLines)

theorem holdsMarker_wrapper {name propsType : String} {description : Option String} :
    HoldsMarker (wrapper name propsType description) ↔
      (∃ d, description = some d ∧ CommentHoldsMarker d) ∨ HoldsMarker name ∨
        HoldsMarker propsType := by
  have hdraw : Text.Bars spliceMarker.toList drawFunction.toList := by decide
  rw [holdsMarker_iff_holds, foreign_spliceMarker.holds_wrapper hdraw]
  simp only [← holdsMarker_iff_holds, holdsMarker_docComment]
  grind

end Wrappers

namespace RenderContext
variable {ctx : RenderContext} {comments : Bool} {name : String} {c : ClassDoc}

theorem holdsMarker_contentsOf : HoldsMarker (ctx.contentsOf name c) ↔
    (∃ e ∈ (ctx.mode.propertiesOf ctx.classes name c).entries, HoldsMarker e.1 ∨ HoldsMarker e.2) ∨
      ctx.mode = .named ∧ ∃ parent ∈ c.inherits, HoldsMarker parent := by
  rw [holdsMarker_iff_holds, foreign_spliceMarker.holds_contentsOf]
  simp only [← holdsMarker_iff_holds, holdsMarker_underscore_append]

/-- The class `c` brings the marker into the block under the name `name`. -/
inductive Collides (ctx : RenderContext) (comments : Bool) (name : String) (c : ClassDoc) : Prop
  | name (h : HoldsMarker name)
  /-- A property has the marker in its key or in its type. -/
  | property (e : String × String)
      (he : e ∈ (ctx.mode.propertiesOf ctx.classes name c).entries)
      (h : HoldsMarker e.1 ∨ HoldsMarker e.2)
  | parent (hmode : ctx.mode = .named) (parent : String) (hp : parent ∈ c.inherits)
      (h : HoldsMarker parent)
  | description (hcomments : comments = true) (h : HoldsMarker c.description)
  /-- A comment line becomes the marker. -/
  | line (hcomments : comments = true) (line : List Char)
      (hl : line ∈ Text.lines (Text.trim c.description.toList)) (h : "AUTOGEN".toList <+: line)

theorem collides_iff : ctx.Collides comments name c ↔
    (comments = true ∧ CommentHoldsMarker c.description) ∨ HoldsMarker name ∨
      HoldsMarker (ctx.contentsOf name c) := by
  rw [holdsMarker_contentsOf, CommentHoldsMarker]
  constructor
  · rintro (h | ⟨e, he, h⟩ | ⟨hmode, parent, hp, h⟩ | ⟨hcomments, h⟩ | ⟨hcomments, line, hl, h⟩)
    · exact .inr (.inl h)
    · exact .inr (.inr (.inl ⟨e, he, h⟩))
    · exact .inr (.inr (.inr ⟨hmode, parent, hp, h⟩))
    · exact .inl ⟨hcomments, .inl h⟩
    · exact .inl ⟨hcomments, .inr ⟨line, hl, h⟩⟩
  · rintro (⟨hcomments, h | ⟨line, hl, h⟩⟩ | h | ⟨e, he, h⟩ | ⟨hmode, parent, hp, h⟩)
    · exact .description hcomments h
    · exact .line hcomments line hl h
    · exact .name h
    · exact .property e he h
    · exact .parent hmode parent hp h

instance (ctx : RenderContext) (comments : Bool) (name : String) (c : ClassDoc) :
    Decidable (ctx.Collides comments name c) :=
  decidable_of_iff _ collides_iff.symm

theorem Collides.of_bare (h : ctx.Collides false name c) : ctx.Collides comments name c := by
  rw [collides_iff] at h ⊢
  exact .inr (h.resolve_left fun hcomment => Bool.false_ne_true hcomment.1)

theorem holdsMarker_wrapper_iff {propsType : String} :
    HoldsMarker (wrapper name propsType (if comments then some c.description else none)) ↔
      (comments = true ∧ CommentHoldsMarker c.description) ∨ HoldsMarker name ∨
        HoldsMarker propsType := by
  rw [holdsMarker_wrapper]
  cases comments <;> simp

/-- In named mode the type of a class is in its declaration, and its wrapper only names it. -/
theorem holdsMarker_class_named :
    HoldsMarker name ∨ HoldsMarker (ctx.contentsOf name c) ∨
      HoldsMarker (wrapper name (propsTypeName name) (if comments then some c.description else none)) ↔
    ctx.Collides comments name c := by
  have hname : HoldsMarker (propsTypeName name) ↔ HoldsMarker name :=
    foreign_spliceMarker.holds_propsTypeName.trans holdsMarker_underscore_append
  rw [holdsMarker_wrapper_iff, hname, collides_iff]
  grind

theorem holdsMarker_block_iff : HoldsMarker (blockText ctx.declarations (ctx.stubs comments)) ↔
    ∃ e ∈ ctx.classes.entries, ctx.Collides comments e.1 e.2 := by
  rw [holdsMarker_iff_holds, foreign_spliceMarker.holds_block, foreign_spliceMarker.holds_declarations]
  simp only [← holdsMarker_iff_holds, holdsMarker_underscore_append]
  cases hmode : ctx.mode with
  | named =>
    rw [stubs_named hmode, and_iff_right rfl]
    simp only [List.mem_map, exists_exists_and_eq_and]
    rw [← exists_or]
    exact exists_congr fun e => by rw [← and_or_left, or_assoc, holdsMarker_class_named]
  | flattened =>
    -- no declarations here: the type of a class is in its wrapper
    have hmodes : TypeMode.flattened ≠ .named := by decide
    rw [stubs_flattened hmode, or_iff_right fun h => hmodes h.1]
    simp only [List.mem_map, exists_exists_and_eq_and]
    refine exists_congr fun e => and_congr_right fun _ => ?_
    rw [collides_iff, contentsOf_flattened hmode, holdsMarker_wrapper_iff]

theorem exists_block (h : ∀ e ∈ ctx.classes.entries, ¬ ctx.Collides comments e.1 e.2) :
    ∃ block, (ctx.buildBlock comments).2 = .ok block := by
  have hmarker : Text.contains (blockText ctx.declarations (ctx.stubs comments)) spliceMarker = false := by
    rw [Bool.eq_false_iff]
    intro hholds
    obtain ⟨e, he, hcollides⟩ := holdsMarker_block_iff.mp hholds
    exact h e he hcollides
  rw [block_eq_ofParts, GeneratedBlock.ofParts_eq_ok hmarker]
  exact ⟨_, rfl⟩

/-- Building a block never asks for a class that is not there, and it fails exactly if a class brings
the splice marker into the text. -/
theorem buildBlock_fails_exactly_on_collision (ctx : RenderContext) (comments : Bool) :
    (∀ name, (ctx.buildBlock comments).2 ≠ .error (.unknownClass name)) ∧
    ((ctx.buildBlock comments).2 = .error .holdsMarker ↔
      ∃ e ∈ ctx.classes.entries, ctx.Collides comments e.1 e.2) := by
  rw [block_eq_ofParts]
  refine ⟨fun name h => ?_, ?_⟩
  · have hfault := (GeneratedBlock.ofParts_eq_error_iff.mp h).2
    cases hfault
  · rw [GeneratedBlock.ofParts_eq_error_iff, ← holdsMarker_block_iff]
    exact and_iff_left rfl

end RenderContext

end LuauBindings
