import LuauBindings.Proofs.Render.Marker

/-!
# Comments leave the code alone

The comment above a wrapper consists of whole lines, and each of them begins as a comment line: the description
is cut at its newlines, and nothing else in a comment has one if the name of the class has none. The text before a
wrapper ends with a line, so the lines of the comment are lines of the block, and a block with comments differs
from one without only in comment lines.
-/

namespace LuauBindings
open Text (lines)
variable {name description propsType : String} {comments : Bool}

/-- The lines of a text that are no comment lines. -/
def codeLines (s : List Char) : List (List Char) :=
  (lines s).filter fun line => !"-- ".toList.isPrefixOf line

/-- The text without its comment lines. -/
def withoutComments (text : String) : String :=
  String.ofList (['\n'].intercalate (codeLines text.toList))

theorem codeLines_append (s t : List Char) : codeLines (s ++ '\n' :: t) = codeLines s ++ codeLines t := by
  rw [codeLines, Text.lines_append, List.filter_append]
  rfl

theorem codeLines_intercalate {l : List (List Char)} (hl : l ≠ [])
    (h : ∀ line ∈ l, '\n' ∉ line ∧ "-- ".toList <+: line) : codeLines (['\n'].intercalate l) = [] := by
  rw [codeLines, Text.lines_intercalate (fun line hline => (h line hline).1) hl]
  refine List.filter_eq_nil_iff.mpr fun line hline hkept => ?_
  rw [List.isPrefixOf_iff_prefix.mpr (h line hline).2] at hkept
  cases hkept

section Comment

theorem of_mem_commentLines {line : String} (hname : '\n' ∉ name.toList)
    (h : line ∈ commentLines name description) : '\n' ∉ line.toList ∧ "-- ".toList <+: line.toList := by
  simp only [commentLines, List.cons_append, List.nil_append, List.mem_cons, List.mem_map] at h
  rcases h with rfl | rfl | ⟨shown, hshown, rfl⟩
  · exact ⟨by simp [hname], by simp [List.cons_prefix_cons]⟩
  · decide
  · have hfree : '\n' ∉ shown := Text.not_mem_of_mem_fields hshown
    exact ⟨by simp [hfree], by simp [List.cons_prefix_cons]⟩

theorem codeLines_docComment_append (hname : '\n' ∉ name.toList) (description : String) (t : List Char) :
    codeLines ((docComment name description).toList ++ t) = codeLines t := by
  have hlist : (docComment name description).toList ++ t =
      ['\n'].intercalate ((commentLines name description).map String.toList) ++ '\n' :: t := by
    rw [docComment_eq, String.toList_append, String.toList_intercalate, List.append_assoc]
    rfl
  have hne : (commentLines name description).map String.toList ≠ [] := by simp [commentLines]
  rw [hlist, codeLines_append, codeLines_intercalate hne, List.nil_append]
  intro line hline
  obtain ⟨line, hmem, rfl⟩ := List.mem_map.mp hline
  exact of_mem_commentLines hname hmem

theorem wrapper_some (name propsType description : String) :
    wrapper name propsType (some description) = docComment name description ++ wrapper name propsType none := by
  rw [wrapper_eq, wrapper_eq, wrapperHead, wrapperHead, Option.map_some, Option.getD_some, Option.map_none,
    Option.getD_none, String.empty_append]
  simp only [String.append_assoc]

theorem exists_wrapper_eq_append_newline (name propsType : String) (description : Option String) :
    ∃ body, (wrapper name propsType description).toList = body ++ ['\n'] := by
  refine ⟨(wrapperHead name propsType description ++ drawFunction ++
    ("(" ++ Text.Literal.encode name ++ ", props, content or function() end)\n" ++ "end\n")).toList, ?_⟩
  have hend : "end\n\n" = "end\n" ++ "\n" := by decide
  rw [wrapper_eq, wrapperTail, hend]
  simp only [String.toList_append, List.append_assoc]
  rfl

theorem codeLines_wrapper_append (hname : '\n' ∉ name.toList) {t t' : List Char}
    (ht : codeLines t = codeLines t') :
    codeLines ((wrapper name propsType (some description)).toList ++ t) =
      codeLines ((wrapper name propsType none).toList ++ t') := by
  obtain ⟨body, hbody⟩ := exists_wrapper_eq_append_newline name propsType none
  rw [wrapper_some, String.toList_append, List.append_assoc, codeLines_docComment_append hname, hbody,
    List.append_assoc, List.append_assoc, List.singleton_append, List.singleton_append, codeLines_append,
    codeLines_append, ht]

end Comment

namespace RenderContext
variable {ctx : RenderContext} {commented : GeneratedBlock}

theorem codeLines_stubs (hnames : ∀ name ∈ ctx.classes.keys, '\n' ∉ name.toList) (t : List Char) :
    codeLines ((String.join (ctx.stubs true)).toList ++ t) =
      codeLines ((String.join (ctx.stubs false)).toList ++ t) := by
  let commented (e : String × ClassDoc) : String :=
    wrapper e.1 (ctx.mode.propsType e.1 (ctx.contentsOf e.1 e.2)) (some e.2.description)
  let bare (e : String × ClassDoc) : String :=
    wrapper e.1 (ctx.mode.propsType e.1 (ctx.contentsOf e.1 e.2)) none
  have hstubs (l : List (String × ClassDoc)) (hl : ∀ e ∈ l, '\n' ∉ e.1.toList) :
      codeLines ((String.join (l.map commented)).toList ++ t) =
        codeLines ((String.join (l.map bare)).toList ++ t) := by
    induction l with
    | nil => rw [List.map_nil, List.map_nil]
    | cons e l ih =>
      obtain ⟨he, hl⟩ := List.forall_mem_cons.mp hl
      rw [List.map_cons, List.map_cons, String.join_cons, String.join_cons, String.toList_append,
        String.toList_append, List.append_assoc, List.append_assoc]
      exact codeLines_wrapper_append he (ih hl)
  exact hstubs ctx.classes.entries fun e he => hnames e.1 (List.mem_map_of_mem he)

theorem codeLines_blockText (hnames : ∀ name ∈ ctx.classes.keys, '\n' ∉ name.toList) (declarations : List String) :
    codeLines (blockText declarations (ctx.stubs true)).toList =
      codeLines (blockText declarations (ctx.stubs false)).toList := by
  have hlist (wrappers : List String) : (blockText declarations wrappers).toList =
      "-- BEGIN AUTOGEN\n-- Types\n".toList ++ ((String.join declarations).toList ++ "-- Code".toList) ++
        '\n' :: ((String.join wrappers).toList ++ "-- END AUTOGEN".toList) := by
    have hcode : "-- Code\n".toList = "-- Code".toList ++ ['\n'] := by decide
    unfold blockText
    rw [String.toList_append, String.toList_append, String.toList_append, String.toList_append, hcode]
    simp only [List.append_assoc, List.cons_append, List.nil_append]
  rw [hlist, hlist, codeLines_append, codeLines_append, codeLines_stubs hnames]

/-- If there is a block with comments, there is one without, with as many declarations and wrappers, and the two
texts are the same without their comment lines. -/
theorem comments_leave_code (hnames : ∀ name ∈ ctx.classes.keys, '\n' ∉ name.toList)
    (h : (ctx.buildBlock true).2 = .ok commented) :
    ∃ bare, (ctx.buildBlock false).2 = .ok bare ∧ bare.typeCount = commented.typeCount ∧
      bare.stubCount = commented.stubCount ∧ withoutComments bare.text = withoutComments commented.text := by
  obtain ⟨hmarker, rfl⟩ := of_buildBlock h
  have hbare : Text.contains (blockText ctx.declarations (ctx.stubs false)) spliceMarker = false := by
    rw [Bool.eq_false_iff] at hmarker ⊢
    intro hholds
    obtain ⟨e, he, hcollides⟩ := holdsMarker_block_iff.mp hholds
    exact hmarker (holdsMarker_block_iff.mpr ⟨e, he, hcollides.of_bare⟩)
  refine ⟨_, (block_eq_ofParts ctx false).trans (GeneratedBlock.ofParts_eq_ok hbare), rfl, ?_, ?_⟩
  · exact (length_stubs ctx false).trans (length_stubs ctx true).symm
  · rw [withoutComments, withoutComments, codeLines_blockText hnames]

/-- Classes whose descriptions have lines of code, lines of white space, and comment lines of their own. -/
def describedFrames : RenderContext where
  classes := .ofList
    [("Frame",
      { name := "Frame", properties := [⟨"Frame.end", "int"⟩]
        description := "  end\n\n \t \nfunction Rover.Frame()\n-- \n--!strict\n" }),
    ("Label",
      { name := "Label", inherits := ["Frame"], description := "type _LabelProps = nil" })]
  enums := .ofList []
  mode := .flattened

theorem comments_leave_code_described :
    ∃ commented bare, (∀ name ∈ describedFrames.classes.keys, '\n' ∉ name.toList) ∧
      (describedFrames.buildBlock true).2 = .ok commented ∧ (describedFrames.buildBlock false).2 = .ok bare ∧
      bare.stubCount = commented.stubCount ∧ withoutComments bare.text = withoutComments commented.text := by
  have hnames : ∀ name ∈ describedFrames.classes.keys, '\n' ∉ name.toList := by decide
  have hcollides : ∀ e ∈ describedFrames.classes.entries, ¬ describedFrames.Collides true e.1 e.2 := by
    simp only [collides_iff, CommentHoldsMarker]
    decide +kernel
  obtain ⟨commented, hcommented⟩ := exists_block hcollides
  obtain ⟨bare, hbare, -, hcount, hsame⟩ := comments_leave_code hnames hcommented
  exact ⟨commented, bare, hnames, hcommented, hbare, hcount, hsame⟩

end RenderContext

end LuauBindings
