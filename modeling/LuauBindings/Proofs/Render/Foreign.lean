import LuauBindings.Proofs.Render.Block
import LuauBindings.Proofs.Text.Preserved

/-!
# Where a foreign text stands in a block

The fixed texts of a block bar a foreign text (`Foreign`): no occurrence of it takes a character of them, whatever
stands around. Nor does it come in when names are stripped, quoted or resolved. So it is in a rendered part only
where it is in a text that comes from a class. Two fixed texts are left open, since they may be parts of a foreign
text: the underscore before the name of a type, and the start of a comment line.

The parts of a block are taken apart by rewriting with `holds_fixed_append` and its kin, from the outside in;
whether a part is a fixed text is looked up in `fixedTexts`.
-/

namespace LuauBindings

/-- `p` stands in `s`. -/
def Holds (p s : String) : Prop :=
  Text.contains s p = true

instance (p s : String) : Decidable (Holds p s) :=
  inferInstanceAs (Decidable (Text.contains s p = true))

/-- The fixed texts of a block, but for the underscore of a type name, the start of a comment line, and the internal
symbol. -/
def fixedTexts : List String :=
  ["-- BEGIN AUTOGEN\n-- Types\n", "-- Code\n", "-- END AUTOGEN", "type ", " = ", " & ", "Props",
    "\x7b\n", ",\n", "\n\x7d", "\t", ": ", " | Signal<", "> | nil", "Enum.", "[", "]", "\"",
    "-- Renders a ", " using props and content", "\n", "function Rover.", "(props: ",
    ", content: ((elm: ", ") -> ())?): ()\n", "Rover.drawInstance", "(",
    ", props, content or function() end)\n", "end\n\n"]

/-- The built-in types and what they are resolved to. -/
def builtinTexts : List String :=
  ["bool", "boolean", "int", "float", "int64", "double", "number", "UniqueId", "Content", "QDir", "QFont",
    "BinaryString", "ProtectedString", "Path2DControlPoint", "unknown"]

theorem mem_builtinTexts {type luau : String} (h : builtinType? type = some luau) :
    type ∈ builtinTexts ∧ luau ∈ builtinTexts := by
  unfold builtinType? at h
  split at h <;> cases h <;> exact ⟨by decide, by decide⟩

/-- The text comes into a block from its classes only. -/
structure Foreign (p : String) : Prop where
  bars : ∀ f ∈ fixedTexts, Text.Bars p.toList f.toList
  builtin : ∀ s ∈ builtinTexts, ¬ Holds p s
  /-- It is not cut by stripping, and it does not begin in an escape. -/
  first : ∃ c, p.toList.head? = some c ∧ Text.isBlank c = false ∧ c ∉ Text.Literal.escapeLetters
  last : ∃ c, p.toList.getLast? = some c ∧ Text.isBlank c = false
  /-- It has no escapes. -/
  plain : p.toList.all (fun c => Text.Literal.escapeChar c == [c]) = true

theorem holds_iff {p s : String} : Holds p s ↔ p.toList <:+: s.toList :=
  Text.contains_iff

namespace Foreign
variable {p f s t : String} (hp : Foreign p)
include hp

theorem ne_nil : p.toList ≠ [] := by
  obtain ⟨c, hc, -⟩ := hp.first
  intro h
  rw [h] at hc
  cases hc

section Fixed

theorem not_holds_fixed (hf : f ∈ fixedTexts) : ¬ Holds p f := by
  rw [holds_iff]
  exact (hp.bars f hf).absent

theorem holds_fixed_append (hf : f ∈ fixedTexts) : Holds p (f ++ t) ↔ Holds p t := by
  rw [holds_iff, String.toList_append, (hp.bars f hf).infix_right, ← holds_iff]

theorem holds_append_fixed (hf : f ∈ fixedTexts) : Holds p (s ++ f) ↔ Holds p s := by
  rw [holds_iff, String.toList_append, (hp.bars f hf).infix_left, ← holds_iff]

theorem holds_append_fixed_append (hf : f ∈ fixedTexts) :
    Holds p (s ++ (f ++ t)) ↔ Holds p s ∨ Holds p t := by
  rw [holds_iff, String.toList_append, String.toList_append, (hp.bars f hf).infix_between, ← holds_iff,
    ← holds_iff]

theorem holds_intercalate_fixed {l : List String} (hf : f ∈ fixedTexts) :
    Holds p (f.intercalate l) ↔ ∃ x ∈ l, Holds p x := by
  rw [holds_iff, String.toList_intercalate, (hp.bars f hf).infix_intercalate hp.ne_nil]
  simp only [List.mem_map, exists_exists_and_eq_and, holds_iff]

theorem sealedEnd_append_fixed (hf : f ∈ fixedTexts) (s : String) :
    Text.SealedEnd p.toList (s ++ f).toList := by
  rw [String.toList_append]
  exact (hp.bars f hf).stop.append _

theorem holds_join {l : List String} (h : ∀ x ∈ l, Text.SealedEnd p.toList x.toList) :
    Holds p (String.join l) ↔ ∃ x ∈ l, Holds p x := by
  induction l with
  | nil => simpa [holds_iff] using hp.ne_nil
  | cons x l ih =>
    have hx : Text.SealedEnd p.toList x.toList := h x (List.mem_cons_self ..)
    rw [String.join_cons, holds_iff, String.toList_append, hx.apart.infix_append, ← holds_iff, ← holds_iff,
      ih fun y hy => h y (List.mem_cons_of_mem x hy)]
    simp only [List.mem_cons, exists_eq_or_imp]

end Fixed

section Types

theorem infix_trim_iff {s : List Char} : p.toList <:+: Text.trim s ↔ p.toList <:+: s := by
  obtain ⟨c, hc, hcb, -⟩ := hp.first
  obtain ⟨d, hd, hdb⟩ := hp.last
  exact Text.infix_trim_iff hc hd hcb hdb

theorem holds_strip : Holds p (Text.strip s) ↔ Holds p s := by
  rw [holds_iff, holds_iff, Text.toList_strip, hp.infix_trim_iff]

theorem holds_encode : Holds p (Text.Literal.encode s) ↔ Holds p s := by
  obtain ⟨c, hc, -, hletter⟩ := hp.first
  rw [holds_iff, holds_iff, Text.Literal.toList_encode]
  exact Text.Literal.infix_encodeChars_iff (hp.bars "\"" (by decide)) hc hletter
    fun d hd => eq_of_beq (List.all_eq_true.mp hp.plain d hd)

theorem holds_propertyKey {name : String} : Holds p (propertyKey name) ↔ Holds p name := by
  simp only [propertyKey]
  split
  · simp (disch := decide) only [String.append_assoc, hp.holds_fixed_append, hp.holds_append_fixed,
      hp.holds_encode, hp.holds_strip]
  · exact hp.holds_strip

theorem holds_luauType {type : String} {enums : NameSet} : Holds p (luauType type enums) ↔ Holds p type := by
  unfold luauType
  split
  · exact hp.holds_fixed_append (by decide)
  · cases hbuiltin : builtinType? type with
    | none => rfl
    | some luau =>
      obtain ⟨htype, hluau⟩ := mem_builtinTexts hbuiltin
      exact iff_of_false (hp.builtin luau hluau) (hp.builtin type htype)

theorem holds_propertyLine {key type : String} :
    Holds p (propertyLine key type) ↔ Holds p key ∨ Holds p type := by
  simp (disch := decide) only [propertyLine, String.append_assoc, hp.holds_fixed_append,
    hp.holds_append_fixed_append, hp.holds_append_fixed, or_self]

theorem holds_tableType {props : PropertyMap} {enums : NameSet} :
    Holds p (tableType props enums) ↔ ∃ e ∈ props.entries, Holds p e.1 ∨ Holds p e.2 := by
  simp (disch := decide) only [tableType, hp.holds_fixed_append, hp.holds_append_fixed,
    hp.holds_intercalate_fixed]
  simp only [List.mem_map, exists_exists_and_eq_and, hp.holds_propertyLine, hp.holds_propertyKey,
    hp.holds_luauType]

theorem holds_propsTypeName {name : String} : Holds p (propsTypeName name) ↔ Holds p ("_" ++ name) :=
  hp.holds_append_fixed (by decide)

theorem holds_typeReference {parent : String} : Holds p (typeReference parent) ↔ Holds p ("_" ++ parent) := by
  rw [typeReference, hp.holds_fixed_append (by decide), hp.holds_propsTypeName]

theorem sealedEnd_typeReference (parent : String) : Text.SealedEnd p.toList (typeReference parent).toList := by
  rw [typeReference, propsTypeName, ← String.append_assoc]
  exact hp.sealedEnd_append_fixed (by decide) _

theorem holds_declaration {name contents : String} :
    Holds p (TypeMode.named.declaration name contents) ↔ Holds p ("_" ++ name) ∨ Holds p contents := by
  simp (disch := decide) only [TypeMode.declaration, String.append_assoc, hp.holds_fixed_append,
    hp.holds_append_fixed_append, hp.holds_append_fixed, hp.holds_propsTypeName]

theorem sealedEnd_declaration (name contents : String) :
    Text.SealedEnd p.toList (TypeMode.named.declaration name contents).toList :=
  hp.sealedEnd_append_fixed (by decide) _

theorem sealedEnd_references {mode : TypeMode} {c : ClassDoc} {r : String} (hr : r ∈ mode.references c) :
    Text.SealedEnd p.toList r.toList := by
  cases mode with
  | named =>
    obtain ⟨parent, -, rfl⟩ := List.mem_map.mp hr
    exact hp.sealedEnd_typeReference parent
  | flattened => cases hr

theorem holds_references {mode : TypeMode} {c : ClassDoc} : (∃ r ∈ mode.references c, Holds p r) ↔
    mode = .named ∧ ∃ parent ∈ c.inherits, Holds p ("_" ++ parent) := by
  cases mode with
  | named =>
    simp only [TypeMode.references, List.mem_map, exists_exists_and_eq_and, hp.holds_typeReference, true_and]
  | flattened => simp [TypeMode.references]

end Types

section Wrappers

theorem infix_lines_iff {description : String} :
    (∃ line ∈ Text.lines (Text.trim description.toList), p.toList <:+: line) ↔ Holds p description := by
  rw [Text.infix_lines_iff (hp.bars "\n" (by decide)) hp.ne_nil, holds_iff]
  exact hp.infix_trim_iff

theorem holds_docComment {name description : String} : Holds p (docComment name description) ↔
    Holds p name ∨ Holds p "-- " ∨
      ∃ line ∈ Text.lines (Text.trim description.toList), Holds p ("-- " ++ String.ofList line) := by
  have hnewline : "\n" ∈ fixedTexts := by decide
  have htitle : Holds p ("-- Renders a " ++ name ++ " using props and content") ↔ Holds p name := by
    simp (disch := decide) only [String.append_assoc, hp.holds_fixed_append, hp.holds_append_fixed]
  rw [docComment, hp.holds_append_fixed hnewline, hp.holds_intercalate_fixed hnewline]
  simp only [List.cons_append, List.nil_append, List.mem_cons, List.mem_map, exists_eq_or_imp,
    exists_exists_and_eq_and, htitle]

theorem holds_wrapperHead {name propsType : String} {description : Option String} :
    Holds p (wrapperHead name propsType description) ↔
      (∃ d, description = some d ∧ Holds p (docComment name d)) ∨ Holds p name ∨ Holds p propsType := by
  have hempty : ¬ Holds p "" := fun h => hp.ne_nil (List.infix_nil.mp (holds_iff.mp h))
  unfold wrapperHead
  simp (disch := decide) only [String.append_assoc, hp.holds_append_fixed_append, hp.not_holds_fixed, or_false]
  cases description with
  | none =>
    simp only [Option.map_none, Option.getD_none, hempty, false_or, reduceCtorEq, false_and, exists_false]
    grind
  | some d =>
    simp only [Option.map_some, Option.getD_some, Option.some.injEq, exists_eq_left']
    grind

theorem holds_wrapperTail {name : String} : Holds p (wrapperTail name) ↔ Holds p name := by
  simp (disch := decide) only [wrapperTail, String.append_assoc, hp.holds_fixed_append,
    hp.holds_append_fixed_append, hp.not_holds_fixed, hp.holds_encode, or_false]

theorem holds_wrapper (hdraw : Text.Bars p.toList drawFunction.toList) {name propsType : String}
    {description : Option String} : Holds p (wrapper name propsType description) ↔
      (∃ d, description = some d ∧ Holds p (docComment name d)) ∨ Holds p name ∨ Holds p propsType := by
  rw [wrapper_eq, String.append_assoc, holds_iff, String.toList_append, String.toList_append,
    hdraw.infix_between, ← holds_iff, ← holds_iff, hp.holds_wrapperHead, hp.holds_wrapperTail]
  grind

theorem sealedEnd_wrapper (name propsType : String) (description : Option String) :
    Text.SealedEnd p.toList (wrapper name propsType description).toList := by
  rw [wrapper_eq, wrapperTail, ← String.append_assoc]
  exact hp.sealedEnd_append_fixed (by decide) _

end Wrappers

section Context
variable {ctx : RenderContext} {comments : Bool} {name : String} {c : ClassDoc} {declarations : List String}

theorem holds_contentsOf : Holds p (ctx.contentsOf name c) ↔
    (∃ e ∈ (ctx.mode.propertiesOf ctx.classes name c).entries, Holds p e.1 ∨ Holds p e.2) ∨
      ctx.mode = .named ∧ ∃ parent ∈ c.inherits, Holds p ("_" ++ parent) := by
  -- the table type ends in a brace, so no occurrence goes on into the references
  let table := tableType (ctx.mode.propertiesOf ctx.classes name c) ctx.enums
  have hsealed : Text.SealedEnd p.toList table.toList := hp.sealedEnd_append_fixed (by decide) _
  have htable : Holds p table ↔ ∃ e ∈ (ctx.mode.propertiesOf ctx.classes name c).entries,
      Holds p e.1 ∨ Holds p e.2 := hp.holds_tableType
  have hreferences := hp.holds_join fun r (hr : r ∈ ctx.mode.references c) => hp.sealedEnd_references hr
  rw [← hp.holds_references, ← htable, ← hreferences]
  simp only [RenderContext.contentsOf, holds_iff, String.toList_append]
  exact hsealed.apart.infix_append

theorem sealedEnd_declarations {d : String} (hd : d ∈ ctx.declarations) : Text.SealedEnd p.toList d.toList := by
  unfold RenderContext.declarations at hd
  split at hd
  · obtain ⟨e, -, rfl⟩ := List.mem_map.mp hd
    exact hp.sealedEnd_declaration _ _
  · cases hd

theorem holds_declarations : (∃ d ∈ ctx.declarations, Holds p d) ↔
    ctx.mode = .named ∧ ∃ e ∈ ctx.classes.entries, Holds p ("_" ++ e.1) ∨ Holds p (ctx.contentsOf e.1 e.2) := by
  cases hmode : ctx.mode with
  | named =>
    simp only [RenderContext.declarations_named hmode, List.mem_map, exists_exists_and_eq_and,
      hp.holds_declaration, true_and]
  | flattened => simp [RenderContext.declarations_flattened hmode]

/-- In named mode a wrapper only names the type of its class; in flattened mode it holds it. -/
theorem holds_propsType : Holds p (ctx.mode.propsType name (ctx.contentsOf name c)) ↔
    match ctx.mode with
    | .named => Holds p ("_" ++ name)
    | .flattened => Holds p (ctx.contentsOf name c) := by
  cases ctx.mode with
  | named => exact hp.holds_propsTypeName
  | flattened => rfl

theorem sealedEnd_stubs {w : String} (hw : w ∈ ctx.stubs comments) : Text.SealedEnd p.toList w.toList := by
  obtain ⟨e, -, rfl⟩ := List.mem_map.mp hw
  exact hp.sealedEnd_wrapper _ _ _

theorem holds_block : Holds p (RenderContext.blockText ctx.declarations (ctx.stubs comments)) ↔
    (∃ d ∈ ctx.declarations, Holds p d) ∨ ∃ w ∈ ctx.stubs comments, Holds p w := by
  unfold RenderContext.blockText
  simp (disch := decide) only [String.append_assoc, hp.holds_fixed_append, hp.holds_append_fixed_append,
    hp.holds_append_fixed]
  rw [hp.holds_join fun d hd => hp.sealedEnd_declarations hd, hp.holds_join fun w hw => hp.sealedEnd_stubs hw]

end Context

end Foreign

end LuauBindings
