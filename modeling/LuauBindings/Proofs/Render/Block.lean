import LuauBindings.Proofs.Sequence
import LuauBindings.Render.Block

/-!
# The block as a function of the classes

`RenderContext.buildBlock` works on a context that may hold property maps and types of earlier blocks.
What it makes depends on the classes, the enums and the mode alone: `contentsOf` is the type of a
class, `declarations` and `stubs` are the two parts of the text. Building the block records the
property maps and types of all classes and leaves the entries of other names; it fails only if the
text holds the splice marker (`buildBlock_eq`).
-/

namespace LuauBindings

/-- The block of these declarations and wrappers, unless its text holds the splice marker. -/
def GeneratedBlock.ofParts (declarations wrappers : List String) : Except BlockFault GeneratedBlock :=
  let text := RenderContext.blockText declarations wrappers
  if Text.contains text spliceMarker then .error .holdsMarker
  else .ok ⟨text, declarations.length, wrappers.length⟩

namespace GeneratedBlock
variable {declarations wrappers : List String}

theorem ofParts_eq_ok
    (h : Text.contains (RenderContext.blockText declarations wrappers) spliceMarker = false) :
    ofParts declarations wrappers =
      .ok ⟨RenderContext.blockText declarations wrappers, declarations.length, wrappers.length⟩ := by
  simp only [ofParts, h]
  rfl

theorem of_ofParts {block : GeneratedBlock} (h : ofParts declarations wrappers = .ok block) :
    Text.contains (RenderContext.blockText declarations wrappers) spliceMarker = false ∧
    block = ⟨RenderContext.blockText declarations wrappers, declarations.length, wrappers.length⟩ := by
  cases hmarker : Text.contains (RenderContext.blockText declarations wrappers) spliceMarker with
  | true => simp [ofParts, hmarker] at h
  | false =>
    rw [ofParts_eq_ok hmarker] at h
    exact ⟨rfl, (Except.ok.inj h).symm⟩

theorem ofParts_eq_error_iff {e : BlockFault} : ofParts declarations wrappers = .error e ↔
    Text.contains (RenderContext.blockText declarations wrappers) spliceMarker = true ∧
    e = .holdsMarker := by
  cases hmarker : Text.contains (RenderContext.blockText declarations wrappers) spliceMarker with
  | true => simp [ofParts, hmarker, eq_comm]
  | false => simp [ofParts_eq_ok hmarker]

end GeneratedBlock

/-- The lines of the comment above a wrapper. -/
def commentLines (name description : String) : List String :=
  ["-- Renders a " ++ name ++ " using props and content", "-- "] ++
    (Text.lines (Text.trim description.toList)).map fun line => "-- " ++ String.ofList line

theorem docComment_eq (name description : String) :
    docComment name description = "\n".intercalate (commentLines name description) ++ "\n" := rfl

/-- The text of the comment above a wrapper; it is empty without a description. -/
def commentText (name : String) (description : Option String) : String :=
  match description with
  | some d => "\n".intercalate (commentLines name d) ++ "\n"
  | none => ""

/-- The text of a wrapper, written out. -/
def stubText (name propsType : String) (description : Option String) : String :=
  commentText name description ++ "function Rover." ++ name ++ "(props: " ++ propsType ++ ", content: ((elm: " ++
    name ++ ") -> ())?): ()\n\tRover.drawInstance_internal(" ++ Text.Literal.encode name ++
    ", props, content or function() end)\nend\n\n"

theorem wrapper_eq_stubText (name propsType : String) (description : Option String) :
    wrapper name propsType description = stubText name propsType description := by
  have hhead : ") -> ())?): ()\n\tRover.drawInstance_internal(" =
      ") -> ())?): ()\n" ++ "\t" ++ drawFunction ++ "(" := by decide
  have htail : ", props, content or function() end)\nend\n\n" =
      ", props, content or function() end)\n" ++ "end\n\n" := by decide
  unfold wrapper stubText
  rw [hhead, htail]
  cases description <;> simp only [commentText, docComment_eq, String.append_assoc]

/-- A wrapper up to the internal function that it calls. -/
def wrapperHead (name propsType : String) (description : Option String) : String :=
  (description.map (docComment name)).getD "" ++
    ("function Rover." ++ name ++ "(props: " ++ propsType ++ ", content: ((elm: " ++ name ++
      ") -> ())?): ()\n") ++ "\t"

/-- A wrapper from the arguments of the internal function on. -/
def wrapperTail (name : String) : String :=
  "(" ++ Text.Literal.encode name ++ ", props, content or function() end)\n" ++ "end\n\n"

theorem wrapper_eq (name propsType : String) (description : Option String) :
    wrapper name propsType description =
      wrapperHead name propsType description ++ drawFunction ++ wrapperTail name := by
  cases description with
  | none =>
    unfold wrapper wrapperHead wrapperTail
    rw [Option.map_none, Option.getD_none]
    simp only [String.append_assoc]
  | some d =>
    unfold wrapper wrapperHead wrapperTail
    rw [Option.map_some, Option.getD_some]
    simp only [String.append_assoc]

/-- The part of a class's type that stands for the type of a parent. -/
def typeReference (parent : String) : String :=
  " & " ++ propsTypeName parent

namespace TypeMode

/-- The properties in the type of the class `c`. -/
def propertiesOf (mode : TypeMode) (classes : ClassMap) (name : String) (c : ClassDoc) : PropertyMap :=
  match mode with
  | .named => ownProperties c
  | .flattened => allProperties classes name

/-- What follows the table type in the type of the class `c`. -/
def references (mode : TypeMode) (c : ClassDoc) : List String :=
  match mode with
  | .named => c.inherits.map typeReference
  | .flattened => []

variable {mode : TypeMode} {classes : ClassMap} {name : String} {c : ClassDoc}

theorem properties?_eq (hc : classes.get? name = some c) :
    mode.properties? classes name = some (mode.propertiesOf classes name c) := by
  cases mode <;> simp [properties?, propertiesOf, hc]

theorem contents?_eq (hc : classes.get? name = some c) (table : String) :
    mode.contents? classes name table = some (table ++ String.join (mode.references c)) := by
  cases mode with
  | named => rw [contents?, hc]; rfl
  | flattened => simp [contents?, references]

theorem declaration_named_ne_empty (name contents : String) :
    (TypeMode.named.declaration name contents).isEmpty = false := by
  rw [Bool.eq_false_iff, ne_eq, String.isEmpty_iff, ← String.toList_inj]
  simp [declaration]

end TypeMode

namespace RenderContext
variable {ctx : RenderContext} {name : String} {c : ClassDoc}

/-- The type of the class `c`. -/
def contentsOf (ctx : RenderContext) (name : String) (c : ClassDoc) : String :=
  tableType (ctx.mode.propertiesOf ctx.classes name c) ctx.enums ++
    String.join (ctx.mode.references c)

theorem contentsOf_named (hmode : ctx.mode = .named) (name : String) (c : ClassDoc) :
    ctx.contentsOf name c =
      tableType (ownProperties c) ctx.enums ++ String.join (TypeMode.named.references c) := by
  rw [contentsOf, hmode]
  rfl

theorem contentsOf_flattened (hmode : ctx.mode = .flattened) (name : String) (c : ClassDoc) :
    ctx.contentsOf name c = tableType (allProperties ctx.classes name) ctx.enums := by
  rw [contentsOf, hmode]
  exact String.append_empty

/-- The declarations of the block: one for each class in named mode, none in flattened mode. -/
def declarations (ctx : RenderContext) : List String :=
  match ctx.mode with
  | .named => ctx.classes.entries.map fun e => TypeMode.named.declaration e.1 (ctx.contentsOf e.1 e.2)
  | .flattened => []

/-- The wrappers of the block, one for each class. -/
def stubs (ctx : RenderContext) (comments : Bool) : List String :=
  ctx.classes.entries.map fun e =>
    wrapper e.1 (ctx.mode.propsType e.1 (ctx.contentsOf e.1 e.2))
      (if comments then some e.2.description else none)

theorem declarations_named (hmode : ctx.mode = .named) : ctx.declarations =
    ctx.classes.entries.map fun e => TypeMode.named.declaration e.1 (ctx.contentsOf e.1 e.2) := by
  rw [declarations, hmode]

theorem declarations_flattened (hmode : ctx.mode = .flattened) : ctx.declarations = [] := by
  rw [declarations, hmode]

theorem stubs_named (hmode : ctx.mode = .named) (comments : Bool) : ctx.stubs comments =
    ctx.classes.entries.map fun e =>
      wrapper e.1 (propsTypeName e.1) (if comments then some e.2.description else none) := by
  simp only [stubs, hmode, TypeMode.propsType]

theorem stubs_flattened (hmode : ctx.mode = .flattened) (comments : Bool) : ctx.stubs comments =
    ctx.classes.entries.map fun e =>
      wrapper e.1 (tableType (allProperties ctx.classes e.1) ctx.enums)
        (if comments then some e.2.description else none) := by
  simp only [stubs, hmode, TypeMode.propsType, contentsOf_flattened hmode]

theorem length_declarations (ctx : RenderContext) : ctx.declarations.length =
    match ctx.mode with
    | .named => ctx.classes.size
    | .flattened => 0 := by
  unfold declarations
  split
  · exact List.length_map _
  · rfl

theorem length_stubs (ctx : RenderContext) (comments : Bool) :
    (ctx.stubs comments).length = ctx.classes.size :=
  List.length_map _

/-- The context with the property maps of all its classes, and no others, renewed. -/
def withProperties (ctx : RenderContext) : RenderContext :=
  { ctx with propertyMaps :=
      ctx.propertyMaps.insertAll (ctx.classes.mapValues (ctx.mode.propertiesOf ctx.classes)) }

theorem addPropertyMaps_eq (ctx : RenderContext) (l : List (String × ClassDoc))
    (hl : ∀ e ∈ l, e ∈ ctx.classes.entries) : ctx.addPropertyMaps (l.map Prod.fst) =
      ({ ctx with
          propertyMaps := (l.map fun e => (e.1, ctx.mode.propertiesOf ctx.classes e.1 e.2)).foldl
            (fun m e => m.insert e.1 e.2) ctx.propertyMaps },
        .ok ()) := by
  induction l generalizing ctx with
  | nil => rfl
  | cons e l ih =>
    have hc := OrderedMap.get?_eq_some_iff.mpr (hl e (List.mem_cons_self ..))
    rw [List.map_cons, addPropertyMaps, TypeMode.properties?_eq hc]
    exact ih _ fun e he => hl e (List.mem_cons_of_mem _ he)

theorem buildPropertyMaps_eq (ctx : RenderContext) : ctx.buildPropertyMaps = (ctx.withProperties, .ok ()) :=
  ctx.addPropertyMaps_eq ctx.classes.entries fun _ h => h

theorem get?_withProperties (hc : ctx.classes.get? name = some c) :
    ctx.withProperties.propertyMaps.get? name =
      some (ctx.mode.propertiesOf ctx.classes name c) := by
  rw [withProperties, OrderedMap.get?_insertAll, OrderedMap.get?_mapValues, hc]
  rfl

theorem renderContents_eq (hc : ctx.classes.get? name = some c)
    (hprops : ctx.propertyMaps.get? name = some (ctx.mode.propertiesOf ctx.classes name c)) :
    ctx.renderContents name = .ok (ctx.contentsOf name c) := by
  simp only [renderContents, hprops, TypeMode.contents?_eq hc]
  rfl

theorem renderTypes_eq (ctx : RenderContext) (l : List (String × ClassDoc))
    (hl : ∀ e ∈ l, e ∈ ctx.classes.entries)
    (hprops : ∀ e ∈ l, ctx.propertyMaps.get? e.1 =
      some (ctx.mode.propertiesOf ctx.classes e.1 e.2)) :
    ctx.renderTypes (l.map Prod.fst) =
      ({ ctx with
          contents := (l.map fun e => (e.1, ctx.contentsOf e.1 e.2)).foldl
            (fun m e => m.insert e.1 e.2) ctx.contents },
        .ok (l.map fun e => ctx.mode.declaration e.1 (ctx.contentsOf e.1 e.2))) := by
  induction l generalizing ctx with
  | nil => rfl
  | cons e l ih =>
    have hc := OrderedMap.get?_eq_some_iff.mpr (hl e (List.mem_cons_self ..))
    have hcontents := renderContents_eq hc (hprops e (List.mem_cons_self ..))
    have hrest := ih { ctx with contents := ctx.contents.insert e.1 (ctx.contentsOf e.1 e.2) }
      (fun e he => hl e (List.mem_cons_of_mem _ he))
      (fun e he => hprops e (List.mem_cons_of_mem _ he))
    simp only [List.map_cons, renderTypes, renderType, hcontents, Except.map, hrest]
    rfl

/-- The context with the property maps and types of all its classes, and no others, renewed. -/
def rendered (ctx : RenderContext) : RenderContext :=
  { ctx.withProperties with contents := ctx.contents.insertAll (ctx.classes.mapValues ctx.contentsOf) }

theorem get?_contents_rendered (hc : ctx.classes.get? name = some c) :
    ctx.rendered.contents.get? name = some (ctx.contentsOf name c) := by
  rw [rendered, OrderedMap.get?_insertAll, OrderedMap.get?_mapValues, hc]
  rfl

theorem filter_declarations (ctx : RenderContext) :
    (ctx.classes.entries.map fun e =>
      ctx.mode.declaration e.1 (ctx.contentsOf e.1 e.2)).filter (fun d => !d.isEmpty) =
      ctx.declarations := by
  unfold declarations
  cases hmode : ctx.mode with
  | named =>
    refine List.filter_eq_self.mpr fun d hd => ?_
    obtain ⟨e, -, rfl⟩ := List.mem_map.mp hd
    rw [TypeMode.declaration_named_ne_empty]
    rfl
  | flattened =>
    refine List.filter_eq_nil_iff.mpr fun d hd => ?_
    obtain ⟨e, -, rfl⟩ := List.mem_map.mp hd
    simp [TypeMode.declaration]

theorem wrappers_rendered (ctx : RenderContext) (comments : Bool) :
    ctx.rendered.wrappers comments = .ok (ctx.stubs comments) := by
  refine mapM_eq_ok_map fun e he => ?_
  have hc : ctx.classes.get? e.1 = some e.2 := OrderedMap.get?_eq_some_iff.mpr he
  simp only [get?_contents_rendered hc]
  rfl

/-- What a context makes of its classes, whatever it held before. -/
theorem buildBlock_eq (ctx : RenderContext) (comments : Bool) :
    ctx.buildBlock comments = (ctx.rendered, GeneratedBlock.ofParts ctx.declarations (ctx.stubs comments)) := by
  have htypes : ctx.withProperties.renderTypes ctx.withProperties.classes.keys =
      (ctx.rendered, .ok (ctx.classes.entries.map fun e =>
        ctx.mode.declaration e.1 (ctx.contentsOf e.1 e.2))) :=
    renderTypes_eq ctx.withProperties ctx.classes.entries (fun _ h => h) fun e he =>
      get?_withProperties (OrderedMap.get?_eq_some_iff.mpr he)
  have hcount : (ctx.stubs comments).length = ctx.rendered.classes.size := List.length_map _
  simp only [buildBlock, buildPropertyMaps_eq, htypes, filter_declarations, wrappers_rendered,
    GeneratedBlock.ofParts, hcount]
  split <;> rfl

theorem block_eq_ofParts (ctx : RenderContext) (comments : Bool) : (ctx.buildBlock comments).2 =
    GeneratedBlock.ofParts ctx.declarations (ctx.stubs comments) := by
  rw [buildBlock_eq]

theorem of_buildBlock {comments : Bool} {block : GeneratedBlock} (h : (ctx.buildBlock comments).2 = .ok block) :
    Text.contains (blockText ctx.declarations (ctx.stubs comments)) spliceMarker = false ∧
    block = ⟨blockText ctx.declarations (ctx.stubs comments), ctx.declarations.length,
      (ctx.stubs comments).length⟩ := by
  rw [block_eq_ofParts] at h
  exact GeneratedBlock.of_ofParts h

section History

theorem get?_propertyMaps_rendered (hc : ctx.classes.get? name = some c) :
    ctx.rendered.propertyMaps.get? name = some (ctx.mode.propertiesOf ctx.classes name c) :=
  get?_withProperties hc

theorem filterKeys_rendered {p : String → Bool} (hp : ∀ name ∈ ctx.classes.keys, p name = false) :
    ctx.rendered.propertyMaps.filterKeys p = ctx.propertyMaps.filterKeys p ∧
    ctx.rendered.contents.filterKeys p = ctx.contents.filterKeys p := by
  have hkeys {β : Type} (f : String → ClassDoc → β) :
      ∀ name ∈ (ctx.classes.mapValues f).keys, p name = false := by
    rw [OrderedMap.keys_mapValues]
    exact hp
  exact ⟨OrderedMap.filterKeys_insertAll (hkeys _), OrderedMap.filterKeys_insertAll (hkeys _)⟩

/-- What a context held before does not reach its block. Whether there is a block or not, the context
then holds for each of its classes the property map and the type that the classes, the enums and the mode
give now, and for other names what it held before. -/
theorem buildBlock_ignores_history (ctx : RenderContext) (comments : Bool) :
    let fresh : RenderContext := { classes := ctx.classes, enums := ctx.enums, mode := ctx.mode }
    let after := (ctx.buildBlock comments).1
    let isOther (name : String) : Bool := !ctx.classes.contains name
    (ctx.buildBlock comments).2 = (fresh.buildBlock comments).2 ∧
    (∀ name ∈ ctx.classes.keys, ∃ props contents,
      ctx.mode.properties? ctx.classes name = some props ∧
      ctx.mode.contents? ctx.classes name (tableType props ctx.enums) = some contents ∧
      after.propertyMaps.get? name = some props ∧ after.contents.get? name = some contents) ∧
    after.propertyMaps.filterKeys isOther = ctx.propertyMaps.filterKeys isOther ∧
    after.contents.filterKeys isOther = ctx.contents.filterKeys isOther ∧
    after.classes = ctx.classes ∧ after.enums = ctx.enums ∧ after.mode = ctx.mode := by
  intro fresh after isOther
  have hafter : after = ctx.rendered := congrArg Prod.fst (ctx.buildBlock_eq comments)
  have hsame : (ctx.buildBlock comments).2 = (fresh.buildBlock comments).2 := by
    rw [block_eq_ofParts, block_eq_ofParts]
    rfl
  have hother : ∀ name ∈ ctx.classes.keys, isOther name = false := by
    intro name hname
    have hcontains : ctx.classes.contains name = true := OrderedMap.contains_iff.mpr hname
    simp only [isOther, hcontains, Bool.not_true]
  obtain ⟨hmaps, hcontents⟩ := filterKeys_rendered hother
  rw [hafter]
  refine ⟨hsame, fun name hname => ?_, hmaps, hcontents, rfl, rfl, rfl⟩
  obtain ⟨c, hc⟩ := Option.isSome_iff_exists.mp (OrderedMap.get?_isSome_iff.mpr hname)
  exact ⟨_, _, TypeMode.properties?_eq hc, TypeMode.contents?_eq hc _,
    get?_propertyMaps_rendered hc, get?_contents_rendered hc⟩

end History

end RenderContext

end LuauBindings
