import LuauBindings.Proofs.Corpus.Documents
import LuauBindings.Proofs.Render.Marker
import LuauBindings.Proofs.Run.Runtime
import LuauBindings.Run.Program

/-!
# Discovery shows what generating emits

A class is shown by its name, its document, and the key and type of each of its properties as they are
written (`ShownClass`). The declarations and wrappers of a block are written from these
(`RenderContext.block_of_shown`), and so are the rows and details that the
discovery commands print (`classesTable_eq`, `classDetail_eq`): both sides speak of the same classes in
the same order, with the same properties.
-/

namespace LuauBindings

/-- A class as the outputs show it. -/
structure ShownClass where
  name : String
  doc : ClassDoc
  /-- The key and the type of each property. -/
  properties : List (String × String)
deriving DecidableEq, Repr

namespace ShownClass

/-- The table type of the properties. -/
def record (s : ShownClass) : String :=
  "\x7b\n" ++ ",\n".intercalate (s.properties.map fun p =>
    "\t" ++ p.1 ++ ": " ++ p.2 ++ " | Signal<" ++ p.2 ++ "> | nil") ++ "\n\x7d"

def declaration (s : ShownClass) : String :=
  "type _" ++ s.name ++ "Props = " ++ s.record ++
    String.join (s.doc.inherits.map fun parent => " & _" ++ parent ++ "Props") ++ "\n"

/-- The type of the wrapper's parameter. -/
def parameter (mode : TypeMode) (s : ShownClass) : String :=
  match mode with
  | .named => "_" ++ s.name ++ "Props"
  | .flattened => s.record

/-- The text of the wrapper. -/
def stub (mode : TypeMode) (comments : Bool) (s : ShownClass) : String :=
  stubText s.name (s.parameter mode) (if comments then some s.doc.description else none)

/-- The declared parents; a hyphen where that leaves nothing to show. -/
def parents (s : ShownClass) : String :=
  if ", ".intercalate s.doc.inherits = "" then "-" else ", ".intercalate s.doc.inherits

/-- The row of the class in a table with names of up to `width` characters. -/
def row (width : Nat) (s : ShownClass) : String :=
  s.name ++ String.ofList (List.replicate (width - s.name.length) ' ') ++ "  " ++
    Text.padLeft 5 s.doc.properties.length.repr ++ "  " ++ s.parents

def detail (s : ShownClass) : String :=
  "\n".intercalate
    ([s.name] ++ (if s.doc.summary = "" then [] else ["  " ++ Text.strip s.doc.summary]) ++
      ["", "  Inherits: " ++ s.parents, "  Properties (" ++ s.properties.length.repr ++ "):"] ++
      s.properties.map fun p => "    " ++ p.1 ++ ": " ++ p.2) ++ "\n"

/-- The declarations of the types; there are none in flattened mode. -/
def declarations (mode : TypeMode) (shown : List ShownClass) : List String :=
  match mode with
  | .named => shown.map declaration
  | .flattened => []

/-- The table with these rows and this count of classes. -/
def table (width : Nat) (rows : List String) (count : Nat) : String :=
  "\n".intercalate
    (["Class" ++ String.ofList (List.replicate (width - 5) ' ') ++ "  Props  Inherits",
      String.ofList (List.replicate width '-') ++ "  -----  --------"] ++
      rows ++ ["", count.repr ++ " classes"]) ++ "\n"

end ShownClass

/-- The width of the first column: that of the longest name, and of its heading. -/
def nameWidth (classes : ClassMap) : Nat :=
  classes.keys.foldl (fun width name => max width name.length) 5

namespace RenderContext
variable {ctx : RenderContext} {name : String} {c : ClassDoc} {comments : Bool}

/-- The class `c` as the outputs show it. -/
def showClass (ctx : RenderContext) (name : String) (c : ClassDoc) : ShownClass where
  name := name
  doc := c
  properties := (ctx.mode.propertiesOf ctx.classes name c).entries.map fun e =>
    (propertyKey e.1, luauType e.2 ctx.enums)

/-- The classes of the block in order. -/
def shown (ctx : RenderContext) : List ShownClass :=
  ctx.classes.entries.map fun e => ctx.showClass e.1 e.2

theorem mem_shown {s : ShownClass} :
    s ∈ ctx.shown ↔ ∃ name c, ctx.classes.get? name = some c ∧ ctx.showClass name c = s := by
  simp [shown, OrderedMap.get?_eq_some_iff]

theorem map_name_shown (ctx : RenderContext) : ctx.shown.map ShownClass.name = ctx.classes.keys := by
  simp [shown, showClass, OrderedMap.keys, Function.comp_def]

section Block

theorem record_showClass (ctx : RenderContext) (name : String) (c : ClassDoc) :
    (ctx.showClass name c).record =
      tableType (ctx.mode.propertiesOf ctx.classes name c) ctx.enums := by
  simp only [ShownClass.record, showClass, tableType, propertyLine, List.map_map, Function.comp_def]

theorem declaration_showClass (hmode : ctx.mode = .named) (name : String) (c : ClassDoc) :
    (ctx.showClass name c).declaration = TypeMode.named.declaration name (ctx.contentsOf name c) := by
  rw [ShownClass.declaration, record_showClass, contentsOf, hmode]
  simp only [TypeMode.declaration, TypeMode.references, propsTypeName, showClass,
    String.append_assoc]
  rfl

theorem parameter_showClass (ctx : RenderContext) (name : String) (c : ClassDoc) :
    (ctx.showClass name c).parameter ctx.mode = ctx.mode.propsType name (ctx.contentsOf name c) := by
  cases hmode : ctx.mode with
  | named => rfl
  | flattened =>
    rw [contentsOf_flattened hmode, ShownClass.parameter, record_showClass, hmode]
    rfl

theorem declarations_eq (ctx : RenderContext) :
    ctx.declarations = ShownClass.declarations ctx.mode ctx.shown := by
  cases hmode : ctx.mode with
  | named =>
    simp only [declarations_named hmode, ShownClass.declarations, shown, List.map_map,
      Function.comp_def, declaration_showClass hmode]
  | flattened => exact declarations_flattened hmode

theorem stubs_eq (ctx : RenderContext) (comments : Bool) :
    ctx.stubs comments = ctx.shown.map (ShownClass.stub ctx.mode comments) := by
  simp only [stubs, shown, List.map_map, Function.comp_def, ShownClass.stub, parameter_showClass,
    ← wrapper_eq_stubText]
  rfl

/-- A block is written from the shown classes. -/
theorem block_of_shown {block : GeneratedBlock} (h : (ctx.buildBlock comments).2 = .ok block) :
    block.text = "-- BEGIN AUTOGEN\n-- Types\n" ++ String.join (ShownClass.declarations ctx.mode ctx.shown) ++
      "-- Code\n" ++ String.join (ctx.shown.map (ShownClass.stub ctx.mode comments)) ++ "-- END AUTOGEN" ∧
    block.stubCount = ctx.shown.length := by
  rw [(of_buildBlock h).2, declarations_eq, stubs_eq]
  exact ⟨rfl, List.length_map _⟩

end Block

section Listing

theorem parents_showClass (ctx : RenderContext) (name : String) (c : ClassDoc) :
    (ctx.showClass name c).parents = parentsText c := by
  simp only [ShownClass.parents, parentsText, String.isEmpty_iff]
  rfl

theorem classesTable_eq (ctx : RenderContext) : classesTable ctx.classes =
    ShownClass.table (nameWidth ctx.classes) (ctx.shown.map (ShownClass.row (nameWidth ctx.classes)))
      ctx.shown.length := by
  simp only [classesTable, ShownClass.table, shown, List.map_map, Function.comp_def, ShownClass.row,
    parents_showClass, List.length_map]
  rfl

theorem classDetail_eq (ctx : RenderContext) (name : String) (c : ClassDoc) :
    classDetail name c (ctx.mode.propertiesOf ctx.classes name c) ctx.enums =
      (ctx.showClass name c).detail := by
  rw [classDetail, ShownClass.detail, parents_showClass]
  by_cases hsummary : c.summary = "" <;>
    simp [hsummary, showClass, OrderedMap.size, Function.comp_def]

theorem describe_of_class (hc : ctx.classes.get? name = some c) :
    describe ctx.classes ctx.enums ctx.mode name = .ok (.printed (ctx.showClass name c).detail) := by
  rw [describe, hc]
  simp only [TypeMode.properties?_eq hc, classDetail_eq]

theorem describe_of_none (hc : ctx.classes.get? name = none) :
    describe ctx.classes ctx.enums ctx.mode name = .ok (.refused name) := by
  rw [describe, hc]

/-- No class is looked up that is not there. -/
theorem exists_describe (ctx : RenderContext) (name : String) :
    ∃ found, describe ctx.classes ctx.enums ctx.mode name = .ok found := by
  cases hc : ctx.classes.get? name with
  | none => exact ⟨_, describe_of_none hc⟩
  | some c => exact ⟨_, describe_of_class hc⟩

end Listing

end RenderContext

/-- What is rendered of a corpus. -/
def Corpus.rendering (corpus : Corpus) (allowed : List String) (mode : TypeMode) : RenderContext :=
  { classes := (prune corpus.classes allowed).2, enums := corpus.enums, mode := mode }

section Discover
variable {rt : Runtime} {t : FileTree} {c : DiscoveryConfig} {corpus : Corpus} {f : Failure} {name : String}
  {doc : ClassDoc}

theorem discover_listClasses (hload : Corpus.load rt.loader t c.docsDir = .ok corpus)
    (hc : c.command = some .listClasses) :
    discover rt.loader t c = .ok (.printed (classesTable (prune corpus.classes c.allowed).2)) := by
  simp only [discover, hload, hc]
  rfl

theorem discover_info (hload : Corpus.load rt.loader t c.docsDir = .ok corpus) (hc : c.command = some .info)
    (hname : c.infoClass = some name) : discover rt.loader t c =
      (describe (prune corpus.classes c.allowed).2 corpus.enums c.mode name).mapError .block := by
  simp only [discover, hload, hc, hname]
  rfl

theorem reported_of_discover {loader : Yaml.Loader} (hread : t.DocumentsRead loader)
    (hname : c.command = some .info → c.infoClass ≠ none) (h : discover loader t c = .error f) :
    f.Reported := by
  rw [discover, bind_eq_error] at h
  rcases h with h | ⟨corpus, hload, h⟩
  · exact Corpus.reported_of_load hread h
  · rcases hcommand : c.command with _ | _ | _
    · simp [hcommand, pure, Except.pure] at h
    · simp [hcommand, pure, Except.pure] at h
    · obtain ⟨name, hinfo⟩ := Option.ne_none_iff_exists'.mp (hname hcommand)
      obtain ⟨found, hfound⟩ := (corpus.rendering c.allowed c.mode).exists_describe name
      simp only [Corpus.rendering] at hfound
      simp [hcommand, hinfo, hfound, Except.mapError] at h

theorem runConfig_listClasses (hload : Corpus.load rt.loader t c.docsDir = .ok corpus)
    (hc : c.command = some .listClasses)
    (htakes : rt.console.Takes (classesTable (corpus.rendering c.allowed c.mode).classes)) :
    Program.runConfig rt t (.discover c) =
      { tree := t, stdout := classesTable (corpus.rendering c.allowed c.mode).classes } := by
  have hrefusal := Encoding.refusal?_eq_none_iff.mpr htakes
  simp only [Corpus.rendering] at hrefusal
  simp only [Program.runConfig, discover_listClasses hload hc, hrefusal]
  rfl

theorem runConfig_info (hload : Corpus.load rt.loader t c.docsDir = .ok corpus) (hc : c.command = some .info)
    (hname : c.infoClass = some name)
    (hdoc : (corpus.rendering c.allowed c.mode).classes.get? name = some doc)
    (htakes : rt.console.Takes ((corpus.rendering c.allowed c.mode).showClass name doc).detail) :
    Program.runConfig rt t (.discover c) =
      { tree := t, stdout := ((corpus.rendering c.allowed c.mode).showClass name doc).detail } := by
  have hdescribe := RenderContext.describe_of_class hdoc
  have hrefusal := Encoding.refusal?_eq_none_iff.mpr htakes
  simp only [Corpus.rendering] at hdescribe hrefusal
  simp only [Program.runConfig, discover_info hload hc hname, hdescribe, Except.mapError, hrefusal]
  rfl

theorem runConfig_info_refused (hload : Corpus.load rt.loader t c.docsDir = .ok corpus)
    (hc : c.command = some .info) (hname : c.infoClass = some name)
    (hdoc : (corpus.rendering c.allowed c.mode).classes.get? name = none) :
    Program.runConfig rt t (.discover c) =
      { tree := t, stderr := refusalText name, ending := .exited 1 } := by
  have hdescribe := RenderContext.describe_of_none hdoc
  simp only [Corpus.rendering] at hdescribe
  simp only [Program.runConfig, discover_info hload hc hname, hdescribe, Except.mapError]

end Discover

/-- The discovery commands and the block show the same classes. The table has a row for each wrapper, in
the order of the wrappers, and ends with their number; a class is refused exactly if it has no wrapper,
and its details give its parents and the number of its properties, and each property by the key and type
that stand in its declaration, or in flattened mode in the parameter of its wrapper. -/
theorem discovery_shows_block (rt : Runtime) (t : FileTree) (docsDir : Path) (allowed : List String)
    (mode : TypeMode) (comments : Bool) (corpus : Corpus) (block : GeneratedBlock)
    (hconsole : ∀ text, rt.console.Takes text) (hload : Corpus.load rt.loader t docsDir = .ok corpus)
    (hblock : ((corpus.rendering allowed mode).buildBlock comments).2 = .ok block) :
    let shown := (corpus.rendering allowed mode).shown
    let width := nameWidth (prune corpus.classes allowed).2
    let ask (command : DiscoveryCommand) (infoClass : Option String) : Outcome :=
      Program.runConfig rt t (.discover { command := some command, infoClass, docsDir, allowed, mode })
    block.text = "-- BEGIN AUTOGEN\n-- Types\n" ++ String.join (ShownClass.declarations mode shown) ++
      "-- Code\n" ++ String.join (shown.map (ShownClass.stub mode comments)) ++ "-- END AUTOGEN" ∧
    block.stubCount = shown.length ∧
    (∀ infoClass, ask .listClasses infoClass =
      { tree := t, stdout := ShownClass.table width (shown.map (ShownClass.row width)) block.stubCount }) ∧
    (∀ x, (ask .info (some x)).ending = .exited 1 ↔ x ∉ shown.map ShownClass.name) ∧
    (∀ x, x ∉ shown.map ShownClass.name →
      ask .info (some x) = { tree := t, stderr := refusalText x, ending := .exited 1 }) ∧
    ∀ s ∈ shown, ask .info (some s.name) = { tree := t, stdout := s.detail } := by
  intro shown width ask
  obtain ⟨htext, hcount⟩ := RenderContext.block_of_shown hblock
  have hlist : ∀ infoClass, ask .listClasses infoClass =
      { tree := t
        stdout := ShownClass.table width (shown.map (ShownClass.row width)) block.stubCount } := by
    intro infoClass
    rw [hcount]
    refine (runConfig_listClasses hload rfl (hconsole _)).trans ?_
    rw [RenderContext.classesTable_eq]
    rfl
  have hrefused : ∀ x, x ∉ shown.map ShownClass.name →
      ask .info (some x) = { tree := t, stderr := refusalText x, ending := .exited 1 } := by
    intro x hx
    rw [RenderContext.map_name_shown, ← OrderedMap.get?_eq_none_iff] at hx
    exact runConfig_info_refused hload rfl rfl hx
  have hdetail : ∀ s ∈ shown, ask .info (some s.name) = { tree := t, stdout := s.detail } := by
    intro s hs
    obtain ⟨x, c, hc, rfl⟩ := RenderContext.mem_shown.mp hs
    exact runConfig_info hload rfl rfl hc (hconsole _)
  refine ⟨htext, hcount, hlist, fun x => ⟨fun h hx => ?_, fun hx => ?_⟩, hrefused, hdetail⟩
  · obtain ⟨s, hs, rfl⟩ := List.mem_map.mp hx
    rw [hdetail s hs] at h
    cases h
  · rw [hrefused x hx]

theorem exists_block_small :
    ∃ block, ((smallCorpus.rendering defaultAllowed .named).buildBlock false).2 = .ok block :=
  RenderContext.exists_block (by decide +kernel)

theorem discovery_shows_block_reserved_key :
    let ask (command : DiscoveryCommand) (infoClass : Option String) : Outcome :=
      Program.runConfig {} smallTree (.discover
        { command := some command, infoClass, docsDir := .ofText "docs", allowed := defaultAllowed
          mode := .named })
    Corpus.load Yaml.load smallTree (.ofText "docs") = .ok smallCorpus ∧
    (∃ block, ((smallCorpus.rendering defaultAllowed .named).buildBlock false).2 = .ok block ∧
      block.stubCount = 2) ∧
    (ask .listClasses none).stdout = "Class      Props  Inherits\n---------  -----  --------\n" ++
      "Base           0  -\nGuiObject      1  Base\n\n2 classes\n" ∧
    (ask .info (some "GuiObject")).stdout =
      "GuiObject\n\n  Inherits: Base\n  Properties (1):\n    [\"end\"]: Enum.Style\n" ∧
    (ask .info (some "Part")).ending = .exited 1 := by
  intro ask
  obtain ⟨block, hblock⟩ := exists_block_small
  obtain ⟨-, hcount, hlist, hrefused, -, hdetail⟩ := discovery_shows_block {} smallTree
    (.ofText "docs") defaultAllowed .named false smallCorpus block Encoding.takes_total load_smallTree hblock
  let gui : ShownClass :=
    { name := "GuiObject"
      doc := { name := "GuiObject", inherits := ["Base"], properties := [⟨"end", "Style"⟩] }
      properties := [("[\"end\"]", "Enum.Style")] }
  have hshown : (smallCorpus.rendering defaultAllowed .named).shown =
      [⟨"Base", { name := "Base" }, []⟩, gui] := by decide +kernel
  have hwidth : nameWidth (prune smallCorpus.classes defaultAllowed).2 = 9 := by decide +kernel
  rw [hshown] at hcount hlist hrefused hdetail
  rw [hwidth, hcount] at hlist
  refine ⟨load_smallTree, ⟨block, hblock, hcount⟩, ?_, ?_, (hrefused "Part").mpr (by decide)⟩
  · refine (congrArg Outcome.stdout (hlist none)).trans ?_
    decide +kernel
  · refine (congrArg Outcome.stdout (hdetail gui (by simp))).trans ?_
    decide +kernel

end LuauBindings
