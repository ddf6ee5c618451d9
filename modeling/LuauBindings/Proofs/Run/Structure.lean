import LuauBindings.Proofs.Corpus.Structure
import LuauBindings.Proofs.Hierarchy.Merge
import LuauBindings.Proofs.Render.Marker
import LuauBindings.Proofs.Render.Table
import LuauBindings.Proofs.Run.Generate

/-!
# What a build without comments depends on

Of a class nothing but its parents and properties is read until comments are written, and of the enums only
which of the types in use are among them. `ClassMap.bare` leaves out all the rest. Pruning and rendering do the
same to the bare classes as to the classes (`prune_bare`, `declarations_bare`, `stubs_bare`), so classes of one
structure, which are the same when bare, give one block and one build.
-/

namespace LuauBindings
variable {classes others : ClassMap} {name : String}

/-- The class without its name and texts. -/
def ClassDoc.bare (c : ClassDoc) : ClassDoc :=
  { name := "", inherits := c.inherits, properties := c.properties }

namespace ClassMap

/-- The classes without their texts. -/
def bare (classes : ClassMap) : ClassMap :=
  classes.mapValues fun _ c => c.bare

/-- The same names stand in the same order, for classes with the same parents and the same properties. -/
def SameStructure (classes others : ClassMap) : Prop :=
  List.Forall₂ (fun e e' => e.1 = e'.1 ∧ e.2.inherits = e'.2.inherits ∧ e.2.properties = e'.2.properties)
    classes.entries others.entries

/-- Some class has a property of this type. -/
def UsesType (classes : ClassMap) (type : String) : Prop :=
  ∃ e ∈ classes.entries, ∃ p ∈ e.2.properties, p.type = type

theorem bare_eq_iff : classes.bare = others.bare ↔ classes.SameStructure others := by
  have hentry (e e' : String × ClassDoc) : (e.1, e.2.bare) = (e'.1, e'.2.bare) ↔
      e.1 = e'.1 ∧ e.2.inherits = e'.2.inherits ∧ e.2.properties = e'.2.properties := by
    simp [ClassDoc.bare]
  rw [OrderedMap.ext_iff, bare, bare, OrderedMap.mapValues, OrderedMap.mapValues, ← List.forall₂_eq_eq_eq,
    List.forall₂_map_left_iff, List.forall₂_map_right_iff]
  simp only [hentry]
  rfl

theorem get?_bare : classes.bare.get? name = (classes.get? name).map ClassDoc.bare :=
  OrderedMap.get?_mapValues

theorem preorder_bare (name : String) : preorder classes.bare name = preorder classes name :=
  preorder_mapValues (f := fun _ c => c.bare) (fun _ _ => rfl) name

theorem allProperties_bare (name : String) : allProperties classes.bare name = allProperties classes name := by
  rw [allProperties, allProperties, preorder_bare]
  refine List.foldl_ext _ _ _ fun props n _ => ?_
  rw [get?_bare]
  cases classes.get? n <;> rfl

theorem ofClasses_bare (classes : ClassMap) :
    InheritIndex.ofClasses classes.bare = InheritIndex.ofClasses classes := by
  have hparents : classes.bare.mapValues (fun _ c => c.inherits) = classes.mapValues fun _ c => c.inherits := by
    apply OrderedMap.ext
    simp [bare, OrderedMap.mapValues, ClassDoc.bare]
  simp only [InheritIndex.ofClasses, hparents]
  simp only [bare, OrderedMap.mapValues, List.foldl_map, ClassDoc.bare]

theorem prune_bare (classes : ClassMap) (allowed : List String) :
    prune classes.bare allowed = ((prune classes allowed).1, (prune classes allowed).2.bare) := by
  have hkeys : classes.bare.keys = classes.keys := OrderedMap.keys_mapValues ..
  have hleft (p : String → Bool) : classes.bare.filterKeys p = ClassMap.bare (classes.filterKeys p) :=
    OrderedMap.filterKeys_mapValues ..
  have hsize (m : ClassMap) : m.bare.size = m.size := List.length_map _
  simp only [prune, inheritClosure, ofClasses_bare, hleft, hsize, hkeys]
  rfl

theorem SameStructure.prune (h : classes.SameStructure others) (allowed : List String) :
    (LuauBindings.prune others allowed).1 = (LuauBindings.prune classes allowed).1 ∧
    (LuauBindings.prune classes allowed).2.SameStructure (LuauBindings.prune others allowed).2 := by
  have hboth := prune_bare classes allowed
  rw [bare_eq_iff.mpr h, prune_bare] at hboth
  obtain ⟨hstats, hleft⟩ := Prod.mk.inj hboth
  exact ⟨hstats, bare_eq_iff.mp hleft.symm⟩

theorem usesType_of_own {c : ClassDoc} {k type : String} (hc : classes.get? name = some c)
    (h : (ownProperties c).get? k = some type) : classes.UsesType type := by
  rw [get?_ownProperties, Option.map_eq_some_iff] at h
  obtain ⟨p, hp, rfl⟩ := h
  have hmem := (List.mem_filter.mp (List.mem_of_getLast? hp)).1
  exact ⟨(name, c), OrderedMap.get?_eq_some_iff.mp hc, p, hmem, rfl⟩

theorem usesType_of_propertiesOf {mode : TypeMode} {c : ClassDoc} {e : String × String}
    (hc : classes.get? name = some c) (he : e ∈ (mode.propertiesOf classes name c).entries) :
    classes.UsesType e.2 := by
  have hget := OrderedMap.get?_eq_some_iff.mpr he
  cases mode with
  | named => exact usesType_of_own hc hget
  | flattened =>
    obtain ⟨n, d, hd, -, hown⟩ := exists_of_get?_allProperties hget
    exact usesType_of_own hd hown

theorem usesType_of_prune {allowed : List String} {type : String}
    (h : (LuauBindings.prune classes allowed).2.UsesType type) : classes.UsesType type := by
  obtain ⟨e, he, hp⟩ := h
  exact ⟨e, prune_sublist.subset he, hp⟩

end ClassMap

theorem tableType_congr_enums {props : PropertyMap} {enums enums' : NameSet}
    (h : ∀ e ∈ props.entries, e.2 ∈ enums' ↔ e.2 ∈ enums) : tableType props enums' = tableType props enums := by
  refine tableType_congr (List.map_congr_left fun e he => ?_)
  simp only [luauType, h e he]

namespace RenderContext
variable {ctx : RenderContext} {c : ClassDoc} {enums : NameSet}

/-- The context with nothing of its classes but what they are rendered from. -/
def bare (ctx : RenderContext) : RenderContext :=
  { ctx with classes := ctx.classes.bare }

theorem contentsOf_bare (ctx : RenderContext) (name : String) (c : ClassDoc) :
    ctx.bare.contentsOf name c.bare = ctx.contentsOf name c := by
  cases hmode : ctx.mode with
  | named =>
    have hbare : ctx.bare.mode = .named := hmode
    rw [contentsOf_named hmode, contentsOf_named hbare]
    rfl
  | flattened =>
    have hbare : ctx.bare.mode = .flattened := hmode
    rw [contentsOf_flattened hmode, contentsOf_flattened hbare, bare, ClassMap.allProperties_bare]

theorem declarations_bare (ctx : RenderContext) : ctx.bare.declarations = ctx.declarations := by
  cases hmode : ctx.mode with
  | named =>
    have hbare : ctx.bare.mode = .named := hmode
    rw [declarations_named hmode, declarations_named hbare]
    simp only [bare, ClassMap.bare, OrderedMap.mapValues, List.map_map]
    exact List.map_congr_left fun e _ =>
      congrArg (TypeMode.named.declaration e.1) (ctx.contentsOf_bare e.1 e.2)
  | flattened =>
    have hbare : ctx.bare.mode = .flattened := hmode
    rw [declarations_flattened hmode, declarations_flattened hbare]

theorem stubs_bare (ctx : RenderContext) : ctx.bare.stubs false = ctx.stubs false := by
  simp only [stubs, bare, ClassMap.bare, OrderedMap.mapValues, List.map_map]
  refine List.map_congr_left fun e _ => ?_
  rw [Function.comp_apply, ← ctx.contentsOf_bare e.1 e.2]
  rfl

theorem block_bare (ctx : RenderContext) : (ctx.bare.buildBlock false).2 = (ctx.buildBlock false).2 := by
  rw [block_eq_ofParts, block_eq_ofParts, declarations_bare, stubs_bare]

theorem contentsOf_congr_enums (h : ∀ type, ctx.classes.UsesType type → (type ∈ enums ↔ type ∈ ctx.enums))
    (hc : ctx.classes.get? name = some c) : contentsOf { ctx with enums } name c = ctx.contentsOf name c := by
  have htable : tableType (ctx.mode.propertiesOf ctx.classes name c) enums =
      tableType (ctx.mode.propertiesOf ctx.classes name c) ctx.enums :=
    tableType_congr_enums fun e he => h e.2 (ClassMap.usesType_of_propertiesOf hc he)
  rw [contentsOf, contentsOf]
  exact congrArg (· ++ String.join (ctx.mode.references c)) htable

theorem block_congr_enums (h : ∀ type, ctx.classes.UsesType type → (type ∈ enums ↔ type ∈ ctx.enums))
    (comments : Bool) : (buildBlock { ctx with enums } comments).2 = (ctx.buildBlock comments).2 := by
  have hcontents : ∀ e ∈ ctx.classes.entries, contentsOf { ctx with enums } e.1 e.2 = ctx.contentsOf e.1 e.2 :=
    fun e he => contentsOf_congr_enums h (OrderedMap.get?_eq_some_iff.mpr he)
  have hdeclarations : declarations { ctx with enums } = ctx.declarations := by
    obtain hmode | hmode : ctx.mode = .named ∨ ctx.mode = .flattened := by cases ctx.mode <;> simp
    · have hnext : RenderContext.mode { ctx with enums } = .named := hmode
      rw [declarations_named hmode, declarations_named hnext]
      exact List.map_congr_left fun e he => by rw [hcontents e he]
    · have hnext : RenderContext.mode { ctx with enums } = .flattened := hmode
      rw [declarations_flattened hmode, declarations_flattened hnext]
  have hstubs : stubs { ctx with enums } comments = ctx.stubs comments :=
    List.map_congr_left fun e he => by rw [hcontents e he]
  rw [block_eq_ofParts, block_eq_ofParts, hdeclarations, hstubs]

end RenderContext

namespace Corpus
variable {a b : Corpus}

/-- The classes of two corpora have one structure, and of the types in use the enums are the same. -/
structure SameStructure (a b : Corpus) : Prop where
  classes : a.classes.SameStructure b.classes
  enums : ∀ type, a.classes.UsesType type → (type ∈ b.enums ↔ type ∈ a.enums)

/-- The corpus with the classes that `allowed` leads to. -/
def pruned (corpus : Corpus) (allowed : List String) : Corpus :=
  { corpus with classes := (prune corpus.classes allowed).2 }

/-- The context to render a corpus in. -/
def context (corpus : Corpus) (mode : TypeMode) : RenderContext :=
  { classes := corpus.classes, enums := corpus.enums, mode }

theorem context_pruned (corpus : Corpus) (c : GenerateConfig) :
    Generate.context corpus c = ((prune corpus.classes c.allowed).1, (corpus.pruned c.allowed).context c.mode) :=
  rfl

theorem SameStructure.pruned (h : a.SameStructure b) (allowed : List String) :
    (a.pruned allowed).SameStructure (b.pruned allowed) where
  classes := (h.classes.prune allowed).2
  enums type htype := h.enums type (ClassMap.usesType_of_prune htype)

theorem SameStructure.block_eq (h : a.SameStructure b) (mode : TypeMode) :
    ((b.context mode).buildBlock false).2 = ((a.context mode).buildBlock false).2 := by
  have hbare : RenderContext.bare { a.context mode with enums := b.enums } = (b.context mode).bare := by
    simp only [RenderContext.bare, context, ClassMap.bare_eq_iff.mpr h.classes]
  rw [← RenderContext.block_bare, ← hbare, RenderContext.block_bare]
  have henums : ∀ type, (a.context mode).classes.UsesType type →
      (type ∈ b.enums ↔ type ∈ (a.context mode).enums) := h.enums
  exact RenderContext.block_congr_enums henums false

/-- Runs over corpora of one structure leave the same tree, and the summaries differ in the number of enums
alone, on a console that takes whatever is printed. -/
theorem SameStructure.afterLoading (h : a.SameStructure b) {rt : Runtime} {c : GenerateConfig}
    (hcomments : c.comments = false) (hconsole : ∀ text, rt.console.Takes text) (t : FileTree) (printed : String) :
    (Generate.afterLoading rt t c printed b).tree = (Generate.afterLoading rt t c printed a).tree ∧
    (Generate.afterLoading rt t c printed b).result.map (fun s => { s with enumCount := 0 }) =
      (Generate.afterLoading rt t c printed a).result.map fun s => { s with enumCount := 0 } := by
  have hblock := (h.pruned c.allowed).block_eq c.mode
  have hstats := (h.classes.prune c.allowed).1
  have hsize : b.classes.size = a.classes.size := h.classes.length_eq.symm
  unfold Generate.afterLoading
  simp only [context_pruned, hcomments, hstats, Generate.print_of_takes (hconsole _)]
  generalize ((a.pruned c.allowed).context c.mode).buildBlock false = run at hblock ⊢
  generalize ((b.pruned c.allowed).context c.mode).buildBlock false = run' at hblock ⊢
  obtain ⟨ctx, result⟩ := run
  obtain ⟨ctx', result'⟩ := run'
  obtain rfl : result' = result := hblock
  rcases result' with f | block
  · exact ⟨rfl, rfl⟩
  · dsimp only
    rcases Generate.build rt t c (prune a.classes c.allowed).1 block with f | build
    · exact ⟨rfl, rfl⟩
    · dsimp only [Generate.finish]
      rcases Generate.writeOutput rt t c build.source with ⟨u, e | w⟩
      · exact ⟨rfl, rfl⟩
      · simp only [Generate.print_of_takes (hconsole _), Except.map, Generate.summary, hsize, and_self]

end Corpus

open Yaml (Value)

/-- Without comments what is built depends on the structure of the classes, and on which of the types in use are
enums: pruning leaves the same classes, and the block, the suffix, the text with the block in it and the run
are the same. The structure depends in turn on the names, parents and properties in the documents. -/
theorem structure_decides_build :
    (∀ a b : Corpus, a.SameStructure b →
      (∀ allowed, (prune b.classes allowed).1 = (prune a.classes allowed).1 ∧
        (a.pruned allowed).SameStructure (b.pruned allowed)) ∧
      (∀ mode, ((b.context mode).buildBlock false).2 = ((a.context mode).buildBlock false).2 ∧
        ∀ c host,
          let suffixAndText (block : GeneratedBlock) : String × Except SpliceFault String :=
            (Generate.suffixFor c block, splice host block.text (Generate.suffixFor c block))
          ((b.context mode).buildBlock false).2.map suffixAndText =
            ((a.context mode).buildBlock false).2.map suffixAndText) ∧
      ∀ (rt : Runtime) c t printed, c.comments = false → (∀ text, rt.console.Takes text) →
        (Generate.afterLoading rt t c printed b).tree = (Generate.afterLoading rt t c printed a).tree ∧
        (Generate.afterLoading rt t c printed b).result.map (fun s => { s with enumCount := 0 }) =
          (Generate.afterLoading rt t c printed a).result.map fun s => { s with enumCount := 0 }) ∧
    ∀ entries others, Value.SameStructure entries others →
      (∀ key ∈ ["description", "summary"], Value.MayBeText key entries ∧ Value.MayBeText key others) →
      (∃ c d, ClassDoc.ofValue (.map entries) = .ok c ∧ ClassDoc.ofValue (.map others) = .ok d ∧
        d.name = c.name ∧ d.inherits = c.inherits ∧ d.properties = c.properties) ∨
      ∃ f, ClassDoc.ofValue (.map entries) = .error f ∧ ClassDoc.ofValue (.map others) = .error f := by
  constructor
  · intro a b h
    refine ⟨fun allowed => ?_, fun mode => ?_, fun rt c t printed hcomments hconsole => ?_⟩
    · exact ⟨(h.classes.prune allowed).1, h.pruned allowed⟩
    · refine ⟨h.block_eq mode, fun c host => ?_⟩
      dsimp only
      rw [h.block_eq mode]
    · exact h.afterLoading hcomments hconsole t printed
  · intro entries others h htexts
    exact ClassDoc.ofValue_of_sameStructure h htexts

/-- A corpus of two classes, with what is written about the first. -/
def frameCorpus (description : String) (enums : List String) : Corpus where
  classes := .ofList
    [("Frame", { name := "Frame", properties := [⟨"Frame.Font", "Font"⟩], description }),
      ("Panel", { name := "Panel", inherits := ["Frame"] })]
  enums := .ofList enums

theorem sameStructure_frameCorpus (description description' : String) :
    (frameCorpus description ["Font"]).SameStructure (frameCorpus description' ["Axis", "Font"]) where
  classes := .cons ⟨rfl, rfl, rfl⟩ (.cons ⟨rfl, rfl, rfl⟩ .nil)
  enums := by
    rintro type ⟨e, he, p, hp, rfl⟩
    rcases List.mem_pair.mp he with rfl | rfl
    · obtain rfl := List.mem_singleton.mp hp
      change "Font" ∈ NameSet.ofList ["Axis", "Font"] ↔ "Font" ∈ NameSet.ofList ["Font"]
      decide
    · cases hp

/-- The entries of a document of a class, with a description and with what is noted of its property. -/
def frameDocument (description : Value) (note : List (Value × Value)) : List (Value × Value) :=
  [(.str "name", .str "Frame"), (.str "description", description),
    (.str "properties", .list [.map (note ++ [(.str "name", .str "Frame.Font"), (.str "type", .str "Font")])])]

theorem exists_block_frame : ∃ block,
    (((frameCorpus "A frame" ["Font"]).context .flattened).buildBlock false).2 = .ok block :=
  RenderContext.exists_block (by decide +kernel)

theorem structure_decides_build_frame :
    (frameCorpus "A frame" ["Font"]).SameStructure (frameCorpus "-- AUTOGEN" ["Axis", "Font"]) ∧
    (∃ block, (((frameCorpus "A frame" ["Font"]).context .flattened).buildBlock false).2 = .ok block ∧
      (((frameCorpus "-- AUTOGEN" ["Axis", "Font"]).context .flattened).buildBlock false).2 = .ok block) ∧
    ∃ c d, ClassDoc.ofValue (.map (frameDocument (.str "A frame") [])) = .ok c ∧
      ClassDoc.ofValue (.map (frameDocument .null [(.str "tags", .int 3)])) = .ok d ∧
      d.properties = c.properties := by
  have hcorpora := sameStructure_frameCorpus "A frame" "-- AUTOGEN"
  have hdocuments : Value.SameStructure (frameDocument (.str "A frame") [])
      (frameDocument .null [(.str "tags", .int 3)]) :=
    ⟨rfl, rfl, .lists rfl rfl (.cons (.mappings rfl rfl rfl rfl) .nil)⟩
  have htexts : ∀ key ∈ ["description", "summary"],
      Value.MayBeText key (frameDocument (.str "A frame") []) ∧
      Value.MayBeText key (frameDocument .null [(.str "tags", .int 3)]) := by
    intro key hkey
    rcases List.mem_pair.mp hkey with rfl | rfl
    · exact ⟨.inr ⟨"A frame", rfl⟩, .inl rfl⟩
    · exact ⟨.inl rfl, .inl rfl⟩
  obtain ⟨hbuilds, hreads⟩ := structure_decides_build
  obtain ⟨-, hblocks, -⟩ := hbuilds _ _ hcorpora
  obtain ⟨block, hblock⟩ := exists_block_frame
  refine ⟨hcorpora, ⟨block, hblock, (hblocks .flattened).1.trans hblock⟩, ?_⟩
  rcases hreads _ _ hdocuments htexts with ⟨c, d, hc, hd, -, -, hproperties⟩ | ⟨f, hf, -⟩
  · exact ⟨c, d, hc, hd, hproperties⟩
  · cases hf

end LuauBindings
