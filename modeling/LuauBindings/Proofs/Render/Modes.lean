import LuauBindings.Corpus.Load
import LuauBindings.Proofs.Hierarchy.Inherited
import LuauBindings.Proofs.Render.Marker
import LuauBindings.Proofs.Render.Reference

/-!
# The two modes describe the same properties

In named mode a class's type ends with references to the types of its parents. Following them from
class to class meets the classes that the inheritance relation leads up to (`RenderContext.meets_iff`),
and these are the classes whose properties the flattened type of the class merges. A reference leads
out of the block only to a name of no class: pruning has kept every parent that is one.

The references are read off the text, so all this is about classes whose parents have no mark ` & _` in
their names. A parent with such a name may be read as a class that it has nothing to do with
(`parent_read_as_two`).
-/

namespace LuauBindings
open Relation

namespace RenderContext
variable {ctx built : RenderContext} {x y p : String} {c : ClassDoc}

/-- Behind its table type, the type of the class `x` refers to the type of `p`. -/
def RefersTo (built : RenderContext) (x p : String) : Prop :=
  ∃ c rest, built.classes.get? x = some c ∧
    built.contents.get? x = some (tableType (ownProperties c) built.enums ++ rest) ∧ Mentions rest p

/-- Following references from `x` to classes of the block comes to `y`. -/
def Meets (built : RenderContext) (x y : String) : Prop :=
  ReflTransGen (fun a b => built.RefersTo a b ∧ b ∈ built.classes.keys) x y

/-- `props` are the properties of the classes met from `x`: they have the own keys of these classes,
each with the type that one of them gives it. -/
structure Merges (built : RenderContext) (x : String) (props : PropertyMap) : Prop where
  mem_keys_iff : ∀ k, k ∈ props.keys ↔
    ∃ y c, built.Meets x y ∧ built.classes.get? y = some c ∧ k ∈ (ownProperties c).keys
  exists_own : ∀ k t, props.get? k = some t →
    ∃ y c, built.Meets x y ∧ built.classes.get? y = some c ∧ (ownProperties c).get? k = some t

/-- No class met from `x` has a parent with a mark in its name. -/
def ReadsPlainly (built : RenderContext) (x : String) : Prop :=
  ∀ y c, built.Meets x y → built.classes.get? y = some c → c.PlainParents

theorem fst_buildBlock (ctx : RenderContext) (comments : Bool) : (ctx.buildBlock comments).1 = ctx.rendered :=
  congrArg Prod.fst (ctx.buildBlock_eq comments)

theorem readsPlainly_of_forall (ctx : RenderContext) (h : ∀ e ∈ ctx.classes.entries, e.2.PlainParents)
    (comments : Bool) (x : String) : (ctx.buildBlock comments).1.ReadsPlainly x := by
  rw [fst_buildBlock]
  exact fun y c _ hc => h (y, c) (OrderedMap.get?_eq_some_iff.mp hc)

theorem Merges.get?_eq {props : PropertyMap} {k t : String} (h : built.Merges x props)
    (hk : k ∈ props.keys) (hagree : ∀ y c u, built.Meets x y → built.classes.get? y = some c →
      (ownProperties c).get? k = some u → u = t) : props.get? k = some t := by
  obtain ⟨u, hu⟩ := OrderedMap.exists_get? hk
  obtain ⟨y, c, hy, hc, hown⟩ := h.exists_own k u hu
  rw [hu, hagree y c u hy hc hown]

theorem get?_contents_named (hmode : ctx.mode = .named) (hc : ctx.classes.get? x = some c) :
    ctx.rendered.contents.get? x =
      some (tableType (ownProperties c) ctx.enums ++ referenceText c.inherits) := by
  rw [get?_contents_rendered hc, contentsOf_named hmode, join_references_named]

theorem refersTo_iff_mentions (hmode : ctx.mode = .named) (hc : ctx.classes.get? x = some c) :
    ctx.rendered.RefersTo x p ↔ Mentions (referenceText c.inherits) p := by
  constructor
  · rintro ⟨d, rest, hd, hrest, hmentions⟩
    have hd : ctx.classes.get? x = some d := hd
    obtain rfl : d = c := Option.some.inj (hd.symm.trans hc)
    rw [get?_contents_named hmode hc, Option.some_inj] at hrest
    rwa [(String.append_right_inj _).mp hrest]
  · exact fun h => ⟨c, _, hc, get?_contents_named hmode hc, h⟩

theorem refersTo_iff (hmode : ctx.mode = .named) (hc : ctx.classes.get? x = some c)
    (hplain : c.PlainParents) : ctx.rendered.RefersTo x p ↔ p ∈ c.inherits := by
  rw [refersTo_iff_mentions hmode hc, mentions_referenceText_iff hplain]

/-- In a text whose table type has no mark, the references are those of the whole text. -/
theorem refersTo_iff_mentions_contents (hmode : ctx.mode = .named) (hc : ctx.classes.get? x = some c)
    (htable : Text.contains (tableType (ownProperties c) ctx.enums) " & _" = false) :
    ctx.rendered.RefersTo x p ↔
      Mentions (tableType (ownProperties c) ctx.enums ++ referenceText c.inherits) p := by
  rw [refersTo_iff_mentions hmode hc, mentions_append_referenceText_iff htable]

theorem meets_iff (hmode : ctx.mode = .named) (hx : x ∈ ctx.classes.keys)
    (hplain : ctx.rendered.ReadsPlainly x) :
    ctx.rendered.Meets x y ↔ y ∈ ctx.classes.keys ∧ ReflTransGen ctx.classes.Lists x y := by
  constructor
  · intro h
    induction h with
    | refl => exact ⟨hx, .refl⟩
    | @tail b y hmeets hstep ih =>
      obtain ⟨c, hc⟩ := OrderedMap.exists_get? ih.1
      exact ⟨hstep.2, ih.2.tail ⟨c, hc, (refersTo_iff hmode hc (hplain b c hmeets hc)).mp hstep.1⟩⟩
  · rintro ⟨hy, hpath⟩
    induction hpath with
    | refl => exact .refl
    | @tail b y _ hstep ih =>
      have hmeets := ih hstep.mem_keys
      obtain ⟨c, hc, hlisted⟩ := hstep
      exact hmeets.tail ⟨(refersTo_iff hmode hc (hplain b c hmeets hc)).mpr hlisted, hy⟩

theorem merges_allProperties (hmode : ctx.mode = .named) (hx : x ∈ ctx.classes.keys)
    (hplain : ctx.rendered.ReadsPlainly x) :
    ctx.rendered.Merges x (allProperties ctx.classes x) := by
  have hmeets : ∀ {y c}, ctx.classes.get? y = some c → ReflTransGen ctx.classes.Lists x y →
      ctx.rendered.Meets x y := fun hc hpath =>
    (meets_iff hmode hx hplain).mpr ⟨OrderedMap.mem_keys_of_get? hc, hpath⟩
  refine ⟨fun k => ?_, fun k t hk => ?_⟩
  · rw [mem_keys_allProperties]
    constructor
    · rintro ⟨y, c, hc, hpath, hown⟩
      exact ⟨y, c, hmeets hc hpath, hc, hown⟩
    · rintro ⟨y, c, hy, hc, hown⟩
      exact ⟨y, c, hc, ((meets_iff hmode hx hplain).mp hy).2, hown⟩
  · obtain ⟨y, c, hc, hpath, hown⟩ := exists_of_get?_allProperties hk
    exact ⟨y, c, hmeets hc hpath, hc, hown⟩

theorem mem_keys_of_inherits {classes : ClassMap} {allowed : List String}
    (hc : (LuauBindings.prune classes allowed).2.get? x = some c) (hp : p ∈ c.inherits)
    (hloaded : p ∈ classes.keys) : p ∈ (LuauBindings.prune classes allowed).2.keys := by
  have hlists : (LuauBindings.prune classes allowed).2.Lists x p := ⟨c, hc, hp⟩
  have hx := (mem_keys_prune.mp hlists.mem_keys).2
  exact mem_keys_prune.mpr ⟨hloaded, hx.step (ClassMap.lists_of_sublist prune_sublist hlists)⟩

end RenderContext

/-- The declarations of named types, written out. -/
def declarationTexts (classes : ClassMap) (enums : NameSet) : List String :=
  classes.entries.map fun e => "type _" ++ e.1 ++ "Props = " ++
    (tableType (ownProperties e.2) enums ++ referenceText e.2.inherits) ++ "\n"

theorem not_declared {classes : ClassMap} {enums : NameSet} {p : String}
    (h : ∀ d ∈ declarationTexts classes enums, ¬ ("type _" ++ p).toList <+: d.toList) (contents : String) :
    "type _" ++ p ++ "Props = " ++ contents ++ "\n" ∉ declarationTexts classes enums := by
  intro hmem
  refine h _ hmem ⟨("Props = " ++ contents ++ "\n").toList, ?_⟩
  simp only [String.toList_append, List.append_assoc]

/-- The wrappers of the classes, written out. -/
def stubTexts (classes : ClassMap) (comments : Bool) (propsType : String → String) : List String :=
  classes.entries.map fun e =>
    stubText e.1 (propsType e.1) (if comments then some e.2.description else none)

theorem exists_declaration {classes : ClassMap} {enums : NameSet} {p : String} (hp : p ∈ classes.keys) :
    ∃ contents, "type _" ++ p ++ "Props = " ++ contents ++ "\n" ∈ declarationTexts classes enums := by
  obtain ⟨e, he, rfl⟩ := List.mem_map.mp hp
  exact ⟨_, List.mem_map_of_mem he⟩

namespace RenderContext
variable {ctx : RenderContext}

theorem declarations_eq_declarationTexts (hmode : ctx.mode = .named) :
    ctx.declarations = declarationTexts ctx.classes ctx.enums := by
  rw [declarations_named hmode]
  refine List.map_congr_left fun e _ => ?_
  have hhead : "type _" = "type " ++ "_" := by decide
  have hname : "Props = " = "Props" ++ " = " := by decide
  rw [contentsOf_named hmode, join_references_named, TypeMode.declaration, propsTypeName, hhead, hname]
  simp only [String.append_assoc]

theorem stubs_eq_stubTexts_named (hmode : ctx.mode = .named) (comments : Bool) :
    ctx.stubs comments = stubTexts ctx.classes comments fun x => "_" ++ x ++ "Props" := by
  rw [stubs_named hmode]
  exact List.map_congr_left fun e _ => wrapper_eq_stubText ..

theorem stubs_eq_stubTexts_flattened (hmode : ctx.mode = .flattened) (comments : Bool) :
    ctx.stubs comments = stubTexts ctx.classes comments fun x =>
      tableType (allProperties ctx.classes x) ctx.enums := by
  rw [stubs_flattened hmode]
  exact List.map_congr_left fun e _ => wrapper_eq_stubText ..

end RenderContext

/-- Named and flattened mode of the classes left after pruning. If no class that is met from `x` by following
the references of the named types has a parent with a mark in its name, the flattened properties of `x`
have the own keys of these classes, each with the type that one of them gives it. And if `x` has no such
parent, a reference without a declaration is to no class of the corpus. Both modes have a wrapper for every
class in order; there is a declaration for every class in named mode and none in flattened mode. -/
theorem named_and_flattened_agree (corpus : Corpus) (allowed : List String) (comments : Bool) :
    let left := (prune corpus.classes allowed).2
    let context (mode : TypeMode) : RenderContext := { classes := left, enums := corpus.enums, mode }
    let named := ((context .named).buildBlock comments).1
    let flattened := ((context .flattened).buildBlock comments).1
    let flattenedType (x : String) : String := tableType (allProperties left x) corpus.enums
    let block (declarations stubs : List String) : Except BlockFault GeneratedBlock :=
      let text := "-- BEGIN AUTOGEN\n-- Types\n" ++ String.join declarations ++ "-- Code\n" ++
        String.join stubs ++ "-- END AUTOGEN"
      if Text.contains text "-- AUTOGEN" then .error .holdsMarker
      else .ok ⟨text, declarations.length, stubs.length⟩
    (∀ x c, left.get? x = some c →
      let table := tableType (ownProperties c) corpus.enums
      named.contents.get? x = some (table ++ referenceText c.inherits) ∧
      flattened.contents.get? x = some (flattenedType x) ∧
      (Text.contains table " & _" = false →
        ∀ p, named.RefersTo x p ↔ Mentions (table ++ referenceText c.inherits) p) ∧
      (named.ReadsPlainly x → named.Merges x (allProperties left x) ∧
        ∀ k t, k ∈ (allProperties left x).keys → (∀ y d u, named.Meets x y → left.get? y = some d →
          (ownProperties d).get? k = some u → u = t) → (allProperties left x).get? k = some t) ∧
      (c.PlainParents → ∀ p, named.RefersTo x p →
        (∀ contents, "type _" ++ p ++ "Props = " ++ contents ++ "\n" ∉ declarationTexts left corpus.enums) →
        p ∉ corpus.classes.keys)) ∧
    ((context .named).buildBlock comments).2 = block (declarationTexts left corpus.enums)
      (stubTexts left comments fun x => "_" ++ x ++ "Props") ∧
    ((context .flattened).buildBlock comments).2 = block [] (stubTexts left comments flattenedType) ∧
    (∀ b, ((context .named).buildBlock comments).2 = .ok b →
      b.typeCount = left.size ∧ b.stubCount = left.size) ∧
    ∀ b, ((context .flattened).buildBlock comments).2 = .ok b →
      b.typeCount = 0 ∧ b.stubCount = left.size := by
  intro left context named flattened flattenedType block
  have hblock : ∀ declarations stubs, GeneratedBlock.ofParts declarations stubs = block declarations stubs :=
    fun _ _ => rfl
  have hnamed : named = (context .named).rendered := RenderContext.fst_buildBlock ..
  have hflattened : flattened = (context .flattened).rendered := RenderContext.fst_buildBlock ..
  have hcount (mode : TypeMode) : ∀ b, ((context mode).buildBlock comments).2 = .ok b →
      b.typeCount = (context mode).declarations.length ∧ b.stubCount = left.size := by
    intro b hb
    rw [(RenderContext.of_buildBlock hb).2]
    exact ⟨rfl, RenderContext.length_stubs ..⟩
  refine ⟨fun x c hc => ⟨?_, ?_, fun htable p => ?_, fun hplain => ?_, fun hplain p hp hnone hloaded => ?_⟩,
    ?_, ?_, fun b hb => ?_, fun b hb => ?_⟩
  · rw [hnamed]
    exact RenderContext.get?_contents_named rfl hc
  · rw [hflattened, RenderContext.get?_contents_rendered hc, RenderContext.contentsOf_flattened rfl]
  · rw [hnamed]
    exact RenderContext.refersTo_iff_mentions_contents rfl hc htable
  · rw [hnamed] at hplain ⊢
    have hmerges := RenderContext.merges_allProperties rfl (OrderedMap.mem_keys_of_get? hc) hplain
    exact ⟨hmerges, fun k t hk hagree => hmerges.get?_eq hk hagree⟩
  · rw [hnamed] at hp
    have hlisted : p ∈ c.inherits := (RenderContext.refersTo_iff rfl hc hplain).mp hp
    obtain ⟨contents, hdeclared⟩ := exists_declaration (RenderContext.mem_keys_of_inherits hc hlisted hloaded)
    exact hnone contents hdeclared
  · rw [RenderContext.block_eq_ofParts, RenderContext.declarations_eq_declarationTexts rfl,
      RenderContext.stubs_eq_stubTexts_named rfl, hblock]
  · rw [RenderContext.block_eq_ofParts, RenderContext.declarations_flattened rfl,
      RenderContext.stubs_eq_stubTexts_flattened rfl, hblock]
  · exact (hcount .named b hb).imp_left (·.trans (context .named).length_declarations)
  · exact (hcount .flattened b hb).imp_left (·.trans (context .flattened).length_declarations)

/-- "Left" has a parent that is no class. "Right" has one that reads as two, and so does the type of a
property of "Far". -/
def misreadHierarchy : ClassMap :=
  .ofList <| List.map (fun c => (c.name, c))
    [{ name := "Base", properties := [⟨"Base.Name", "string"⟩] },
      { name := "Left", inherits := ["Base", "Gone"], properties := [⟨"Left.Size", "float"⟩] },
      { name := "Right", inherits := ["BaseProps & _Base"] },
      { name := "Far", properties := [⟨"Far.Size", "int & _BaseProps & _int"⟩] }]

/-- The class "Left" inherits its name from "Base", and refers to a name of no class. -/
theorem named_and_flattened_agree_missing_parent :
    let corpus : Corpus := ⟨misreadHierarchy, .ofList ["Font"]⟩
    let left := (prune corpus.classes ["Gone"]).2
    let context (mode : TypeMode) : RenderContext := { classes := left, enums := corpus.enums, mode }
    let named := ((context .named).buildBlock false).1
    let doc : ClassDoc :=
      { name := "Left", inherits := ["Base", "Gone"], properties := [⟨"Left.Size", "float"⟩] }
    left.get? "Left" = some doc ∧ named.ReadsPlainly "Left" ∧
    named.Merges "Left" (allProperties left "Left") ∧
    (allProperties left "Left").get? "Name" = some "string" ∧
    doc.PlainParents ∧ named.RefersTo "Left" "Gone" ∧ "Gone" ∉ corpus.classes.keys ∧
    (∃ block, ((context .named).buildBlock false).2 = .ok block ∧ block.typeCount = 2) ∧
    ∃ block, ((context .flattened).buildBlock false).2 = .ok block ∧
      block.typeCount = 0 ∧ block.stubCount = 2 := by
  intro corpus left context named doc
  have hdoc : left.get? "Left" = some doc := by decide
  obtain ⟨hclasses, hnamed, hflattened, hnamedCount, hflattenedCount⟩ :=
    named_and_flattened_agree corpus ["Gone"] false
  obtain ⟨-, -, hmentions, hmerges, habsent⟩ := hclasses "Left" doc hdoc
  have hplain : ∀ e ∈ (context .named).classes.entries, e.2.PlainParents := by decide
  have hreads : named.ReadsPlainly "Left" := RenderContext.readsPlainly_of_forall (context .named) hplain false "Left"
  obtain ⟨hmerges, hagree⟩ := hmerges hreads
  have hkey : "Name" ∈ (allProperties left "Left").keys := by decide
  have hname : ∀ y d u, named.Meets "Left" y → left.get? y = some d →
      (ownProperties d).get? "Name" = some u → u = "string" := by
    intro y d u _ hd hu
    have hall : ∀ n ∈ left.keys,
        ((left.get? n).bind fun d => (ownProperties d).get? "Name").all (· == "string") := by decide
    have hy := hall y (OrderedMap.mem_keys_of_get? hd)
    rw [hd, Option.bind_some, hu] at hy
    exact eq_of_beq hy
  have hdocPlain : doc.PlainParents := by decide
  have htable : Text.contains (tableType (ownProperties doc) corpus.enums) " & _" = false := by decide
  have hread : Mentions (referenceText doc.inherits) "Gone" :=
    (mentions_referenceText_iff hdocPlain).mpr (by decide)
  have hrefers : named.RefersTo "Left" "Gone" :=
    (hmentions htable "Gone").mpr ((mentions_append_referenceText_iff htable).mpr hread)
  have hundeclared : ∀ contents, "type _" ++ "Gone" ++ "Props = " ++ contents ++ "\n" ∉
      declarationTexts left corpus.enums := not_declared (by decide +kernel)
  have hsize : left.size = 2 := by decide
  have hblock (mode : TypeMode) : ∃ block, ((context mode).buildBlock false).2 = .ok block :=
    RenderContext.exists_block (by cases mode <;> decide +kernel)
  obtain ⟨types, htypes⟩ := hblock .named
  obtain ⟨tables, htables⟩ := hblock .flattened
  obtain ⟨hnone, hstubs⟩ := hflattenedCount tables htables
  exact ⟨hdoc, hreads, hmerges, hagree "Name" "string" hkey hname, hdocPlain, hrefers,
    habsent hdocPlain "Gone" hrefers hundeclared,
    ⟨types, htypes, (hnamedCount types htypes).1.trans hsize⟩, tables, htables, hnone, hstubs.trans hsize⟩

/-- The type of "Right" reads as if it referred to "Base". Following it one comes to a key that the
flattened properties of "Right" do not have; and if "Base" has been removed, it is a class of the corpus that
is referred to and not declared. The type of "Far" refers to "Base" within its table type. -/
theorem parent_read_as_two :
    let corpus : Corpus := ⟨misreadHierarchy, .empty⟩
    let left (allowed : List String) : ClassMap := (prune corpus.classes allowed).2
    let context (allowed : List String) : RenderContext :=
      { classes := left allowed, enums := corpus.enums, mode := .named }
    let right := ((context ["Right", "Base"]).buildBlock false).1
    let alone := ((context ["Right"]).buildBlock false).1
    let far := ((context ["Far", "Base"]).buildBlock false).1
    (right.RefersTo "Right" "Base" ∧ ¬ right.Merges "Right" (allProperties (left ["Right", "Base"]) "Right")) ∧
    (alone.RefersTo "Right" "Base" ∧ "Base" ∈ corpus.classes.keys ∧ ∀ contents,
      "type _" ++ "Base" ++ "Props = " ++ contents ++ "\n" ∉ declarationTexts (left ["Right"]) corpus.enums) ∧
    ∃ contents, far.contents.get? "Far" = some contents ∧ Mentions contents "Base" ∧
      "Name" ∉ (allProperties (left ["Far", "Base"]) "Far").keys := by
  intro corpus left context right alone far
  let doc : ClassDoc := { name := "Right", inherits := ["BaseProps & _Base"] }
  have hmentions : Mentions (referenceText doc.inherits) "Base" := by decide
  have hright : right = (context ["Right", "Base"]).rendered := RenderContext.fst_buildBlock ..
  have halone : alone = (context ["Right"]).rendered := RenderContext.fst_buildBlock ..
  have hfar : far = (context ["Far", "Base"]).rendered := RenderContext.fst_buildBlock ..
  rw [hright, halone, hfar]
  have hreference : (context ["Right", "Base"]).rendered.RefersTo "Right" "Base" := by
    have hdoc : (context ["Right", "Base"]).classes.get? "Right" = some doc := by decide
    exact (RenderContext.refersTo_iff_mentions rfl hdoc).mpr hmentions
  refine ⟨⟨hreference, fun hmerges => ?_⟩, ⟨?_, by decide, not_declared (by decide)⟩, ?_⟩
  · have hbase : (context ["Right", "Base"]).classes.get? "Base" =
      some { name := "Base", properties := [⟨"Base.Name", "string"⟩] } := by decide
    have hmeets : (context ["Right", "Base"]).rendered.Meets "Right" "Base" :=
      .single ⟨hreference, OrderedMap.mem_keys_of_get? hbase⟩
    have hkey := (hmerges.mem_keys_iff "Name").mpr ⟨"Base", _, hmeets, hbase, by decide⟩
    exact absurd hkey (by decide)
  · have hdoc : (context ["Right"]).classes.get? "Right" = some doc := by decide
    exact (RenderContext.refersTo_iff_mentions rfl hdoc).mpr hmentions
  · have hdoc : (context ["Far", "Base"]).classes.get? "Far" =
      some { name := "Far", properties := [⟨"Far.Size", "int & _BaseProps & _int"⟩] } := by decide
    exact ⟨_, RenderContext.get?_contents_named rfl hdoc, by decide +kernel, by decide +kernel⟩

end LuauBindings
