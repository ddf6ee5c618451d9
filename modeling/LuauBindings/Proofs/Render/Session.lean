import LuauBindings.Proofs.Render.Block

/-!
# A context in use

A context may be asked for property maps, types and blocks in any order, while its classes are pruned or
replaced and its mode and enums change. Nothing that it has recorded is dropped: the keys of both of its maps
only grow at the end (`grows_after`), and the type of a name is recorded only where there is a property map for
it (`Consistent.after`). A type that cannot be rendered leaves nothing behind (`run_renderTypeInPlace`).
-/

namespace LuauBindings

namespace TypeMode

theorem contents?_eq_none_iff {mode : TypeMode} {classes : ClassMap} {name table : String} :
    mode.contents? classes name table = none ↔ mode = .named ∧ name ∉ classes.keys := by
  cases mode with
  | named => simp [contents?, OrderedMap.get?_eq_none_iff]
  | flattened => simp [contents?]

end TypeMode

namespace RenderContext
variable {ctx next : RenderContext} {name : String}

/-- What is asked of a context, or done to it. -/
inductive Request
  | propertyMaps
  | type (name : String)
  | block (comments : Bool)
  | prune (allowed : List String)
  | putClass (name : String) (c : ClassDoc)
  | setMode (mode : TypeMode)
  | setEnums (enums : NameSet)

/-- The type of `name` rendered in place, statement by statement: where one of them fails, what those before it
have done to the context stays. -/
def renderTypeInPlace (name : String) : EStateM BlockFault RenderContext String := do
  let ctx ← get
  let some props := ctx.propertyMaps.get? name | throw (.unknownClass name)
  let table := tableType props ctx.enums
  let some contents := ctx.mode.contents? ctx.classes name table | throw (.unknownClass name)
  set { ctx with contents := ctx.contents.insert name contents }
  return ctx.mode.declaration name contents

/-- The context after a request, whether it succeeds or fails. -/
def after (ctx : RenderContext) : Request → RenderContext
  | .propertyMaps => (ctx.buildPropertyMaps).1
  | .type name =>
    match (renderTypeInPlace name).run ctx with
    | .ok _ next => next
    | .error _ next => next
  | .block comments => (ctx.buildBlock comments).1
  | .prune allowed => (ctx.prune allowed).2
  | .putClass name c => { ctx with classes := ctx.classes.insert name c }
  | .setMode mode => { ctx with mode }
  | .setEnums enums => { ctx with enums }

/-- The context after requests, one after another. -/
def afterAll (ctx : RenderContext) (requests : List Request) : RenderContext :=
  requests.foldl after ctx

section Rendering

/-- Rendering in place comes to what `renderType` says, and a failure leaves the context as it was. -/
theorem run_renderTypeInPlace (ctx : RenderContext) (name : String) :
    (renderTypeInPlace name).run ctx =
      match ctx.renderType name with
      | .ok (declaration, next) => .ok declaration next
      | .error e => .error e ctx := by
  unfold renderType renderContents
  cases hprops : ctx.propertyMaps.get? name with
  | none =>
    simp only [renderTypeInPlace, EStateM.run_bind, EStateM.run_get, hprops]
    rfl
  | some props =>
    cases hcontents : ctx.mode.contents? ctx.classes name (tableType props ctx.enums) with
    | none =>
      simp only [renderTypeInPlace, EStateM.run_bind, EStateM.run_get, hprops, hcontents]
      rfl
    | some contents =>
      simp only [renderTypeInPlace, EStateM.run_bind, EStateM.run_get, hprops, hcontents]
      rfl

/-- A type is rendered if there is a property map for the name and, in named mode, a class. All that changes
then is the type recorded for the name. -/
theorem renderType_cases (ctx : RenderContext) (name : String) :
    (ctx.renderType name = .error (.unknownClass name) ∧
      (name ∉ ctx.propertyMaps.keys ∨ ctx.mode = .named ∧ name ∉ ctx.classes.keys)) ∨
    ∃ contents, ctx.renderType name = .ok (ctx.mode.declaration name contents,
        { ctx with contents := ctx.contents.insert name contents }) ∧
      name ∈ ctx.propertyMaps.keys ∧ (ctx.mode = .named → name ∈ ctx.classes.keys) := by
  unfold renderType renderContents
  cases hprops : ctx.propertyMaps.get? name with
  | none => exact .inl ⟨rfl, .inl (OrderedMap.get?_eq_none_iff.mp hprops)⟩
  | some props =>
    have hmem : name ∈ ctx.propertyMaps.keys := OrderedMap.mem_keys_of_get? hprops
    dsimp only
    cases hcontents : ctx.mode.contents? ctx.classes name (tableType props ctx.enums) with
    | none => exact .inl ⟨rfl, .inr (TypeMode.contents?_eq_none_iff.mp hcontents)⟩
    | some contents =>
      refine .inr ⟨contents, rfl, hmem, fun hnamed => ?_⟩
      by_contra hno
      rw [TypeMode.contents?_eq_none_iff.mpr ⟨hnamed, hno⟩] at hcontents
      cases hcontents

end Rendering

section Recorded

/-- `next` has the keys of both maps of `ctx` in their places, and perhaps more after them. -/
structure Grows (ctx next : RenderContext) : Prop where
  propertyMaps : ctx.propertyMaps.keys <+: next.propertyMaps.keys
  contents : ctx.contents.keys <+: next.contents.keys

/-- There is a property map for every name that has a type. -/
def Consistent (ctx : RenderContext) : Prop :=
  ∀ name ∈ ctx.contents.keys, name ∈ ctx.propertyMaps.keys

theorem Grows.refl (ctx : RenderContext) : ctx.Grows ctx := ⟨List.prefix_rfl, List.prefix_rfl⟩

theorem Grows.trans {last : RenderContext} (h : ctx.Grows next) (h' : next.Grows last) : ctx.Grows last :=
  ⟨h.propertyMaps.trans h'.propertyMaps, h.contents.trans h'.contents⟩

theorem grows_after (ctx : RenderContext) (r : Request) : ctx.Grows (ctx.after r) := by
  cases r with
  | propertyMaps =>
    rw [after, buildPropertyMaps_eq]
    exact ⟨OrderedMap.keys_prefix_insertAll .., List.prefix_rfl⟩
  | type name =>
    rw [after, run_renderTypeInPlace]
    rcases ctx.renderType_cases name with ⟨h, -⟩ | ⟨contents, h, -, -⟩
    · rw [h]
      exact .refl ctx
    · rw [h]
      exact ⟨List.prefix_rfl, OrderedMap.keys_prefix_insert ..⟩
  | block comments =>
    rw [after, buildBlock_eq]
    exact ⟨OrderedMap.keys_prefix_insertAll .., OrderedMap.keys_prefix_insertAll ..⟩
  | prune allowed => exact ⟨List.prefix_rfl, List.prefix_rfl⟩
  | putClass name c => exact ⟨List.prefix_rfl, List.prefix_rfl⟩
  | setMode mode => exact ⟨List.prefix_rfl, List.prefix_rfl⟩
  | setEnums enums => exact ⟨List.prefix_rfl, List.prefix_rfl⟩

theorem Consistent.after (h : ctx.Consistent) (r : Request) : (ctx.after r).Consistent := by
  cases r with
  | propertyMaps =>
    rw [RenderContext.after, buildPropertyMaps_eq]
    exact fun name hname => OrderedMap.mem_keys_insertAll.mpr (.inl (h name hname))
  | type name =>
    rw [RenderContext.after, run_renderTypeInPlace]
    rcases ctx.renderType_cases name with ⟨hr, -⟩ | ⟨contents, hr, hmem, -⟩
    · rw [hr]
      exact h
    · rw [hr]
      intro n hn
      rcases OrderedMap.mem_keys_insert.mp hn with rfl | hn
      · exact hmem
      · exact h n hn
  | block comments =>
    rw [RenderContext.after, buildBlock_eq]
    intro n hn
    -- both maps have been renewed for the same names, those of the classes
    rcases OrderedMap.mem_keys_insertAll.mp hn with hn | hn
    · exact OrderedMap.mem_keys_insertAll.mpr (.inl (h n hn))
    · rw [OrderedMap.keys_mapValues] at hn
      exact OrderedMap.mem_keys_insertAll.mpr (.inr (by rwa [OrderedMap.keys_mapValues]))
  | prune allowed => exact h
  | putClass name c => exact h
  | setMode mode => exact h
  | setEnums enums => exact h

theorem grows_afterAll (ctx : RenderContext) (requests : List Request) :
    ctx.Grows (ctx.afterAll requests) := by
  induction requests generalizing ctx with
  | nil => exact .refl ctx
  | cons r requests ih => exact (ctx.grows_after r).trans (ih (ctx.after r))

theorem Consistent.afterAll (h : ctx.Consistent) (requests : List Request) :
    (ctx.afterAll requests).Consistent := by
  induction requests generalizing ctx with
  | nil => exact h
  | cons r requests ih => exact ih (h.after r)

end Recorded

/-- However a context has been used since it was new, every name that has a type has a property map, and further
use takes no name out of either map. A type is refused for want of a property map or, in named mode, of a class,
and a refusal leaves the context as it was. -/
theorem use_keeps_records (classes : ClassMap) (enums : NameSet) (mode : TypeMode)
    (requests : List Request) :
    let ctx := ({ classes, enums, mode } : RenderContext).afterAll requests
    (∀ name ∈ ctx.contents.keys, name ∈ ctx.propertyMaps.keys) ∧
    (∀ more, ctx.propertyMaps.keys <+: (ctx.afterAll more).propertyMaps.keys ∧
      ctx.contents.keys <+: (ctx.afterAll more).contents.keys) ∧
    ∀ name,
      ((∃ e next, (renderTypeInPlace name).run ctx = .error e next) ↔
        name ∉ ctx.propertyMaps.keys ∨ ctx.mode = .named ∧ name ∉ ctx.classes.keys) ∧
      ∀ e next, (renderTypeInPlace name).run ctx = .error e next → e = .unknownClass name ∧ next = ctx := by
  intro ctx
  have hnew : ({ classes, enums, mode } : RenderContext).Consistent :=
    fun name hname => absurd hname List.not_mem_nil
  refine ⟨hnew.afterAll requests, fun more => ?_, fun name => ?_⟩
  · exact ⟨(ctx.grows_afterAll more).propertyMaps, (ctx.grows_afterAll more).contents⟩
  · rw [run_renderTypeInPlace]
    rcases ctx.renderType_cases name with ⟨h, hwant⟩ | ⟨contents, h, hmem, hclass⟩
    · rw [h]
      refine ⟨⟨fun _ => hwant, fun _ => ⟨_, _, rfl⟩⟩, ?_⟩
      rintro e next ⟨⟩
      exact ⟨rfl, rfl⟩
    · rw [h]
      refine ⟨⟨?_, ?_⟩, ?_⟩
      · rintro ⟨e, next, ⟨⟩⟩
      · rintro (hno | ⟨hnamed, hno⟩)
        · exact absurd hmem hno
        · exact absurd (hclass hnamed) hno
      · rintro e next ⟨⟩

end RenderContext

end LuauBindings
