import LuauBindings.Hierarchy.Prune
import LuauBindings.Render.TypeMode

/-!
# The state of rendering

A `RenderContext` keeps the property maps and types rendered so far. They are never dropped, so
after the classes have changed some of them are old; a name without a property map, or in named mode
without a class, has no type (`RenderContext.renderType`).
-/

namespace LuauBindings

/-- What is rendered, and what has been rendered so far. -/
structure RenderContext where
  classes : ClassMap
  enums : NameSet
  mode : TypeMode
  /-- The property map of each class. -/
  propertyMaps : OrderedMap String PropertyMap := .empty
  /-- The type of each class. -/
  contents : OrderedMap String String := .empty

/-- Why there is no block. -/
inductive BlockFault
  /-- A class has no property map, or in named mode there is no class of that name. -/
  | unknownClass (name : String)
  /-- The text holds the splice marker. -/
  | holdsMarker
deriving DecidableEq, Repr

namespace RenderContext

/-- The context with the property maps of `names`, as far as these are found. -/
def addPropertyMaps (ctx : RenderContext) : List String → RenderContext × Except BlockFault Unit
  | [] => (ctx, .ok ())
  | name :: names =>
    match ctx.mode.properties? ctx.classes name with
    | none => (ctx, .error (.unknownClass name))
    | some props =>
      addPropertyMaps { ctx with propertyMaps := ctx.propertyMaps.insert name props } names

/-- The context with the property maps of all its classes. -/
def buildPropertyMaps (ctx : RenderContext) : RenderContext × Except BlockFault Unit :=
  ctx.addPropertyMaps ctx.classes.keys

/-- The type of `name`, from the property map held for it. -/
def renderContents (ctx : RenderContext) (name : String) : Except BlockFault String :=
  match ctx.propertyMaps.get? name with
  | none => .error (.unknownClass name)
  | some props =>
    match ctx.mode.contents? ctx.classes name (tableType props ctx.enums) with
    | none => .error (.unknownClass name)
    | some contents => .ok contents

/-- The declaration of the type of `name`, with the context that has recorded the type. -/
def renderType (ctx : RenderContext) (name : String) : Except BlockFault (String × RenderContext) :=
  (ctx.renderContents name).map fun contents =>
    (ctx.mode.declaration name contents,
      { ctx with contents := ctx.contents.insert name contents })

/-- The classes pruned to what `allowed` leads to. -/
def prune (ctx : RenderContext) (allowed : List String) : PruneStats × RenderContext :=
  let (stats, classes) := LuauBindings.prune ctx.classes allowed
  (stats, { ctx with classes })

end RenderContext

end LuauBindings
