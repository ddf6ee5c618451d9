import LuauBindings.Render.Context
import LuauBindings.Render.Wrapper
import LuauBindings.Text.Pattern

/-!
# The generated block

The block holds the declarations of all types and then all wrappers, in the order of the classes,
between two marker lines. A block that holds the splice marker is refused.
-/

namespace LuauBindings

/-- The text in the host that the block replaces. -/
def spliceMarker : String := "-- AUTOGEN"

/-- The text of a block, the number of its declarations and of its wrappers. -/
structure GeneratedBlock where
  text : String
  typeCount : Nat
  stubCount : Nat
deriving DecidableEq, Repr

namespace RenderContext

/-- The declarations of the types of `names`, with the context that has recorded the types. -/
def renderTypes (ctx : RenderContext) :
    List String → RenderContext × Except BlockFault (List String)
  | [] => (ctx, .ok [])
  | name :: names =>
    match ctx.renderType name with
    | .error e => (ctx, .error e)
    | .ok (declaration, ctx) =>
      match renderTypes ctx names with
      | (ctx, .error e) => (ctx, .error e)
      | (ctx, .ok declarations) => (ctx, .ok (declaration :: declarations))

/-- The wrapper of every class, with a comment if `comments`; their types are recorded. -/
def wrappers (ctx : RenderContext) (comments : Bool) : Except BlockFault (List String) :=
  ctx.classes.entries.mapM fun (name, c) =>
    match ctx.contents.get? name with
    | none => .error (.unknownClass name)
    | some contents =>
      .ok (wrapper name (ctx.mode.propsType name contents) (if comments then some c.description else none))

/-- The text of a block. -/
def blockText (declarations wrappers : List String) : String :=
  "-- BEGIN AUTOGEN\n-- Types\n" ++ String.join declarations ++ "-- Code\n" ++
    String.join wrappers ++ "-- END AUTOGEN"

/-- The block of all classes, with the context that has recorded their property maps and types. -/
def buildBlock (ctx : RenderContext) (comments : Bool) :
    RenderContext × Except BlockFault GeneratedBlock :=
  match ctx.buildPropertyMaps with
  | (ctx, .error e) => (ctx, .error e)
  | (ctx, .ok ()) =>
    match ctx.renderTypes ctx.classes.keys with
    | (ctx, .error e) => (ctx, .error e)
    | (ctx, .ok rendered) =>
      match ctx.wrappers comments with
      | .error e => (ctx, .error e)
      | .ok wrappers =>
        let declarations := rendered.filter fun d => !d.isEmpty
        let text := blockText declarations wrappers
        if Text.contains text spliceMarker then (ctx, .error .holdsMarker)
        else (ctx, .ok ⟨text, declarations.length, ctx.classes.size⟩)

end RenderContext

end LuauBindings
