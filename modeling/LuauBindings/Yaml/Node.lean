import LuauBindings.Yaml.Tag
import LuauBindings.Yaml.Token

/-!
# Nodes of a document

The tokens of a document form a tree of scalars, sequences and mappings, each with its tag. An alias
is the node that its anchor stands before; inside that node itself it is `Node.enclosing`, which writes
the node out once more.
`Node.ofTokens?` reads a text of one document at most.

The functions of the grammar take a bound on their depth and length: every two calls in a row pass
at least one token, so four times the number of tokens is enough.
-/

namespace LuauBindings.Yaml

/-- A node with its tag. -/
inductive Node
  | scalar (tag : Tag) (text : String)
  | sequence (tag : Tag) (items : List Node)
  | mapping (tag : Tag) (entries : List (Node × Node))
  /-- An alias inside the sequence (or mapping) that its anchor stands before. `whole` is that node; in
  `whole` itself the alias is not written out again. -/
  | enclosing (anchor : String) (isMapping : Bool) (whole : Option Node)

namespace Node

/-- The node that is not there: null. -/
def absent : Node := .scalar .null ""

mutual

/-- The node with `whole` in the aliases that stand for it. -/
def fill (anchor : String) (whole : Node) : Node → Node
  | .scalar tag text => .scalar tag text
  | .sequence tag items => .sequence tag (fillAll anchor whole items)
  | .mapping tag entries => .mapping tag (fillEntries anchor whole entries)
  | .enclosing name isMapping none =>
    .enclosing name isMapping (if name = anchor then some whole else none)
  | .enclosing name isMapping (some inner) => .enclosing name isMapping (some (fill anchor whole inner))

def fillAll (anchor : String) (whole : Node) : List Node → List Node
  | [] => []
  | n :: ns => fill anchor whole n :: fillAll anchor whole ns

def fillEntries (anchor : String) (whole : Node) : List (Node × Node) → List (Node × Node)
  | [] => []
  | (key, value) :: entries =>
    (fill anchor whole key, fill anchor whole value) :: fillEntries anchor whole entries

end

end Node

/-- What an anchor stands before. -/
inductive Anchored
  | node (n : Node)
  /-- A sequence (or mapping) that is being read. -/
  | unfinished (isMapping : Bool)

def Anchored.fill (anchor : String) (whole : Node) : Anchored → Anchored
  | .node n => .node (Node.fill anchor whole n)
  | .unfinished isMapping => .unfinished isMapping

/-- The state of reading: the tokens to come, the anchors met, and the leads of the tag handles. -/
structure Reader where
  tokens : List Token
  anchors : List (String × Anchored)
  handles : List (String × String)

namespace Reader

/-- Reading, which fails on a text that is no document. -/
abbrev Reads := StateT Reader Option

def peek : Reads (Option Token) := do
  return (← get).tokens.head?

def advance : Reads Unit :=
  modify fun r => { r with tokens := r.tokens.drop 1 }

def fail {α : Type} : Reads α := fun _ => none

/-- The next token is `t`; pass it. -/
def expect (t : Token) : Reads Unit := do
  if (← peek) = some t then advance else fail

/-- Whether the next token is one of `ts`, or there is none. -/
def atAny (ts : List Token) : Reads Bool := do
  match ← peek with
  | some t => return ts.contains t
  | none => return false

/-- What stands before a node. -/
structure Properties where
  anchor : Option String
  /-- The tag as it is written. -/
  tag : Option (String × String)

/-- An anchor and a tag, in either order, each at most once. -/
def properties : Reads Properties := do
  match ← peek with
  | some (.anchor a) =>
    advance
    match ← peek with
    | some (.tag handle suffix) => advance; return ⟨some a, some (handle, suffix)⟩
    | _ => return ⟨some a, none⟩
  | some (.tag handle suffix) =>
    advance
    match ← peek with
    | some (.anchor a) => advance; return ⟨some a, some (handle, suffix)⟩
    | _ => return ⟨none, some (handle, suffix)⟩
  | _ => return ⟨none, none⟩

/-- The full name of a tag; the handle must be known. -/
def tagName : Option (String × String) → Reads (Option String)
  | none => return none
  | some (handle, suffix) =>
    if handle.isEmpty then return some suffix
    else do
      match (← get).handles.lookup handle with
      | some lead => return some (lead ++ suffix)
      | none => fail

/-- The tag of a collection: the exclamation mark alone stands for the usual tag. -/
def collectionTag (usual : Tag) : Option String → Tag
  | none => usual
  | some name => if name = "!" then usual else .ofName name

/-- The tag of a scalar: a plain scalar without a tag, and any scalar with the exclamation mark
alone, has the tag of its text; a quoted one is text. -/
def scalarTag (text : String) (plain : Bool) : Option String → Tag
  | none => if plain then .ofPlain text.toList else .str
  | some name => if name = "!" then .ofPlain text.toList else .ofName name

/-- `a` recorded under `anchor`, which must be new. -/
def record (anchor : Option String) (a : Anchored) : Reads Unit := do
  match anchor with
  | none => return ()
  | some name =>
    if ((← get).anchors.lookup name).isSome then fail
    else modify fun r => { r with anchors := (name, a) :: r.anchors }

/-- The anchor of an unfinished collection now stands before `n`, and so do the aliases met inside. -/
def complete (anchor : Option String) (n : Node) : Reads Node := do
  match anchor with
  | none => return n
  | some name =>
    let filled := Node.fill name n n
    modify fun r => { r with
      anchors := (name, .node filled) ::
        (r.anchors.filter fun a => a.1 != name).map fun a => (a.1, Anchored.fill name n a.2) }
    return filled

mutual

/-- A node. Block collections are refused unless `block`; `indentless` allows a block sequence
whose entries are not indented. -/
def node : (fuel : Nat) → (block indentless : Bool) → Reads Node
  | 0, _, _ => fail
  | fuel + 1, block, indentless => do
    if let some (.alias name) := ← peek then
      advance
      match (← get).anchors.lookup name with
      | some (.node n) => return n
      | some (.unfinished isMapping) => return .enclosing name isMapping none
      | none => fail
    else
      let p ← properties
      let name ← tagName p.tag
      let next ← peek
      if indentless && next == some .blockEntry then
        record p.anchor (.unfinished false)
        let items ← indentlessEntries fuel
        complete p.anchor (.sequence (collectionTag .seq name) items)
      else match next with
        | some (.scalar text plain) =>
          advance
          let n := Node.scalar (scalarTag text plain name) text
          record p.anchor (.node n)
          return n
        | some .flowSequenceStart =>
          advance
          record p.anchor (.unfinished false)
          let items ← flowItems fuel true
          complete p.anchor (.sequence (collectionTag .seq name) items)
        | some .flowMappingStart =>
          advance
          record p.anchor (.unfinished true)
          let entries ← flowEntries fuel true
          complete p.anchor (.mapping (collectionTag .map name) entries)
        | some .blockSequenceStart =>
          if block then
            advance
            record p.anchor (.unfinished false)
            let items ← blockItems fuel
            complete p.anchor (.sequence (collectionTag .seq name) items)
          else emptyNode p name
        | some .blockMappingStart =>
          if block then
            advance
            record p.anchor (.unfinished true)
            let entries ← blockEntries fuel
            complete p.anchor (.mapping (collectionTag .map name) entries)
          else emptyNode p name
        | _ => emptyNode p name

/-- A node of which only the properties are there. -/
def emptyNode (p : Properties) (name : Option String) : Reads Node := do
  if p.anchor.isNone && p.tag.isNone then fail
  else
    let tag := match name with
      | none => .null
      | some "!" => .str
      | some name => .ofName name
    let n := Node.scalar tag ""
    record p.anchor (.node n)
    return n

/-- The items of a block sequence up to its end. -/
def blockItems : (fuel : Nat) → Reads (List Node)
  | 0 => fail
  | fuel + 1 => do
    match ← peek with
    | some .blockEntry =>
      advance
      let item ← if ← atAny [.blockEntry, .blockEnd] then pure Node.absent else node fuel true false
      return item :: (← blockItems fuel)
    | some .blockEnd => advance; return []
    | _ => fail

/-- The items of a block sequence that is not indented; what follows it ends it. -/
def indentlessEntries : (fuel : Nat) → Reads (List Node)
  | 0 => fail
  | fuel + 1 => do
    if (← peek) = some .blockEntry then
      advance
      let item ← if ← atAny [.blockEntry, .key, .value, .blockEnd] then pure Node.absent
        else node fuel true false
      return item :: (← indentlessEntries fuel)
    else return []

/-- The entries of a block mapping up to its end. -/
def blockEntries : (fuel : Nat) → Reads (List (Node × Node))
  | 0 => fail
  | fuel + 1 => do
    match ← peek with
    | some .key =>
      advance
      let key ← blockPart fuel
      let value ← if (← peek) = some .value then (do advance; blockPart fuel)
        else pure Node.absent
      return (key, value) :: (← blockEntries fuel)
    | some .blockEnd => advance; return []
    | _ => fail

/-- The key or value of an entry of a block mapping, after its token. -/
def blockPart : (fuel : Nat) → Reads Node
  | 0 => fail
  | fuel + 1 => do
    if ← atAny [.key, .value, .blockEnd] then return Node.absent else node fuel true true

/-- The items of a flow sequence up to its end. An item may be one entry of a mapping. -/
def flowItems : (fuel : Nat) → (first : Bool) → Reads (List Node)
  | 0, _ => fail
  | fuel + 1, first => do
    if (← peek) = some .flowSequenceEnd then advance; return []
    else
      if !first then expect .flowEntry
      match ← peek with
      | some .key =>
        advance
        let key ←
          if ← atAny [.value, .flowEntry, .flowSequenceEnd] then (do advance; pure Node.absent)
          else node fuel false false
        let value ← flowValue fuel .flowSequenceEnd
        return .mapping .map [(key, value)] :: (← flowItems fuel false)
      | some .flowSequenceEnd => advance; return []
      | _ =>
        let item ← node fuel false false
        return item :: (← flowItems fuel false)

/-- The value of an entry of a flow collection closed by `close`, if the entry has one. -/
def flowValue : (fuel : Nat) → (close : Token) → Reads Node
  | 0, _ => fail
  | fuel + 1, close => do
    if (← peek) = some .value then
      advance
      if ← atAny [.flowEntry, close] then return Node.absent else node fuel false false
    else return Node.absent

/-- The entries of a flow mapping up to its end. -/
def flowEntries : (fuel : Nat) → (first : Bool) → Reads (List (Node × Node))
  | 0, _ => fail
  | fuel + 1, first => do
    if (← peek) = some .flowMappingEnd then advance; return []
    else
      if !first then expect .flowEntry
      match ← peek with
      | some .key =>
        advance
        let key ← if ← atAny [.value, .flowEntry, .flowMappingEnd] then pure Node.absent
          else node fuel false false
        let value ← flowValue fuel .flowMappingEnd
        return (key, value) :: (← flowEntries fuel false)
      | some .flowMappingEnd => advance; return []
      | _ =>
        let key ← node fuel false false
        return (key, Node.absent) :: (← flowEntries fuel false)

end

/-- The directives before a document. The version, if it is given, is 1.1 or 1.2, and no directive
is given twice. -/
def directives : (fuel : Nat) → (version : Bool) → (handles : List (String × String)) →
    Reads (List (String × String))
  | 0, _, _ => fail
  | fuel + 1, version, handles => do
    match ← peek with
    | some (.versionDirective major minor) =>
      if version ∨ major ≠ 1 ∨ (minor ≠ 1 ∧ minor ≠ 2) then fail
      else advance; directives fuel true handles
    | some (.tagDirective handle lead) =>
      if (handles.lookup handle).isSome then fail
      else advance; directives fuel version ((handle, lead) :: handles)
    | _ => return handles

/-- The leads of the handles that every document knows. -/
def usualHandles : List (String × String) :=
  [("!", "!"), ("!!", "tag:yaml.org,2002:")]

/-- The only document of a text; nothing may follow it but its end marks. `none` in the result if
there is no document. -/
def stream : Reads (Option Node) := do
  let fuel := 4 * (← get).tokens.length + 4
  match ← peek with
  | none => return none
  | some t =>
    let isExplicit := match t with
      | .versionDirective _ _ | .tagDirective _ _ | .documentStart => true
      | _ => false
    let n ←
      if isExplicit then do
        let handles ← directives fuel false []
        modify fun r => { r with handles := handles ++ usualHandles }
        expect .documentStart
        match ← peek with
        | none => pure Node.absent
        | some (.versionDirective _ _) | some (.tagDirective _ _) | some .documentStart
        | some .documentEnd => pure Node.absent
        | _ => node fuel true false
      else node fuel true false
    modify fun r => { r with tokens := r.tokens.dropWhile (· == .documentEnd) }
    if (← get).tokens.isEmpty then return some n else fail

end Reader

/-- The node of a text with the given tokens: null if there is no document. -/
def Node.ofTokens? (tokens : List Token) : Option Node :=
  (Reader.stream.run' ⟨tokens, [], Reader.usualHandles⟩).map fun n => n.getD .absent

end LuauBindings.Yaml
