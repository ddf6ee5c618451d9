import LuauBindings.Yaml.Node
import LuauBindings.Yaml.Scalar
import LuauBindings.Yaml.Token.Lexer

/-!
# The value of a document

`load` reads a text as the value it denotes. A text that is no document, or a node that does not fit
its tag, is malformed; a scalar whose text does not read under its tag has a fault of its own. If
there are several faults, the one nearest to the root of the document counts, and of two at one
depth the first (`Denoted.first`).
-/

namespace LuauBindings.Yaml

/-- Why a text denotes no value. -/
inductive LoadFault
  | malformed
  | scalar (fault : ScalarFault)
deriving DecidableEq, Repr

/-- What a node denotes, or its fault with the depth at which that stands below the node. -/
abbrev Denoted (α : Type) := Except (Nat × LoadFault) α

namespace Denoted

variable {α β : Type}

def malformed : Denoted α := .error (0, .malformed)

def ofScalar (r : Except ScalarFault α) : Denoted α :=
  r.mapError fun f => (0, .scalar f)

/-- Both values, or of the faults the one less deep, the first of two at one depth. -/
def both : Denoted α → Denoted β → Denoted (α × β)
  | .ok a, .ok b => .ok (a, b)
  | .error e, .ok _ => .error e
  | .ok _, .error e => .error e
  | .error e, .error f => .error (if f.1 < e.1 then f else e)

/-- All values, or the first fault of the least depth. -/
def all : List (Denoted α) → Denoted (List α)
  | [] => .ok []
  | r :: rs => (both r (all rs)).map fun p => p.1 :: p.2

/-- The same, one level further down. -/
def deeper (r : Denoted α) : Denoted α :=
  r.mapError fun e => (e.1 + 1, e.2)

end Denoted

/-- The key and value of an entry of a mapping. -/
structure Entry where
  key : Denoted Value
  value : Denoted Value

namespace Entry

/-- The entry; its key must be no collection, and only a collection has a fault below itself. -/
def denoted (e : Entry) : Denoted (Value × Value) :=
  let key : Denoted Value :=
    match e.key with
    | .ok k => if k.isKey then .ok k else .malformed
    | .error (0, f) => .error (0, f)
    | .error (_, _) => .malformed
  key.both e.value

end Entry

namespace Node

def tag : Node → Tag
  | .scalar t _ => t
  | .sequence t _ => t
  | .mapping t _ => t
  | .enclosing _ isMapping _ => if isMapping then .map else .seq

mutual

/-- The text of a node that is read as a scalar: its own, or for a mapping the text of the value of
its key `=`. -/
def text? : Node → Option String
  | .scalar _ text => some text
  | .mapping _ entries => textOfEntries? entries
  | .sequence _ _ => none
  | .enclosing _ _ _ => none

/-- The text of the value of the first key `=`. -/
def textOfEntries? : List (Node × Node) → Option String
  | [] => none
  | (key, value) :: entries => if key.tag = .value then value.text? else textOfEntries? entries

end

/-- The value of a node under the tag of a scalar. -/
def scalarValue (tag : Tag) (n : Node) : Denoted Value :=
  match n.text? with
  | none => .malformed
  | some s =>
    let text := s.toList
    match tag with
    | .null => .ok .null
    | .bool => .ofScalar ((Scalar.bool text).map .bool)
    | .int => .ofScalar ((Scalar.int text).map .int)
    | .float => .ofScalar ((Scalar.float text).map .float)
    | .timestamp => .ofScalar (match n with
      | .scalar _ _ => Scalar.timestamp text
      | _ => .error .timestampMapping)
    | .binary =>
      if text.all fun c => c.toNat < 0x80 then
        match Scalar.base64From [] 0 text with
        | some bs => .ok (.bytes bs)
        | none => .malformed
      else .malformed
    | .str => .ok (.str s)
    | _ => .malformed

/-- A mapping with the given entries, those that it takes from other mappings first. -/
def mappingOf (wrap : List (Value × Value) → Value)
    (entries : Option (List Entry × List Entry)) : Denoted Value :=
  match entries with
  | none => Denoted.malformed.deeper
  | some (merged, own) =>
    (Denoted.all ((merged ++ own).map Entry.denoted)).deeper.map fun es => wrap (Value.collect es)

mutual

/-- What a node denotes. -/
def denote : Node → Denoted Value
  | .enclosing _ isMapping none => .ok (.enclosing isMapping none)
  | .enclosing _ isMapping (some whole) =>
    whole.denote.map fun v => .enclosing isMapping (some v)
  | .scalar tag text =>
    match tag with
    | .omap | .pairs | .set | .seq | .map => Denoted.malformed.deeper
    | tag => scalarValue tag (.scalar tag text)
  | .sequence tag items =>
    match tag with
    | .seq => (Denoted.all (denoteAll items)).deeper.map .list
    | .omap | .pairs => (Denoted.all (denotePairs items)).deeper.map .list
    | .set | .map => Denoted.malformed.deeper
    | _ => .malformed
  | .mapping tag entries =>
    match tag with
    | .map => mappingOf .map (entriesOf entries)
    | .set => mappingOf (fun es => .set (es.map Prod.fst)) (entriesOf entries)
    | .seq | .omap | .pairs => Denoted.malformed.deeper
    | tag => scalarValue tag (.mapping tag entries)

def denoteAll : List Node → List (Denoted Value)
  | [] => []
  | n :: ns => n.denote :: denoteAll ns

/-- The items of a list of pairs: mappings of one entry. -/
def denotePairs : List Node → List (Denoted Value)
  | [] => []
  | .mapping _ [(key, value)] :: ns =>
    (key.denote.both value.denote).map (fun p => Value.pair p.1 p.2) :: denotePairs ns
  | _ :: ns => .malformed :: denotePairs ns

/-- The entries of a mapping: those it takes from other mappings, by the key `<<`, and its own.
`none` if what it takes from is no mapping and no sequence of mappings. -/
def entriesOf : List (Node × Node) → Option (List Entry × List Entry)
  | [] => some ([], [])
  | (key, value) :: rest =>
    match key.tag with
    | .merge =>
      match value.merged?, entriesOf rest with
      | some es, some (merged, own) => some (es ++ merged, own)
      | _, _ => none
    | .value =>
      (entriesOf rest).map fun (merged, own) =>
        (merged, ⟨scalarValue .str key, value.denote⟩ :: own)
    | _ =>
      (entriesOf rest).map fun (merged, own) => (merged, ⟨key.denote, value.denote⟩ :: own)

/-- The entries that a mapping takes from a node: all of a mapping, and of the mappings of a
sequence, the last mapping first. -/
def merged? : Node → Option (List Entry)
  | .mapping _ entries => (entriesOf entries).map fun (merged, own) => merged ++ own
  | .sequence _ items => (mergedAll? items).map fun es => es.reverse.flatten
  | .scalar _ _ => none
  | .enclosing _ isMapping none => if isMapping then some [] else none
  | .enclosing _ _ (some whole) => whole.merged?

def mergedAll? : List Node → Option (List (List Entry))
  | [] => some []
  | .sequence _ _ :: _ | .enclosing _ false _ :: _ => none
  | n :: ns =>
    match n.merged?, mergedAll? ns with
    | some es, some ess => some (es :: ess)
    | _, _ => none

end

end Node

/-- What reads the texts of documents. -/
abbrev Loader := String → Except LoadFault Value

/-- The value that a text denotes. -/
def load (text : String) : Except LoadFault Value :=
  match (Token.scan? text.toList).bind Node.ofTokens? with
  | none => .error .malformed
  | some n => n.denote.mapError Prod.snd

end LuauBindings.Yaml
