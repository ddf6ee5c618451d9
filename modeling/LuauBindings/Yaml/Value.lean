import LuauBindings.Calendar
import LuauBindings.Number.Decimal
import LuauBindings.Text.Quoted

/-!
# Values of a document

A document denotes one `Value`. Mappings keep the order of their keys; keys are compared by
`Value.sameKey`, in which numbers of all kinds are compared as numbers.
-/

namespace LuauBindings.Yaml

/-- What a node of a document denotes. -/
inductive Value
  | null
  | bool (b : Bool)
  | int (i : Int)
  | float (x : Binary64)
  | str (s : String)
  | date (d : Date)
  | timestamp (t : Timestamp)
  | bytes (bs : List UInt8)
  | list (items : List Value)
  /-- An entry of a list of pairs. -/
  | pair (key value : Value)
  | map (entries : List (Value × Value))
  | set (members : List Value)
  /-- A list (or a mapping) inside itself, where it stands again. `whole` is that value; in `whole` itself
  it is not written out again. -/
  | enclosing (isMap : Bool) (whole : Option Value)

namespace Value

/-- The kind of a value as messages name it. -/
def typeName : Value → String
  | .null => "NoneType"
  | .bool _ => "bool"
  | .int _ => "int"
  | .float _ => "float"
  | .str _ => "str"
  | .date _ => "date"
  | .timestamp _ => "datetime"
  | .bytes _ => "bytes"
  | .list _ => "list"
  | .pair _ _ => "tuple"
  | .map _ => "dict"
  | .set _ => "set"
  | .enclosing isMap _ => if isMap then "dict" else "list"

/-- The value as it is written out where it stands again. -/
def written : Value → Value
  | .enclosing _ (some whole) => whole
  | v => v

mutual

/-- The value as messages show it. -/
def shown : Value → String
  | .null => "None"
  | .bool b => if b then "True" else "False"
  | .int i => toString i
  | .float x => x.text
  | .str s => Text.quote s
  | .date d => d.shown
  | .timestamp t => t.shown
  | .bytes bs => Text.quoteBytes bs
  | .list items => "[" ++ ", ".intercalate (shownAll items) ++ "]"
  | .pair key value => "(" ++ key.shown ++ ", " ++ value.shown ++ ")"
  | .map entries => "\x7b" ++ ", ".intercalate (shownEntries entries) ++ "\x7d"
  | .set [] => "set()"
  | .set (member :: members) =>
    "\x7b" ++ ", ".intercalate (member.shown :: shownAll members) ++ "\x7d"
  | .enclosing isMap _ => if isMap then "\x7b...\x7d" else "[...]"

/-- The values of a list as messages show them. -/
def shownAll : List Value → List String
  | [] => []
  | value :: values => value.shown :: shownAll values

/-- The entries of a mapping as messages show them. -/
def shownEntries : List (Value × Value) → List String
  | [] => []
  | (key, value) :: entries => (key.shown ++ ": " ++ value.shown) :: shownEntries entries

end

/-- The most digits that a whole number may have for messages to show it. -/
def maxShownDigits : Nat := 4300

mutual

/-- Whether messages can show the value: no whole number in it has too many digits. -/
def isShowable : Value → Bool
  | .int i => decide ((Nat.toDigits 10 i.natAbs).length ≤ maxShownDigits)
  | .list items => areShowable items
  | .pair key value => key.isShowable && value.isShowable
  | .map entries => areEntriesShowable entries
  | .set members => areShowable members
  | .enclosing _ (some whole) => whole.isShowable
  | _ => true

def areShowable : List Value → Bool
  | [] => true
  | value :: values => value.isShowable && areShowable values

def areEntriesShowable : List (Value × Value) → Bool
  | [] => true
  | (key, value) :: entries => key.isShowable && value.isShowable && areEntriesShowable entries

end

/-- The value as messages show it, if they can. -/
def shown? (v : Value) : Option String :=
  if v.isShowable then some v.shown else none

/-- Whether the value stands for nothing: null, false, a zero, or an empty text or collection. -/
def isEmpty : Value → Bool
  | .null => true
  | .bool b => !b
  | .int i => i == 0
  | .float x => x.isZero
  | .str s => s.isEmpty
  | .bytes bs => bs.isEmpty
  | .list items => items.isEmpty
  | .map entries => entries.isEmpty
  | .set members => members.isEmpty
  | .date _ | .timestamp _ | .pair _ _ | .enclosing _ _ => false

/-- Whether the value can be a key: it is no collection. -/
def isKey : Value → Bool
  | .list _ | .map _ | .set _ | .enclosing _ _ => false
  | _ => true

/-- The whole number that a truth value or an integer counts as. -/
def asInt? : Value → Option Int
  | .bool b => some (if b then 1 else 0)
  | .int i => some i
  | _ => none

/-- Whether two keys are one. -/
def sameKey (k l : Value) : Bool :=
  match k.asInt?, l.asInt? with
  | some i, some j => i == j
  | some i, none => match l with
    | .float x => x.isInt i
    | _ => false
  | none, some j => match k with
    | .float x => x.isInt j
    | _ => false
  | none, none => match k, l with
    | .null, .null => true
    | .float x, .float y => x.same y
    | .str s, .str t => s == t
    | .date d, .date e => d == e
    | .timestamp t, .timestamp u => t.same u
    | .bytes bs, .bytes cs => bs == cs
    | _, _ => false

/-- The value of the text `key` among the entries of a mapping. -/
def find? (key : String) : List (Value × Value) → Option Value
  | [] => none
  | (.str s, value) :: entries => if s = key then some value else find? key entries
  | _ :: entries => find? key entries

/-- `entries` with `value` for `key`: a key that is there already stays as it is, with the new
value. -/
def insertEntry (key value : Value) : List (Value × Value) → List (Value × Value)
  | [] => [(key, value)]
  | (k, v) :: entries =>
    if k.sameKey key then (k, value) :: entries else (k, v) :: insertEntry key value entries

/-- The entries `l` one after another, each key once. -/
def collect (l : List (Value × Value)) : List (Value × Value) :=
  l.foldl (fun entries e => insertEntry e.1 e.2 entries) []

end Value

end LuauBindings.Yaml
