import LuauBindings.Yaml.Token.Property
import LuauBindings.Yaml.Token.Scalar

/-!
# Reading a document's tokens

`Token.scan?` reads all tokens of a text. Whether a scalar or collection is a key shows only at the
colon after it, so the lexer remembers where a key may have begun (`PendingKey`) and puts the key
token there once the colon is found. Indentation opens and closes block collections.
-/

namespace LuauBindings.Yaml

/-- A place where a simple key may have begun. -/
structure PendingKey where
  /-- The number of tokens before it. -/
  tokens : Nat
  position : Position
  /-- Whether nothing but a key can stand there. -/
  required : Bool

/-- The state between two tokens. -/
structure Lexer where
  rest : List Char
  position : Position
  /-- The tokens read, latest first, and their number. -/
  tokens : List Token
  count : Nat
  /-- The column of the innermost block collection, or -1 outside all, and of those around it. -/
  indent : Int
  outerIndents : List Int
  /-- The key that may have begun in the innermost flow collection, or outside all. -/
  pending : Option PendingKey
  /-- Those of the collections around it; there is one for each open flow collection. -/
  outerPending : List (Option PendingKey)
  /-- Whether a simple key may begin here. -/
  keyAllowed : Bool

namespace Lexer

def start (s : List Char) : Lexer where
  rest := s
  position := .start
  tokens := []
  count := 0
  indent := -1
  outerIndents := []
  pending := none
  outerPending := []
  keyAllowed := true

def inFlow (l : Lexer) : Bool :=
  !l.outerPending.isEmpty

def emit (l : Lexer) (t : Token) : Lexer :=
  { l with tokens := t :: l.tokens, count := l.count + 1 }

/-- `t` put in after the first `n` tokens. -/
def emitAt (l : Lexer) (n : Nat) (t : Token) : Lexer :=
  let k := l.count - n
  { l with tokens := l.tokens.take k ++ t :: l.tokens.drop k, count := l.count + 1 }

/-- The lexer `n` characters further on the same line. -/
def skip (l : Lexer) (n : Nat) : Lexer :=
  { l with rest := l.rest.drop n, position := l.position.advance n }

/-- The white space, comments and line ends before the next token: what follows them and where,
and whether a key may begin there. -/
def skipBlanks (inFlow : Bool) :
    (inComment keyAllowed : Bool) → List Char → Position → List Char × Position × Bool
  | _, keyAllowed, [], p => ([], p, keyAllowed)
  | inComment, keyAllowed, c :: s, p =>
    if isBreak c then skipBlanks inFlow false (keyAllowed || !inFlow) s p.nextLine
    else if inComment || c == '#' then skipBlanks inFlow true keyAllowed s p.next
    else if c == ' ' || (c == '\t' && (inFlow || !keyAllowed)) then
      skipBlanks inFlow false keyAllowed s p.next
    else (c :: s, p, keyAllowed)

/-- Whether the text has gone past where the colon of a key begun at `k` can stand: on the same line
and at most 1024 characters later. -/
def isStale (p : Position) (k : PendingKey) : Bool :=
  k.position.line < p.line || k.position.index + 1024 < p.index

/-- `k` unless it is stale, which fails for a required key. -/
def keepFresh (p : Position) : Option PendingKey → Option (Option PendingKey)
  | none => some none
  | some k => if isStale p k then (if k.required then none else some none) else some (some k)

/-- The pending keys that are not stale. -/
def dropStale (l : Lexer) : Option Lexer := do
  let pending ← keepFresh l.position l.pending
  let outerPending ← l.outerPending.mapM (keepFresh l.position)
  some { l with pending, outerPending }

/-- The pending key given up, which fails for a required key. -/
def dropKey (l : Lexer) : Option Lexer :=
  match l.pending with
  | some k => if k.required then none else some { l with pending := none }
  | none => some l

/-- A key may begin here. -/
def saveKey (l : Lexer) : Option Lexer :=
  if l.keyAllowed then do
    let required := !l.inFlow && l.indent == (l.position.column : Int)
    let l ← l.dropKey
    some { l with pending := some ⟨l.count, l.position, required⟩ }
  else some l

/-- How many block collections indented by more than `column` end, and the columns that remain. -/
def unrollFrom (column : Int) : Int → List Int → Nat × Int × List Int
  | indent, [] => (0, indent, [])
  | indent, outer :: outers =>
    if column < indent then
      let (n, r) := unrollFrom column outer outers
      (n + 1, r)
    else (0, indent, outer :: outers)

/-- The end of the block collections indented by more than `column`. -/
def unroll (l : Lexer) (column : Int) : Lexer :=
  if l.inFlow then l
  else
    let (n, indent, outerIndents) := unrollFrom column l.indent l.outerIndents
    { l with
      tokens := List.replicate n Token.blockEnd ++ l.tokens
      count := l.count + n
      indent
      outerIndents }

/-- The beginning `t` of a block collection at `column`, after the first `n` tokens, if the
collection is not already open. -/
def roll (l : Lexer) (column : Int) (n : Nat) (t : Token) : Lexer :=
  if l.inFlow || decide (column ≤ l.indent) then l
  else { l.emitAt n t with indent := column, outerIndents := l.indent :: l.outerIndents }

/-- A block collection `t` opened here by the indicator of an entry, which must be where a key may
begin. -/
def openBlock (l : Lexer) (t : Token) : Option Lexer :=
  if l.inFlow then some l
  else if l.keyAllowed then some (l.roll l.position.column l.count t)
  else none

def flowStart (l : Lexer) (t : Token) : Option Lexer := do
  let l ← l.saveKey
  let l := { l with outerPending := l.pending :: l.outerPending, pending := none }
  some ({ l with keyAllowed := true }.skip 1 |>.emit t)

def flowEnd (l : Lexer) (t : Token) : Option Lexer := do
  let l ← l.dropKey
  let l := match l.outerPending with
    | pending :: outerPending => { l with pending, outerPending }
    | [] => l
  some ({ l with keyAllowed := false }.skip 1 |>.emit t)

def flowEntry (l : Lexer) : Option Lexer := do
  let l ← l.dropKey
  some ({ l with keyAllowed := true }.skip 1 |>.emit .flowEntry)

def blockEntry (l : Lexer) : Option Lexer := do
  let l ← l.openBlock .blockSequenceStart
  let l ← l.dropKey
  some ({ l with keyAllowed := true }.skip 1 |>.emit .blockEntry)

def key (l : Lexer) : Option Lexer := do
  let l ← l.openBlock .blockMappingStart
  let l ← l.dropKey
  some ({ l with keyAllowed := !l.inFlow }.skip 1 |>.emit .key)

/-- A colon. If a key has begun, its token and that of its mapping are put in before it. -/
def value (l : Lexer) : Option Lexer := do
  let l ← match l.pending with
    | some k =>
      let l := { l with pending := none }.emitAt k.tokens .key
      let l := l.roll k.position.column k.tokens .blockMappingStart
      some { l with keyAllowed := false }
    | none => do
      let l ← l.openBlock .blockMappingStart
      some { l with keyAllowed := !l.inFlow }
  some (l.skip 1 |>.emit .value)

/-- The state after a scalar that was scanned. -/
def finish (l : Lexer) (plain : Bool) (r : Scanned) : Lexer :=
  { l with rest := r.rest, position := r.position }.emit (.scalar (String.ofList r.text) plain)

def plain (l : Lexer) : Option Lexer := do
  let l ← l.saveKey
  let r ← plainFrom l.inFlow (l.indent + 1) l.rest l.position none []
  some ({ l with keyAllowed := r.endedLine }.finish true r)

def quoted (l : Lexer) (q : Char) : Option Lexer := do
  let l ← l.saveKey
  let s := l.rest.drop 1
  let r ← quotedFrom q (s.length + 1) s l.position.next none []
  some ({ l with keyAllowed := false }.finish false r)

def block (l : Lexer) (literal : Bool) : Option Lexer := do
  let l ← l.dropKey
  let r ← blockScalar? literal l.indent (l.rest.drop 1) l.position.next
  some ({ l with keyAllowed := true }.finish false r)

/-- The lexer after `t`, with `s` the text that follows `t` on the same line. -/
def passTo (l : Lexer) (t : Token) (s : List Char) : Lexer :=
  l.skip (l.rest.length - s.length) |>.emit t

def anchor (l : Lexer) (token : String → Token) : Option Lexer := do
  let l ← l.saveKey
  let (name, s) ← anchorName? (l.rest.drop 1)
  some ({ l with keyAllowed := false }.passTo (token name) s)

def tag (l : Lexer) : Option Lexer := do
  let l ← l.saveKey
  let (t, s) ← tag? l.inFlow l.rest
  some ({ l with keyAllowed := false }.passTo t s)

def directive (l : Lexer) : Option Lexer := do
  let l ← (l.unroll (-1)).dropKey
  let (t, s) ← directive? (l.rest.drop 1)
  some ({ l with keyAllowed := false }.passTo t s)

def documentMark (l : Lexer) (t : Token) : Option Lexer := do
  let l ← (l.unroll (-1)).dropKey
  some ({ l with keyAllowed := false }.skip 3 |>.emit t)

/-- Whether a plain scalar begins with `c` before `s`. -/
def startsPlain (inFlow : Bool) (c : Char) (s : List Char) : Bool :=
  (!isSpace c && !isBreak c && !"-?:,[]\x7b\x7d#&*!|>'\"%@\x60".toList.contains c) ||
    (c == '-' && !s.head?.any isSpace) ||
    (!inFlow && (c == '?' || c == ':') && !atWordEnd s)

/-- The next token; `none` in the pair at the end of the text. -/
def next (l : Lexer) : Option (Lexer × Bool) := do
  let (rest, position, keyAllowed) := skipBlanks l.inFlow false l.keyAllowed l.rest l.position
  let l ← { l with rest, position, keyAllowed }.dropStale
  let l := l.unroll l.position.column
  match l.rest with
  | [] => do
    let l ← (l.unroll (-1)).dropKey
    some (l, true)
  | c :: s =>
    let more (l : Option Lexer) : Option (Lexer × Bool) := l.map fun l => (l, false)
    if l.position.column = 0 ∧ c = '%' then more l.directive
    else if l.position.column = 0 ∧ atDocumentMark l.rest then
      more (l.documentMark (if c = '-' then .documentStart else .documentEnd))
    else if c = '[' then more (l.flowStart .flowSequenceStart)
    else if c = '\x7b' then more (l.flowStart .flowMappingStart)
    else if c = ']' then more (l.flowEnd .flowSequenceEnd)
    else if c = '\x7d' then more (l.flowEnd .flowMappingEnd)
    else if c = ',' then more l.flowEntry
    else if c = '-' ∧ atWordEnd s then more l.blockEntry
    else if c = '?' ∧ (l.inFlow ∨ atWordEnd s) then more l.key
    else if c = ':' ∧ (l.inFlow ∨ atWordEnd s) then more l.value
    else if c = '*' then more (l.anchor .alias)
    else if c = '&' then more (l.anchor .anchor)
    else if c = '!' then more l.tag
    else if c = '|' ∧ !l.inFlow then more (l.block true)
    else if c = '>' ∧ !l.inFlow then more (l.block false)
    else if c = '\'' ∨ c = '"' then more (l.quoted c)
    else if startsPlain l.inFlow c s then more l.plain
    else none

/-- All tokens; every step but the last takes at least one character, so `fuel` exceeds their
number. -/
def run : (fuel : Nat) → Lexer → Option (List Token)
  | 0, _ => none
  | fuel + 1, l =>
    match l.next with
    | none => none
    | some (l, true) => some l.tokens.reverse
    | some (l, false) => run fuel l

end Lexer

/-- The tokens of a text. A byte order mark at its front is passed over; any other character that
may not stand in a document makes it unreadable. -/
def Token.scan? (s : List Char) : Option (List Token) :=
  let s := match s with
    | '\ufeff' :: s => s
    | s => s
  if s.all isAllowed then (Lexer.start s).run (s.length + 1) else none

end LuauBindings.Yaml
