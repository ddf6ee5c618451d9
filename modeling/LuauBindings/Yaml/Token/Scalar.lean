import LuauBindings.Text.HexDigit
import LuauBindings.Yaml.Token

/-!
# Scalars

The text of a scalar in its three spellings: plain, between quotes, and as a block of lines. In the
first two, white space between words is kept as it is on one line and folded over a line end
(`Gap`).
-/

namespace LuauBindings.Yaml

/-- A scalar that was read, and what follows it. -/
structure Scanned where
  text : List Char
  rest : List Char
  position : Position
  /-- Whether it was followed by a line end that was read with it. -/
  endedLine : Bool

/-- White space inside a scalar. -/
inductive Gap
  /-- Spaces and tabs, latest first. -/
  | blanks (s : List Char)
  /-- Line ends: the first one, unless it was escaped, and the others, latest first. -/
  | lineEnds (first : Option Char) (others : List Char)

namespace Gap

/-- The gap after one more space or tab; after a line end they do not count. -/
def addSpace (c : Char) : Option Gap → Gap
  | none => .blanks [c]
  | some (.blanks s) => .blanks (c :: s)
  | some g => g

/-- The gap after one more line end. -/
def addBreak (c : Char) : Option Gap → Gap
  | some (.lineEnds first others) => .lineEnds first (breakText c :: others)
  | _ => .lineEnds (some (breakText c)) []

def hasLineEnd : Option Gap → Bool
  | some (.lineEnds _ _) => true
  | _ => false

/-- What a gap contributes to the text, latest character first: one newline is a space, and of more
the first is dropped. -/
def folded : Option Gap → List Char
  | none => []
  | some (.blanks s) => s
  | some (.lineEnds none others) => others
  | some (.lineEnds (some first) others) =>
    if first = '\n' then (if others.isEmpty then [' '] else others) else others ++ [first]

end Gap

/-- Whether `c` is an indicator of flow collections that ends a plain scalar in one. -/
def isFlowIndicator (c : Char) : Bool :=
  c == ',' || c == '[' || c == ']' || c == '\x7b' || c == '\x7d'

/-- Whether a colon before `s` is refused in a plain scalar of a flow collection. -/
def badAfterColon : List Char → Bool
  | [] => false
  | c :: _ => isFlowIndicator c || c == '?'

/-- A plain scalar whose text so far is `acc`, latest character first, followed by `gap`. A line of
it starts at column `floor` or later, unless it stands in a flow collection. -/
def plainFrom (inFlow : Bool) (floor : Int) :
    List Char → Position → (gap : Option Gap) → (acc : List Char) → Option Scanned
  | [], p, gap, acc => some ⟨acc.reverse, [], p, Gap.hasLineEnd gap⟩
  | c :: s, p, gap, acc =>
    if isSpace c then
      if c == '\t' && Gap.hasLineEnd gap && decide ((p.column : Int) < floor) then none
      else plainFrom inFlow floor s p.next (some (Gap.addSpace c gap)) acc
    else if isBreak c then
      plainFrom inFlow floor s p.nextLine (some (Gap.addBreak c gap)) acc
    else
      let endsAfterGap := gap.isSome &&
        ((!inFlow && decide ((p.column : Int) < floor)) || c == '#' ||
          (p.column == 0 && atDocumentMark (c :: s)))
      if endsAfterGap then some ⟨acc.reverse, c :: s, p, Gap.hasLineEnd gap⟩
      else if inFlow && c == ':' && badAfterColon s then none
      else if (c == ':' && atWordEnd s) || (inFlow && isFlowIndicator c) then
        some ⟨acc.reverse, c :: s, p, Gap.hasLineEnd gap⟩
      else plainFrom inFlow floor s p.next none (c :: (Gap.folded gap ++ acc))

/-- What a backslash and a letter stand for. -/
inductive Escape
  | char (c : Char)
  /-- The character whose code point follows in so many hexadecimal digits. -/
  | code (digits : Nat)

def Escape.ofLetter? (c : Char) : Option Escape :=
  match c with
  | '0' => some (.char '\x00')
  | 'a' => some (.char '\x07')
  | 'b' => some (.char '\x08')
  | 't' => some (.char '\t')
  | '\t' => some (.char '\t')
  | 'n' => some (.char '\n')
  | 'v' => some (.char '\x0b')
  | 'f' => some (.char '\x0c')
  | 'r' => some (.char '\r')
  | 'e' => some (.char '\x1b')
  | ' ' => some (.char ' ')
  | '"' => some (.char '"')
  | '/' => some (.char '/')
  | '\\' => some (.char '\\')
  | 'N' => some (.char '\x85')
  | '_' => some (.char '\xa0')
  | 'L' => some (.char '\u2028')
  | 'P' => some (.char '\u2029')
  | 'x' => some (.code 2)
  | 'u' => some (.code 4)
  | 'U' => some (.code 8)
  | _ => none

/-- The number in the first `digits` hexadecimal digits, after `acc`, and what follows them. -/
def hexNumber? : (digits acc : Nat) → List Char → Option (Nat × List Char)
  | 0, acc, s => some (acc, s)
  | _ + 1, _, [] => none
  | n + 1, acc, c :: s =>
    match Text.hexValue? c with
    | some d => hexNumber? n (16 * acc + d) s
    | none => none

/-- The character at code point `n`, unless that is a surrogate or none. -/
def charAt? (n : Nat) : Option Char :=
  if h : n.isValidChar then some (Char.ofNatAux n h) else none

/-- A scalar between quotes `q`, after its opening quote. `fuel` bounds the characters of it. -/
def quotedFrom (q : Char) :
    (fuel : Nat) → List Char → Position → (gap : Option Gap) → (acc : List Char) → Option Scanned
  | 0, _, _, _, _ => none
  | _ + 1, [], _, _, _ => none
  | fuel + 1, c :: s, p, gap, acc =>
    if p.column == 0 && atDocumentMark (c :: s) then none
    else if isSpace c then quotedFrom q fuel s p.next (some (Gap.addSpace c gap)) acc
    else if isBreak c then quotedFrom q fuel s p.nextLine (some (Gap.addBreak c gap)) acc
    else
      let acc := Gap.folded gap ++ acc
      if c == q then
        match q, s with
        | '\'', '\'' :: s => quotedFrom q fuel s (p.advance 2) none ('\'' :: acc)
        | _, _ => some ⟨acc.reverse, s, p.next, false⟩
      else if c == '\\' && q == '"' then
        match s with
        | [] => none
        | e :: s =>
          if isBreak e then quotedFrom q fuel s p.next.nextLine (some (.lineEnds none [])) acc
          else match Escape.ofLetter? e with
            | none => none
            | some (.char c) => quotedFrom q fuel s (p.advance 2) none (c :: acc)
            | some (.code digits) =>
              match hexNumber? digits 0 s with
              | none => none
              | some (n, s) =>
                match charAt? n with
                | none => none
                | some c => quotedFrom q fuel s (p.advance (2 + digits)) none (c :: acc)
      else quotedFrom q fuel s p.next none (c :: acc)

/-- What becomes of the line ends at the end of a block scalar. -/
inductive Chomping
  | strip
  | clip
  | keep
deriving DecidableEq, Repr

/-- The header of a block scalar after its indicator: the indentation it gives, if any, the
chomping, and what follows. -/
def blockHeader? (s : List Char) : Option (Option Nat × Chomping × List Char) :=
  let chomp : List Char → Option Chomping × List Char
    | '+' :: s => (some .keep, s)
    | '-' :: s => (some .strip, s)
    | s => (none, s)
  let digit : List Char → Option (Option Nat × List Char)
    | c :: s =>
      if c == '0' then none
      else if c.isDigit then some (some (c.toNat - '0'.toNat), s)
      else some (none, c :: s)
    | [] => some (none, [])
  match chomp s with
  | (some how, s) => (digit s).map fun (width, s) => (width, how, s)
  | (none, s) => (digit s).map fun (width, s) =>
    let (how, s) := chomp s
    (width, how.getD .clip, s)

/-- The blank lines and the indentation at the front of a line of a block scalar: what follows them,
the widest indentation seen, and the line ends, latest first. While `indent` is zero the
indentation is not yet known, and all spaces belong to it. -/
def blockGap (indent : Nat) :
    List Char → Position → (widest : Nat) → (breaks : List Char) →
      Option (List Char × Position × Nat × List Char)
  | [], p, widest, breaks => some ([], p, max widest p.column, breaks)
  | c :: s, p, widest, breaks =>
    let inside := indent == 0 || decide (p.column < indent)
    if c == ' ' && inside then blockGap indent s p.next widest breaks
    else if c == '\t' && inside then none
    else if isBreak c then
      blockGap indent s p.nextLine (max widest p.column) (breakText c :: breaks)
    else some (c :: s, p, max widest p.column, breaks)

/-- A block scalar under way: its text and the line ends after it, all latest character first. -/
structure BlockText where
  text : List Char
  /-- The end of its last line. -/
  lastBreak : List Char
  /-- The blank lines after that. -/
  breaks : List Char
  /-- Whether its last line starts with white space. -/
  startsBlank : Bool

/-- `b` with the line `line` after it. A line end between lines that start without white space is
folded unless `literal`. -/
def BlockText.addLine (b : BlockText) (literal : Bool) (line : List Char) (lineEnd : List Char) :
    BlockText :=
  let blank := match line with
    | c :: _ => isSpace c
    | [] => false
  let joint :=
    if !literal && b.lastBreak == ['\n'] && !b.startsBlank && !blank then
      (if b.breaks.isEmpty then [' '] else [])
    else b.lastBreak
  ⟨line.reverse ++ (b.breaks ++ (joint ++ b.text)), lineEnd, [], blank⟩

/-- The lines of a block scalar whose indentation is `indent`, with what follows them. -/
def blockLines (literal : Bool) (indent : Nat) :
    (fuel : Nat) → List Char → Position → BlockText → Option (BlockText × List Char × Position)
  | 0, _, _, _ => none
  | fuel + 1, s, p, b =>
    if p.column = indent ∧ s ≠ [] then
      let line := s.takeWhile fun c => !isBreak c
      let p := p.advance line.length
      let (lineEnd, s, p) := match s.dropWhile fun c => !isBreak c with
        | c :: s => ([breakText c], s, p.nextLine)
        | [] => ([], [], p)
      let b := b.addLine literal line lineEnd
      match blockGap indent s p 0 [] with
      | none => none
      | some (s, p, _, breaks) => blockLines literal indent fuel s p { b with breaks }
    else some (b, s, p)

/-- A block scalar after its indicator, in a collection indented by `outer`. -/
def blockScalar? (literal : Bool) (outer : Int) (s : List Char) (p : Position) :
    Option Scanned := do
  let (width, chomping, s') ← blockHeader? s
  let s'' := s'.dropWhile isSpace
  let s'' := if s''.head? = some '#' then s''.dropWhile fun c => !isBreak c else s''
  let p := p.advance (s.length - s''.length)
  let (s, p) ← match s'' with
    | [] => some ([], p)
    | c :: s => if isBreak c then some (s, p.nextLine) else none
  let known := match width with
    | some width => (if 0 ≤ outer then outer.toNat else 0) + width
    | none => 0
  let (s, p, widest, breaks) ← blockGap known s p 0 []
  let indent := if known = 0 then max widest (max (outer + 1).toNat 1) else known
  let (b, s, p) ← blockLines literal indent (s.length + 1) s p ⟨[], [], breaks, false⟩
  let tail := match chomping with
    | .strip => []
    | .clip => b.lastBreak
    | .keep => b.breaks ++ b.lastBreak
  some ⟨(tail ++ b.text).reverse, s, p, false⟩

end LuauBindings.Yaml
