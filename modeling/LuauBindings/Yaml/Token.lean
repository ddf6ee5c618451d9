/-!
# Tokens of a document

A document is a sequence of tokens; those that open and close block collections stand for changes
of indentation. This module has the tokens, the classes of characters that tell them apart, and
positions in the text.
-/

namespace LuauBindings.Yaml

/-- A token. `key` and `value` stand before the key and the value of a mapping's entry. -/
inductive Token
  | versionDirective (major minor : Nat)
  | tagDirective (handle lead : String)
  | documentStart
  | documentEnd
  | blockSequenceStart
  | blockMappingStart
  | blockEnd
  | flowSequenceStart
  | flowSequenceEnd
  | flowMappingStart
  | flowMappingEnd
  | blockEntry
  | flowEntry
  | key
  | value
  | alias (name : String)
  | anchor (name : String)
  | tag (handle suffix : String)
  | scalar (text : String) (plain : Bool)
deriving DecidableEq, Repr

/-- A place in the text, all counted in characters from zero. -/
structure Position where
  index : Nat
  line : Nat
  column : Nat
deriving DecidableEq, Repr

namespace Position

def start : Position := ⟨0, 0, 0⟩

/-- The position `n` characters further on the same line. -/
def advance (p : Position) (n : Nat) : Position :=
  ⟨p.index + n, p.line, p.column + n⟩

/-- The position after one more character on the same line. -/
def next (p : Position) : Position :=
  p.advance 1

/-- The position after a line end. -/
def nextLine (p : Position) : Position :=
  ⟨p.index + 1, p.line + 1, 0⟩

end Position

/-- Characters that may stand in a document. -/
def isAllowed (c : Char) : Bool :=
  let n := c.toNat
  n == 0x09 || n == 0x0a || n == 0x0d || (0x20 ≤ n && n ≤ 0x7e) || n == 0x85 ||
    (0xa0 ≤ n && n ≤ 0xfffd && n != 0xfeff) || 0x10000 ≤ n

/-- A space or a tab. -/
def isSpace (c : Char) : Bool :=
  c == ' ' || c == '\t'

/-- A line end. -/
def isBreak (c : Char) : Bool :=
  c == '\n' || c == '\r' || c == '\x85' || c == '\u2028' || c == '\u2029'

/-- What a line end reads as: a newline, or itself if it is a Unicode separator. -/
def breakText (c : Char) : Char :=
  if c = '\u2028' ∨ c = '\u2029' then c else '\n'

/-- Whether a word ends at the front of `s`: before white space and at the end of the text. -/
def atWordEnd : List Char → Bool
  | [] => true
  | c :: _ => isSpace c || isBreak c

/-- Whether a line ends at the front of `s`. -/
def atLineEnd : List Char → Bool
  | [] => true
  | c :: _ => isBreak c

/-- Letters of the names of anchors, directives and tag handles. -/
def isNameChar (c : Char) : Bool :=
  c.isAlphanum || c == '_' || c == '-'

/-- Whether three hyphens, or three points, stand at the front of `s` as a word of their own. -/
def atDocumentMark : List Char → Bool
  | a :: b :: c :: s => (a == '-' || a == '.') && b == a && c == a && atWordEnd s
  | _ => false

end LuauBindings.Yaml
