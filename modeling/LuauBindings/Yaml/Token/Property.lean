import LuauBindings.Text.HexDigit
import LuauBindings.Yaml.Token

/-!
# Directives, anchors and tags

What stands around nodes: the directives before a document, and the anchor, alias and tag of a
node. A tag is a handle, which a directive may define, and a suffix; the suffix may escape bytes
with a percent sign.
-/

namespace LuauBindings.Yaml

/-- Characters of a tag that stand for themselves; commas and brackets only inside `<` and `>`. -/
def isTagChar (verbatim : Bool) (c : Char) : Bool :=
  isNameChar c || ";/?:@&=+$.!~*'()".toList.contains c || (verbatim && ",[]".toList.contains c)

/-- The byte in the percent escape at the front of `s`. -/
def percentByte? : List Char → Option (Nat × List Char)
  | '%' :: a :: b :: s => do
    let a ← Text.hexValue? a
    let b ← Text.hexValue? b
    some (16 * a + b, s)
  | _ => none

/-- The bytes that continue a character whose bits so far are `acc`. -/
def percentTail? : (more acc : Nat) → List Char → Option (Nat × List Char)
  | 0, acc, s => some (acc, s)
  | more + 1, acc, s => do
    let (b, s) ← percentByte? s
    if b / 0x40 = 2 then percentTail? more (0x40 * acc + b % 0x40) s else none

/-- The character in the percent escapes at the front of `s`. -/
def percentChar? (s : List Char) : Option (Char × List Char) := do
  let (b, s) ← percentByte? s
  let (n, s) ←
    if b < 0x80 then some (b, s)
    else if b / 0x20 = 6 then percentTail? 1 (b % 0x20) s
    else if b / 0x10 = 0xe then percentTail? 2 (b % 0x10) s
    else if b / 8 = 0x1e then percentTail? 3 (b % 8) s
    else none
  some (Char.ofNat n, s)

/-- The characters of a tag at the front of `s`, and what follows them. -/
def tagChars? (verbatim : Bool) : (fuel : Nat) → List Char → Option (List Char × List Char)
  | 0, s => some ([], s)
  | _ + 1, [] => some ([], [])
  | fuel + 1, c :: s =>
    if c == '%' then do
      let (c, s) ← percentChar? (c :: s)
      let (cs, s) ← tagChars? verbatim fuel s
      some (c :: cs, s)
    else if isTagChar verbatim c then do
      let (cs, s) ← tagChars? verbatim fuel s
      some (c :: cs, s)
    else some ([], c :: s)

/-- The handle at the front of `s`: an exclamation mark, a name, and another exclamation mark if
one follows. -/
def tagHandle? (s : List Char) : Option (List Char × List Char) :=
  match s with
  | '!' :: s =>
    let name := s.takeWhile isNameChar
    match s.dropWhile isNameChar with
    | '!' :: s => some ('!' :: name ++ ['!'], s)
    | s => some ('!' :: name, s)
  | _ => none

/-- The tag at the front of `s`, `s` starting with an exclamation mark. -/
def tag? (inFlow : Bool) (s : List Char) : Option (Token × List Char) := do
  let (handle, suffix, s) ←
    match s with
    | '!' :: '<' :: s => do
      let (suffix, s) ← tagChars? true s.length s
      match suffix, s with
      | _ :: _, '>' :: s => some ([], suffix, s)
      | _, _ => none
    | s => do
      let (handle, s) ← tagHandle? s
      if 1 < handle.length ∧ handle.getLast? = some '!' then
        let (suffix, s) ← tagChars? false s.length s
        if suffix.isEmpty then none else some (handle, suffix, s)
      else
        let (more, s) ← tagChars? false s.length s
        let suffix := handle.drop 1 ++ more
        if suffix.isEmpty then some ([], ['!'], s) else some (['!'], suffix, s)
  let ends := atWordEnd s || (inFlow && s.head? == some ',')
  if ends then some (.tag (String.ofList handle) (String.ofList suffix), s) else none

/-- The name of an anchor or alias at the front of `s`. -/
def anchorName? (s : List Char) : Option (String × List Char) :=
  let name := s.takeWhile isNameChar
  let rest := s.dropWhile isNameChar
  let ends := atWordEnd rest || match rest with
    | c :: _ => "?:,]\x7d%@\x60".toList.contains c
    | [] => true
  if name.isEmpty || !ends then none else some (String.ofList name, rest)

/-- A number of at most nine digits at the front of `s`. -/
def versionNumber? (s : List Char) : Option (Nat × List Char) :=
  let ds := s.takeWhile Char.isDigit
  if ds.isEmpty ∨ 9 < ds.length then none
  else some (Nat.ofDigitChars 10 ds 0, s.dropWhile Char.isDigit)

/-- The directive after the percent sign before `s`, with the text from the end of its line on. -/
def directive? (s : List Char) : Option (Token × List Char) := do
  let name := String.ofList (s.takeWhile isNameChar)
  let s := s.dropWhile isNameChar
  if name.isEmpty ∨ !atWordEnd s then none
  let s := s.dropWhile isSpace
  let (token, s) ←
    if name = "YAML" then do
      let (major, s) ← versionNumber? s
      match s with
      | '.' :: s => do
        let (minor, s) ← versionNumber? s
        some (Token.versionDirective major minor, s)
      | _ => none
    else if name = "TAG" then do
      let (handle, s) ← tagHandle? s
      if handle ≠ ['!'] ∧ handle.getLast? ≠ some '!' then none
      if !(s.head?.any isSpace) then none
      let s := s.dropWhile isSpace
      let (lead, s) ← tagChars? true s.length s
      if lead.isEmpty ∨ !atWordEnd s then none
      some (Token.tagDirective (String.ofList handle) (String.ofList lead), s)
    else none
  let s := s.dropWhile isSpace
  let s := if s.head? = some '#' then s.dropWhile fun c => !isBreak c else s
  if atLineEnd s then some (token, s) else none

end LuauBindings.Yaml
