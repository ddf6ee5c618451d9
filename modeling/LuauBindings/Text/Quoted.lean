import LuauBindings.Text.HexDigit
import LuauBindings.Text.Printable

/-!
# Quoted text in messages

A message shows a text between single quotes, or between double quotes when it holds single
quotes only. The quote itself, the backslash, and what cannot be shown are escaped; bytes are shown
likewise, every byte outside ASCII escaped.
-/

namespace LuauBindings.Text

/-- The quote for a text: double if the text holds single quotes and no double ones. -/
def quoteFor (s : List Char) : Char :=
  if s.contains '\'' && !s.contains '"' then '"' else '\''

/-- The escape that is common to text and bytes, if `c` has one between quotes `q`. -/
def shortEscape? (q c : Char) : Option (List Char) :=
  if c = q ∨ c = '\\' then some ['\\', c]
  else if c = '\t' then some ['\\', 't']
  else if c = '\n' then some ['\\', 'n']
  else if c = '\r' then some ['\\', 'r']
  else none

/-- `c` as it stands between quotes `q`: escaped with two, four or eight hexadecimal digits if it
is not printable. -/
def quotedChar (q c : Char) : List Char :=
  match shortEscape? q c with
  | some e => e
  | none =>
    let n := c.toNat
    if n < 0x20 || n == 0x7f then '\\' :: 'x' :: hex 2 n
    else if n < 0x7f || isPrintable c then [c]
    else if n ≤ 0xff then '\\' :: 'x' :: hex 2 n
    else if n ≤ 0xffff then '\\' :: 'u' :: hex 4 n
    else '\\' :: 'U' :: hex 8 n

/-- `s` between quotes. -/
def quoteChars (s : List Char) : List Char :=
  let q := quoteFor s
  q :: s.flatMap (quotedChar q) ++ [q]

/-- `s` between quotes. -/
def quote (s : String) : String :=
  String.ofList (quoteChars s.toList)

/-- The bytes `bs` between quotes, after the letter `b`. -/
def quoteBytes (bs : List UInt8) : String :=
  let s := bs.map fun b => Char.ofNat b.toNat
  let q := quoteFor s
  let shown (c : Char) : List Char :=
    match shortEscape? q c with
    | some e => e
    | none => if c.toNat < 0x20 || 0x7f ≤ c.toNat then '\\' :: 'x' :: hex 2 c.toNat else [c]
  String.ofList ('b' :: q :: s.flatMap shown ++ [q])

end LuauBindings.Text
