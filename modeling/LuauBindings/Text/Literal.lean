import LuauBindings.Text.HexDigit

/-!
# String literals of the generated code

A literal stands between double quotes. The quote, the backslash and the control characters below
U+0020 are escaped, those without a letter of their own with four hexadecimal digits; every other
character stands for itself.
-/

namespace LuauBindings.Text.Literal

/-- `c` as it stands in a literal. -/
def escapeChar (c : Char) : List Char :=
  if c = '"' then ['\\', '"']
  else if c = '\\' then ['\\', '\\']
  else if c = '\n' then ['\\', 'n']
  else if c = '\r' then ['\\', 'r']
  else if c = '\t' then ['\\', 't']
  else if c = '\x0c' then ['\\', 'f']
  else if c = '\x08' then ['\\', 'b']
  else if c.toNat < 0x20 then '\\' :: 'u' :: hex 4 c.toNat
  else [c]

/-- The literal that denotes `s`. -/
def encodeChars (s : List Char) : List Char :=
  '"' :: s.flatMap escapeChar ++ ['"']

/-- The literal that denotes `s`. -/
def encode (s : String) : String :=
  String.ofList (encodeChars s.toList)

@[simp] theorem toList_encode (s : String) : (encode s).toList = encodeChars s.toList := by
  simp [encode]

end LuauBindings.Text.Literal
