/-!
# Columns and numbers of a report

Text is padded with spaces to a width in characters, and large numbers are grouped by thousands.
-/

namespace LuauBindings.Text

/-- `s` followed by spaces up to `width` characters. -/
def padRight (width : Nat) (s : String) : String :=
  s ++ String.ofList (List.replicate (width - s.length) ' ')

/-- `s` after spaces up to `width` characters. -/
def padLeft (width : Nat) (s : String) : String :=
  String.ofList (List.replicate (width - s.length) ' ') ++ s

/-- The digits `ds`, least significant first, with a comma after every third. -/
def groupDigits : List Char → List Char
  | a :: b :: c :: d :: ds => a :: b :: c :: ',' :: groupDigits (d :: ds)
  | ds => ds

/-- `n` in decimal, a minus sign in front of a negative one. -/
def decimal (n : Int) : String :=
  (if n < 0 then "-" else "") ++ n.natAbs.repr

/-- `n` in decimal, its thousands set apart by commas. -/
def grouped (n : Int) : String :=
  (if n < 0 then "-" else "") ++
    String.ofList (groupDigits n.natAbs.repr.toList.reverse).reverse

/-- `n` in decimal with zeros in front up to `width` digits. -/
def zeroPadded (width n : Nat) : String :=
  String.ofList (List.replicate (width - n.repr.length) '0') ++ n.repr

end LuauBindings.Text
