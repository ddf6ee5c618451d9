import LuauBindings.Number.Binary64
import LuauBindings.Text.Column

/-!
# Decimal text of double precision numbers

A number is written with the fewest digits that read back as the same number, and of those the
nearest (`shortest`). Below `10 ^ 16` and from `10 ^ -4` on it is written positionally with at least
one digit after the point, otherwise with an exponent of at least two digits.
-/

namespace LuauBindings.Binary64

/-- The number of decimal digits of `num / den` before the point, counted negatively through the
zeros after it: `10 ^ (k - 1) ≤ num / den < 10 ^ k`. -/
def decimalPlace (num den : Nat) : Int :=
  if den ≤ num then (num / den).repr.length else 1 - (((den - 1) / num).repr.length : Int)

/-- The digits of the point of the grid of `count` digits that is nearest to the positive number
`mantissa * 2 ^ exponent` among those that read back, if one does, with the power of ten of the
last digit. -/
def digitsOf? (mantissa : Nat) (exponent : Int) (count : Nat) : Option (Nat × Int) :=
  let (num, den) := magnitude mantissa exponent
  let step : Int := decimalPlace num den - count
  let (n, d) :=
    if 0 ≤ step then (num, den * Nat.pow 10 step.toNat)
    else (num * Nat.pow 10 (-step).toNat, den)
  let low := n / d
  let reads (k : Nat) : Bool := ofDecimal false k step == .finite false mantissa exponent
  let nearLow : Bool := decide (2 * (n % d) < d) || (decide (2 * (n % d) = d) && low % 2 == 0)
  let (near, far) := if nearLow then (low, low + 1) else (low + 1, low)
  if reads near then some (near, step) else if reads far then some (far, step) else none

/-- The digits of the first grid from `count` digits on that reads back; `left` more grids are
tried. -/
def shortestFrom (mantissa : Nat) (exponent : Int) : (left count : Nat) → Nat × Int
  | 0, count => (digitsOf? mantissa exponent count).getD (0, 0)
  | left + 1, count =>
    match digitsOf? mantissa exponent count with
    | some r => r
    | none => shortestFrom mantissa exponent left (count + 1)

/-- The fewest digits that read back as the positive number `mantissa * 2 ^ exponent`, with the
power of ten of the last one. Seventeen always suffice. -/
def shortest (mantissa : Nat) (exponent : Int) : Nat × Int :=
  shortestFrom mantissa exponent 16 1

/-- `digits` without the zeros at its end, which are counted into the power of ten. -/
def dropZeros : (fuel : Nat) → (digits : Nat) → (power : Int) → Nat × Int
  | 0, digits, power => (digits, power)
  | fuel + 1, digits, power =>
    if digits % 10 = 0 ∧ digits ≠ 0 then dropZeros fuel (digits / 10) (power + 1)
    else (digits, power)

/-- The text of `digits * 10 ^ power`. -/
def layOut (digits : Nat) (power : Int) : String :=
  let ds := digits.repr
  -- the place of the point, counted from before the first digit
  let point : Int := ds.length + power
  if -4 < point ∧ point ≤ 16 then
    if point ≤ 0 then "0." ++ String.ofList (List.replicate (-point).toNat '0') ++ ds
    else if (ds.length : Int) ≤ point then
      ds ++ String.ofList (List.replicate (point.toNat - ds.length) '0') ++ ".0"
    else
      String.ofList (ds.toList.take point.toNat) ++ "." ++
        String.ofList (ds.toList.drop point.toNat)
  else
    let e := point - 1
    let head := String.ofList (ds.toList.take 1)
    let tail := ds.toList.drop 1
    let mantissa := if tail.isEmpty then head else head ++ "." ++ String.ofList tail
    mantissa ++ "e" ++ (if e < 0 then "-" else "+") ++ Text.zeroPadded 2 e.natAbs

/-- The text of a number. -/
def text : Binary64 → String
  | .finite s m e =>
    let sign := if s then "-" else ""
    if m = 0 then sign ++ "0.0"
    else
      let (digits, power) := shortest m e
      let (digits, power) := dropZeros 400 digits power
      sign ++ layOut digits power
  | .infinite s => if s then "-inf" else "inf"
  | .nan => "nan"

end LuauBindings.Binary64
