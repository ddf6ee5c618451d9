/-!
# Double precision numbers

A finite number is a sign and `mantissa * 2 ^ exponent`. Every operation computes the exact
rational result and rounds it once, to nearest with ties to even (`roundRatio`).
-/

namespace LuauBindings

/-- A double precision number. In a finite one `mantissa < 2 ^ 53`, `-1074 ≤ exponent ≤ 971`, and
`2 ^ 52 ≤ mantissa` unless `exponent = -1074`, so that equal numbers of one sign have equal
parts. -/
inductive Binary64
  | finite (negative : Bool) (mantissa : Nat) (exponent : Int)
  | infinite (negative : Bool)
  | nan
deriving DecidableEq, Repr

namespace Binary64

def zero : Binary64 := .finite false 0 (-1074)

/-- The whole number nearest to `num / den`, the even one of two. -/
def divNearest (num den : Nat) : Nat :=
  let q := num / den
  let r := num % den
  if 2 * r < den then q else if den < 2 * r then q + 1 else q + q % 2

/-- The quotient of `num / den` by `2 ^ e`, as a fraction. -/
def scaleDown (num den : Nat) (e : Int) : Nat × Nat :=
  if 0 ≤ e then (num, den * Nat.pow 2 e.toNat) else (num * Nat.pow 2 (-e).toNat, den)

/-- The exponent for `num / den`: the quotient by its power of two lies between `2 ^ 52` and
`2 ^ 53`, unless that would take it below the least exponent. -/
def exponentFor (num den : Nat) : Int :=
  let e : Int := (num.log2 : Int) - den.log2 - 53
  let (n, d) := scaleDown num den e
  max (-1074) (if n < d * Nat.pow 2 53 then e else e + 1)

/-- The number nearest to `num / den` with the given sign; beyond the greatest finite number,
infinity. -/
def roundRatio (negative : Bool) (num den : Nat) : Binary64 :=
  if num = 0 then .finite negative 0 (-1074)
  else
    let e := exponentFor num den
    let (n, d) := scaleDown num den e
    let m := divNearest n d
    let (m, e) := if m = Nat.pow 2 53 then (Nat.pow 2 52, e + 1) else (m, e)
    if 971 < e then .infinite negative else .finite negative m e

/-- `digits * 10 ^ exponent`, rounded. Below `10 ^ -400` and from `10 ^ 400` on the result is known
from the size of `digits` alone, which lies between `10 ^ (log2 / 4)` and `10 ^ (log2 / 3 + 1)`. -/
def ofDecimal (negative : Bool) (digits : Nat) (exponent : Int) : Binary64 :=
  let size : Int := digits.log2
  if digits = 0 ∨ size / 3 + 1 + exponent < -400 then .finite negative 0 (-1074)
  else if 400 < size / 4 + exponent then .infinite negative
  else if 0 ≤ exponent then roundRatio negative (digits * Nat.pow 10 exponent.toNat) 1
  else roundRatio negative digits (Nat.pow 10 (-exponent).toNat)

def ofNat (n : Nat) : Binary64 :=
  roundRatio false n 1

def neg : Binary64 → Binary64
  | .finite s m e => .finite (!s) m e
  | .infinite s => .infinite (!s)
  | .nan => .nan

/-- The absolute value of a finite number, as a fraction. -/
def magnitude (mantissa : Nat) (exponent : Int) : Nat × Nat :=
  if 0 ≤ exponent then (mantissa * Nat.pow 2 exponent.toNat, 1)
  else (mantissa, Nat.pow 2 (-exponent).toNat)

/-- The sum of two numbers; the sum of zeros is negative only if both are. -/
def add : Binary64 → Binary64 → Binary64
  | .finite s m e, .finite t k f =>
    let (n₁, d₁) := magnitude m e
    let (n₂, d₂) := magnitude k f
    let a : Int := (if s then -(n₁ : Int) else n₁) * d₂
    let b : Int := (if t then -(n₂ : Int) else n₂) * d₁
    let sum := a + b
    if sum = 0 then .finite (s && t) 0 (-1074)
    else roundRatio (sum < 0) sum.natAbs (d₁ * d₂)
  | .nan, _ => .nan
  | _, .nan => .nan
  | .infinite s, .infinite t => if s = t then .infinite s else .nan
  | .infinite s, _ => .infinite s
  | _, .infinite t => .infinite t

/-- The product of two numbers. -/
def mul : Binary64 → Binary64 → Binary64
  | .finite s m e, .finite t k f =>
    let (n₁, d₁) := magnitude m e
    let (n₂, d₂) := magnitude k f
    roundRatio (s != t) (n₁ * n₂) (d₁ * d₂)
  | .nan, _ => .nan
  | _, .nan => .nan
  | .infinite s, .infinite t => .infinite (s != t)
  | .infinite s, .finite t k _ => if k = 0 then .nan else .infinite (s != t)
  | .finite s m _, .infinite t => if m = 0 then .nan else .infinite (s != t)

/-- Whether `x` is a zero of either sign. -/
def isZero : Binary64 → Bool
  | .finite _ m _ => m == 0
  | _ => false

/-- Equality of keys: zeros of both signs are one number, and so is `nan`. -/
def same (x y : Binary64) : Bool :=
  (x.isZero && y.isZero) || x == y

/-- Whether `x` is exactly the whole number `i`. -/
def isInt (x : Binary64) (i : Int) : Bool :=
  match x with
  | .finite s m e =>
    let (n, d) := magnitude m e
    (if s then -(n : Int) else n) == i * d
  | _ => false

end Binary64

end LuauBindings
