import LuauBindings.Text.DecimalDigit
import LuauBindings.Text.Lowercase
import LuauBindings.Yaml.Tag
import LuauBindings.Yaml.Value

/-!
# Reading scalars

The value of a scalar's text under its tag. A plain scalar has its tag from its text and mostly
reads; a tag that is written out may stand before any text, and `ScalarFault` says what is wrong
with it.
-/

namespace LuauBindings.Yaml

/-- Why the text of a scalar does not read under its tag. -/
inductive ScalarFault
  | notInteger (base : Nat) (text : String)
  | tooManyDigits (count : Nat)
  | notFloat (text : String)
  /-- A number without any character after its sign. -/
  | emptyNumber
  | notTruthWord (word : String)
  | notTimestamp
  /-- A mapping under the tag of dates and times. -/
  | timestampMapping
  | calendar (fault : CalendarFault)
deriving DecidableEq, Repr

def ScalarFault.message : ScalarFault → String
  | .notInteger base text =>
    "invalid literal for int() with base " ++ base.repr ++ ": " ++
      String.ofList ((Text.quote text).toList.take 200)
  | .tooManyDigits count =>
    "Exceeds the limit (4300 digits) for integer string conversion: value has " ++ count.repr ++
      " digits; use sys.set_int_max_str_digits() to increase the limit"
  | .notFloat text => "could not convert string to float: " ++ Text.quote text
  | .emptyNumber => "string index out of range"
  | .notTruthWord word => Text.quote word
  | .notTimestamp => "'NoneType' object has no attribute 'groupdict'"
  | .timestampMapping => "expected string or bytes-like object, got 'list'"
  | .calendar fault => fault.message

namespace Scalar

/-- The value of a digit below `base`. -/
def digitIn? (base : Nat) (c : Char) : Option Nat :=
  let value :=
    if 'g' ≤ c ∧ c ≤ 'z' then some (c.toNat - 0x57)
    else if 'G' ≤ c ∧ c ≤ 'Z' then some (c.toNat - 0x37)
    else Text.hexValue? c
  value.filter (· < base)

/-- `s` without the mark of `base` at its front. -/
def dropBaseMark (base : Nat) (s : List Char) : List Char :=
  match s with
  | '0' :: m :: rest =>
    if (base = 16 ∧ (m = 'x' ∨ m = 'X')) ∨ (base = 8 ∧ (m = 'o' ∨ m = 'O')) ∨
        (base = 2 ∧ (m = 'b' ∨ m = 'B')) then rest
    else s
  | _ => s

/-- The integer written in `text` in `base`: white space at the ends, a sign and the mark of the
base aside, one digit or more. Decimal numbers have at most 4300 digits. -/
def readInt (base : Nat) (text : List Char) : Except ScalarFault Int :=
  let s := Text.asciiDigits text
  let negative := s.head? == some '-'
  let ds := dropBaseMark base (Tag.dropSign s)
  let known := ds.takeWhile fun c => (digitIn? base c).isSome
  if base = 10 ∧ 4300 < known.length then .error (.tooManyDigits known.length)
  else if ds.isEmpty ∨ known.length < ds.length then .error (.notInteger base (String.ofList text))
  else
    let n := ds.foldl (fun n c => n * base + (digitIn? base c).getD 0) 0
    .ok (if negative then -(n : Int) else n)

/-- The number written in `text`: white space at the ends and a sign aside, digits with a point and
an exponent if any, or a name of infinity or of what is no number. -/
def readFloat (text : List Char) : Except ScalarFault Binary64 :=
  let s := Text.asciiDigits text
  let negative := s.head? == some '-'
  let s := Tag.dropSign s
  let name := String.ofList (s.map Char.toLower)
  let fault := .error (.notFloat (String.ofList text))
  if name = "inf" ∨ name = "infinity" then .ok (.infinite negative)
  else if name = "nan" then .ok .nan
  else
    let whole := s.takeWhile Char.isDigit
    let s := s.dropWhile Char.isDigit
    let (fraction, s) := match s with
      | '.' :: s => (s.takeWhile Char.isDigit, s.dropWhile Char.isDigit)
      | s => ([], s)
    let value (exponent : Int) : Binary64 :=
      .ofDecimal negative (Nat.ofDigitChars 10 (whole ++ fraction) 0) (exponent - fraction.length)
    if whole.isEmpty ∧ fraction.isEmpty then fault
    else match s with
      | [] => .ok (value 0)
      | e :: s =>
        let ds := Tag.dropSign s
        if (e ≠ 'e' ∧ e ≠ 'E') ∨ ds.isEmpty ∨ !ds.all Char.isDigit then fault
        else
          let n : Int := Nat.ofDigitChars 10 ds 0
          .ok (value (if s.head? = some '-' then -n else n))

/-- `s` without underscores, split into its sign and the rest; there must be a rest. -/
def number (s : List Char) : Except ScalarFault (Bool × List Char) :=
  let s := s.filter (· ≠ '_')
  match s with
  | [] => .error .emptyNumber
  | c :: rest => .ok (c == '-', if c == '-' || c == '+' then rest else s)

/-- An integer: binary after `0b`, hexadecimal after `0x`, octal after another zero, in base 60 with
colons between the digits, otherwise decimal. -/
def int (text : List Char) : Except ScalarFault Int := do
  let (negative, s) ← number text
  let magnitude ←
    if s = ['0'] then .ok 0
    else if ['0', 'b'].isPrefixOf s then readInt 2 (s.drop 2)
    else if ['0', 'x'].isPrefixOf s then readInt 16 (s.drop 2)
    else if s.isEmpty then .error .emptyNumber
    else if s.head? = some '0' then readInt 8 s
    else if s.contains ':' then do
      let digits ← (Text.fields ':' s).mapM (readInt 10)
      .ok (digits.foldl (fun n d => n * 60 + d) 0)
    else readInt 10 s
  .ok (if negative then -magnitude else magnitude)

/-- The sum of the digits of a number in base 60, least significant first, each times its power of
60, rounded after every step. -/
def sixtieths : (digits : List Binary64) → (base : Nat) → (sum : Binary64) → Binary64
  | [], _, sum => sum
  | d :: digits, base, sum => sixtieths digits (base * 60) (sum.add (d.mul (.ofNat base)))

/-- A floating point number. -/
def float (text : List Char) : Except ScalarFault Binary64 := do
  let (negative, s) ← number (Text.lowercase text)
  if s = ".inf".toList then .ok (.infinite negative)
  else if s = ".nan".toList then .ok .nan
  else
    let x ←
      if s.contains ':' then do
        let digits ← (Text.fields ':' s).mapM readFloat
        .ok (sixtieths digits.reverse 1 .zero)
      else readFloat s
    .ok (if negative then x.neg else x)

/-- A truth value. -/
def bool (text : List Char) : Except ScalarFault Bool :=
  let word := String.ofList (Text.lowercase text)
  if ["yes", "true", "on"].contains word then .ok true
  else if ["no", "false", "off"].contains word then .ok false
  else .error (.notTruthWord word)

/-- A date, or a date and time. Digits of a second beyond the sixth are dropped. -/
def timestamp (text : List Char) : Except ScalarFault Value :=
  match TimestampFields.ofText? (Text.dropFinalNewline text) with
  | none => .error .notTimestamp
  | some f =>
    let nat (ds : List Char) : Nat := Nat.ofDigitChars 10 ds 0
    let date : Date := ⟨nat f.year, nat f.month, nat f.day⟩
    match f.time with
    | none => (date.check.map Value.date).mapError .calendar
    | some (hour, minute, second) =>
      let offset : Option Int := f.zone.map fun
        | none => 0
        | some (sign, hours, minutes) =>
          let seconds : Int := (nat hours * 60 + nat minutes) * 60
          if sign = '-' then -seconds else seconds
      let microsecond := nat ((f.fraction ++ List.replicate 6 '0').take 6)
      let t : Timestamp := ⟨date, nat hour, nat minute, nat second, microsecond, offset⟩
      (t.check.map Value.timestamp).mapError .calendar

/-- The value of a base 64 digit. -/
def base64Value? (c : Char) : Option Nat :=
  if 'A' ≤ c ∧ c ≤ 'Z' then some (c.toNat - 0x41)
  else if 'a' ≤ c ∧ c ≤ 'z' then some (c.toNat - 0x47)
  else if '0' ≤ c ∧ c ≤ '9' then some (c.toNat + 4)
  else if c = '+' then some 62
  else if c = '/' then some 63
  else none

/-- The bytes of base 64 digits, given the digits of the current group of four so far, latest first,
and the number of padding characters since. Characters that are no digits are passed over; padding
that fills up a group of two digits or more ends the text. `none` if a group is left unfinished. -/
def base64From : (group : List Nat) → (pads : Nat) → List Char → Option (List UInt8)
  | group, _, [] => if group.isEmpty then some [] else none
  | group, pads, c :: s =>
    if c = '=' then
      if 2 ≤ group.length ∧ 4 ≤ group.length + pads + 1 then some []
      else base64From group (if 2 ≤ group.length then pads + 1 else pads) s
    else match base64Value? c with
      | none => base64From group pads s
      | some d => match group with
        | [] => base64From [d] 0 s
        | [a] => (base64From [d, a] 0 s).map (UInt8.ofNat (a * 4 + d / 16) :: ·)
        | [b, a] => (base64From [d, b, a] 0 s).map (UInt8.ofNat (b % 16 * 16 + d / 4) :: ·)
        | b :: _ => (base64From [] 0 s).map (UInt8.ofNat (b % 4 * 64 + d) :: ·)

end Scalar

end LuauBindings.Yaml
