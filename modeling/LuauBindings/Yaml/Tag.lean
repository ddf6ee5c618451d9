import LuauBindings.Text.HexDigit
import LuauBindings.Text.Newline

/-!
# Tags

The tag of a node says how it is read. A plain scalar without a tag gets one from its text
(`Tag.ofPlain`): each kind of number, date and constant has a form of its own, and everything else
is text. The forms pass over one final newline.
-/

namespace LuauBindings.Yaml

/-- How a node is read. `merge` and `value` are the tags of the keys `<<` and `=`; a node with a tag
that is `other` cannot be read. -/
inductive Tag
  | null
  | bool
  | int
  | float
  | binary
  | timestamp
  | omap
  | pairs
  | set
  | str
  | seq
  | map
  | merge
  | value
  | other
deriving DecidableEq, Repr

namespace Tag

/-- The tag with a full name. -/
def ofName (name : String) : Tag :=
  match name with
  | "tag:yaml.org,2002:null" => .null
  | "tag:yaml.org,2002:bool" => .bool
  | "tag:yaml.org,2002:int" => .int
  | "tag:yaml.org,2002:float" => .float
  | "tag:yaml.org,2002:binary" => .binary
  | "tag:yaml.org,2002:timestamp" => .timestamp
  | "tag:yaml.org,2002:omap" => .omap
  | "tag:yaml.org,2002:pairs" => .pairs
  | "tag:yaml.org,2002:set" => .set
  | "tag:yaml.org,2002:str" => .str
  | "tag:yaml.org,2002:seq" => .seq
  | "tag:yaml.org,2002:map" => .map
  | "tag:yaml.org,2002:merge" => .merge
  | "tag:yaml.org,2002:value" => .value
  | _ => .other

/-- `s` without a sign at its front. -/
def dropSign : List Char → List Char
  | '+' :: s => s
  | '-' :: s => s
  | s => s

def isDigitOrUnderscore (c : Char) : Bool :=
  c.isDigit || c == '_'

/-- A number of at least one digit that may hold underscores after the first. -/
def isDigits : List Char → Bool
  | c :: s => c.isDigit && s.all isDigitOrUnderscore
  | [] => false

/-- One digit, or two of which the first is at most 5. -/
def isSixtieth : List Char → Bool
  | [a] => a.isDigit
  | [a, b] => '0' ≤ a && a ≤ '5' && b.isDigit
  | _ => false

/-- An exponent with its sign, or nothing. -/
def isExponent : List Char → Bool
  | [] => true
  | e :: sign :: d :: ds =>
    (e == 'e' || e == 'E') && (sign == '+' || sign == '-') && (d :: ds).all Char.isDigit
  | _ => false

def isTruthWord (s : List Char) : Bool :=
  ["yes", "Yes", "YES", "no", "No", "NO", "true", "True", "TRUE", "false", "False", "FALSE", "on",
    "On", "ON", "off", "Off", "OFF"].contains (String.ofList s)

/-- Digits, a point, digits if any, and an exponent if any. -/
def isFloat (s : List Char) : Bool :=
  let unsigned := dropSign s
  let whole := unsigned.takeWhile fun c => c != '.'
  match unsigned.dropWhile fun c => c != '.' with
  | '.' :: fraction =>
    let tail := fraction.dropWhile isDigitOrUnderscore
    let named := String.ofList fraction
    let parts := Text.fields ':' whole
    (isDigits whole && isExponent tail) ||
      (s.head? == some '.' && isDigits (fraction.takeWhile isDigitOrUnderscore) &&
        isExponent tail) ||
      (isDigits (parts.headD []) && 1 < parts.length && (parts.drop 1).all isSixtieth &&
        tail.isEmpty) ||
      (whole.isEmpty && ["inf", "Inf", "INF"].contains named) ||
      (s.head? == some '.' && ["nan", "NaN", "NAN"].contains named)
  | _ => false

/-- A binary, octal, decimal or hexadecimal number, or one in base 60. -/
def isInt (s : List Char) : Bool :=
  let s := dropSign s
  let parts := Text.fields ':' s
  match s with
  | ['0'] => true
  | '0' :: 'b' :: c :: ds => (c :: ds).all fun c => c == '0' || c == '1' || c == '_'
  | '0' :: 'x' :: c :: ds => (c :: ds).all fun c => (Text.hexValue? c).isSome || c == '_'
  | '0' :: c :: ds => (c :: ds).all fun c => ('0' ≤ c && c ≤ '7') || c == '_'
  | _ => isDigits (parts.headD []) && (parts.headD []).head? != some '0' &&
      (parts.drop 1).all isSixtieth

end Tag

/-- The fields of a date or time as they are written. -/
structure TimestampFields where
  year : List Char
  month : List Char
  day : List Char
  /-- Hour, minute and second. -/
  time : Option (List Char × List Char × List Char)
  fraction : List Char
  /-- The sign, hours and minutes of an offset; `none` in it stands for `Z`. -/
  zone : Option (Option (Char × List Char × List Char))
deriving DecidableEq, Repr

namespace TimestampFields

/-- Between `least` and `most` digits at the front of `s`, as many as there are. -/
def digits? (least most : Nat) (s : List Char) : Option (List Char × List Char) :=
  let ds := (s.take most).takeWhile Char.isDigit
  if ds.length < least then none else some (ds, s.drop ds.length)

def char? (c : Char) : List Char → Option (List Char)
  | d :: s => if d = c then some s else none
  | [] => none

/-- The offset after a time. -/
def zone? (s : List Char) : Option (Option (Option (Char × List Char × List Char))) :=
  match s with
  | [] => some none
  | _ =>
    match s.dropWhile fun c => c == ' ' || c == '\t' with
    | ['Z'] => some (some none)
    | sign :: s =>
      if sign ≠ '+' ∧ sign ≠ '-' then none
      else do
        let (hours, s) ← digits? 1 2 s
        match s with
        | [] => some (some (some (sign, hours, [])))
        | ':' :: s => do
          let (minutes, s) ← digits? 2 2 s
          if s.isEmpty then some (some (some (sign, hours, minutes))) else none
        | _ => none
    | [] => none

/-- The fields of a date, which has two digits for month and day unless a time follows. -/
def ofText? (s : List Char) : Option TimestampFields := do
  let (year, s) ← digits? 4 4 s
  let s ← char? '-' s
  let (month, s) ← digits? 1 2 s
  let s ← char? '-' s
  let (day, s) ← digits? 1 2 s
  match s with
  | [] => some ⟨year, month, day, none, [], none⟩
  | c :: rest =>
    let s ←
      if c = 'T' ∨ c = 't' then some rest
      else if c = ' ' ∨ c = '\t' then some (rest.dropWhile fun c => c == ' ' || c == '\t')
      else none
    let (hour, s) ← digits? 1 2 s
    let s ← char? ':' s
    let (minute, s) ← digits? 2 2 s
    let s ← char? ':' s
    let (second, s) ← digits? 2 2 s
    let (fraction, s) := match s with
      | '.' :: s => (s.takeWhile Char.isDigit, s.dropWhile Char.isDigit)
      | s => ([], s)
    let zone ← zone? s
    some ⟨year, month, day, some (hour, minute, second), fraction, zone⟩

/-- Whether a plain scalar of these fields is a date or time: a date alone has two digits for month
and day. -/
def isPlain (f : TimestampFields) : Bool :=
  f.time.isSome || (f.month.length == 2 && f.day.length == 2)

end TimestampFields

/-- The tag of a plain scalar with the given text. -/
def Tag.ofPlain (text : List Char) : Tag :=
  let s := Text.dropFinalNewline text
  if text.isEmpty ∨ ["~", "null", "Null", "NULL"].contains (String.ofList s) then .null
  else if isTruthWord s then .bool
  else if isFloat s then .float
  else if isInt s then .int
  else if s = ['<', '<'] then .merge
  else if s = ['='] then .value
  else if (TimestampFields.ofText? s).any TimestampFields.isPlain then .timestamp
  else if s = ['!'] ∨ s = ['&'] ∨ s = ['*'] then .other
  else .str

end LuauBindings.Yaml
