import LuauBindings.Text.HexDigit
import LuauBindings.Text.Newline

/-!
# Reading files as UTF-8

`decode` accepts exactly the well-formed byte sequences. For the others `firstFault` names the
bytes at which the first ill-formed sequence stops: the longest start of a character that the
bytes begin with there, or the one byte that starts none.
-/

namespace LuauBindings.Text.Utf8

/-- What is wrong with a byte sequence. -/
inductive Reason
  /-- The byte starts no character. -/
  | invalidStart
  /-- A byte that must continue the character does not. -/
  | invalidContinuation
  /-- The file ends inside a character. -/
  | unexpectedEnd
deriving DecidableEq, Repr

def Reason.message : Reason → String
  | .invalidStart => "invalid start byte"
  | .invalidContinuation => "invalid continuation byte"
  | .unexpectedEnd => "unexpected end of data"

/-- An ill-formed sequence: `count` bytes from `position` on, the first of which is `byte`. -/
structure Fault where
  position : Nat
  count : Nat
  byte : UInt8
  reason : Reason
deriving DecidableEq, Repr

def Fault.message (f : Fault) : String :=
  let place :=
    if f.count = 1 then
      "byte 0x" ++ String.ofList (hex 2 f.byte.toNat) ++ " in position " ++ f.position.repr
    else "bytes in position " ++ f.position.repr ++ "-" ++ (f.position + f.count - 1).repr
  "'utf-8' codec can't decode " ++ place ++ ": " ++ f.reason.message

/-- The bounds of the byte after a first byte `b`, and how many bytes follow that one; `none` if
`b` starts no character of several bytes. -/
def afterFirst (b : UInt8) : Option (UInt8 × UInt8 × Nat) :=
  if 0xc2 ≤ b ∧ b ≤ 0xdf then some (0x80, 0xbf, 0)
  else if b = 0xe0 then some (0xa0, 0xbf, 1)
  else if b = 0xed then some (0x80, 0x9f, 1)
  else if 0xe1 ≤ b ∧ b ≤ 0xef then some (0x80, 0xbf, 1)
  else if b = 0xf0 then some (0x90, 0xbf, 2)
  else if b = 0xf4 then some (0x80, 0x8f, 2)
  else if 0xf1 ≤ b ∧ b ≤ 0xf3 then some (0x80, 0xbf, 2)
  else none

/-- A character under way: where it started, its first byte, how many of its bytes were read, the
bounds of the next one and how many follow that one. -/
structure Partial where
  start : Nat
  first : UInt8
  read : Nat
  low : UInt8
  high : UInt8
  more : Nat

/-- The first ill-formed sequence of `bs`, whose first byte has position `pos`; `partly` is the
character under way, if any. -/
def firstFault (pos : Nat) (partly : Option Partial) : List UInt8 → Option Fault
  | [] => partly.map fun p => ⟨p.start, p.read, p.first, .unexpectedEnd⟩
  | b :: bs =>
    match partly with
    | some p =>
      if p.low ≤ b ∧ b ≤ p.high then
        match p.more with
        | 0 => firstFault (pos + 1) none bs
        | more + 1 =>
          firstFault (pos + 1)
            (some { p with read := p.read + 1, low := 0x80, high := 0xbf, more }) bs
      else some ⟨p.start, p.read, p.first, .invalidContinuation⟩
    | none =>
      if b < 0x80 then firstFault (pos + 1) none bs
      else match afterFirst b with
        | some (low, high, more) => firstFault (pos + 1) (some ⟨pos, b, 1, low, high, more⟩) bs
        | none => some ⟨pos, 1, b, .invalidStart⟩

/-- The text that `bytes` encode. -/
def decode (bytes : ByteArray) : Except Fault String :=
  match String.fromUTF8? bytes with
  | some s => .ok s
  | none =>
    .error ((firstFault 0 none bytes.data.toList).getD ⟨0, 0, 0, .unexpectedEnd⟩)

/-- The text of a file: its bytes decoded, every line end read as a newline. -/
def readText (bytes : ByteArray) : Except Fault String :=
  (decode bytes).map fun s => String.ofList (unifyNewlines s.toList)

theorem decode_toUTF8 (s : String) : decode s.toUTF8 = .ok s := by
  have valid : s.toUTF8.IsValidUTF8 := s.isValidUTF8
  have : String.fromUTF8? s.toUTF8 = some s := by rw [String.fromUTF8?, dif_pos valid]; rfl
  rw [decode, this]

theorem readText_toUTF8 (s : String) : readText s.toUTF8 = .ok (String.ofList (unifyNewlines s.toList)) := by
  rw [readText, decode_toUTF8]
  rfl

end LuauBindings.Text.Utf8
