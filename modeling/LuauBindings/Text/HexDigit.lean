/-!
# Hexadecimal digits
-/

namespace LuauBindings.Text

/-- The lower case digit of `n < 16`. -/
def hexDigit (n : Nat) : Char :=
  if n < 10 then Char.ofNat (0x30 + n) else Char.ofNat (0x57 + n)

/-- The last `width` hexadecimal digits of `n`. -/
def hex : (width n : Nat) → List Char
  | 0, _ => []
  | width + 1, n => hex width (n / 16) ++ [hexDigit (n % 16)]

/-- The value of a hexadecimal digit of either case. -/
def hexValue? (c : Char) : Option Nat :=
  if '0' ≤ c ∧ c ≤ '9' then some (c.toNat - 0x30)
  else if 'a' ≤ c ∧ c ≤ 'f' then some (c.toNat - 0x57)
  else if 'A' ≤ c ∧ c ≤ 'F' then some (c.toNat - 0x37)
  else none

/-- The bytes `bs` in hexadecimal, two digits each. -/
def hexOfBytes (bs : List UInt8) : List Char :=
  bs.flatMap fun b => hex 2 b.toNat

/-- The hexadecimal digits of lower case. -/
def hexDigits : List Char :=
  ['0', '1', '2', '3', '4', '5', '6', '7', '8', '9', 'a', 'b', 'c', 'd', 'e', 'f']

@[simp] theorem length_hex (width n : Nat) : (hex width n).length = width := by
  induction width generalizing n with
  | zero => rfl
  | succ width ih => simp [hex, ih]

theorem mem_hexDigits_of_mem_hex {width n : Nat} {c : Char} (hc : c ∈ hex width n) :
    c ∈ hexDigits := by
  induction width generalizing n with
  | zero => simp [hex] at hc
  | succ width ih =>
    rw [hex, List.mem_append, List.mem_singleton] at hc
    rcases hc with hc | rfl
    · exact ih hc
    · have hdigit : ∀ m < 16, hexDigit m ∈ hexDigits := by decide
      exact hdigit _ (Nat.mod_lt _ (by decide))

theorem length_hexOfBytes (bs : List UInt8) : (hexOfBytes bs).length = 2 * bs.length := by
  induction bs with
  | nil => rfl
  | cons b bs ih =>
    rw [hexOfBytes, List.flatMap_cons, List.length_append, length_hex, ← hexOfBytes, ih,
      List.length_cons, Nat.mul_succ, Nat.add_comm]

theorem mem_hexDigits_of_mem_hexOfBytes {bs : List UInt8} {c : Char} (hc : c ∈ hexOfBytes bs) :
    c ∈ hexDigits := by
  obtain ⟨b, -, hb⟩ := List.mem_flatMap.mp hc
  exact mem_hexDigits_of_mem_hex hb

end LuauBindings.Text
