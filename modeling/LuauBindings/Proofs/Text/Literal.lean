import LuauBindings.Text.Literal
import Mathlib.Tactic.SplitIfs

/-!
# Reading literals back

A literal is read one character at a time. A `Dialect` says how: which characters stand for themselves, and what
its escapes denote. `json` is the dialect of JSON strings, with all of their escapes, surrogate pairs included;
control characters below U+0020 and lone surrogates have no place in it.

If the dialect reads every character of a text from how it stands in a literal, the literal is read as the
text, whatever follows it (`Dialect.readLiteral_encodeChars`). The JSON dialect does (`json_read_escapeChar`), so
literals denote their texts and differ where these do.
-/

namespace LuauBindings.Text
variable {c : Char} {n : Nat} {s text rest : List Char}

theorem hexValue?_hexDigit : ∀ n < 16, hexValue? (hexDigit n) = some n := by decide

/-- The value of the first four hexadecimal digits, and what follows them. -/
def readHex4 : List Char → Option (Nat × List Char)
  | a :: b :: c :: d :: s =>
    match hexValue? a, hexValue? b, hexValue? c, hexValue? d with
    | some a, some b, some c, some d => some (((a * 16 + b) * 16 + c) * 16 + d, s)
    | _, _, _, _ => none
  | _ => none

theorem readHex4_hex (h : n < 0x10000) (rest : List Char) : readHex4 (hex 4 n ++ rest) = some (n, rest) := by
  have hdigit (m : Nat) : hexValue? (hexDigit (m % 16)) = some (m % 16) :=
    hexValue?_hexDigit _ (Nat.mod_lt _ (by decide))
  simp only [hex, List.nil_append, List.cons_append, readHex4, hdigit, Option.some.injEq, Prod.mk.injEq,
    and_true]
  omega

theorem length_of_readHex4 (h : readHex4 s = some (n, rest)) : rest.length + 4 = s.length := by
  unfold readHex4 at h
  split at h
  · split at h
    · cases h
      simp
    · cases h
  · cases h

namespace Literal

/-- The escapes of a letter, with the characters that they denote. -/
def letterEscapes : List (Char × Char) :=
  [('"', '"'), ('\\', '\\'), ('n', '\n'), ('r', '\r'), ('t', '\t'), ('f', '\x0c'), ('b', '\x08')]

/-- A character has the escape of a letter, or it is a control character and written by its number, or it stands
for itself. -/
theorem of_escapeChar_eq {e : List Char} (h : escapeChar c = e) :
    (∃ letter, (letter, c) ∈ letterEscapes ∧ e = ['\\', letter]) ∨
    (c.toNat < 0x20 ∧ e = '\\' :: 'u' :: hex 4 c.toNat) ∨
    (0x20 ≤ c.toNat ∧ c ≠ '"' ∧ c ≠ '\\' ∧ e = [c]) := by
  rw [escapeChar] at h
  split_ifs at h with hquote hback hn hr ht hf hb hcontrol
  · exact .inl ⟨'"', by rw [hquote]; decide, h.symm⟩
  · exact .inl ⟨'\\', by rw [hback]; decide, h.symm⟩
  · exact .inl ⟨'n', by rw [hn]; decide, h.symm⟩
  · exact .inl ⟨'r', by rw [hr]; decide, h.symm⟩
  · exact .inl ⟨'t', by rw [ht]; decide, h.symm⟩
  · exact .inl ⟨'f', by rw [hf]; decide, h.symm⟩
  · exact .inl ⟨'b', by rw [hb]; decide, h.symm⟩
  · exact .inr (.inl ⟨hcontrol, h.symm⟩)
  · exact .inr (.inr ⟨Nat.le_of_not_lt hcontrol, hquote, hback, h.symm⟩)

/-- How the characters between the quotes are read, one at a time from the front. -/
structure Dialect where
  read : List Char → Option (Char × List Char)
  shorter : ∀ {s rest : List Char} {c : Char}, read s = some (c, rest) → rest.length < s.length

namespace Dialect
variable {d : Dialect}

/-- The text up to the closing quote, and what follows the quote. -/
def readBody (d : Dialect) (s : List Char) : Option (List Char × List Char) :=
  if s.head? = some '"' then some ([], s.tail)
  else match _h : d.read s with
    | none => none
    | some (c, rest) => (d.readBody rest).map fun (text, rest) => (c :: text, rest)
termination_by s.length
decreasing_by exact d.shorter _h

/-- The text that the literal at the front denotes, and what follows the literal. -/
def readLiteral (d : Dialect) : List Char → Option (List Char × List Char)
  | '"' :: s => d.readBody s
  | _ => none

/-- The text that a literal denotes. -/
def decode? (d : Dialect) (literal : String) : Option String :=
  match d.readLiteral literal.toList with
  | some (text, []) => some (String.ofList text)
  | _ => none

theorem readBody_quote (d : Dialect) (rest : List Char) : d.readBody ('"' :: rest) = some ([], rest) := by
  rw [readBody]
  rfl

theorem readBody_of_read (hquote : s.head? ≠ some '"') (h : d.read s = some (c, rest)) :
    d.readBody s = (d.readBody rest).map fun (text, rest) => (c :: text, rest) := by
  rw [readBody, if_neg hquote]
  split
  · next hnone =>
    rw [h] at hnone
    cases hnone
  · next hsome =>
    rw [h] at hsome
    cases hsome
    rfl

theorem readBody_of_read_eq_none (hquote : s.head? ≠ some '"') (h : d.read s = none) : d.readBody s = none := by
  rw [readBody, if_neg hquote]
  split
  · rfl
  · next hsome =>
    rw [h] at hsome
    cases hsome

theorem head?_escapeChar_append (c : Char) (rest : List Char) : (escapeChar c ++ rest).head? ≠ some '"' := by
  rcases of_escapeChar_eq (c := c) rfl with ⟨letter, -, hc⟩ | ⟨-, hc⟩ | ⟨-, hne, -, hc⟩
  · rw [hc]
    simp
  · rw [hc]
    simp
  · rw [hc]
    simpa using hne

theorem readBody_flatMap_escapeChar (h : ∀ c ∈ text, ∀ rest, d.read (escapeChar c ++ rest) = some (c, rest))
    (rest : List Char) : d.readBody (text.flatMap escapeChar ++ '"' :: rest) = some (text, rest) := by
  induction text with
  | nil => exact readBody_quote d rest
  | cons c text ih =>
    obtain ⟨hc, htext⟩ := List.forall_mem_cons.mp h
    rw [List.flatMap_cons, List.append_assoc, readBody_of_read (head?_escapeChar_append c _) (hc _), ih htext]
    rfl

/-- What the dialect refuses in one character it refuses in the whole literal. -/
theorem readBody_flatMap_escapeChar_eq_none {refused : Char → Prop} (rest : List Char)
    (hread : ∀ c, ¬ refused c → ∀ rest, d.read (escapeChar c ++ rest) = some (c, rest))
    (hrefused : ∀ c, refused c → ∀ rest, d.read (escapeChar c ++ rest) = none) (h : ∃ c ∈ text, refused c) :
    d.readBody (text.flatMap escapeChar ++ '"' :: rest) = none := by
  induction text with
  | nil =>
    obtain ⟨c, hc, -⟩ := h
    cases hc
  | cons c text ih =>
    rw [List.flatMap_cons, List.append_assoc]
    by_cases hc : refused c
    · exact readBody_of_read_eq_none (head?_escapeChar_append c _) (hrefused c hc _)
    · have hrest : ∃ c ∈ text, refused c := by
        obtain ⟨a, ha, hra⟩ := h
        rcases List.mem_cons.mp ha with rfl | ha
        · exact absurd hra hc
        · exact ⟨a, ha, hra⟩
      rw [readBody_of_read (head?_escapeChar_append c _) (hread c hc _), ih hrest]
      rfl

theorem readLiteral_encodeChars (h : ∀ c ∈ text, ∀ rest, d.read (escapeChar c ++ rest) = some (c, rest))
    (rest : List Char) : d.readLiteral (encodeChars text ++ rest) = some (text, rest) := by
  have hbody := readBody_flatMap_escapeChar h rest
  rw [encodeChars, List.append_assoc]
  exact hbody

theorem decode?_encode_of_read {name : String}
    (h : ∀ c ∈ name.toList, ∀ rest, d.read (escapeChar c ++ rest) = some (c, rest)) :
    d.decode? (encode name) = some name := by
  have hread : d.readLiteral (encodeChars name.toList ++ []) = some (name.toList, []) :=
    readLiteral_encodeChars h []
  rw [List.append_nil, ← toList_encode] at hread
  rw [decode?, hread]
  simp

theorem decode?_encode_eq_none {name : String} {refused : Char → Prop}
    (hread : ∀ c, ¬ refused c → ∀ rest, d.read (escapeChar c ++ rest) = some (c, rest))
    (hrefused : ∀ c, refused c → ∀ rest, d.read (escapeChar c ++ rest) = none)
    (h : ∃ c ∈ name.toList, refused c) : d.decode? (encode name) = none := by
  have hbody : d.readLiteral (encode name).toList = none := by
    rw [toList_encode]
    exact readBody_flatMap_escapeChar_eq_none [] hread hrefused h
  rw [decode?, hbody]

end Dialect

/-- What follows `\u` in JSON: the number of a character, or of a surrogate with the other one of its pair
after it. -/
def readUnicode (s : List Char) : Option (Char × List Char) :=
  match readHex4 s with
  | none => none
  | some (n, rest) =>
    if n < 0xd800 ∨ 0xe000 ≤ n then some (Char.ofNat n, rest)
    else match rest with
      | '\\' :: 'u' :: rest =>
        match readHex4 rest with
        | none => none
        | some (m, rest) =>
          if n < 0xdc00 ∧ 0xdc00 ≤ m ∧ m < 0xe000 then
            some (Char.ofNat (0x10000 + (n - 0xd800) * 0x400 + (m - 0xdc00)), rest)
          else none
      | _ => none

/-- What follows the backslash of an escape in JSON. -/
def readJsonEscape : List Char → Option (Char × List Char)
  | '"' :: s => some ('"', s)
  | '\\' :: s => some ('\\', s)
  | '/' :: s => some ('/', s)
  | 'b' :: s => some ('\x08', s)
  | 'f' :: s => some ('\x0c', s)
  | 'n' :: s => some ('\n', s)
  | 'r' :: s => some ('\r', s)
  | 't' :: s => some ('\t', s)
  | 'u' :: s => readUnicode s
  | _ => none

def readJson : List Char → Option (Char × List Char)
  | [] => none
  | '\\' :: s => readJsonEscape s
  | c :: s => if c.toNat < 0x20 then none else some (c, s)

theorem length_of_readUnicode (h : readUnicode s = some (c, rest)) : rest.length < s.length := by
  unfold readUnicode at h
  split at h
  · cases h
  · next n after hn =>
    have hlength := length_of_readHex4 hn
    split at h
    · cases h
      omega
    · split at h
      · next after' =>
        split at h
        · cases h
        · next m last hm =>
          have hlength' := length_of_readHex4 hm
          rw [Option.ite_none_right_eq_some, Option.some.injEq, Prod.mk.injEq] at h
          obtain ⟨-, -, rfl⟩ := h
          rw [List.length_cons, List.length_cons] at hlength
          omega
      · cases h

theorem length_of_readJsonEscape (h : readJsonEscape s = some (c, rest)) : rest.length < s.length := by
  unfold readJsonEscape at h
  split at h
  case h_9 s => exact Nat.lt_trans (length_of_readUnicode h) (Nat.lt_succ_self s.length)
  case h_10 => cases h
  all_goals
    cases h
    exact Nat.lt_succ_self _

theorem length_of_readJson (h : readJson s = some (c, rest)) : rest.length < s.length := by
  unfold readJson at h
  split at h
  · cases h
  · next s => exact Nat.lt_trans (length_of_readJsonEscape h) (Nat.lt_succ_self s.length)
  · split at h
    · cases h
    · cases h
      exact Nat.lt_succ_self _

/-- The strings of JSON. -/
def json : Dialect where
  read := readJson
  shorter := length_of_readJson

theorem json_read_escapeChar (c : Char) (rest : List Char) :
    json.read (escapeChar c ++ rest) = some (c, rest) := by
  change readJson _ = _
  rcases of_escapeChar_eq (c := c) rfl with ⟨letter, hletter, hc⟩ | ⟨hcontrol, hc⟩ | ⟨hle, -, hback, hc⟩
  · have hread : ∀ e ∈ letterEscapes, readJson ('\\' :: e.1 :: rest) = some (e.2, rest) := by
      simp only [letterEscapes, List.forall_mem_cons, List.not_mem_nil, false_imp_iff, implies_true, and_true]
      exact ⟨rfl, rfl, rfl, rfl, rfl, rfl, rfl⟩
    rw [hc]
    exact hread _ hletter
  · rw [hc]
    change readUnicode (hex 4 c.toNat ++ rest) = _
    rw [readUnicode, readHex4_hex (by omega)]
    dsimp only
    rw [if_pos (by omega), Char.ofNat_toNat]
  · rw [hc, List.singleton_append, readJson]
    · exact if_neg (Nat.not_lt.mpr hle)
    · exact hback

theorem decode?_encode (s : String) : json.decode? (encode s) = some s :=
  Dialect.decode?_encode_of_read fun c _ => json_read_escapeChar c

theorem length_lt_length_encodeChars (s : List Char) : s.length < (encodeChars s).length := by
  have hle : s.length ≤ (s.flatMap escapeChar).length := by
    induction s with
    | nil => exact Nat.le_refl 0
    | cons c s ih =>
      have hc : 0 < (escapeChar c).length := by
        rcases of_escapeChar_eq (c := c) rfl with ⟨letter, -, hc⟩ | ⟨-, hc⟩ | ⟨-, -, -, hc⟩ <;>
          simp [hc]
      rw [List.flatMap_cons, List.length_append, List.length_cons]
      omega
  rw [encodeChars, List.length_append, List.length_cons, List.length_singleton]
  omega

theorem le_of_mem_escapeChar {a : Char} (h : c ∈ escapeChar a) : 0x20 ≤ c.toNat := by
  rcases of_escapeChar_eq (c := a) rfl with ⟨letter, hletter, ha⟩ | ⟨-, ha⟩ | ⟨hle, -, -, ha⟩
  · have hletters : letterEscapes.all (fun e => 0x20 ≤ e.1.toNat) = true := by decide
    have hle := of_decide_eq_true (List.all_eq_true.mp hletters _ hletter)
    rw [ha, List.mem_cons, List.mem_singleton] at h
    rcases h with rfl | rfl
    · decide
    · exact hle
  · have hdigits : hexDigits.all (fun c => 0x20 ≤ c.toNat) = true := by decide
    rw [ha, List.mem_cons, List.mem_cons] at h
    rcases h with rfl | rfl | h
    · decide
    · decide
    · exact of_decide_eq_true (List.all_eq_true.mp hdigits c (mem_hexDigits_of_mem_hex h))
  · rw [ha, List.mem_singleton] at h
    rwa [h]

theorem le_of_mem_encodeChars (h : c ∈ encodeChars s) : 0x20 ≤ c.toNat := by
  rw [encodeChars, List.mem_append, List.mem_cons, List.mem_flatMap, List.mem_singleton] at h
  rcases h with (rfl | ⟨a, -, ha⟩) | rfl
  · decide
  · exact le_of_mem_escapeChar ha
  · decide

end Literal

end LuauBindings.Text
