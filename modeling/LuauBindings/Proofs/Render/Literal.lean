import LuauBindings.Proofs.Render.Block
import LuauBindings.Proofs.Render.PropertyKey

/-!
# Literals as Luau reads them

The literals of a block are written as JSON strings and read as Luau strings. The two agree on the escapes of
letters and on the characters that stand for themselves. They part at the control characters without a letter
(`IsUnlettered`): JSON writes their number after `\u`, and Luau takes a number there only in braces.

So a literal denotes its text to Luau just if the text has no such character; otherwise it is malformed
(`IsLuauLiteral`). This holds of the literals in the keys of table types and of those in wrappers.
-/

namespace LuauBindings
namespace Text.Literal
variable {c : Char} {s rest : List Char} {text : String}

/-- The number in hexadecimal digits at the front and the brace after it, as the character of that number. -/
def readBraced (s : List Char) : Option (Char × List Char) :=
  let digits := (s.takeWhile fun c => (hexValue? c).isSome).filterMap hexValue?
  let number := digits.foldl (fun n digit => n * 16 + digit) 0
  match s.dropWhile fun c => (hexValue? c).isSome with
  | '}' :: rest => if digits ≠ [] ∧ number.isValidChar then some (Char.ofNat number, rest) else none
  | _ => none

/-- What follows the backslash of an escape in Luau. Of its escapes only those are here that stand for a
character that JSON can write, too. -/
def readLuauEscape : List Char → Option (Char × List Char)
  | '"' :: s => some ('"', s)
  | '\\' :: s => some ('\\', s)
  | 'b' :: s => some ('\x08', s)
  | 'f' :: s => some ('\x0c', s)
  | 'n' :: s => some ('\n', s)
  | 'r' :: s => some ('\r', s)
  | 't' :: s => some ('\t', s)
  | 'u' :: '{' :: s => readBraced s
  | _ => none

/-- A literal ends with its line. -/
def readLuau : List Char → Option (Char × List Char)
  | [] => none
  | '\\' :: s => readLuauEscape s
  | c :: s => if c = '\n' ∨ c = '\r' ∨ c = '\x00' then none else some (c, s)

theorem length_of_readBraced (h : readBraced s = some (c, rest)) : rest.length < s.length := by
  have hsuffix := List.dropWhile_suffix (fun c => (hexValue? c).isSome) (l := s)
  unfold readBraced at h
  dsimp only at h
  split at h
  · next hdrop =>
    rw [Option.ite_none_right_eq_some, Option.some.injEq, Prod.mk.injEq] at h
    obtain ⟨-, -, rfl⟩ := h
    rw [hdrop] at hsuffix
    have hle := hsuffix.length_le
    rwa [List.length_cons] at hle
  · cases h

theorem length_of_readLuauEscape (h : readLuauEscape s = some (c, rest)) : rest.length < s.length := by
  unfold readLuauEscape at h
  split at h
  case h_8 s =>
    have hlt := length_of_readBraced h
    rw [List.length_cons, List.length_cons]
    omega
  case h_9 => cases h
  all_goals
    cases h
    exact Nat.lt_succ_self _

theorem length_of_readLuau (h : readLuau s = some (c, rest)) : rest.length < s.length := by
  unfold readLuau at h
  split at h
  · cases h
  · next s => exact Nat.lt_trans (length_of_readLuauEscape h) (Nat.lt_succ_self s.length)
  · split at h
    · cases h
    · cases h
      exact Nat.lt_succ_self _

/-- The strings of Luau between double quotes. -/
def luau : Dialect where
  read := readLuau
  shorter := length_of_readLuau

/-- A control character below U+0020 whose escape is no letter. -/
def IsUnlettered (c : Char) : Prop :=
  c.toNat < 0x20 ∧ c ∉ ['\n', '\r', '\t', '\x0c', '\x08']

instance (c : Char) : Decidable (IsUnlettered c) :=
  inferInstanceAs (Decidable (_ ∧ _))

theorem escapeChar_of_isUnlettered (h : IsUnlettered c) : escapeChar c = '\\' :: 'u' :: hex 4 c.toNat := by
  rcases of_escapeChar_eq (c := c) rfl with ⟨letter, hletter, -⟩ | ⟨-, hc⟩ | ⟨hle, -⟩
  · have hall : ∀ e ∈ letterEscapes, 0x20 ≤ e.2.toNat ∨ e.2 ∈ ['\n', '\r', '\t', '\x0c', '\x08'] := by decide
    rcases hall _ hletter with hle | hmem
    · exact absurd h.1 (Nat.not_lt.mpr hle)
    · exact absurd hmem h.2
  · exact hc
  · exact absurd h.1 (Nat.not_lt.mpr hle)

theorem escapeChar_of_not_isUnlettered (h : ¬ IsUnlettered c) :
    (∃ letter, (letter, c) ∈ letterEscapes ∧ escapeChar c = ['\\', letter]) ∨
    (0x20 ≤ c.toNat ∧ c ≠ '\\' ∧ escapeChar c = [c]) := by
  rcases of_escapeChar_eq (c := c) rfl with hletter | ⟨hlt, hc⟩ | ⟨hle, -, hback, hc⟩
  · exact .inl hletter
  · -- the controls with a letter are not written by their number
    have hmem : c ∈ ['\n', '\r', '\t', '\x0c', '\x08'] := by
      by_contra hno
      exact h ⟨hlt, hno⟩
    have hall : ['\n', '\r', '\t', '\x0c', '\x08'].all (fun c => (escapeChar c).length == 2) = true := by
      decide
    have hlength : (escapeChar c).length = 2 := eq_of_beq (List.all_eq_true.mp hall c hmem)
    rw [hc, List.length_cons, List.length_cons, length_hex] at hlength
    omega
  · exact .inr ⟨hle, hback, hc⟩

theorem readLuauEscape_number (h : s.head? ≠ some '{') : readLuauEscape ('u' :: s) = none := by
  unfold readLuauEscape
  split <;> simp_all

theorem exists_hex_cons (width n : Nat) : ∃ d ∈ hexDigits, ∃ l, hex (width + 1) n = d :: l := by
  obtain ⟨d, l, hdl⟩ := List.exists_cons_of_ne_nil (l := hex (width + 1) n) (by simp [hex])
  exact ⟨d, mem_hexDigits_of_mem_hex (hdl ▸ List.mem_cons_self ..), l, hdl⟩

theorem luau_read_of_isUnlettered (c : Char) (h : IsUnlettered c) (rest : List Char) :
    luau.read (escapeChar c ++ rest) = none := by
  obtain ⟨d, hd, l, hdl⟩ := exists_hex_cons 3 c.toNat
  rw [escapeChar_of_isUnlettered h, hdl]
  refine readLuauEscape_number fun hbrace => ?_
  cases hbrace
  exact absurd hd (by decide)

theorem luau_read_of_not_isUnlettered (c : Char) (h : ¬ IsUnlettered c) (rest : List Char) :
    luau.read (escapeChar c ++ rest) = some (c, rest) := by
  change readLuau _ = _
  rcases escapeChar_of_not_isUnlettered h with ⟨letter, hletter, hc⟩ | ⟨hle, hback, hc⟩
  · have hread : ∀ e ∈ letterEscapes, readLuau ('\\' :: e.1 :: rest) = some (e.2, rest) := by
      simp only [letterEscapes, List.forall_mem_cons, List.not_mem_nil, false_imp_iff, implies_true, and_true]
      exact ⟨rfl, rfl, rfl, rfl, rfl, rfl, rfl⟩
    rw [hc]
    exact hread _ hletter
  · rw [hc, List.singleton_append, readLuau]
    · refine if_neg ?_
      rintro (rfl | rfl | rfl) <;> exact absurd hle (by decide)
    · exact hback

theorem luau_decode?_encode (h : ∀ c ∈ text.toList, ¬ IsUnlettered c) :
    luau.decode? (encode text) = some text :=
  Dialect.decode?_encode_of_read fun c hc => luau_read_of_not_isUnlettered c (h c hc)

theorem luau_decode?_encode_eq_none (h : ∃ c ∈ text.toList, IsUnlettered c) :
    luau.decode? (encode text) = none :=
  Dialect.decode?_encode_eq_none luau_read_of_not_isUnlettered luau_read_of_isUnlettered h

/-- An escape by `\u` and four hexadecimal digits stands in the text, as JSON has it. -/
def holdsNumberEscape : List Char → Bool
  | [] => false
  | '\\' :: 'u' :: s => (readHex4 s).isSome || holdsNumberEscape s
  | '\\' :: _ :: s => holdsNumberEscape s
  | _ :: s => holdsNumberEscape s

theorem holdsNumberEscape_of_isUnlettered (h : IsUnlettered c) (rest : List Char) :
    holdsNumberEscape (escapeChar c ++ rest) = true := by
  have hlt : c.toNat < 0x10000 := Nat.lt_trans h.1 (by decide)
  rw [escapeChar_of_isUnlettered h, List.cons_append, List.cons_append, holdsNumberEscape,
    readHex4_hex hlt rest]
  rfl

theorem holdsNumberEscape_of_not_isUnlettered (h : ¬ IsUnlettered c) (rest : List Char) :
    holdsNumberEscape (escapeChar c ++ rest) = holdsNumberEscape rest := by
  rcases escapeChar_of_not_isUnlettered h with ⟨letter, hletter, hc⟩ | ⟨-, hback, hc⟩
  · have hpass : ∀ e ∈ letterEscapes, holdsNumberEscape ('\\' :: e.1 :: rest) = holdsNumberEscape rest := by
      simp only [letterEscapes, List.forall_mem_cons, List.not_mem_nil, false_imp_iff, implies_true, and_true]
      exact ⟨rfl, rfl, rfl, rfl, rfl, rfl, rfl⟩
    rw [hc]
    exact hpass _ hletter
  · rw [hc, List.singleton_append, holdsNumberEscape]
    · exact fun _ hc' => absurd hc' hback
    · exact fun _ _ hc' => absurd hc' hback

theorem holdsNumberEscape_encode_iff :
    holdsNumberEscape (encode text).toList = true ↔ ∃ c ∈ text.toList, IsUnlettered c := by
  have hbody (s : List Char) :
      holdsNumberEscape (s.flatMap escapeChar ++ ['"']) = true ↔ ∃ c ∈ s, IsUnlettered c := by
    induction s with
    | nil => simp [holdsNumberEscape]
    | cons c s ih =>
      rw [List.flatMap_cons, List.append_assoc]
      simp only [List.mem_cons, exists_eq_or_imp]
      by_cases hc : IsUnlettered c
      · exact iff_of_true (holdsNumberEscape_of_isUnlettered hc _) (.inl hc)
      · rw [holdsNumberEscape_of_not_isUnlettered hc, ih, or_iff_right hc]
  rw [toList_encode, encodeChars, ← hbody]
  rfl

end Text.Literal

open Text.Literal

/-- What Luau makes of the literal `q` that is written for `text`. -/
structure IsLuauLiteral (q text : String) : Prop where
  denotes_iff : luau.decode? q = some text ↔ ∀ c ∈ text.toList, ¬ IsUnlettered c
  malformed_iff : luau.decode? q = none ↔ ∃ c ∈ text.toList, IsUnlettered c
  number_iff : holdsNumberEscape q.toList = true ↔ ∃ c ∈ text.toList, IsUnlettered c

theorem isLuauLiteral_encode (text : String) : IsLuauLiteral (encode text) text := by
  refine ⟨⟨fun h c hc hu => ?_, luau_decode?_encode⟩, ⟨fun h => ?_, luau_decode?_encode_eq_none⟩,
    holdsNumberEscape_encode_iff⟩
  · rw [luau_decode?_encode_eq_none ⟨c, hc, hu⟩] at h
    cases h
  · by_contra hno
    rw [luau_decode?_encode fun c hc hu => hno ⟨c, hc, hu⟩] at h
    cases h

/-- The literal in brackets of a key and the literal in a wrapper denote to Luau the name that they are written
for, unless that name has a control character without a letter. With one the literal is malformed, because it
has an escape of JSON. -/
theorem literals_are_luau (name : String) :
    (¬ IsPlainName (Text.strip name) →
      ∃ q, propertyKey name = "[" ++ q ++ "]" ∧ IsLuauLiteral q (Text.strip name)) ∧
    ∀ propsType description, ∃ q, wrapper name propsType description =
        wrapperHead name propsType description ++ drawFunction ++
          ("(" ++ q ++ ", props, content or function() end)\n" ++ "end\n\n") ∧
      IsLuauLiteral q name :=
  ⟨fun h => ⟨_, propertyKey_of_not_isPlainName h, isLuauLiteral_encode _⟩,
    fun propsType description => ⟨_, wrapper_eq name propsType description, isLuauLiteral_encode name⟩⟩

/-- A name of two words, with a quote, a backslash, a tab and a letter outside ASCII. -/
theorem literals_are_luau_escaped_name :
    let name := " Größe \"a\\b\"\tc\n"
    ∃ q, ¬ IsPlainName (Text.strip name) ∧ propertyKey name = "[" ++ q ++ "]" ∧
      luau.decode? q = some "Größe \"a\\b\"\tc" ∧ holdsNumberEscape q.toList = false := by
  intro name
  have hstrip : Text.strip name = "Größe \"a\\b\"\tc" := by decide
  have hplain : ¬ IsPlainName (Text.strip name) := fun h => by
    rw [hstrip] at h
    exact absurd (h.1.plain ' ' (by decide)) (by decide)
  obtain ⟨q, hq, hluau⟩ := (literals_are_luau name).1 hplain
  have hlettered : ∀ c ∈ (Text.strip name).toList, ¬ IsUnlettered c := by
    have hall : "Größe \"a\\b\"\tc".toList.all (fun c => !decide (IsUnlettered c)) = true := by decide
    intro c hc
    rw [hstrip] at hc
    simpa using List.all_eq_true.mp hall c hc
  refine ⟨q, hplain, hq, by rw [← hstrip, hluau.denotes_iff]; exact hlettered, ?_⟩
  rw [Bool.eq_false_iff, ne_eq, hluau.number_iff]
  rintro ⟨c, hc, hu⟩
  exact hlettered c hc hu

/-- A control character without a letter makes the literals malformed, in a key and in a wrapper. -/
theorem control_character_breaks_literals :
    let name := "a\x01b"
    Text.strip name = name ∧ propertyKey name = "[\"a\\u0001b\"]" ∧
    wrapper name "int" none = "function Rover.a\x01b(props: int, content: ((elm: a\x01b) -> ())?): ()\n" ++
      "\tRover.drawInstance_internal(\"a\\u0001b\", props, content or function() end)\nend\n\n" ∧
    luau.decode? "\"a\\u0001b\"" = none ∧ holdsNumberEscape "\"a\\u0001b\"".toList = true := by
  intro name
  have hcontrol : ∃ c ∈ name.toList, IsUnlettered c := ⟨'\x01', by decide, by decide, by decide⟩
  have hencode : encode name = "\"a\\u0001b\"" := by decide
  refine ⟨by decide, by decide, by decide +kernel, ?_, ?_⟩
  · rw [← hencode]
    exact luau_decode?_encode_eq_none hcontrol
  · rw [← hencode]
    exact holdsNumberEscape_encode_iff.mpr hcontrol

end LuauBindings
