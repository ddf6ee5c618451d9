import LuauBindings.Proofs.Hierarchy.Inherited
import LuauBindings.Proofs.Hierarchy.Merge
import LuauBindings.Proofs.Text.Literal
import LuauBindings.Proofs.Text.Token
import LuauBindings.Render.TypeText
import Mathlib.Data.List.Nodup
import Mathlib.Data.List.TakeWhile

/-!
# Keys of table types

A key is an identifier that is no reserved word, or a string literal in brackets; the two forms begin with
different characters, so a key can be read from the front of a line (`readKey`). What is read is the name that
the key was made of, without the white space at its ends (`readKey_propertyKey`). Keys are thus told apart as
names are.

The names of a property map are short names. They have no white space at their ends, so the keys of its lines
differ, and are read as the names in their order.
-/

namespace LuauBindings
open Text (IsIdentifier isNamePart)
variable {name other k : String} {c : Char} {rest s : List Char}

/-- The name is an identifier that may stand by itself. -/
def IsPlainName (name : String) : Prop :=
  IsIdentifier name ∧ name ∉ reservedWords

section Read

/-- The name that the key at the front denotes, and what follows the key. -/
def readKey : List Char → Option (List Char × List Char)
  | '[' :: s =>
    match Text.Literal.json.readLiteral s with
    | some (name, ']' :: rest) => some (name, rest)
    | _ => none
  | s =>
    let name := s.takeWhile isNamePart
    if Text.isIdentifier name ∧ String.ofList name ∉ reservedWords then
      some (name, s.dropWhile isNamePart)
    else none

/-- The name that a key denotes. -/
def decodeKey? (key : String) : Option String :=
  match readKey key.toList with
  | some (name, []) => some (String.ofList name)
  | _ => none

/-- The name of the property on a line of a table type. -/
def decodeLine? (line : String) : Option String :=
  match line.toList with
  | '\t' :: s =>
    match readKey s with
    | some (name, ':' :: ' ' :: _) => some (String.ofList name)
    | _ => none
  | _ => none

theorem readKey_literal (name : String) (rest : List Char) :
    readKey (("[" ++ Text.Literal.encode name ++ "]").toList ++ rest) = some (name.toList, rest) := by
  have hlist : ("[" ++ Text.Literal.encode name ++ "]").toList ++ rest =
      '[' :: (Text.Literal.encodeChars name.toList ++ ']' :: rest) := by simp
  rw [hlist, readKey, Text.Literal.Dialect.readLiteral_encodeChars
    fun c _ => Text.Literal.json_read_escapeChar c]
  rfl

theorem readKey_plain (h : IsPlainName name) (hrest : ∀ c, rest.head? = some c → isNamePart c = false) :
    readKey (name.toList ++ rest) = some (name.toList, rest) := by
  have hparts : ∀ c ∈ name.toList, isNamePart c = true := fun c hc => Text.isNamePart_iff.mpr (h.1.plain c hc)
  have hstop : rest.takeWhile isNamePart = [] ∧ rest.dropWhile isNamePart = rest := by
    cases rest with
    | nil => exact ⟨rfl, rfl⟩
    | cons c rest => simp [hrest c rfl]
  have htake : (name.toList ++ rest).takeWhile isNamePart = name.toList := by
    rw [List.takeWhile_append_of_pos hparts, hstop.1, List.append_nil]
  have hdrop : (name.toList ++ rest).dropWhile isNamePart = rest := by
    rw [List.dropWhile_append_of_pos hparts, hstop.2]
  unfold readKey
  split
  · next s hs =>
    -- a name does not begin with a bracket
    cases hname : name.toList with
    | nil => exact absurd (String.toList_eq_nil_iff.mp hname) h.1.ne_empty
    | cons c l =>
      rw [hname, List.cons_append, List.cons.injEq] at hs
      have hbracket : isNamePart '[' = true := hs.1 ▸ hparts c (by simp [hname])
      exact absurd hbracket (by decide)
  · dsimp only
    rw [htake, hdrop, String.ofList_toList, if_pos ⟨Text.isIdentifier_iff.mpr h.1, h.2⟩]

end Read

section Plain

theorem escapeChar_of_isNamePart (h : isNamePart c = true) : Text.Literal.escapeChar c = [c] := by
  have hle := Text.le_of_isNamePart h
  rcases Text.Literal.of_escapeChar_eq (c := c) rfl with ⟨letter, hletter, -⟩ | ⟨hlt, -⟩ | ⟨-, -, -, hc⟩
  · have hno : ∀ e ∈ Text.Literal.letterEscapes, isNamePart e.2 = false := by decide
    rw [hno _ hletter] at h
    cases h
  · omega
  · exact hc

theorem encode_of_isIdentifier (h : IsIdentifier name) :
    Text.Literal.encode name = "\"" ++ name ++ "\"" := by
  have hkept : name.toList.flatMap Text.Literal.escapeChar = name.toList.flatMap fun c => [c] :=
    List.flatMap_congr fun c hc => escapeChar_of_isNamePart (Text.isNamePart_iff.mpr (h.plain c hc))
  rw [← String.toList_inj, Text.Literal.toList_encode, Text.Literal.encodeChars, hkept, List.flatMap_singleton']
  simp

end Plain

section Forms

theorem not_endsInNewline_strip : ¬ Text.EndsInNewline (Text.strip name) := by
  rintro ⟨t, ht⟩
  have hlast : (Text.trim name.toList).getLast? = some '\n' := by
    rw [← Text.toList_strip, ht, String.toList_append]
    exact List.getLast?_concat
  exact absurd (Text.isBlank_getLast_trim hlast) (by decide)

theorem propertyKey_of_isPlainName (h : IsPlainName (Text.strip name)) : propertyKey name = Text.strip name := by
  have hquoted := encode_of_isIdentifier h.1
  have hspace : (Text.strip name).toList.contains ' ' = false := by
    rw [Bool.eq_false_iff, ne_eq, List.contains_iff_mem]
    exact fun hmem => absurd (h.1.plain _ hmem) (by decide)
  have hpasses := Text.passesAsIdentifier_iff.mpr (.inl h.1)
  have hreserved : reservedWords.contains (Text.strip name) = false := by
    rw [Bool.eq_false_iff, ne_eq, List.contains_iff_mem]
    exact h.2
  unfold propertyKey
  dsimp only
  rw [if_neg]
  rw [hspace, hpasses, hreserved]
  simpa using hquoted

theorem propertyKey_of_not_isPlainName (h : ¬ IsPlainName (Text.strip name)) :
    propertyKey name = "[" ++ Text.Literal.encode (Text.strip name) ++ "]" := by
  unfold propertyKey
  dsimp only
  rw [if_pos]
  rcases not_and_or.mp h with hidentifier | hreserved
  · -- stripping has left no newline for the test to pass over
    have hpasses : ¬ Text.passesAsIdentifier (Text.strip name) = true := by
      rw [Text.passesAsIdentifier_iff]
      rintro (hplain | ⟨t, -, ht⟩)
      · exact hidentifier hplain
      · exact not_endsInNewline_strip ⟨t, ht⟩
    exact .inr (.inr (.inl (by simpa using hpasses)))
  · exact .inr (.inr (.inr (List.contains_iff_mem.mpr (not_not.mp hreserved))))

/-- A key is read as the name that it was made of, whatever follows it but more of a name. -/
theorem readKey_propertyKey (name : String) (hrest : ∀ c, rest.head? = some c → isNamePart c = false) :
    readKey ((propertyKey name).toList ++ rest) = some ((Text.strip name).toList, rest) := by
  by_cases h : IsPlainName (Text.strip name)
  · rw [propertyKey_of_isPlainName h]
    exact readKey_plain h hrest
  · rw [propertyKey_of_not_isPlainName h]
    exact readKey_literal _ rest

theorem decodeKey?_propertyKey (name : String) : decodeKey? (propertyKey name) = some (Text.strip name) := by
  have h : readKey ((propertyKey name).toList ++ []) = some ((Text.strip name).toList, []) :=
    readKey_propertyKey name (by simp)
  rw [List.append_nil] at h
  rw [decodeKey?, h]
  exact congrArg some String.ofList_toList

theorem propertyKey_eq_iff : propertyKey name = propertyKey other ↔ Text.strip name = Text.strip other := by
  constructor
  · intro h
    have hdecoded := congrArg decodeKey? h
    rwa [decodeKey?_propertyKey, decodeKey?_propertyKey, Option.some.injEq] at hdecoded
  · intro h
    unfold propertyKey
    rw [h]

theorem decodeLine?_propertyLine (name type : String) :
    decodeLine? (propertyLine (propertyKey name) type) = some (Text.strip name) := by
  let types := (type ++ " | Signal<" ++ type ++ "> | nil").toList
  have hline : (propertyLine (propertyKey name) type).toList =
      '\t' :: ((propertyKey name).toList ++ ':' :: ' ' :: types) := by
    simp [propertyLine, types]
  have h : readKey ((propertyKey name).toList ++ ':' :: ' ' :: types) =
      some ((Text.strip name).toList, ':' :: ' ' :: types) :=
    readKey_propertyKey name (by simp [isNamePart])
  simp only [decodeLine?, hline, h, String.ofList_toList]

theorem le_of_mem_propertyKey (h : c ∈ (propertyKey name).toList) : 0x20 ≤ c.toNat := by
  by_cases hplain : IsPlainName (Text.strip name)
  · rw [propertyKey_of_isPlainName hplain] at h
    have hle := Text.le_of_isNamePart (Text.isNamePart_iff.mpr (hplain.1.plain c h))
    omega
  · have hlist : (propertyKey name).toList =
        '[' :: (Text.Literal.encodeChars (Text.strip name).toList ++ [']']) := by
      rw [propertyKey_of_not_isPlainName hplain]
      simp
    rw [hlist, List.mem_cons, List.mem_append, List.mem_singleton] at h
    rcases h with rfl | h | rfl
    · decide
    · exact Text.Literal.le_of_mem_encodeChars h
    · decide

theorem propertyKey_eq_strip_iff : propertyKey name = Text.strip name ↔ IsPlainName (Text.strip name) := by
  refine ⟨fun h => ?_, propertyKey_of_isPlainName⟩
  by_contra hplain
  -- a literal in brackets is longer than its text
  rw [propertyKey_of_not_isPlainName hplain] at h
  have hlength := congrArg (List.length ∘ String.toList) h
  have hlt := Text.Literal.length_lt_length_encodeChars (Text.strip name).toList
  simp only [Function.comp_apply, String.toList_append, List.length_append, Text.Literal.toList_encode] at hlength
  omega

end Forms

section Maps
variable {m : PropertyMap} {enums : NameSet} {p : Property}

def tableLines (props : PropertyMap) (enums : NameSet) : List String :=
  props.entries.map fun e => propertyLine (propertyKey e.1) (luauType e.2 enums)

/-- The map is that of a class, with the properties of its ancestors or without them. -/
def PropertyMap.IsOfClass (m : PropertyMap) : Prop :=
  (∃ c, m = ownProperties c) ∨ ∃ classes name, m = allProperties classes name

theorem strip_shortName (p : Property) : Text.strip p.shortName = p.shortName :=
  Text.strip_strip _

theorem point_not_mem_shortName (p : Property) : '.' ∉ p.shortName.toList := by
  intro h
  rw [Property.shortName, Text.toList_strip, String.toList_ofList] at h
  have hmem := List.mem_reverse.mp (Text.mem_of_mem_trim h)
  simpa using List.mem_takeWhile_imp hmem

theorem PropertyMap.IsOfClass.exists_shortName (hm : m.IsOfClass) (hk : k ∈ m.keys) :
    ∃ p : Property, p.shortName = k := by
  have hown {c : ClassDoc} (hk : k ∈ (ownProperties c).keys) : ∃ p : Property, p.shortName = k := by
    rw [keys_ownProperties, List.mem_eraseDups, List.mem_map] at hk
    obtain ⟨p, -, hp⟩ := hk
    exact ⟨p, hp⟩
  rcases hm with ⟨c, rfl⟩ | ⟨classes, name, rfl⟩
  · exact hown hk
  · obtain ⟨n, c, -, -, hk⟩ := mem_keys_allProperties.mp hk
    exact hown hk

theorem PropertyMap.IsOfClass.strip_key (hm : m.IsOfClass) (hk : k ∈ m.keys) : Text.strip k = k := by
  obtain ⟨p, rfl⟩ := hm.exists_shortName hk
  exact strip_shortName p

theorem nodup_map_propertyKey (hm : m.IsOfClass) : (m.keys.map propertyKey).Nodup := by
  refine List.Nodup.map_on (fun a ha b hb h => ?_) m.keys_nodup
  rw [← hm.strip_key ha, propertyKey_eq_iff.mp h, hm.strip_key hb]

theorem decodeLine?_tableLines (hm : m.IsOfClass) (enums : NameSet) :
    (tableLines m enums).map decodeLine? = m.keys.map some := by
  rw [tableLines, OrderedMap.keys, List.map_map, List.map_map]
  refine List.map_congr_left fun e he => ?_
  rw [Function.comp_apply, decodeLine?_propertyLine, hm.strip_key (List.mem_map_of_mem he)]
  rfl

/-- A key is the name without white space at its ends if that is a plain name, and otherwise a JSON string of it
in brackets. No key has a control character, and keys are the same just if the names are, white space at their
ends aside. On the lines of a property map stand different keys, and they denote the names of the map. -/
theorem propertyKey_lossless :
    (∀ name, (propertyKey name = Text.strip name ↔ IsPlainName (Text.strip name)) ∧
      (¬ IsPlainName (Text.strip name) → ∃ q, propertyKey name = "[" ++ q ++ "]" ∧
        Text.Literal.json.decode? q = some (Text.strip name)) ∧
      (∀ c ∈ (propertyKey name).toList, 0x20 ≤ c.toNat) ∧
      ∀ other, propertyKey name = propertyKey other ↔ Text.strip name = Text.strip other) ∧
    ∀ m : PropertyMap, m.IsOfClass →
      (∀ k ∈ m.keys, Text.strip k = k ∧ '.' ∉ k.toList) ∧ (m.keys.map propertyKey).Nodup ∧
      ∀ enums, tableType m enums = "\x7b\n" ++ ",\n".intercalate (tableLines m enums) ++ "\n\x7d" ∧
        (tableLines m enums).map decodeLine? = m.keys.map some := by
  refine ⟨fun name => ⟨propertyKey_eq_strip_iff, fun hplain => ?_, fun c => le_of_mem_propertyKey,
    fun other => propertyKey_eq_iff⟩, fun m hm => ⟨fun k hk => ?_, nodup_map_propertyKey hm,
    fun enums => ⟨rfl, decodeLine?_tableLines hm enums⟩⟩⟩
  · exact ⟨_, propertyKey_of_not_isPlainName hplain, Text.Literal.decode?_encode _⟩
  · obtain ⟨p, rfl⟩ := hm.exists_shortName hk
    exact ⟨strip_shortName p, point_not_mem_shortName p⟩

/-- A class with a reserved word and a name of two words among its properties. -/
def quotedNames : ClassDoc :=
  { name := "Frame", properties := [⟨"Frame.end", "int"⟩, ⟨"Frame.Top Left ", "float"⟩, ⟨"Frame.Size", "int"⟩] }

theorem propertyKey_lossless_quoted :
    (∃ q, propertyKey "end" = "[" ++ q ++ "]" ∧ Text.Literal.json.decode? q = some "end") ∧
    (ownProperties quotedNames).keys = ["end", "Top Left", "Size"] ∧
    ∀ enums, (tableLines (ownProperties quotedNames) enums).map decodeLine? =
      [some "end", some "Top Left", some "Size"] := by
  have hend : Text.strip "end" = "end" := by decide
  have hkeys : (ownProperties quotedNames).keys = ["end", "Top Left", "Size"] := by decide
  obtain ⟨hnames, hmaps⟩ := propertyKey_lossless
  obtain ⟨-, hquoted, -⟩ := hnames "end"
  obtain ⟨-, -, hlines⟩ := hmaps (ownProperties quotedNames) (.inl ⟨_, rfl⟩)
  refine ⟨?_, hkeys, fun enums => ?_⟩
  · rw [hend] at hquoted
    exact hquoted fun hplain => hplain.2 (by decide)
  · rw [(hlines enums).2, hkeys]
    rfl

end Maps

end LuauBindings
