import LuauBindings.Proofs.Render.PropertyKey
import LuauBindings.Proofs.Text.Replacement

/-!
# Table types read back

The lines of a table type are told apart by the comma and newline between them: a key has no newline in it, and
a type has none by assumption. On a line the key is read first (`readKey`). After it the type stands twice, and
all else there is fixed, so the length of the line gives the length of the type, whatever the type holds.

A table type thus gives back the keys and types that it was made of (`readTable_tableType`).
-/

namespace LuauBindings
variable {props : PropertyMap} {enums : NameSet} {key type name : String}

/-- The type that stands twice in the part of a line after the key. -/
def typeOfRest (rest : List Char) : List Char :=
  rest.take ((rest.length - " | Signal<> | nil".length) / 2)

/-- The key and the type on a line of a table type. -/
def readEntry : List Char → Option (String × String)
  | '\t' :: s =>
    match readKey s with
    | some (name, ':' :: ' ' :: rest) => some (String.ofList name, String.ofList (typeOfRest rest))
    | _ => none
  | _ => none

/-- The keys and types on the lines of a table type. -/
def readTable (text : String) : Option (List (String × String)) :=
  match text.toList with
  | '{' :: '\n' :: s =>
    let body := s.dropLast.dropLast
    if body = [] then some [] else (Text.pieces ",\n".toList body).mapM readEntry
  | _ => none

/-- The entries of a property map as a table type shows them: keys without the white space at their ends, and Luau
types. -/
def shownEntries (props : PropertyMap) (enums : NameSet) : List (String × String) :=
  props.entries.map fun e => (Text.strip e.1, luauType e.2 enums)

/-- The Luau types of the properties have no newline in them. -/
def HasPlainTypes (props : PropertyMap) (enums : NameSet) : Prop :=
  ∀ e ∈ props.entries, '\n' ∉ (luauType e.2 enums).toList

instance (props : PropertyMap) (enums : NameSet) : Decidable (HasPlainTypes props enums) :=
  inferInstanceAs (Decidable (∀ e ∈ props.entries, '\n' ∉ (luauType e.2 enums).toList))

theorem typeOfRest_of_type (type : String) :
    typeOfRest (type ++ " | Signal<" ++ type ++ "> | nil").toList = type.toList := by
  have hlist : (type ++ " | Signal<" ++ type ++ "> | nil").toList =
      type.toList ++ (" | Signal<".toList ++ type.toList ++ "> | nil".toList) := by
    simp only [String.toList_append, List.append_assoc]
  have hsignal : " | Signal<".toList.length = 10 := by decide
  have hnil : "> | nil".toList.length = 7 := by decide
  have hfixed : " | Signal<> | nil".length = 17 := by decide
  rw [hlist, typeOfRest, hfixed]
  refine List.take_left' ?_
  rw [List.length_append, List.length_append, List.length_append, hsignal, hnil]
  omega

theorem readEntry_propertyLine (name type : String) :
    readEntry (propertyLine (propertyKey name) type).toList = some (Text.strip name, type) := by
  let rest := (type ++ " | Signal<" ++ type ++ "> | nil").toList
  have hline : (propertyLine (propertyKey name) type).toList =
      '\t' :: ((propertyKey name).toList ++ ':' :: ' ' :: rest) := by
    simp [propertyLine, rest]
  have hkey : readKey ((propertyKey name).toList ++ ':' :: ' ' :: rest) =
      some ((Text.strip name).toList, ':' :: ' ' :: rest) :=
    readKey_propertyKey name (by simp [Text.isNamePart])
  have htype : typeOfRest rest = type.toList := typeOfRest_of_type type
  simp only [hline, readEntry, hkey, htype, String.ofList_toList]

theorem newline_not_mem_propertyLine (h : '\n' ∉ type.toList) :
    '\n' ∉ (propertyLine (propertyKey name) type).toList := by
  have hkey : '\n' ∉ (propertyKey name).toList := fun hmem =>
    absurd (le_of_mem_propertyKey hmem) (by decide)
  simp [propertyLine, hkey, h]

theorem pieces_tableLines (h : HasPlainTypes props enums) (hne : tableLines props enums ≠ []) :
    Text.pieces ",\n".toList (",\n".intercalate (tableLines props enums)).toList =
      (tableLines props enums).map String.toList := by
  have hfree : ∀ x ∈ (tableLines props enums).map String.toList, ¬ ",\n".toList <:+: x := by
    intro x hx hcomma
    obtain ⟨line, hline, rfl⟩ := List.mem_map.mp hx
    obtain ⟨e, he, rfl⟩ := List.mem_map.mp hline
    exact newline_not_mem_propertyLine (h e he) (hcomma.subset (by decide))
  rw [String.toList_intercalate]
  exact Text.pieces_intercalate (by decide) (by decide) (by simpa using hne) hfree

/-- A line is not empty, so a map without entries is told from others. -/
theorem intercalate_tableLines_eq_nil_iff :
    (",\n".intercalate (tableLines props enums)).toList = [] ↔ tableLines props enums = [] := by
  constructor
  · intro h
    rw [String.toList_intercalate] at h
    by_contra hne
    obtain ⟨line, l, hl⟩ := List.exists_cons_of_ne_nil hne
    have hmem : line ∈ tableLines props enums := hl ▸ List.mem_cons_self ..
    have hline : line.toList <:+: ",\n".toList.intercalate ((tableLines props enums).map String.toList) :=
      Text.infix_intercalate_of_mem (List.mem_map_of_mem hmem)
    obtain ⟨e, -, rfl⟩ := List.mem_map.mp hmem
    rw [h, List.infix_nil] at hline
    simp [propertyLine] at hline
  · intro h
    rw [h]
    rfl

theorem mapM_readEntry_tableLines (props : PropertyMap) (enums : NameSet) :
    ((tableLines props enums).map String.toList).mapM readEntry = some (shownEntries props enums) := by
  let line (e : String × String) : List Char := (propertyLine (propertyKey e.1) (luauType e.2 enums)).toList
  let shown (e : String × String) : String × String := (Text.strip e.1, luauType e.2 enums)
  have hread : readEntry ∘ line = fun e => pure (shown e) := by
    funext e
    rw [Function.comp_apply, readEntry_propertyLine]
    rfl
  have hlines : (tableLines props enums).map String.toList = props.entries.map line := List.map_map
  rw [hlines, List.mapM_map, hread, List.mapM_pure]
  rfl

theorem readTable_tableType (h : HasPlainTypes props enums) :
    readTable (tableType props enums) = some (shownEntries props enums) := by
  let body := (",\n".intercalate (tableLines props enums)).toList
  have htext : (tableType props enums).toList = '{' :: '\n' :: (body ++ ['\n', '}']) := by
    change ("\x7b\n" ++ ",\n".intercalate (tableLines props enums) ++ "\n\x7d").toList = _
    simp [body]
  have hbody : (body ++ ['\n', '}']).dropLast.dropLast = body := by
    simp [List.dropLast_append_of_ne_nil]
  simp only [readTable, htext, hbody]
  split
  · next hempty =>
    have hnone := intercalate_tableLines_eq_nil_iff.mp hempty
    have hentries : props.entries = [] := List.map_eq_nil_iff.mp hnone
    rw [shownEntries, hentries]
    rfl
  · next hsome =>
    rw [pieces_tableLines h fun hnone => hsome (intercalate_tableLines_eq_nil_iff.mpr hnone)]
    exact mapM_readEntry_tableLines props enums

theorem tableLines_eq_map_shownEntries (props : PropertyMap) (enums : NameSet) :
    tableLines props enums = (shownEntries props enums).map fun e => propertyLine (propertyKey e.1) e.2 := by
  rw [tableLines, shownEntries, List.map_map]
  refine List.map_congr_left fun e _ => ?_
  have hkey : propertyKey (Text.strip e.1) = propertyKey e.1 := propertyKey_eq_iff.mpr (Text.strip_strip e.1)
  rw [Function.comp_apply, hkey]

theorem tableType_congr {props' : PropertyMap} {enums' : NameSet}
    (h : shownEntries props enums = shownEntries props' enums') :
    tableType props enums = tableType props' enums' := by
  change "\x7b\n" ++ ",\n".intercalate (tableLines props enums) ++ "\n\x7d" =
    "\x7b\n" ++ ",\n".intercalate (tableLines props' enums') ++ "\n\x7d"
  rw [tableLines_eq_map_shownEntries, tableLines_eq_map_shownEntries, h]

theorem length_shownEntries (props : PropertyMap) (enums : NameSet) :
    (shownEntries props enums).length = props.size :=
  List.length_map _

/-- A table type whose types have no newline in them gives back, in order, the keys and the types that it was made
of; the keys are those of the map if these have no white space at their ends. So two maps have the same table type
just if they show the same entries, and then they have equally many. -/
theorem tableType_reversible (h : HasPlainTypes props enums) :
    readTable (tableType props enums) = some (shownEntries props enums) ∧
    ((∀ k ∈ props.keys, Text.strip k = k) →
      shownEntries props enums = props.entries.map fun e => (e.1, luauType e.2 enums)) ∧
    ∀ props' enums', HasPlainTypes props' enums' →
      (tableType props enums = tableType props' enums' ↔
        shownEntries props enums = shownEntries props' enums') ∧
      (tableType props enums = tableType props' enums' → props.size = props'.size) := by
  refine ⟨readTable_tableType h, fun hkeys => ?_, fun props' enums' h' => ?_⟩
  · refine List.map_congr_left fun e he => ?_
    rw [hkeys e.1 (List.mem_map_of_mem he)]
  · have hread : tableType props enums = tableType props' enums' →
        shownEntries props enums = shownEntries props' enums' := by
      intro heq
      have hshown := readTable_tableType h
      rw [heq, readTable_tableType h', Option.some.injEq] at hshown
      exact hshown.symm
    refine ⟨⟨hread, tableType_congr⟩, fun heq => ?_⟩
    rw [← length_shownEntries props enums, hread heq, length_shownEntries]

/-- The type of the one property is the line of the other, from the type on. -/
theorem tableType_reversible_nested_types :
    let enums := NameSet.ofList ["Font", "Axis"]
    let nested : PropertyMap := .ofList [("end", "Axis"), (" a: b", "x | Signal<x> | nil,")]
    let plain : PropertyMap := .ofList [("end", "Axis"), ("a: b", "x")]
    HasPlainTypes nested enums ∧ HasPlainTypes plain enums ∧
      readTable (tableType nested enums) = some [("end", "Enum.Axis"), ("a: b", "x | Signal<x> | nil,")] ∧
      tableType nested enums ≠ tableType plain enums := by
  intro enums nested plain
  have hnested : HasPlainTypes nested enums := by decide
  have hplain : HasPlainTypes plain enums := by decide
  have hshown : shownEntries nested enums = [("end", "Enum.Axis"), ("a: b", "x | Signal<x> | nil,")] := by
    decide
  have hother : shownEntries plain enums = [("end", "Enum.Axis"), ("a: b", "x")] := by decide
  obtain ⟨hread, -, hsame⟩ := tableType_reversible hnested
  refine ⟨hnested, hplain, hshown ▸ hread, fun heq => ?_⟩
  have hentries := (hsame plain enums hplain).1.mp heq
  rw [hshown, hother] at hentries
  exact absurd hentries (by decide)

end LuauBindings
