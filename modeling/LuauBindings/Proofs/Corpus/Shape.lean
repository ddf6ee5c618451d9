import LuauBindings.Corpus.Load
import LuauBindings.Proofs.Sequence
import Mathlib.Data.List.TakeWhile

/-!
# The shape of a class document

`ClassDoc.IsDescribedBy gap c v` says of a value and a class what a class document is: a mapping whose
fields give those of the class, where a list may be missing or have a value of `gap` in its place. The
documented gap is null. The lists are read with a wider one, all values that stand for nothing
(`ClassDoc.ofValue_eq_ok_iff`), so that `inherits: false` passes for a class without parents. There is no
other difference (`isDescribedBy_null_iff`).

A value of any other shape is refused with a fault that names the document, unless it has to show a number
of too many digits.
-/

namespace LuauBindings
open Yaml (Value)

theorem Text.trim_eq_nil_iff {s : List Char} : trim s = [] ↔ ∀ c ∈ s, isBlank c = true := by
  rw [trim, List.reverse_eq_nil_iff, List.dropWhile_eq_nil_iff]
  constructor
  · intro h
    rw [← List.dropWhile_eq_nil_iff]
    by_contra hne
    -- what is left begins with a character that is not blank
    have hblank := h _ (List.mem_reverse.mpr (List.head_mem hne))
    rw [List.head_dropWhile_not isBlank hne] at hblank
    cases hblank
  · intro h c hc
    exact h c ((List.dropWhile_sublist _).mem (List.mem_reverse.mp hc))

theorem Text.strip_ne_empty_iff {s : String} :
    strip s ≠ "" ↔ ∃ c ∈ s.toList, isBlank c = false := by
  rw [ne_eq, ← String.toList_inj, toList_strip]
  simp [trim_eq_nil_iff]

namespace Yaml.Value
variable {gap : Value → Prop} {key : String} {entries : List (Value × Value)} {v : Value}
  {items : List Value}

/-- These are the items of the list under `key`. There are none if nothing is there, or a value of
`gap`. -/
def ListUnder (gap : Value → Prop) (key : String) (entries : List (Value × Value))
    (items : List Value) : Prop :=
  match find? key entries with
  | none => items = []
  | some v => v.written = .list items ∨ gap v ∧ items = []

/-- This is the text under `key`, the empty text if nothing is there, or null. -/
def TextUnder (key : String) (entries : List (Value × Value)) (text : String) : Prop :=
  match find? key entries with
  | none => text = ""
  | some v => v = .str text ∨ v = .null ∧ text = ""

/-- The name is a text that is not blank, taken without the white space at its ends. -/
def NameUnder (entries : List (Value × Value)) (name : String) : Prop :=
  ∃ s, find? "name" entries = some (.str s) ∧ (∃ c ∈ s.toList, Text.isBlank c = false) ∧
    name = Text.strip s

/-- If the value under `key` stands for nothing, it is null or the empty list. -/
def PlainGap (key : String) (entries : List (Value × Value)) : Prop :=
  ∀ v, find? key entries = some v → v.isEmpty = true → v = .null ∨ v = .list []

theorem eq_list_nil_of_isEmpty (hempty : v.isEmpty = true) (h : v.written = .list items) : v = .list [] := by
  cases v with
  | list items' => simpa [isEmpty] using hempty
  | enclosing => cases hempty
  | _ => cases h

theorem listUnder_null_iff : ListUnder (· = .null) key entries items ↔
    ListUnder (·.isEmpty = true) key entries items ∧ PlainGap key entries := by
  unfold ListUnder PlainGap
  cases find? key entries with
  | none => simp
  | some v =>
    simp only [Option.some.injEq, forall_eq']
    constructor
    · rintro (hlist | ⟨rfl, hitems⟩)
      · exact ⟨.inl hlist, fun hempty => .inr (eq_list_nil_of_isEmpty hempty hlist)⟩
      · exact ⟨.inr ⟨rfl, hitems⟩, fun _ => .inl rfl⟩
    · rintro ⟨hlist | ⟨hempty, rfl⟩, hgap⟩
      · exact .inl hlist
      · rcases hgap hempty with rfl | rfl
        · exact .inr ⟨rfl, rfl⟩
        · exact .inl rfl

theorem isShowable_written : v.written.isShowable = v.isShowable := by
  unfold written
  split
  · rw [isShowable]
  · rfl

end Yaml.Value

namespace Property
variable {p : Property} {v : Value} {f : DocumentFault}

/-- The entry is a mapping that gives the property a name and a type. -/
def IsDeclaredBy (v : Value) (p : Property) : Prop :=
  ∃ entries, v.written = .map entries ∧ Value.find? "name" entries = some (.str p.name) ∧ p.name ≠ "" ∧
    Value.find? "type" entries = some (.str p.type) ∧ p.type ≠ ""

theorem ofValue_eq_ok_iff : ofValue v = .ok p ↔ IsDeclaredBy v p := by
  constructor
  · intro h
    unfold ofValue at h
    split at h
    · next entries hv =>
      split at h
      · next name hname =>
        split_ifs at h with hempty
        split at h
        · next type htype =>
          split_ifs at h with hempty'
          cases h
          exact ⟨entries, hv, hname, by simpa using hempty, htype, by simpa using hempty'⟩
        · cases h
      · cases h
    · cases h
  · rintro ⟨entries, hv, hname, hname', htype, htype'⟩
    simp [ofValue, hv, hname, hname', htype, htype']

theorem isAttributable_of_ofValue_eq_error (h : ofValue v = .error f)
    (hshow : v.isShowable = true ∨ ∃ entries, v.written = .map entries) : f.isAttributable = true := by
  unfold ofValue at h
  split at h
  · split at h
    · split_ifs at h
      · cases h
        rfl
      · split at h
        · split_ifs at h
          cases h
          rfl
        · cases h
          rfl
    · cases h
      rfl
  · next hmap =>
    rcases hshow with hshow | ⟨entries, hentries⟩
    · rw [← Value.isShowable_written] at hshow
      rw [Value.shown?, if_pos hshow] at h
      cases h
      rfl
    · exact absurd hentries (hmap entries)

end Property

namespace ClassDoc
variable {gap : Value → Prop} {key text : String} {entries : List (Value × Value)} {v : Value}
  {items : List Value} {names : List String} {properties : List Property} {c : ClassDoc}
  {f : DocumentFault}

/-- The fields of a class as the entries of a document give them. -/
structure Fields (gap : Value → Prop) (entries : List (Value × Value)) (c : ClassDoc) : Prop where
  name : Value.NameUnder entries c.name
  inherits : Value.ListUnder gap "inherits" entries (c.inherits.map .str)
  properties : ∃ items, Value.ListUnder gap "properties" entries items ∧
    List.Forall₂ Property.IsDeclaredBy items c.properties
  description : Value.TextUnder "description" entries c.description
  summary : Value.TextUnder "summary" entries c.summary

/-- The document is a mapping that describes the class. -/
def IsDescribedBy (gap : Value → Prop) (c : ClassDoc) (v : Value) : Prop :=
  ∃ entries, v = .map entries ∧ c.Fields gap entries

/-- Of the values that stand for nothing, the document has only null and the empty list in the place of
its lists. -/
def PlainGaps (v : Value) : Prop :=
  ∀ entries, v = .map entries → Value.PlainGap "inherits" entries ∧ Value.PlainGap "properties" entries

/-- Messages can show the entries of `properties` that are no mappings. -/
def EntriesShowable (v : Value) : Prop :=
  ∀ entries items, v = .map entries → Value.ListUnder (·.isEmpty = true) "properties" entries items →
    ∀ item ∈ items, item.isShowable = true ∨ ∃ fields, item.written = .map fields

theorem documentName_eq_ok_iff :
    documentName v = .ok text ↔ ∃ entries, v = .map entries ∧ Value.NameUnder entries text := by
  constructor
  · intro h
    unfold documentName at h
    split at h
    · next entries =>
      split at h
      · next s hs =>
        dsimp only at h
        split_ifs at h with hempty
        cases h
        exact ⟨entries, rfl, s, hs, Text.strip_ne_empty_iff.mp (by simpa using hempty), rfl⟩
      · cases h
    · cases h
  · rintro ⟨entries, rfl, s, hs, hblank, rfl⟩
    have hne := Text.strip_ne_empty_iff.mpr hblank
    simp [documentName, hs, hne]

theorem texts?_eq_some_iff : texts? items = some names ↔ items = names.map .str := by
  induction items generalizing names with
  | nil => simp [texts?, eq_comm]
  | cons v items ih =>
    cases v with
    | str s =>
      cases names with
      | nil => simp [texts?]
      | cons name names =>
        rw [texts?, Option.map_eq_some_iff]
        simp only [List.cons.injEq, List.map_cons, Value.str.injEq]
        constructor
        · rintro ⟨names', hnames', rfl, rfl⟩
          exact ⟨rfl, ih.mp hnames'⟩
        · rintro ⟨rfl, hitems⟩
          exact ⟨names, ih.mpr hitems, rfl, rfl⟩
    | _ => cases names <;> simp [texts?]

theorem listAt?_eq_some_iff :
    listAt? key entries = some items ↔ Value.ListUnder (·.isEmpty = true) key entries items := by
  unfold listAt? Value.ListUnder
  cases Value.find? key entries with
  | none => simp [eq_comm]
  | some v =>
    by_cases hempty : v.isEmpty = true
    · simp only [hempty, if_true, true_and, Option.some.injEq]
      refine ⟨fun h => .inr h.symm, ?_⟩
      rintro (hlist | hitems)
      · cases Value.eq_list_nil_of_isEmpty hempty hlist
        cases hlist
        rfl
      · exact hitems.symm
    · simp only [hempty, if_false, false_and, or_false, Bool.false_eq_true]
      split
      · next items' hitems => simp [hitems]
      · next hno => simp [show ¬ v.written = .list items from hno items]

theorem inheritsOf_eq_ok_iff :
    inheritsOf entries = .ok names ↔ Value.ListUnder (·.isEmpty = true) "inherits" entries (names.map .str) := by
  rw [← listAt?_eq_some_iff]
  have hbind : (listAt? "inherits" entries).bind texts? = some names ↔
      listAt? "inherits" entries = some (names.map .str) := by
    simp [Option.bind_eq_some_iff, texts?_eq_some_iff]
  rw [← hbind, inheritsOf]
  cases (listAt? "inherits" entries).bind texts? <;> simp

theorem propertiesOf_eq_ok_iff : propertiesOf entries = .ok properties ↔
    ∃ items, Value.ListUnder (·.isEmpty = true) "properties" entries items ∧
      List.Forall₂ Property.IsDeclaredBy items properties := by
  simp only [propertiesOf, ← listAt?_eq_some_iff]
  cases listAt? "properties" entries with
  | none => simp
  | some items => simp [mapM_eq_ok_iff, Property.ofValue_eq_ok_iff]

theorem textAt_eq_ok_iff : textAt key entries = .ok text ↔ Value.TextUnder key entries text := by
  unfold textAt Value.TextUnder
  cases Value.find? key entries with
  | none => simp [eq_comm]
  | some v => cases v <;> simp [eq_comm]

/-- A class is read from exactly the documents that describe it, if all that stands for nothing is a
gap. -/
theorem ofValue_eq_ok_iff : ofValue v = .ok c ↔ c.IsDescribedBy (·.isEmpty = true) v := by
  simp only [ofValue, bind_eq_ok, documentName_eq_ok_iff, inheritsOf_eq_ok_iff, propertiesOf_eq_ok_iff,
    textAt_eq_ok_iff]
  constructor
  · rintro ⟨name, ⟨entries, rfl, hname⟩, inherits, hinherits, properties, hproperties, description,
      hdescription, summary, hsummary, h⟩
    cases h
    exact ⟨entries, rfl, hname, hinherits, hproperties, hdescription, hsummary⟩
  · rintro ⟨entries, rfl, hfields⟩
    exact ⟨c.name, ⟨entries, rfl, hfields.name⟩, c.inherits, hfields.inherits, c.properties,
      hfields.properties, c.description, hfields.description, c.summary, hfields.summary, rfl⟩

theorem isDescribedBy_null_iff :
    c.IsDescribedBy (· = .null) v ↔ c.IsDescribedBy (·.isEmpty = true) v ∧ PlainGaps v := by
  constructor
  · rintro ⟨entries, rfl, hname, hinherits, ⟨items, hitems, hproperties⟩, hdescription, hsummary⟩
    obtain ⟨hinherits, hgap⟩ := Value.listUnder_null_iff.mp hinherits
    obtain ⟨hitems, hgap'⟩ := Value.listUnder_null_iff.mp hitems
    refine ⟨⟨entries, rfl, hname, hinherits, ⟨items, hitems, hproperties⟩, hdescription, hsummary⟩, ?_⟩
    rintro _ ⟨⟩
    exact ⟨hgap, hgap'⟩
  · rintro ⟨⟨entries, rfl, hname, hinherits, ⟨items, hitems, hproperties⟩, hdescription, hsummary⟩, hgaps⟩
    obtain ⟨hgap, hgap'⟩ := hgaps entries rfl
    exact ⟨entries, rfl, hname, Value.listUnder_null_iff.mpr ⟨hinherits, hgap⟩,
      ⟨items, Value.listUnder_null_iff.mpr ⟨hitems, hgap'⟩, hproperties⟩, hdescription, hsummary⟩

theorem isAttributable_of_documentName (h : documentName v = .error f) : f.isAttributable = true := by
  unfold documentName at h
  split at h
  · split at h
    · dsimp only at h
      split_ifs at h
      cases h
      rfl
    · cases h
      rfl
  · cases h
    rfl

theorem isAttributable_of_textAt (h : textAt key entries = .error f) : f.isAttributable = true := by
  unfold textAt at h
  split at h <;> cases h
  rfl

theorem isAttributable_of_propertiesOf (hshow : EntriesShowable (.map entries))
    (h : propertiesOf entries = .error f) : f.isAttributable = true := by
  unfold propertiesOf at h
  split at h
  · next items hitems =>
    obtain ⟨item, hitem, hf⟩ := exists_of_mapM_eq_error h
    exact Property.isAttributable_of_ofValue_eq_error hf
      (hshow entries items rfl (listAt?_eq_some_iff.mp hitems) item hitem)
  · cases h
    rfl

/-- What is wrong with a document is said with its name, if messages can show what they have to. -/
theorem isAttributable_of_ofValue_eq_error (hshow : EntriesShowable v) (h : ofValue v = .error f) :
    f.isAttributable = true := by
  simp only [ofValue, bind_eq_error] at h
  rcases h with h | ⟨name, hname, h⟩
  · exact isAttributable_of_documentName h
  obtain ⟨entries, rfl, -⟩ := documentName_eq_ok_iff.mp hname
  rcases h with h | ⟨inherits, -, h⟩
  · unfold inheritsOf at h
    split at h <;> cases h
    rfl
  rcases h with h | ⟨properties, -, h⟩
  · exact isAttributable_of_propertiesOf hshow h
  rcases h with h | ⟨description, -, h⟩
  · exact isAttributable_of_textAt h
  rcases h with h | ⟨summary, -, h⟩
  · exact isAttributable_of_textAt h
  · cases h

theorem readAs_of_read {loader : Yaml.Loader} {t : FileTree} {p : Path}
    (hread : Corpus.readDocument loader t p = .ok v) :
    (∃ c, Corpus.readAs loader ofValue t p = .ok c ∧ ofValue v = .ok c) ∨
    ∃ f, Corpus.readAs loader ofValue t p = .error (.document ⟨p.text, f⟩) ∧ ofValue v = .error f := by
  simp only [Corpus.readAs, hread]
  cases ofValue v with
  | ok c => exact .inl ⟨c, rfl, rfl⟩
  | error f => exact .inr ⟨f, rfl, rfl⟩

/-- What a document is read as. A class comes from the documents that describe it, with all that stands for
nothing for a gap; the documented ones are those of them that have only null and the empty list there. All
others are refused under the name of their source. -/
theorem ofValue_follows_shape (v : Value) :
    (∀ c, ofValue v = .ok c ↔ c.IsDescribedBy (·.isEmpty = true) v) ∧
    (∀ c, c.IsDescribedBy (· = .null) v ↔ ofValue v = .ok c ∧ PlainGaps v) ∧
    ∀ (loader : Yaml.Loader) (t : FileTree) (p : Path), Corpus.readDocument loader t p = .ok v →
      (∃ c, Corpus.readAs loader ofValue t p = .ok c ∧ ofValue v = .ok c) ∨
      ∃ f, Corpus.readAs loader ofValue t p = .error (.document ⟨p.text, f⟩) ∧ ofValue v = .error f ∧
        (EntriesShowable v → f.isAttributable = true) := by
  refine ⟨fun c => ofValue_eq_ok_iff, fun c => ?_, fun loader t p hread => ?_⟩
  · rw [isDescribedBy_null_iff, ofValue_eq_ok_iff]
  · refine (readAs_of_read hread).imp_right ?_
    rintro ⟨f, hrefused, hf⟩
    exact ⟨f, hrefused, hf, fun hshow => isAttributable_of_ofValue_eq_error hshow hf⟩

/-- A folder with one document, whose parents are no list. -/
def wrongParentsTree : FileTree where
  entries := .ofList [(["Frame.yaml"], .file "name: Frame\ninherits: Base\n".toUTF8)]
  current := []

theorem ofValue_follows_shape_wrong_parents :
    ∃ v f, Corpus.readDocument Yaml.load wrongParentsTree (.ofText "Frame.yaml") = .ok v ∧
      Corpus.readAs Yaml.load ofValue wrongParentsTree (.ofText "Frame.yaml") =
        .error (.document ⟨"Frame.yaml", f⟩) ∧
      ∀ c : ClassDoc, ¬ c.IsDescribedBy (·.isEmpty = true) v := by
  have hread : (Corpus.readDocument Yaml.load wrongParentsTree (.ofText "Frame.yaml")).toBool = true := by
    decide +kernel
  cases hv : Corpus.readDocument Yaml.load wrongParentsTree (.ofText "Frame.yaml") with
  | error e =>
    rw [hv] at hread
    cases hread
  | ok v =>
    obtain ⟨haccepts, -, hreads⟩ := ofValue_follows_shape v
    rcases hreads _ _ _ hv with ⟨c, hc, -⟩ | ⟨f, hrefused, hf, -⟩
    · have hrefused : (Corpus.readAs Yaml.load ofValue wrongParentsTree (.ofText "Frame.yaml")).toBool = false := by
        decide +kernel
      rw [hc] at hrefused
      cases hrefused
    · refine ⟨v, f, rfl, hrefused, fun c hc => ?_⟩
      rw [← haccepts, hf] at hc
      cases hc

/-- A class with a truth value in the place of its parents, and a number in that of its properties. -/
def gapsDocument : Value :=
  .map [(.str "name", .str "Frame"), (.str "inherits", .bool false), (.str "properties", .int 0)]

/-- A class with a number for its only property. -/
def numberDocument (i : Int) : Value :=
  .map [(.str "name", .str "Frame"), (.str "properties", .list [.int i])]

theorem ofValue_numberDocument (i : Int) :
    ofValue (numberDocument i) = .error (.propertyNotMapping (Value.int i).shown?) :=
  rfl

/-- Other values than null pass for missing lists, and a number of too many digits is refused without the
name of its document. -/
theorem wrong_shapes_pass :
    ofValue gapsDocument = .ok { name := "Frame" } ∧
    (∀ c : ClassDoc, ¬ c.IsDescribedBy (· = .null) gapsDocument) ∧
    ofValue (numberDocument (.ofNat (Nat.pow 10 4300))) = .error (.propertyNotMapping none) ∧
    (DocumentFault.propertyNotMapping none).isAttributable = false := by
  refine ⟨rfl, ?_, ?_, rfl⟩
  · rintro c ⟨entries, h, hfields⟩
    cases h
    have hinherits := hfields.inherits
    simp [Value.ListUnder, Value.find?, Value.written] at hinherits
  · have hlong : (Value.int (.ofNat (Nat.pow 10 4300))).isShowable = false := by decide +kernel
    rw [ofValue_numberDocument, Value.shown?, hlong]
    rfl

end ClassDoc

end LuauBindings
