import LuauBindings.Proofs.Corpus.Shape

/-!
# What a class document is read for

Of a class document the name, the parents and the properties make its structure, and of a property its name and
type. Documents of one structure whose texts are texts are read alike: both are refused for the same fault, or
they describe classes of the same name, parents and properties (`ClassDoc.ofValue_of_sameStructure`). Nothing
else that stands in a document, or in an entry of its properties, is looked at.
-/

namespace LuauBindings

namespace Yaml.Value
variable {key : String} {entries others : List (Value × Value)} {v w : Value} {items items' : List Value}

/-- What stands under `key`; null if nothing does. -/
def under (key : String) (entries : List (Value × Value)) : Value :=
  (find? key entries).getD .null

/-- The entries of two lists of properties are one and the same, or mappings with the same name and type. -/
inductive SameProperty : Value → Value → Prop
  | refl (v : Value) : SameProperty v v
  | mappings {v w : Value} {entries others : List (Value × Value)} (hv : v.written = .map entries)
    (hw : w.written = .map others) (name : under "name" entries = under "name" others)
    (type : under "type" entries = under "type" others) : SameProperty v w

/-- The values of `properties` are one and the same, or lists whose entries agree one by one. -/
inductive SameProperties : Value → Value → Prop
  | refl (v : Value) : SameProperties v v
  | lists {v w : Value} {items items' : List Value} (hv : v.written = .list items)
    (hw : w.written = .list items') (h : List.Forall₂ SameProperty items items') : SameProperties v w

/-- Two mappings agree on name, parents and properties. -/
structure SameStructure (entries others : List (Value × Value)) : Prop where
  name : under "name" entries = under "name" others
  inherits : under "inherits" entries = under "inherits" others
  properties : SameProperties (under "properties" entries) (under "properties" others)

/-- There is a text under `key`, or nothing, or null. -/
def MayBeText (key : String) (entries : List (Value × Value)) : Prop :=
  under key entries = .null ∨ ∃ s, under key entries = .str s

/-- The same stands under a key if nothing stands for null. -/
theorem find?_of_under (h : under key entries = under key others) :
    find? key entries = find? key others ∨ (find? key entries = none ∧ find? key others = some .null) ∨
      (find? key entries = some .null ∧ find? key others = none) := by
  unfold under at h
  cases hfind : find? key entries with
  | none =>
    cases hfind' : find? key others with
    | none => exact .inl rfl
    | some w =>
      rw [hfind, hfind'] at h
      exact .inr (.inl ⟨rfl, congrArg some h.symm⟩)
  | some v =>
    cases hfind' : find? key others with
    | none =>
      rw [hfind, hfind'] at h
      exact .inr (.inr ⟨congrArg some h, rfl⟩)
    | some w =>
      rw [hfind, hfind'] at h
      exact .inl (congrArg some h)

theorem find?_of_under_ne_null (h : under key entries = v) (hv : v ≠ .null) : find? key entries = some v := by
  unfold under at h
  cases hfind : find? key entries with
  | none =>
    rw [hfind] at h
    exact absurd h.symm hv
  | some w =>
    rw [hfind] at h
    exact congrArg some h

end Yaml.Value

open Yaml (Value)

theorem documentName_congr {entries others : List (Value × Value)}
    (h : Value.under "name" entries = Value.under "name" others) :
    documentName (.map entries) = documentName (.map others) := by
  unfold documentName
  dsimp only
  rcases Value.find?_of_under h with h | ⟨h, h'⟩ | ⟨h, h'⟩
  · rw [h]
  · rw [h, h']
  · rw [h, h']

theorem Property.ofValue_congr {v w : Value} (h : Value.SameProperty v w) : ofValue v = ofValue w := by
  cases h with
  | refl => rfl
  | mappings hv hw hname htype =>
    unfold ofValue
    rw [hv, hw]
    dsimp only
    rcases Value.find?_of_under hname with hname | ⟨hname, hname'⟩ | ⟨hname, hname'⟩
    · rw [hname]
      rcases Value.find?_of_under htype with htype | ⟨htype, htype'⟩ | ⟨htype, htype'⟩
      · rw [htype]
      · rw [htype, htype']
      · rw [htype, htype']
    · rw [hname, hname']
    · rw [hname, hname']

namespace ClassDoc
variable {key : String} {entries others : List (Value × Value)} {items : List Value}

theorem listAt?_congr (h : Value.under key entries = Value.under key others) :
    listAt? key entries = listAt? key others := by
  unfold listAt?
  rcases Value.find?_of_under h with h | ⟨h, h'⟩ | ⟨h, h'⟩
  · rw [h]
  · rw [h, h']
    rfl
  · rw [h, h']
    rfl

theorem inheritsOf_congr (h : Value.under "inherits" entries = Value.under "inherits" others) :
    inheritsOf entries = inheritsOf others := by
  rw [inheritsOf, inheritsOf, listAt?_congr h]

theorem listAt?_of_written (h : (Value.under key entries).written = .list items) :
    listAt? key entries = some items := by
  have hnull : Value.under key entries ≠ .null := by
    intro hnull
    rw [hnull] at h
    cases h
  unfold listAt?
  rw [Value.find?_of_under_ne_null rfl hnull]
  dsimp only
  split
  · next hempty =>
    rw [Value.eq_list_nil_of_isEmpty hempty h] at h
    cases h
    rfl
  · rw [h]

theorem propertiesOf_congr
    (h : Value.SameProperties (Value.under "properties" entries) (Value.under "properties" others)) :
    propertiesOf entries = propertiesOf others := by
  generalize hv : Value.under "properties" entries = v at h
  generalize hw : Value.under "properties" others = w at h
  unfold propertiesOf
  cases h with
  | refl => rw [listAt?_congr (hv.trans hw.symm)]
  | lists hlist hlist' hitems =>
    rw [listAt?_of_written (hv ▸ hlist), listAt?_of_written (hw ▸ hlist')]
    exact mapM_eq_of_forall₂ (hitems.imp fun _ _ => Property.ofValue_congr)

theorem exists_textAt (h : Value.MayBeText key entries) : ∃ s, textAt key entries = .ok s := by
  unfold textAt
  rcases h with h | ⟨s, h⟩
  · cases hfind : Value.find? key entries with
    | none => exact ⟨"", rfl⟩
    | some v =>
      rw [Value.under, hfind] at h
      cases h
      exact ⟨"", rfl⟩
  · rw [Value.find?_of_under_ne_null h (by simp)]
    exact ⟨s, rfl⟩

/-- Documents of one structure are read alike, whatever else stands in them. -/
theorem ofValue_of_sameStructure (h : Value.SameStructure entries others)
    (htexts : ∀ key ∈ ["description", "summary"],
      Value.MayBeText key entries ∧ Value.MayBeText key others) :
    (∃ c d, ofValue (.map entries) = .ok c ∧ ofValue (.map others) = .ok d ∧
      d.name = c.name ∧ d.inherits = c.inherits ∧ d.properties = c.properties) ∨
    ∃ f, ofValue (.map entries) = .error f ∧ ofValue (.map others) = .error f := by
  obtain ⟨hdescription, hdescription'⟩ := htexts "description" (by simp)
  obtain ⟨hsummary, hsummary'⟩ := htexts "summary" (by simp)
  obtain ⟨description, hdescription⟩ := exists_textAt hdescription
  obtain ⟨description', hdescription'⟩ := exists_textAt hdescription'
  obtain ⟨summary, hsummary⟩ := exists_textAt hsummary
  obtain ⟨summary', hsummary'⟩ := exists_textAt hsummary'
  unfold ofValue
  dsimp only
  rw [documentName_congr h.name, inheritsOf_congr h.inherits, propertiesOf_congr h.properties,
    hdescription, hdescription', hsummary, hsummary']
  rcases documentName (.map others) with f | name
  · exact .inr ⟨f, rfl, rfl⟩
  rcases inheritsOf others with f | inherits
  · exact .inr ⟨f, rfl, rfl⟩
  rcases propertiesOf others with f | properties
  · exact .inr ⟨f, rfl, rfl⟩
  exact .inl ⟨_, _, rfl, rfl, rfl, rfl, rfl⟩

end ClassDoc

end LuauBindings
