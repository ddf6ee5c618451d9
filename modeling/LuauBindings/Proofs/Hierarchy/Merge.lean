import LuauBindings.Proofs.Hierarchy.Inherited

/-!
# Merging property maps

`PropertyMap.firstWins maps` holds every key of the maps, in the order in which they first come
(`keys_firstWins`). A map that is merged after others adds the entries under keys that these lack
(`entries_addMissing`), so merging is associative and a map that brings no new key can be left out
(`firstWins_filter`).

The properties of a class and its ancestors are the own properties of the classes of the preorder, merged
in this way (`allProperties_eq_firstWins`). Within a class it is the other way round: of several
declarations of a key the last one gives the type (`get?_ownProperties`).
-/

namespace LuauBindings

namespace PropertyMap
variable {m n : PropertyMap} {maps others : List PropertyMap} {k : String}

/-- The maps in one, where a key keeps the first type it is given. -/
def firstWins (maps : List PropertyMap) : PropertyMap :=
  maps.foldl addMissing .empty

theorem entries_addMissing (m n : PropertyMap) :
    (m.addMissing n).entries = m.entries ++ n.entries.filter fun e => !m.contains e.1 :=
  OrderedMap.entries_foldl_insertNew n.nodup

theorem mem_keys_addMissing : k ∈ (m.addMissing n).keys ↔ k ∈ m.keys ∨ k ∈ n.keys := by
  simp only [← OrderedMap.get?_isSome_iff, get?_addMissing, Option.isSome_or, Bool.or_eq_true]

theorem empty_addMissing (n : PropertyMap) : addMissing .empty n = n := by
  refine OrderedMap.ext ?_
  rw [entries_addMissing, List.filter_eq_self.mpr (by simp [OrderedMap.contains, OrderedMap.keys,
    OrderedMap.empty])]
  rfl

theorem addMissing_of_subset (h : ∀ k ∈ n.keys, k ∈ m.keys) : m.addMissing n = m := by
  refine OrderedMap.ext ?_
  rw [entries_addMissing, List.filter_eq_nil_iff.mpr, List.append_nil]
  intro e he
  simpa [OrderedMap.contains_iff] using h e.1 (List.mem_map_of_mem he)

theorem addMissing_assoc (l m n : PropertyMap) :
    (l.addMissing m).addMissing n = l.addMissing (m.addMissing n) := by
  refine OrderedMap.ext ?_
  simp only [entries_addMissing, List.filter_append, List.filter_filter, List.append_assoc]
  refine congrArg _ (congrArg _ (List.filter_congr fun e _ => ?_))
  rw [Bool.eq_iff_iff]
  simp [← Bool.not_eq_true, OrderedMap.contains_iff, mem_keys_addMissing]

theorem foldl_addMissing (m : PropertyMap) (maps : List PropertyMap) :
    maps.foldl addMissing m = m.addMissing (firstWins maps) := by
  induction maps generalizing m with
  | nil => exact (addMissing_of_subset (by simp [firstWins, OrderedMap.keys, OrderedMap.empty])).symm
  | cons n maps ih =>
    have hcons : firstWins (n :: maps) = n.addMissing (firstWins maps) := by
      rw [firstWins, List.foldl_cons, empty_addMissing, ih]
    rw [List.foldl_cons, ih, hcons, addMissing_assoc]

theorem firstWins_cons (m : PropertyMap) (maps : List PropertyMap) :
    firstWins (m :: maps) = m.addMissing (firstWins maps) := by
  rw [firstWins, List.foldl_cons, empty_addMissing, foldl_addMissing]

theorem firstWins_append (maps others : List PropertyMap) :
    firstWins (maps ++ others) = (firstWins maps).addMissing (firstWins others) := by
  rw [firstWins, List.foldl_append, foldl_addMissing]
  rfl

/-- The entries of all maps are taken one by one. -/
theorem firstWins_eq_foldl (maps : List PropertyMap) : firstWins maps =
    (maps.flatMap OrderedMap.entries).foldl (fun m e => m.insertNew e.1 e.2) .empty :=
  List.foldl_flatMap.symm

/-- The keys stand in the order in which they first come. -/
theorem keys_firstWins : (firstWins maps).keys = (maps.flatMap OrderedMap.keys).eraseDups := by
  rw [firstWins_eq_foldl, OrderedMap.keys_foldl_empty Prod.fst fun _ _ => OrderedMap.keys_insertNew,
    List.map_flatMap]
  rfl

/-- A key has the type of the first entry under it. -/
theorem get?_firstWins : (firstWins maps).get? k = (maps.flatMap OrderedMap.entries).lookup k := by
  rw [firstWins_eq_foldl, OrderedMap.get?_foldl_insertNew, OrderedMap.findValue_eq_lookup]
  exact Option.none_or

theorem mem_keys_firstWins : k ∈ (firstWins maps).keys ↔ ∃ m ∈ maps, k ∈ m.keys := by
  rw [keys_firstWins, List.mem_eraseDups, List.mem_flatMap]

/-- Maps that bring no new key can be left out. -/
theorem firstWins_filter {f : String → PropertyMap} {p : String → Bool} {l : List String}
    (h : ∀ n ∈ l, p n = false → ∀ k ∈ (f n).keys, k ∈ m.keys) :
    m.addMissing (firstWins ((l.filter p).map f)) = m.addMissing (firstWins (l.map f)) := by
  induction l generalizing m with
  | nil => rfl
  | cons n l ih =>
    have hl : ∀ n' ∈ l, p n' = false → ∀ k ∈ (f n').keys, k ∈ (m.addMissing (f n)).keys :=
      fun n' hn' hp k hk => mem_keys_addMissing.mpr (.inl (h n' (List.mem_cons_of_mem _ hn') hp k hk))
    rw [List.map_cons, firstWins_cons, ← addMissing_assoc, ← ih hl, List.filter_cons]
    split
    · rw [List.map_cons, firstWins_cons, addMissing_assoc]
    · next hn =>
      rw [addMissing_of_subset (h n (List.mem_cons_self ..) (Bool.eq_false_iff.mpr hn))]

end PropertyMap

section Own
variable {classes : ClassMap} {c : ClassDoc} {k n : String}

/-- The own properties of the class `n`; there are none if it is no class. -/
def ownAt (classes : ClassMap) (n : String) : PropertyMap :=
  ((classes.get? n).map ownProperties).getD .empty

theorem ownAt_class (hc : classes.get? n = some c) : ownAt classes n = ownProperties c := by
  rw [ownAt, hc]
  rfl

theorem allProperties_eq_firstWins (classes : ClassMap) (name : String) :
    allProperties classes name = PropertyMap.firstWins ((preorder classes name).map (ownAt classes)) := by
  rw [allProperties, PropertyMap.firstWins, List.foldl_map]
  refine List.foldl_ext _ _ _ fun m n _ => ?_
  unfold ownAt
  cases classes.get? n with
  | none => exact (PropertyMap.addMissing_of_subset fun _ h => absurd h List.not_mem_nil).symm
  | some c => rfl

theorem keys_ownProperties (c : ClassDoc) :
    (ownProperties c).keys = (c.properties.map Property.shortName).eraseDups := by
  rw [ownProperties, OrderedMap.keys_ofList, List.map_map]
  rfl

/-- Of several declarations of a key the last one gives its type. -/
theorem get?_ownProperties (c : ClassDoc) (k : String) : (ownProperties c).get? k =
    (c.properties.filter fun p => p.shortName = k).getLast?.map Property.type := by
  rw [ownProperties, OrderedMap.get?_ofList, List.filter_map, List.getLast?_map, Option.map_map]
  simp only [Function.comp_def]

end Own

end LuauBindings
