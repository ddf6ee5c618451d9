/-!
# Maps in insertion order

An `OrderedMap` lists its entries in the order in which their keys were first inserted; inserting
a key again changes its value and keeps its place. Keys are distinct, so an entry is found by its
key (`get?_eq_some_iff`).
-/

namespace LuauBindings

/-- A map whose entries stand in the order of insertion. -/
structure OrderedMap (α β : Type) where
  entries : List (α × β)
  nodup : (entries.map Prod.fst).Nodup

namespace OrderedMap

variable {α β γ : Type}

def empty : OrderedMap α β := ⟨[], by simp⟩

instance : Inhabited (OrderedMap α β) := ⟨empty⟩

def keys (m : OrderedMap α β) : List α := m.entries.map Prod.fst

def size (m : OrderedMap α β) : Nat := m.entries.length

@[ext] theorem ext {m n : OrderedMap α β} (h : m.entries = n.entries) : m = n := by
  cases m; cases n; cases h; rfl

theorem keys_nodup (m : OrderedMap α β) : m.keys.Nodup := m.nodup

@[simp] theorem length_keys (m : OrderedMap α β) : m.keys.length = m.size := by
  simp [keys, size]

/-- The entries whose keys satisfy `p`. -/
def filterKeys (m : OrderedMap α β) (p : α → Bool) : OrderedMap α β where
  entries := m.entries.filter fun e => p e.1
  nodup := m.nodup.sublist (List.filter_sublist.map _)

theorem keys_filterKeys (m : OrderedMap α β) (p : α → Bool) :
    (m.filterKeys p).keys = m.keys.filter p := by
  simp [keys, filterKeys, List.filter_map, Function.comp_def]

theorem filterKeys_sublist (m : OrderedMap α β) (p : α → Bool) :
    (m.filterKeys p).entries.Sublist m.entries :=
  List.filter_sublist

theorem mem_keys_filterKeys {m : OrderedMap α β} {p : α → Bool} {key : α} :
    key ∈ (m.filterKeys p).keys ↔ key ∈ m.keys ∧ p key = true := by
  rw [keys_filterKeys, List.mem_filter]

/-- The map with `f key value` for every value. -/
def mapValues (m : OrderedMap α β) (f : α → β → γ) : OrderedMap α γ where
  entries := m.entries.map fun e => (e.1, f e.1 e.2)
  nodup := by simpa [Function.comp_def] using m.nodup

theorem keys_mapValues (m : OrderedMap α β) (f : α → β → γ) : (m.mapValues f).keys = m.keys := by
  simp [keys, mapValues, Function.comp_def]

theorem filterKeys_mapValues (m : OrderedMap α β) (f : α → β → γ) (p : α → Bool) :
    (m.mapValues f).filterKeys p = (m.filterKeys p).mapValues f := by
  apply ext
  simp [filterKeys, mapValues, List.filter_map, Function.comp_def]

/-- A map that keeps the entries of `m` in their order and lacks none of its keys is `m`. -/
theorem eq_of_sublist {m n : OrderedMap α β} (h : n.entries.Sublist m.entries)
    (hkeys : ∀ key ∈ m.keys, key ∈ n.keys) : n = m := by
  refine ext (h.eq_of_length_le ?_)
  have hle := m.keys_nodup.length_le_of_subset hkeys
  rwa [length_keys, length_keys] at hle

variable [DecidableEq α]

/-- The first value of `key` among the entries `l`. -/
def findValue (key : α) : List (α × β) → Option β
  | [] => none
  | e :: l => if e.1 = key then some e.2 else findValue key l

/-- The value of `key`, if it has one. -/
def get? (m : OrderedMap α β) (key : α) : Option β :=
  findValue key m.entries

def contains (m : OrderedMap α β) (key : α) : Bool :=
  m.keys.contains key

/-- The entries `l` with `value` for `key`: in the place of the old value, or at the end. -/
def insertEntry (key : α) (value : β) : List (α × β) → List (α × β)
  | [] => [(key, value)]
  | e :: l => if e.1 = key then (key, value) :: l else e :: insertEntry key value l

theorem mem_keys_insertEntry {key k : α} {value : β} {l : List (α × β)} :
    k ∈ (insertEntry key value l).map Prod.fst ↔ k = key ∨ k ∈ l.map Prod.fst := by
  induction l with
  | nil => simp [insertEntry]
  | cons e l ih =>
    by_cases h : e.1 = key
    · simp [insertEntry, h]
    · simp only [insertEntry, h, if_false, List.map_cons, List.mem_cons, ih]
      constructor <;> rintro (rfl | rfl | h') <;> simp_all

theorem nodup_insertEntry {key : α} {value : β} {l : List (α × β)}
    (h : (l.map Prod.fst).Nodup) : ((insertEntry key value l).map Prod.fst).Nodup := by
  induction l with
  | nil => simp [insertEntry]
  | cons e l ih =>
    rw [List.map_cons, List.nodup_cons] at h
    by_cases hk : e.1 = key
    · simpa [insertEntry, hk] using ⟨by simpa [hk] using h.1, h.2⟩
    · rw [insertEntry, if_neg hk, List.map_cons, List.nodup_cons, mem_keys_insertEntry]
      exact ⟨fun h' => h'.elim hk h.1, ih h.2⟩

/-- `m` with `value` for `key`. -/
def insert (m : OrderedMap α β) (key : α) (value : β) : OrderedMap α β :=
  ⟨insertEntry key value m.entries, nodup_insertEntry m.nodup⟩

/-- `m` with `value` for `key` if `key` has no value yet. -/
def insertNew (m : OrderedMap α β) (key : α) (value : β) : OrderedMap α β :=
  if m.contains key then m else m.insert key value

/-- The map of the entries `l`: a key keeps its first place and its last value. -/
def ofList (l : List (α × β)) : OrderedMap α β :=
  l.foldl (fun m e => m.insert e.1 e.2) empty

theorem contains_iff {m : OrderedMap α β} {key : α} : m.contains key = true ↔ key ∈ m.keys := by
  simp [contains]

theorem mem_keys_insert {m : OrderedMap α β} {key k : α} {value : β} :
    k ∈ (m.insert key value).keys ↔ k = key ∨ k ∈ m.keys :=
  mem_keys_insertEntry

theorem get?_eq_some_iff {m : OrderedMap α β} {key : α} {value : β} :
    m.get? key = some value ↔ (key, value) ∈ m.entries := by
  obtain ⟨l, hl⟩ := m
  simp only [get?]
  induction l with
  | nil => simp [findValue]
  | cons e l ih =>
    rw [List.map_cons, List.nodup_cons] at hl
    rw [findValue, List.mem_cons]
    split
    · next h =>
      constructor
      · rintro ⟨rfl⟩
        exact Or.inl (by rw [← h])
      · rintro (rfl | h')
        · rfl
        · exact absurd (List.mem_map_of_mem (f := Prod.fst) h') (by simpa [h] using hl.1)
    · next h =>
      rw [ih hl.2]
      exact ⟨Or.inr, fun h' => h'.resolve_left fun h' => h (by rw [← h'])⟩

theorem get?_isSome_iff {m : OrderedMap α β} {key : α} :
    (m.get? key).isSome = true ↔ key ∈ m.keys := by
  rw [Option.isSome_iff_exists]
  simp only [get?_eq_some_iff, keys, List.mem_map, Prod.exists, exists_and_right, exists_eq_right]

theorem get?_eq_none_iff {m : OrderedMap α β} {key : α} : m.get? key = none ↔ key ∉ m.keys := by
  rw [← get?_isSome_iff, Option.isSome_iff_ne_none, Decidable.not_not]

theorem exists_get? {m : OrderedMap α β} {key : α} (h : key ∈ m.keys) :
    ∃ value, m.get? key = some value :=
  Option.isSome_iff_exists.mp (get?_isSome_iff.mpr h)

theorem mem_keys_of_get? {m : OrderedMap α β} {key : α} {value : β} (h : m.get? key = some value) :
    key ∈ m.keys :=
  get?_isSome_iff.mp (Option.isSome_of_eq_some h)

/-- Maps with the same keys in the same order and the same values are equal. -/
theorem eq_of_get? {m n : OrderedMap α β} (hkeys : m.keys = n.keys)
    (hget : ∀ key, m.get? key = n.get? key) : m = n := by
  have hlength : m.entries.length = n.entries.length := by
    simpa only [keys, List.length_map] using congrArg List.length hkeys
  refine ext (List.ext_getElem hlength fun i hi hi' => ?_)
  have hkey : m.entries[i].1 = n.entries[i].1 := by
    have hat := List.getElem_of_eq hkeys (i := i) (by simpa [keys] using hi)
    simpa only [keys, List.getElem_map] using hat
  have hm : m.get? m.entries[i].1 = some m.entries[i].2 := get?_eq_some_iff.mpr (List.getElem_mem hi)
  have hn : n.get? n.entries[i].1 = some n.entries[i].2 := get?_eq_some_iff.mpr (List.getElem_mem hi')
  rw [hget, hkey, hn] at hm
  exact Prod.ext hkey (Option.some.inj hm).symm

/-- A map whose entries are among those of `m`, in their order, finds what `m` finds under its own
keys. -/
theorem get?_of_sublist {m n : OrderedMap α β} (h : n.entries.Sublist m.entries) {key : α}
    (hk : key ∈ n.keys) : n.get? key = m.get? key := by
  obtain ⟨value, hv⟩ := exists_get? hk
  rw [hv, eq_comm, get?_eq_some_iff]
  exact h.subset (get?_eq_some_iff.mp hv)

theorem get?_mapValues {m : OrderedMap α β} {f : α → β → γ} {key : α} :
    (m.mapValues f).get? key = (m.get? key).map (f key) := by
  ext value
  simp only [get?_eq_some_iff, Option.map_eq_some_iff, mapValues, List.mem_map, Prod.mk.injEq,
    Prod.exists]
  constructor
  · rintro ⟨k, v, hv, rfl, rfl⟩
    exact ⟨v, hv, rfl⟩
  · rintro ⟨v, hv, rfl⟩
    exact ⟨key, v, hv, rfl, rfl⟩

theorem findValue_insertEntry {key k : α} {value : β} {l : List (α × β)} :
    findValue k (insertEntry key value l) = if key = k then some value else findValue k l := by
  induction l with
  | nil => simp [insertEntry, findValue]
  | cons e l ih =>
    by_cases h : e.1 = key
    · by_cases hk : key = k <;> simp [insertEntry, findValue, h, hk]
    · by_cases hk : e.1 = k
      · have : ¬ key = k := fun h' => h (hk.trans h'.symm)
        rw [insertEntry, if_neg h, findValue, if_pos hk, if_neg this, findValue, if_pos hk]
      · simp [insertEntry, findValue, h, hk, ih]

theorem get?_insert {m : OrderedMap α β} {key k : α} {value : β} :
    (m.insert key value).get? k = if key = k then some value else m.get? k :=
  findValue_insertEntry

theorem findValue_eq_none {key : α} {l : List (α × β)} (h : key ∉ l.map Prod.fst) :
    findValue key l = none := by
  induction l with
  | nil => rfl
  | cons e l ih =>
    rw [List.map_cons, List.mem_cons, not_or] at h
    rw [findValue, if_neg fun h' => h.1 h'.symm, ih h.2]

/-- `m` with the values of `n` under the keys of `n`. -/
def insertAll (m n : OrderedMap α β) : OrderedMap α β :=
  n.entries.foldl (fun m e => m.insert e.1 e.2) m

theorem get?_insertAll {m n : OrderedMap α β} {key : α} :
    (m.insertAll n).get? key = (n.get? key).or (m.get? key) := by
  obtain ⟨l, hl⟩ := n
  simp only [insertAll]
  induction l generalizing m with
  | nil => rfl
  | cons e l ih =>
    rw [List.map_cons, List.nodup_cons] at hl
    rw [List.foldl_cons, ih hl.2, get?_insert]
    simp only [get?, findValue]
    split
    · next h => rw [findValue_eq_none (h ▸ hl.1), Option.none_or, Option.some_or]
    · rfl

theorem filter_insertEntry {key : α} {value : β} {l : List (α × β)} {p : α → Bool}
    (hp : p key = false) :
    (insertEntry key value l).filter (fun e => p e.1) = l.filter fun e => p e.1 := by
  induction l with
  | nil => simp [insertEntry, hp]
  | cons e l ih =>
    by_cases h : e.1 = key
    · simp [insertEntry, h, hp]
    · simp [insertEntry, h, List.filter_cons, ih]

theorem filterKeys_insert {m : OrderedMap α β} {key : α} {value : β} {p : α → Bool}
    (hp : p key = false) : (m.insert key value).filterKeys p = m.filterKeys p :=
  ext (filter_insertEntry hp)

/-- The entries under keys that `n` lacks stay as they are, and in their order. -/
theorem filterKeys_insertAll {m n : OrderedMap α β} {p : α → Bool}
    (hp : ∀ key ∈ n.keys, p key = false) : (m.insertAll n).filterKeys p = m.filterKeys p := by
  obtain ⟨l, hl⟩ := n
  simp only [keys, insertAll] at hp ⊢
  clear hl
  induction l generalizing m with
  | nil => rfl
  | cons e l ih =>
    rw [List.map_cons] at hp
    rw [List.foldl_cons, ih fun key hkey => hp key (List.mem_cons_of_mem _ hkey),
      filterKeys_insert (hp e.1 (List.mem_cons_self ..))]

/-- A new value does not take the place of one that is there. -/
theorem get?_insertNew {m : OrderedMap α β} {key k : α} {value : β} :
    (m.insertNew key value).get? k = (m.get? k).or (if key = k then some value else none) := by
  unfold insertNew
  by_cases hk : key = k
  · subst hk
    by_cases hc : key ∈ m.keys
    · obtain ⟨v, hv⟩ := exists_get? hc
      rw [if_pos (contains_iff.mpr hc), hv, Option.some_or]
    · rw [if_neg (fun h => hc (contains_iff.mp h)), get?_insert, get?_eq_none_iff.mpr hc,
        Option.none_or]
  · rw [if_neg hk, Option.or_none]
    split
    · rfl
    · rw [get?_insert, if_neg hk]

/-- The map takes the values of `l` under keys that `m` lacks, the first one under each key. -/
theorem get?_foldl_insertNew {m : OrderedMap α β} {l : List (α × β)} {k : α} :
    (l.foldl (fun m e => m.insertNew e.1 e.2) m).get? k = (m.get? k).or (findValue k l) := by
  induction l generalizing m with
  | nil => simp [findValue]
  | cons e l ih =>
    rw [List.foldl_cons, ih, get?_insertNew, Option.or_assoc, findValue]
    split <;> simp

theorem findValue_eq_lookup (key : α) (l : List (α × β)) : findValue key l = l.lookup key := by
  induction l with
  | nil => rfl
  | cons e l ih =>
    rw [findValue, ih, List.lookup_cons]
    by_cases h : key = e.1
    · simp [h]
    · rw [if_neg (Ne.symm h), beq_false_of_ne h]

theorem insertEntry_of_findValue {key : α} {value : β} {l : List (α × β)}
    (h : findValue key l = some value) : insertEntry key value l = l := by
  induction l with
  | nil => cases h
  | cons e l ih =>
    rw [findValue] at h
    rw [insertEntry]
    split
    · next he =>
      rw [if_pos he] at h
      rw [← he, ← Option.some.inj h]
    · next he =>
      rw [if_neg he] at h
      rw [ih h]

theorem insert_of_get? {m : OrderedMap α β} {key : α} {value : β} (h : m.get? key = some value) :
    m.insert key value = m :=
  ext (insertEntry_of_findValue h)

theorem insertEntry_of_not_mem {key : α} {value : β} {l : List (α × β)}
    (h : key ∉ l.map Prod.fst) : insertEntry key value l = l ++ [(key, value)] := by
  induction l with
  | nil => rfl
  | cons e l ih =>
    rw [List.map_cons, List.mem_cons, not_or] at h
    rw [insertEntry, if_neg fun h' => h.1 h'.symm, ih h.2, List.cons_append]

theorem keys_insertEntry_of_mem {key : α} {value : β} {l : List (α × β)}
    (h : key ∈ l.map Prod.fst) : (insertEntry key value l).map Prod.fst = l.map Prod.fst := by
  induction l with
  | nil => exact absurd h List.not_mem_nil
  | cons e l ih =>
    rw [insertEntry]
    split
    · next he => rw [List.map_cons, List.map_cons, he]
    · next he =>
      rw [List.map_cons, List.mem_cons] at h
      rw [List.map_cons, List.map_cons, ih (h.resolve_left fun h' => he h'.symm)]

theorem entries_insert_of_not_mem {m : OrderedMap α β} {key : α} (h : key ∉ m.keys) (value : β) :
    (m.insert key value).entries = m.entries ++ [(key, value)] :=
  insertEntry_of_not_mem h

theorem keys_insert {m : OrderedMap α β} {key : α} {value : β} :
    (m.insert key value).keys = if key ∈ m.keys then m.keys else m.keys ++ [key] := by
  split
  · next h => exact keys_insertEntry_of_mem h
  · next h => rw [keys, entries_insert_of_not_mem h, List.map_append, List.map_singleton, keys]

theorem keys_insertNew {m : OrderedMap α β} {key : α} {value : β} :
    (m.insertNew key value).keys = if key ∈ m.keys then m.keys else m.keys ++ [key] := by
  rw [insertNew]
  split
  · next h => rw [if_pos (contains_iff.mp h)]
  · next h => rw [keys_insert]

/-- Where every step adds its key unless it is there, new keys stand in the order in which they are
first listed. -/
theorem keys_foldl {ι : Type} (key : ι → α) {f : OrderedMap α β → ι → OrderedMap α β}
    (hf : ∀ m i, (f m i).keys = if key i ∈ m.keys then m.keys else m.keys ++ [key i])
    (m : OrderedMap α β) (l : List ι) :
    (l.foldl f m).keys =
      m.keys ++ ((l.map key).filter fun k => !m.keys.contains k).eraseDups := by
  induction l generalizing m with
  | nil => simp
  | cons i l ih =>
    rw [List.foldl_cons, ih, hf]
    by_cases h : key i ∈ m.keys
    · simp [h]
    · simp [h, List.eraseDups_cons, List.filter_filter, Bool.beq_eq_decide_eq, Bool.and_comm]

theorem keys_insertAll (m n : OrderedMap α β) :
    (m.insertAll n).keys = m.keys ++ (n.keys.filter fun k => !m.keys.contains k).eraseDups :=
  keys_foldl Prod.fst (fun _ _ => keys_insert) m n.entries

theorem keys_prefix_insert (m : OrderedMap α β) (key : α) (value : β) :
    m.keys <+: (m.insert key value).keys := by
  rw [keys_insert]
  split
  · exact List.prefix_rfl
  · exact List.prefix_append ..

theorem keys_prefix_insertAll (m n : OrderedMap α β) : m.keys <+: (m.insertAll n).keys := by
  rw [keys_insertAll]
  exact List.prefix_append ..

theorem mem_keys_insertAll {m n : OrderedMap α β} {key : α} :
    key ∈ (m.insertAll n).keys ↔ key ∈ m.keys ∨ key ∈ n.keys := by
  rw [keys_insertAll]
  by_cases h : key ∈ m.keys <;> simp [h, List.mem_eraseDups]

theorem keys_foldl_empty {ι : Type} (key : ι → α) {f : OrderedMap α β → ι → OrderedMap α β}
    (hf : ∀ m i, (f m i).keys = if key i ∈ m.keys then m.keys else m.keys ++ [key i])
    (l : List ι) : (l.foldl f empty).keys = (l.map key).eraseDups := by
  rw [keys_foldl key hf, List.filter_eq_self.mpr (by simp [empty, keys])]
  rfl

theorem keys_ofList {l : List (α × β)} : (ofList l).keys = (l.map Prod.fst).eraseDups :=
  keys_foldl_empty Prod.fst (fun _ _ => keys_insert) l

/-- A key has the value that is listed last for it. -/
theorem get?_ofList {l : List (α × β)} {k : α} :
    (ofList l).get? k = (l.filter fun e => e.1 = k).getLast?.map Prod.snd := by
  have hfold : ∀ m : OrderedMap α β, (l.foldl (fun m e => m.insert e.1 e.2) m).get? k =
      ((l.filter fun e => e.1 = k).getLast?.map Prod.snd).or (m.get? k) := by
    induction l with
    | nil => simp
    | cons e l ih =>
      intro m
      rw [List.foldl_cons, ih, get?_insert, List.filter_cons]
      by_cases h : e.1 = k
      · simp only [h, if_true, decide_true, List.getLast?_cons]
        cases (l.filter fun e => e.1 = k).getLast? <;> simp
      · simp [h]
  exact (hfold empty).trans Option.or_none

/-- The new entries stand behind the old ones. -/
theorem entries_foldl_insertNew {m : OrderedMap α β} {l : List (α × β)}
    (hl : (l.map Prod.fst).Nodup) :
    (l.foldl (fun m e => m.insertNew e.1 e.2) m).entries =
      m.entries ++ l.filter fun e => !m.contains e.1 := by
  induction l generalizing m with
  | nil => simp
  | cons e l ih =>
    rw [List.map_cons, List.nodup_cons] at hl
    rw [List.foldl_cons, ih hl.2, insertNew, List.filter_cons]
    by_cases h : m.contains e.1
    · simp [h]
    · have hkey : e.1 ∉ m.keys := fun h' => h (contains_iff.mpr h')
      have hentries := entries_insert_of_not_mem hkey e.2
      have hrest : (l.filter fun e' => !(m.insert e.1 e.2).contains e'.1) =
          l.filter fun e' => !m.contains e'.1 := by
        refine List.filter_congr fun e' he' => ?_
        have hne : e'.1 ≠ e.1 := fun h' => hl.1 (h' ▸ List.mem_map_of_mem he')
        rw [Bool.eq_iff_iff]
        simp [← Bool.not_eq_true, contains_iff, mem_keys_insert, hne]
      simp [h, hentries, hrest]

end OrderedMap

end LuauBindings
