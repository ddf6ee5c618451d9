/-!
# Sets of names

A `NameSet` lists its names in code point order without repetition, so sets with the same members
are equal (`NameSet.ext`), whatever the order in which they were collected.
-/

namespace LuauBindings

/-- The members of `names` that are not in `known`, each in its first place. -/
def newNames (known names : List String) : List String :=
  (names.filter fun n => !known.contains n).eraseDups

theorem nodup_eraseDups {α : Type} [DecidableEq α] (l : List α) : l.eraseDups.Nodup := by
  match l with
  | [] => simp
  | a :: l =>
    have hlen : (l.filter fun b => !b == a).length < l.length + 1 :=
      Nat.lt_succ_of_le (List.length_filter_le ..)
    rw [List.eraseDups_cons, List.nodup_cons]
    exact ⟨by simp, nodup_eraseDups _⟩
termination_by l.length

theorem nodup_newNames (known names : List String) : (newNames known names).Nodup :=
  nodup_eraseDups _

theorem mem_newNames {known names : List String} {n : String} :
    n ∈ newNames known names ↔ n ∈ names ∧ n ∉ known := by
  simp [newNames, List.mem_eraseDups]

theorem newNames_cons_of_mem {known names : List String} {name : String} (h : name ∈ known) :
    newNames known (name :: names) = newNames known names := by
  simp [newNames, h]

theorem newNames_cons_of_not_mem {known names : List String} {name : String} (h : name ∉ known) :
    newNames known (name :: names) = name :: newNames (known ++ [name]) names := by
  simp [newNames, h, List.eraseDups_cons, List.filter_filter, Bool.beq_eq_decide_eq, Bool.and_comm]

/-- A finite set of names. -/
structure NameSet where
  toList : List String
  sorted : toList.Pairwise (· < ·)

namespace NameSet

def empty : NameSet := ⟨[], .nil⟩

instance : Inhabited NameSet := ⟨empty⟩

instance : Membership String NameSet := ⟨fun s name => name ∈ s.toList⟩

theorem mem_def {s : NameSet} {name : String} : name ∈ s ↔ name ∈ s.toList := Iff.rfl

instance (s : NameSet) (name : String) : Decidable (name ∈ s) :=
  inferInstanceAs (Decidable (name ∈ s.toList))

def size (s : NameSet) : Nat := s.toList.length

/-- `names`, in order, with `name` in its place. -/
def insertInto (name : String) : (names : List String) → List String
  | [] => [name]
  | n :: names =>
    if name < n then name :: n :: names
    else if name = n then n :: names
    else n :: insertInto name names

theorem mem_insertInto {name n : String} {names : List String} :
    n ∈ insertInto name names ↔ n = name ∨ n ∈ names := by
  induction names with
  | nil => simp [insertInto]
  | cons m names ih =>
    rw [insertInto]
    split
    · simp
    · split
      · next h => subst h; simp
      · simp only [List.mem_cons, ih]
        constructor <;> rintro (h | h | h) <;> simp [h]

theorem sorted_insertInto {name : String} {names : List String}
    (h : names.Pairwise (· < ·)) : (insertInto name names).Pairwise (· < ·) := by
  induction names with
  | nil => simp [insertInto]
  | cons m names ih =>
    rw [List.pairwise_cons] at h
    rw [insertInto]
    split
    · next hlt =>
      refine List.pairwise_cons.mpr ⟨fun n hn => ?_, List.pairwise_cons.mpr h⟩
      rcases List.mem_cons.mp hn with rfl | hn
      · exact hlt
      · exact String.lt_trans hlt (h.1 n hn)
    · next hlt =>
      split
      · exact List.pairwise_cons.mpr h
      · next hne =>
        refine List.pairwise_cons.mpr ⟨fun n hn => ?_, ih h.2⟩
        rcases mem_insertInto.mp hn with rfl | hn
        · have hle : m ≤ n := String.not_lt.mp hlt
          exact String.not_le.mp fun hge => hne (String.le_antisymm hge hle)
        · exact h.1 n hn

def insert (name : String) (s : NameSet) : NameSet :=
  ⟨insertInto name s.toList, sorted_insertInto s.sorted⟩

/-- The set of the names in a list. -/
def ofList : List String → NameSet
  | [] => empty
  | name :: names => (ofList names).insert name

/-- The members of `s` that satisfy `p`. -/
def filter (s : NameSet) (p : String → Bool) : NameSet :=
  ⟨s.toList.filter p, s.sorted.filter p⟩

/-- The members of `s` that are not in `t`. -/
def diff (s t : NameSet) : NameSet :=
  s.filter fun name => !decide (name ∈ t)

theorem mem_insert {name n : String} {s : NameSet} : n ∈ s.insert name ↔ n = name ∨ n ∈ s :=
  mem_insertInto

theorem mem_ofList {n : String} {names : List String} : n ∈ ofList names ↔ n ∈ names := by
  induction names with
  | nil => simp [ofList, mem_def, empty]
  | cons name names ih => rw [ofList, mem_insert, ih, List.mem_cons]

theorem mem_filter {n : String} {s : NameSet} {p : String → Bool} :
    n ∈ s.filter p ↔ n ∈ s ∧ p n = true := by
  simp [mem_def, filter]

theorem mem_diff {n : String} {s t : NameSet} : n ∈ s.diff t ↔ n ∈ s ∧ n ∉ t := by
  simp [diff, mem_filter]

theorem nodup (s : NameSet) : s.toList.Nodup :=
  s.sorted.imp fun h => fun he => String.lt_irrefl _ (he ▸ h)

theorem size_eq_length {s : NameSet} {names : List String} (hnames : names.Nodup)
    (h : ∀ n, n ∈ s ↔ n ∈ names) : s.size = names.length :=
  Nat.le_antisymm (s.nodup.length_le_of_subset fun n hn => (h n).mp hn)
    (hnames.length_le_of_subset fun n hn => (h n).mpr hn)

/-- Lists in strict order with the same members are equal. -/
theorem eq_of_sorted {l m : List String} (hl : l.Pairwise (· < ·)) (hm : m.Pairwise (· < ·))
    (h : ∀ n, n ∈ l ↔ n ∈ m) : l = m := by
  induction l generalizing m with
  | nil =>
    cases m with
    | nil => rfl
    | cons b m => exact absurd ((h b).mpr (List.mem_cons_self ..)) (List.not_mem_nil)
  | cons a l ih =>
    cases m with
    | nil => exact absurd ((h a).mp (List.mem_cons_self ..)) (List.not_mem_nil)
    | cons b m =>
      rw [List.pairwise_cons] at hl hm
      have hab : a = b := by
        rcases List.mem_cons.mp ((h a).mp (List.mem_cons_self ..)) with hab | ham
        · exact hab
        rcases List.mem_cons.mp ((h b).mpr (List.mem_cons_self ..)) with hba | hbl
        · exact hba.symm
        · exact absurd (hm.1 a ham) (String.lt_asymm (hl.1 b hbl))
      subst hab
      have hlm : ∀ n, n ∈ l ↔ n ∈ m := by
        intro n
        have hn := h n
        simp only [List.mem_cons] at hn
        constructor
        · intro hnl
          rcases hn.mp (Or.inr hnl) with rfl | hnm
          · exact absurd (hl.1 n hnl) (String.lt_irrefl n)
          · exact hnm
        · intro hnm
          rcases hn.mpr (Or.inr hnm) with rfl | hnl
          · exact absurd (hm.1 n hnm) (String.lt_irrefl n)
          · exact hnl
      rw [ih hl.2 hm.2 hlm]

@[ext] theorem ext {s t : NameSet} (h : ∀ n, n ∈ s ↔ n ∈ t) : s = t := by
  have := eq_of_sorted s.sorted t.sorted h
  cases s; cases t; cases this; rfl

end NameSet

end LuauBindings
