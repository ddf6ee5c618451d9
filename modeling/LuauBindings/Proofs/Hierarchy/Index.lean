import LuauBindings.Proofs.Hierarchy.Relation
import Mathlib.Data.List.Basic

/-!
# The index holds one relation in two directions

`InheritIndex.Inverts`: the parents of a class stand as it declares them, and under every name stand the
classes that declare it, as often as they do and in the order of the classes. The names that are declared
stand in the order in which they are first mentioned, whether or not they are classes.

The index of a mapping is the one index of which this is true (`inverts_iff_eq_ofClasses`). Its children are one fold over
the declarations (`children_eq_foldl`), which gives the order of the names; what stands under a name is
`next_children`. That nothing is left open follows because a list that is sorted by the places of its members
is known from how often each of them occurs.
-/

namespace LuauBindings

/-- `a` does not stand after `b` among the classes. -/
def ClassMap.NotAfter (classes : ClassMap) (a b : String) : Prop :=
  classes.keys.idxOf a ≤ classes.keys.idxOf b

/-- The names that the classes declare as parents, each as often as it is declared. -/
def ClassMap.mentioned (classes : ClassMap) : List String :=
  classes.entries.flatMap fun e => e.2.inherits

namespace ClassMap
variable {classes : ClassMap} {a b p : String}

theorem pairwise_entries (classes : ClassMap) :
    classes.entries.Pairwise fun e f => classes.NotAfter e.1 f.1 := by
  have hkeys : classes.keys.Pairwise classes.NotAfter := by
    rw [List.pairwise_iff_getElem]
    intro i j hi hj hij
    rw [NotAfter, classes.keys_nodup.idxOf_getElem i hi, classes.keys_nodup.idxOf_getElem j hj]
    exact Nat.le_of_lt hij
  exact List.pairwise_map.mp hkeys

theorem eq_of_notAfter (ha : a ∈ classes.keys) (hab : classes.NotAfter a b) (hba : classes.NotAfter b a) :
    a = b :=
  (List.idxOf_inj ha).mp (Nat.le_antisymm hab hba)

theorem mem_mentioned : p ∈ classes.mentioned ↔ ∃ c, classes.Lists c p := by
  simp only [mentioned, List.mem_flatMap, lists_iff_mem_entries]
  constructor
  · rintro ⟨e, he, hp⟩
    exact ⟨e.1, e, he, rfl, hp⟩
  · rintro ⟨_, e, he, -, hp⟩
    exact ⟨e, he, hp⟩

end ClassMap

namespace InheritIndex

/-- `index` holds what `classes` declare, from the classes to their parents and back. -/
structure Inverts (index : InheritIndex) (classes : ClassMap) : Prop where
  /-- The classes in their order, each with the parents it declares. -/
  parents : index.parents.entries = classes.entries.map fun e => (e.1, e.2.inherits)
  /-- A class stands under a name once for every time it declares the name. -/
  count : ∀ n doc, classes.get? n = some doc →
    ∀ p, (index.children.next p).count n = doc.inherits.count p
  mem_classes : ∀ p, ∀ n ∈ index.children.next p, n ∈ classes.keys
  inOrder : ∀ p, (index.children.next p).Pairwise classes.NotAfter
  /-- The names in the order in which they are first declared. -/
  keys : index.children.keys = classes.mentioned.eraseDups
  mem_keys : ∀ p, p ∈ index.children.keys ↔ ∃ c, classes.Lists c p

section
variable {classes : ClassMap} {index other : InheritIndex} {n p : String}

theorem keys_addChild {children : NameGraph} : OrderedMap.keys (addChild n children p) =
    if p ∈ children.keys then children.keys else children.keys ++ [p] :=
  OrderedMap.keys_insert

/-- The children are collected from one declaration after the other. -/
theorem children_eq_foldl (classes : ClassMap) : (ofClasses classes).children =
    (classes.entries.flatMap fun e => e.2.inherits.map fun p => (e.1, p)).foldl
      (fun children d => addChild d.1 children d.2) .empty := by
  simp only [ofClasses, List.foldl_flatMap, List.foldl_map]

theorem keys_children (classes : ClassMap) :
    (ofClasses classes).children.keys = classes.mentioned.eraseDups := by
  rw [children_eq_foldl, OrderedMap.keys_foldl_empty Prod.snd fun _ _ => keys_addChild, List.map_flatMap]
  simp only [ClassMap.mentioned, List.map_map, Function.comp_def, List.map_id']

theorem count_children {doc : ClassDoc} (hdoc : classes.get? n = some doc) (p : String) :
    (NameGraph.next (ofClasses classes).children p).count n = doc.inherits.count p := by
  -- of the lists that stand one after the other, only that of the class itself holds it
  obtain ⟨before, after, hentries⟩ := List.append_of_mem (OrderedMap.get?_eq_some_iff.mp hdoc)
  have hnodup := classes.nodup
  rw [hentries, List.map_append, List.map_cons, List.nodup_append, List.nodup_cons] at hnodup
  obtain ⟨-, ⟨hafter, -⟩, hbefore⟩ := hnodup
  have hother : ∀ l : List (String × ClassDoc), n ∉ l.map Prod.fst →
      (l.flatMap fun e => List.replicate (e.2.inherits.count p) e.1).count n = 0 := by
    intro l hl
    rw [List.count_eq_zero, List.mem_flatMap]
    rintro ⟨e, he, hn⟩
    exact hl (List.eq_of_mem_replicate hn ▸ List.mem_map_of_mem he)
  have hn : n ∉ before.map Prod.fst := fun hn => hbefore n hn n (List.mem_cons_self ..) rfl
  rw [next_children, hentries, List.flatMap_append, List.flatMap_cons, List.count_append, List.count_append,
    hother before hn, hother after hafter, List.count_replicate_self, Nat.zero_add, Nat.add_zero]

theorem pairwise_children (classes : ClassMap) (p : String) :
    (NameGraph.next (ofClasses classes).children p).Pairwise classes.NotAfter := by
  rw [next_children, List.pairwise_flatMap]
  refine ⟨fun e _ => List.pairwise_replicate.mpr (.inr Nat.le.refl), ?_⟩
  refine classes.pairwise_entries.imp ?_
  intro e f hef a ha b hb
  rwa [List.eq_of_mem_replicate ha, List.eq_of_mem_replicate hb]

theorem inverts_ofClasses (classes : ClassMap) : (ofClasses classes).Inverts classes where
  parents := rfl
  count _ _ hdoc := count_children hdoc
  mem_classes _ _ hn := (leads_children_iff.mp hn).mem_keys
  inOrder := pairwise_children classes
  keys := keys_children classes
  mem_keys p := by rw [keys_children, List.mem_eraseDups, ClassMap.mem_mentioned]

namespace Inverts

theorem count_eq (h : index.Inverts classes) (h' : other.Inverts classes) (n p : String) :
    (index.children.next p).count n = (other.children.next p).count n := by
  by_cases hn : n ∈ classes.keys
  · obtain ⟨doc, hdoc⟩ := OrderedMap.exists_get? hn
    rw [h.count n doc hdoc, h'.count n doc hdoc]
  · rw [List.count_eq_zero.mpr fun hmem => hn (h.mem_classes p n hmem),
      List.count_eq_zero.mpr fun hmem => hn (h'.mem_classes p n hmem)]

theorem next_eq (h : index.Inverts classes) (h' : other.Inverts classes) (p : String) :
    index.children.next p = other.children.next p := by
  refine List.Perm.eq_of_pairwise ?_ (h.inOrder p) (h'.inOrder p)
    (List.perm_iff_count.mpr fun n => h.count_eq h' n p)
  intro a b ha _ hab hba
  exact ClassMap.eq_of_notAfter (h.mem_classes p a ha) hab hba

theorem unique (h : index.Inverts classes) (h' : other.Inverts classes) : index = other := by
  have hparents : index.parents = other.parents := OrderedMap.ext (h.parents.trans h'.parents.symm)
  have hkeys : index.children.keys = other.children.keys := h.keys.trans h'.keys.symm
  have hchildren : index.children = other.children := by
    refine OrderedMap.eq_of_get? hkeys fun p => ?_
    by_cases hp : p ∈ index.children.keys
    · rw [NameGraph.get?_of_mem hp, NameGraph.get?_of_mem (hkeys ▸ hp), h.next_eq h' p]
    · rw [OrderedMap.get?_eq_none_iff.mpr hp, OrderedMap.get?_eq_none_iff.mpr (hkeys ▸ hp)]
  cases index
  cases other
  simp only [InheritIndex.mk.injEq]
  exact ⟨hparents, hchildren⟩

end Inverts

end

/-- The index of the classes holds their inheritance in both directions, and no other index does. -/
theorem inverts_iff_eq_ofClasses (classes : ClassMap) (index : InheritIndex) :
    index.Inverts classes ↔ index = ofClasses classes := by
  constructor
  · intro h
    exact h.unique (inverts_ofClasses classes)
  · rintro rfl
    exact inverts_ofClasses classes

/-- A parent that is declared twice, and one that is no class. -/
example : (ofClasses (.ofList [("A", { name := "A", inherits := ["B", "B"] }),
    ("B", { name := "B", inherits := ["Gone", "B"] })])).children.entries =
      [("B", ["A", "A", "B"]), ("Gone", ["B"])] := by
  decide

end InheritIndex

end LuauBindings
