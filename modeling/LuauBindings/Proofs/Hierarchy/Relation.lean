import LuauBindings.Hierarchy.Index
import Mathlib.Logic.Relation

/-!
# What the inheritance index says

`ClassMap.Lists c p`: the class `c` lists `p` as a parent. The index of a class mapping holds this
relation in both directions: `parents` leads from `c` to `p` and `children` from `p` to `c`, whether
or not `p` is a class. For the children the lemma says more (`next_children`): under `p` stands every
class in its order, as often as it lists `p`.
-/

namespace LuauBindings
open Relation

/-- `c` is a class that lists `p` as a parent. -/
def ClassMap.Lists (classes : ClassMap) (c p : String) : Prop :=
  ∃ doc, classes.get? c = some doc ∧ p ∈ doc.inherits

/-- The graph leads from `a` to `b` in one step. -/
def NameGraph.Leads (g : NameGraph) (a b : String) : Prop :=
  b ∈ g.next a

namespace ClassMap
variable {classes reduced : ClassMap} {c p : String}

instance : Decidable (classes.Lists c p) :=
  decidable_of_iff (p ∈ ((classes.get? c).map ClassDoc.inherits).getD []) <| by
    unfold Lists
    cases classes.get? c <;> simp

theorem Lists.mem_keys (h : classes.Lists c p) : c ∈ classes.keys := by
  obtain ⟨doc, hdoc, -⟩ := h
  exact OrderedMap.mem_keys_of_get? hdoc

theorem lists_iff_mem_entries :
    classes.Lists c p ↔ ∃ e ∈ classes.entries, e.1 = c ∧ p ∈ e.2.inherits := by
  constructor
  · rintro ⟨doc, hdoc, hp⟩
    exact ⟨(c, doc), OrderedMap.get?_eq_some_iff.mp hdoc, rfl, hp⟩
  · rintro ⟨⟨_, doc⟩, he, rfl, hp⟩
    exact ⟨doc, OrderedMap.get?_eq_some_iff.mpr he, hp⟩

theorem lists_congr (h : reduced.get? c = classes.get? c) :
    reduced.Lists c p ↔ classes.Lists c p := by
  unfold Lists
  rw [h]

theorem lists_of_sublist (h : reduced.entries.Sublist classes.entries) (hl : reduced.Lists c p) :
    classes.Lists c p :=
  (lists_congr (OrderedMap.get?_of_sublist h hl.mem_keys)).mp hl

end ClassMap

namespace NameGraph
variable {g : NameGraph} {a b : String}

theorem next_insert {key : String} {names : List String} :
    NameGraph.next (g.insert key names) a = if key = a then names else g.next a := by
  unfold next
  rw [OrderedMap.get?_insert]
  split <;> rfl

theorem get?_of_mem (h : a ∈ g.keys) : g.get? a = some (g.next a) := by
  obtain ⟨names, hnames⟩ := OrderedMap.exists_get? h
  rw [next, hnames, Option.getD_some]

theorem Leads.mem_flatMap (h : g.Leads a b) : b ∈ g.entries.flatMap Prod.snd := by
  unfold Leads next at h
  cases hg : g.get? a with
  | none => simp [hg] at h
  | some names =>
    rw [hg] at h
    exact List.mem_flatMap.mpr ⟨(a, names), OrderedMap.get?_eq_some_iff.mp hg, h⟩

end NameGraph

namespace InheritIndex
variable {classes : ClassMap} {g : NameGraph} {a c p : String}

theorem next_addChild :
    NameGraph.next (addChild c g p) a = g.next a ++ if p = a then [c] else [] := by
  rw [addChild, NameGraph.next_insert]
  split
  · next h => rw [h]
  · simp

theorem next_foldl_addChild {ps : List String} :
    NameGraph.next (ps.foldl (addChild c) g) p = g.next p ++ List.replicate (ps.count p) c := by
  induction ps generalizing g with
  | nil => simp
  | cons q ps ih =>
    rw [List.foldl_cons, ih, next_addChild, List.append_assoc, List.count_cons]
    by_cases h : q = p <;> simp [h, List.replicate_succ]

/-- Under a parent stand its children in the order of the classes, each once for every time it
lists the parent. -/
theorem next_children : NameGraph.next (ofClasses classes).children p =
    classes.entries.flatMap fun e => List.replicate (e.2.inherits.count p) e.1 := by
  have hfold : ∀ (l : List (String × ClassDoc)) (g : NameGraph),
      NameGraph.next (l.foldl (fun g e => e.2.inherits.foldl (addChild e.1) g) g) p =
        g.next p ++ l.flatMap fun e => List.replicate (e.2.inherits.count p) e.1 := by
    intro l
    induction l with
    | nil => simp
    | cons e l ih =>
      intro g
      rw [List.foldl_cons, ih, next_foldl_addChild, List.flatMap_cons, List.append_assoc]
  exact hfold classes.entries .empty

theorem next_parents : NameGraph.next (ofClasses classes).parents c =
    ((classes.get? c).map ClassDoc.inherits).getD [] := by
  rw [NameGraph.next, ofClasses, OrderedMap.get?_mapValues]

theorem leads_parents_iff : (ofClasses classes).parents.Leads c p ↔ classes.Lists c p := by
  rw [NameGraph.Leads, next_parents, ClassMap.Lists]
  cases classes.get? c <;> simp

theorem leads_children_iff : (ofClasses classes).children.Leads p c ↔ classes.Lists c p := by
  rw [NameGraph.Leads, next_children, ClassMap.lists_iff_mem_entries]
  simp only [List.mem_flatMap, List.mem_replicate, ne_eq, List.count_eq_zero,
    Decidable.not_not]
  constructor
  · rintro ⟨e, he, hp, rfl⟩
    exact ⟨e, he, rfl, hp⟩
  · rintro ⟨e, he, rfl, hp⟩
    exact ⟨e, he, hp, rfl⟩

end InheritIndex

end LuauBindings
