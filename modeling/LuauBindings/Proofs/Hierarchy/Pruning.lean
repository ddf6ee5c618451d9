import LuauBindings.Hierarchy.Prune
import LuauBindings.Proofs.Hierarchy.Closure

/-!
# What pruning keeps

A name is below the seed if it leads up to a seed name (`ClassMap.Below`), and kept if something
below the seed leads up to it (`ClassMap.Kept`). `prune` leaves the classes that are kept and reports
the names of both kinds (`mem_keys_prune`, `mem_descendantsAdded`, `mem_ancestorsAdded`,
`mem_removed`).

Every class on a path that matters is kept itself: whatever is below the seed is kept, and so is every
parent of what is kept. So a mapping that has lost only classes that are not kept has the same kept
names (`Retains.kept_iff`), and pruning it comes to the same end (`Retains.prune_eq`).
-/

namespace LuauBindings
open Relation

namespace ClassMap

/-- `d` leads up to a name of the seed, or is one. -/
def Below (classes : ClassMap) (allowed : List String) (d : String) : Prop :=
  ∃ s ∈ allowed, ReflTransGen classes.Lists d s

/-- Something below the seed leads up to `n`. -/
def Kept (classes : ClassMap) (allowed : List String) (n : String) : Prop :=
  ∃ d, classes.Below allowed d ∧ ReflTransGen classes.Lists d n

variable {classes : ClassMap} {allowed wider : List String} {a b d n : String}

theorem Below.kept (h : classes.Below allowed d) : classes.Kept allowed d :=
  ⟨d, h, .refl⟩

theorem Below.mono (hsub : ∀ s ∈ allowed, s ∈ wider) (h : classes.Below allowed d) :
    classes.Below wider d :=
  let ⟨s, hs, hpath⟩ := h; ⟨s, hsub s hs, hpath⟩

theorem Kept.mono (hsub : ∀ s ∈ allowed, s ∈ wider) (h : classes.Kept allowed n) :
    classes.Kept wider n :=
  let ⟨d, hd, hpath⟩ := h; ⟨d, hd.mono hsub, hpath⟩

theorem Kept.step (h : classes.Kept allowed a) (hab : classes.Lists a b) : classes.Kept allowed b :=
  let ⟨d, hd, hpath⟩ := h; ⟨d, hd, hpath.tail hab⟩

end ClassMap

section
variable {classes : ClassMap} {allowed : List String} {d n : String}

theorem mem_inheritClosure_down :
    d ∈ (inheritClosure classes (.ofList allowed)).1 ↔ classes.Below allowed d := by
  rw [inheritClosure, mem_closeOver, ClassMap.Below]
  have hstep : (InheritIndex.ofClasses classes).children.Leads = Function.swap classes.Lists := by
    funext p c
    exact propext InheritIndex.leads_children_iff
  simp only [hstep, reflTransGen_swap, NameSet.mem_ofList]

theorem mem_inheritClosure_kept :
    n ∈ (inheritClosure classes (.ofList allowed)).2 ↔ classes.Kept allowed n := by
  have hstep : (InheritIndex.ofClasses classes).parents.Leads = classes.Lists := by
    funext c p
    exact propext InheritIndex.leads_parents_iff
  have hdown : ∀ d, d ∈ closeOver (.ofList allowed) (InheritIndex.ofClasses classes).children ↔
      classes.Below allowed d := fun _ => mem_inheritClosure_down
  rw [inheritClosure, mem_closeOver, hstep, ClassMap.Kept]
  simp only [hdown]

theorem mem_keys_prune :
    n ∈ (prune classes allowed).2.keys ↔ n ∈ classes.keys ∧ classes.Kept allowed n := by
  rw [← mem_inheritClosure_kept]
  simp [prune, OrderedMap.mem_keys_filterKeys]

theorem prune_sublist : (prune classes allowed).2.entries.Sublist classes.entries :=
  OrderedMap.filterKeys_sublist ..

theorem get?_prune (h : n ∈ (prune classes allowed).2.keys) :
    (prune classes allowed).2.get? n = classes.get? n :=
  OrderedMap.get?_of_sublist prune_sublist h

theorem mem_descendantsAdded :
    d ∈ (prune classes allowed).1.descendantsAdded ↔ classes.Below allowed d ∧ d ∉ allowed := by
  rw [← mem_inheritClosure_down]
  exact NameSet.mem_diff.trans (and_congr_right fun _ => not_congr NameSet.mem_ofList)

theorem mem_ancestorsAdded :
    n ∈ (prune classes allowed).1.ancestorsAdded ↔
      classes.Kept allowed n ∧ ¬ classes.Below allowed n := by
  rw [← mem_inheritClosure_kept, ← mem_inheritClosure_down]
  exact NameSet.mem_diff

theorem mem_removed :
    n ∈ (prune classes allowed).1.removed ↔ n ∈ classes.keys ∧ ¬ classes.Kept allowed n := by
  rw [← mem_inheritClosure_kept]
  exact NameSet.mem_diff.trans (and_congr_left fun _ => NameSet.mem_ofList)

/-- What is retained are the classes that are kept. -/
theorem keys_prune : (prune classes allowed).2.keys =
    classes.keys.filter fun n => decide (n ∈ (inheritClosure classes (.ofList allowed)).2) :=
  OrderedMap.keys_filterKeys ..

/-- Every class is counted once, as retained or as removed. -/
theorem retainedCount_add_removed (classes : ClassMap) (allowed : List String) :
    (prune classes allowed).1.retainedCount + (prune classes allowed).1.removed.size = classes.size := by
  let kept := (inheritClosure classes (.ofList allowed)).2
  have hretained : (prune classes allowed).1.retainedCount =
      (classes.keys.filter fun n => decide (n ∈ kept)).length := by
    rw [← keys_prune, OrderedMap.length_keys]
    rfl
  have hremoved : (prune classes allowed).1.removed.size =
      (classes.keys.filter fun n => !decide (n ∈ kept)).length := by
    refine NameSet.size_eq_length (classes.keys_nodup.filter _) fun n => ?_
    rw [mem_removed, ← mem_inheritClosure_kept, List.mem_filter, Bool.not_eq_true', decide_eq_false_iff_not]
  rw [hretained, hremoved, ← List.length_eq_length_filter_add, OrderedMap.length_keys]

/-- Two prunings with the same kept names differ at most in the classes they start from. -/
theorem prune_congr {reduced : ClassMap}
    (h : inheritClosure reduced (.ofList allowed) = inheritClosure classes (.ofList allowed))
    (hleft : (prune reduced allowed).2 = (prune classes allowed).2) :
    (prune reduced allowed).1 =
      { (prune classes allowed).1 with removed := (prune reduced allowed).1.removed } := by
  have hsize : (prune reduced allowed).1.retainedCount = (prune classes allowed).1.retainedCount :=
    congrArg OrderedMap.size hleft
  simp only [prune, h] at hsize ⊢
  rw [hsize]

end

/-- `reduced` has kept some of the classes in their order, among them all that pruning would keep. -/
structure Retains (classes : ClassMap) (allowed : List String) (reduced : ClassMap) : Prop where
  sublist : reduced.entries.Sublist classes.entries
  kept : ∀ n ∈ classes.keys, classes.Kept allowed n → n ∈ reduced.keys

namespace Retains
variable {classes reduced : ClassMap} {allowed wider : List String} {a b d n : String}

theorem get?_eq (h : Retains classes allowed reduced) (ha : classes.Kept allowed a) :
    reduced.get? a = classes.get? a := by
  by_cases hkey : a ∈ classes.keys
  · exact OrderedMap.get?_of_sublist h.sublist (h.kept a hkey ha)
  · have hkey' : a ∉ reduced.keys := fun h' => hkey ((h.sublist.map Prod.fst).subset h')
    rw [OrderedMap.get?_eq_none_iff.mpr hkey, OrderedMap.get?_eq_none_iff.mpr hkey']

theorem lists_iff (h : Retains classes allowed reduced) (ha : classes.Kept allowed a) :
    reduced.Lists a b ↔ classes.Lists a b :=
  ClassMap.lists_congr (h.get?_eq ha)

theorem ascends (h : Retains classes allowed reduced) (hpath : ReflTransGen reduced.Lists a b) :
    ReflTransGen classes.Lists a b :=
  ReflTransGen.mono (fun _ _ => ClassMap.lists_of_sublist h.sublist) _ _ hpath

theorem ascends_iff (h : Retains classes allowed reduced) (ha : classes.Kept allowed a) :
    ReflTransGen reduced.Lists a b ↔ ReflTransGen classes.Lists a b := by
  -- a path that starts at a kept name runs through kept names only
  refine ⟨h.ascends, fun hpath => ?_⟩
  induction hpath using ReflTransGen.head_induction_on with
  | refl => exact .refl
  | head hstep _ ih => exact .head ((h.lists_iff ha).mpr hstep) (ih (ha.step hstep))

theorem below_iff (h : Retains classes allowed reduced) :
    reduced.Below allowed d ↔ classes.Below allowed d := by
  constructor
  · rintro ⟨s, hs, hpath⟩
    exact ⟨s, hs, h.ascends hpath⟩
  · rintro ⟨s, hs, hpath⟩
    have hd : classes.Below allowed d := ⟨s, hs, hpath⟩
    exact ⟨s, hs, (h.ascends_iff hd.kept).mpr hpath⟩

theorem kept_iff (h : Retains classes allowed reduced) :
    reduced.Kept allowed n ↔ classes.Kept allowed n := by
  constructor
  · rintro ⟨d, hd, hpath⟩
    have hd := h.below_iff.mp hd
    exact ⟨d, hd, (h.ascends_iff hd.kept).mp hpath⟩
  · rintro ⟨d, hd, hpath⟩
    exact ⟨d, h.below_iff.mpr hd, (h.ascends_iff hd.kept).mpr hpath⟩

theorem inheritClosure_eq (h : Retains classes allowed reduced) :
    inheritClosure reduced (.ofList allowed) = inheritClosure classes (.ofList allowed) := by
  refine Prod.ext (NameSet.ext fun d => ?_) (NameSet.ext fun n => ?_)
  · rw [mem_inheritClosure_down, mem_inheritClosure_down, h.below_iff]
  · rw [mem_inheritClosure_kept, mem_inheritClosure_kept, h.kept_iff]

theorem prune_eq (h : Retains classes allowed reduced) :
    (prune reduced allowed).2 = (prune classes allowed).2 := by
  refine OrderedMap.eq_of_sublist ?_ fun n hn => ?_
  · simp only [prune, h.inheritClosure_eq]
    exact h.sublist.filter _
  · obtain ⟨hkey, hkept⟩ := mem_keys_prune.mp hn
    exact mem_keys_prune.mpr ⟨h.kept n hkey hkept, h.kept_iff.mpr hkept⟩

theorem pruned : Retains classes allowed (prune classes allowed).2 :=
  ⟨prune_sublist, fun _ hkey hkept => mem_keys_prune.mpr ⟨hkey, hkept⟩⟩

theorem pruned_of_subset (hsub : ∀ s ∈ allowed, s ∈ wider) :
    Retains classes allowed (prune classes wider).2 :=
  ⟨prune_sublist, fun _ hkey hkept => mem_keys_prune.mpr ⟨hkey, hkept.mono hsub⟩⟩

theorem of_keys (hsub : reduced.entries.Sublist classes.entries)
    (hkeys : ∀ n ∈ (prune classes allowed).2.keys, n ∈ reduced.keys) :
    Retains classes allowed reduced :=
  ⟨hsub, fun n hkey hkept => hkeys n (mem_keys_prune.mpr ⟨hkey, hkept⟩)⟩

theorem mem_removed_iff (h : Retains classes allowed reduced) :
    n ∈ (prune reduced allowed).1.removed ↔
      n ∈ reduced.keys ∧ n ∉ (prune classes allowed).2.keys := by
  rw [mem_removed, h.kept_iff, mem_keys_prune]
  refine and_congr_right fun hn => not_congr ⟨fun hkept => ⟨?_, hkept⟩, And.right⟩
  exact (h.sublist.map Prod.fst).subset hn

end Retains

/-- A mapping that keeps all its classes is left as it is. -/
theorem prune_eq_self {classes : ClassMap} {allowed : List String}
    (h : ∀ n ∈ classes.keys, classes.Kept allowed n) : (prune classes allowed).2 = classes :=
  OrderedMap.eq_of_sublist prune_sublist fun n hn => mem_keys_prune.mpr ⟨hn, h n hn⟩

/-- A class is left, with its document and in its place, exactly if some name leads up both to the
seed and to the class. -/
theorem prune_keeps_connected (classes : ClassMap) (allowed : List String) :
    (∀ n doc, (prune classes allowed).2.get? n = some doc ↔
      classes.get? n = some doc ∧
        ∃ s ∈ allowed, ∃ d, ReflTransGen (fun a b => classes.Lists b a) s d ∧
          ReflTransGen classes.Lists d n) ∧
    (prune classes allowed).2.entries.Sublist classes.entries := by
  refine ⟨fun n doc => ?_, prune_sublist⟩
  have hkept : classes.Kept allowed n ↔ ∃ s ∈ allowed, ∃ d,
      ReflTransGen (fun a b => classes.Lists b a) s d ∧ ReflTransGen classes.Lists d n := by
    constructor
    · rintro ⟨d, ⟨s, hs, hdown⟩, hup⟩
      exact ⟨s, hs, d, reflTransGen_swap.mpr hdown, hup⟩
    · rintro ⟨s, hs, d, hdown, hup⟩
      exact ⟨d, ⟨s, hs, reflTransGen_swap.mp hdown⟩, hup⟩
  rw [← hkept]
  constructor
  · intro hdoc
    have hn := OrderedMap.get?_isSome_iff.mp (Option.isSome_iff_exists.mpr ⟨doc, hdoc⟩)
    exact ⟨(get?_prune hn).symm.trans hdoc, (mem_keys_prune.mp hn).2⟩
  · rintro ⟨hdoc, hn⟩
    have hkey := OrderedMap.get?_isSome_iff.mp (Option.isSome_iff_exists.mpr ⟨doc, hdoc⟩)
    exact (get?_prune (mem_keys_prune.mpr ⟨hkey, hn⟩)).trans hdoc

/-- A hierarchy with a diamond, a cycle, a parent declared twice and one that is no class. -/
def tangledHierarchy : ClassMap :=
  .ofList <| List.map (fun c => (c.name, c))
    [{ name := "Base", properties := [⟨"Base.Size", "int"⟩, ⟨"Base.Name", "string"⟩] },
      { name := "Left", inherits := ["Base", "Gone"], properties := [⟨"Left.Size", "float"⟩] },
      { name := "Right", inherits := ["Base", "Base"], properties := [⟨"Right.Font", "Font"⟩] },
      { name := "Far", inherits := ["Base"] },
      { name := "Both", inherits := ["Left", "Right", "Loop"] },
      { name := "Loop", inherits := ["Both"], properties := [⟨"Loop.Font", "int"⟩] },
      { name := "Lone", inherits := ["Far"] }]

/-- A seed that is no class keeps its children, and what these and theirs descend from. -/
example : (prune tangledHierarchy ["Gone"]).2.keys = ["Base", "Left", "Right", "Both", "Loop"] := by
  decide

/-- The classes that pruning removes do not matter to it. A mapping that has lost some of them is
pruned to the same classes with the same account, but for the removed classes, which are those it had
and does not keep. So a second pruning removes nothing, and of two seeds, one within the other, the
smaller decides, whichever comes first. -/
theorem prune_ignores_removed (classes : ClassMap) (allowed : List String) :
    (∀ reduced : ClassMap, reduced.entries.Sublist classes.entries →
      (∀ n ∈ (prune classes allowed).2.keys, n ∈ reduced.keys) →
        (prune reduced allowed).2 = (prune classes allowed).2 ∧
        (prune reduced allowed).1 =
          { (prune classes allowed).1 with removed := (prune reduced allowed).1.removed } ∧
        ∀ n, n ∈ (prune reduced allowed).1.removed ↔
          n ∈ reduced.keys ∧ n ∉ (prune classes allowed).2.keys) ∧
    prune (prune classes allowed).2 allowed =
      ({ (prune classes allowed).1 with removed := .empty }, (prune classes allowed).2) ∧
    ∀ wider : List String, (∀ s ∈ allowed, s ∈ wider) →
      (prune (prune classes wider).2 allowed).2 = (prune classes allowed).2 ∧
      (prune (prune classes allowed).2 wider).2 = (prune classes allowed).2 := by
  refine ⟨fun reduced hsub hkeys => ?_, ?_, fun wider hwider => ⟨?_, ?_⟩⟩
  · have h := Retains.of_keys hsub hkeys
    exact ⟨h.prune_eq, prune_congr h.inheritClosure_eq h.prune_eq, fun n => h.mem_removed_iff⟩
  · have h : Retains classes allowed (prune classes allowed).2 := Retains.pruned
    have hremoved : (prune (prune classes allowed).2 allowed).1.removed = .empty := by
      ext n
      rw [h.mem_removed_iff]
      exact ⟨fun ⟨hn, hn'⟩ => absurd hn hn', fun hn => absurd hn List.not_mem_nil⟩
    refine Prod.ext ?_ h.prune_eq
    rw [prune_congr h.inheritClosure_eq h.prune_eq, hremoved]
  · exact (Retains.pruned_of_subset hwider).prune_eq
  · have h : Retains classes allowed (prune classes allowed).2 := Retains.pruned
    exact prune_eq_self fun n hn => (h.kept_iff.mpr (mem_keys_prune.mp hn).2).mono hwider

theorem prune_ignores_removed_tangled :
    (tangledHierarchy.filterKeys (· ≠ "Lone")).entries.Sublist tangledHierarchy.entries ∧
    (∀ n ∈ (prune tangledHierarchy ["Gone"]).2.keys,
      n ∈ (tangledHierarchy.filterKeys (· ≠ "Lone")).keys) ∧
    (∀ s ∈ ["Gone"], s ∈ ["Lone", "Gone"]) ∧
    (prune (tangledHierarchy.filterKeys (· ≠ "Lone")) ["Gone"]).2 =
      (prune tangledHierarchy ["Gone"]).2 ∧
    (prune (prune tangledHierarchy ["Lone", "Gone"]).2 ["Gone"]).2 =
      (prune tangledHierarchy ["Gone"]).2 := by
  have hsub : (tangledHierarchy.filterKeys (· ≠ "Lone")).entries.Sublist tangledHierarchy.entries :=
    by decide
  have hkeys : ∀ n ∈ (prune tangledHierarchy ["Gone"]).2.keys,
      n ∈ (tangledHierarchy.filterKeys (· ≠ "Lone")).keys := by decide
  have hwider : ∀ s ∈ ["Gone"], s ∈ ["Lone", "Gone"] := by decide
  have h := prune_ignores_removed tangledHierarchy ["Gone"]
  exact ⟨hsub, hkeys, hwider, (h.1 _ hsub hkeys).1, (h.2.2 _ hwider).1⟩

end LuauBindings
