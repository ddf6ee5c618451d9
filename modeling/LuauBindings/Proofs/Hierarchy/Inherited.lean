import LuauBindings.Proofs.Hierarchy.Pruning
import LuauBindings.Proofs.Hierarchy.Walk

/-!
# The properties that a class inherits

`allProperties` gives a key the type that the first class of the preorder gives it
(`get?_allProperties`), so its keys are the own keys of the class and its ancestors
(`mem_keys_allProperties`). It is made from what the walk meets, and pruning keeps every ancestor of a
class that it keeps: what such a class inherits stays the same.
-/

namespace LuauBindings
open Relation

variable {classes reduced : ClassMap} {name k t : String}

/-- The type that the class `n` gives the key `k`. -/
def ownType? (classes : ClassMap) (k n : String) : Option String :=
  (classes.get? n).bind fun c => (ownProperties c).get? k

theorem get?_addMissing {m n : PropertyMap} :
    (PropertyMap.addMissing m n).get? k = (m.get? k).or (n.get? k) :=
  OrderedMap.get?_foldl_insertNew

/-- Where every step of a fold adds at most one type for a key, the first one added stays. -/
theorem get?_foldl {f : PropertyMap → String → PropertyMap} {g : String → Option String}
    (hf : ∀ m n, (f m n).get? k = (m.get? k).or (g n)) (l : List String) (m : PropertyMap) :
    (l.foldl f m).get? k = (m.get? k).or (l.findSome? g) := by
  induction l generalizing m with
  | nil => exact Option.or_none.symm
  | cons n l ih =>
    rw [List.foldl_cons, ih, hf, Option.or_assoc, List.findSome?_cons]
    cases g n <;> rfl

theorem get?_allProperties :
    (allProperties classes name).get? k = (preorder classes name).findSome? (ownType? classes k) := by
  refine (get?_foldl (fun m n => ?_) _ .empty).trans Option.none_or
  rw [ownType?]
  cases classes.get? n with
  | none => exact Option.or_none.symm
  | some c => exact get?_addMissing

theorem exists_of_get?_allProperties (h : (allProperties classes name).get? k = some t) :
    ∃ n c, classes.get? n = some c ∧ ReflTransGen classes.Lists name n ∧
      (ownProperties c).get? k = some t := by
  rw [get?_allProperties] at h
  obtain ⟨n, hn, hown⟩ := List.exists_of_findSome?_eq_some h
  obtain ⟨c, hc, ht⟩ := Option.bind_eq_some_iff.mp hown
  exact ⟨n, c, hc, (mem_preorder.mp hn).2, ht⟩

theorem mem_keys_allProperties :
    k ∈ (allProperties classes name).keys ↔
      ∃ n c, classes.get? n = some c ∧ ReflTransGen classes.Lists name n ∧
        k ∈ (ownProperties c).keys := by
  simp only [← OrderedMap.get?_isSome_iff]
  constructor
  · intro h
    obtain ⟨t, ht⟩ := Option.isSome_iff_exists.mp h
    obtain ⟨n, c, hc, hpath, hown⟩ := exists_of_get?_allProperties ht
    exact ⟨n, c, hc, hpath, by rw [hown]; rfl⟩
  · rintro ⟨n, c, hc, hpath, hown⟩
    have hn : n ∈ classes.keys := OrderedMap.mem_keys_of_get? hc
    rw [get?_allProperties, List.findSome?_isSome_iff]
    exact ⟨n, mem_preorder.mpr ⟨hn, hpath⟩, by rw [ownType?, hc]; exact hown⟩

theorem allProperties_congr {P : String → Prop}
    (hagree : ∀ a, P a → reduced.get? a = classes.get? a)
    (hclosed : ∀ a b, P a → classes.Lists a b → P b) (hname : P name) :
    allProperties reduced name = allProperties classes name := by
  unfold allProperties
  rw [preorder_congr (fun a ha => congrArg _ (hagree a ha)) hclosed hname]
  refine List.foldl_ext _ _ _ fun m n hn => ?_
  have hP : P n := by
    have hpath := (mem_preorder.mp hn).2
    induction hpath with
    | refl => exact hname
    | tail _ hstep ih => exact hclosed _ _ (ih (mem_preorder.mpr ⟨hstep.mem_keys, ‹_›⟩)) hstep
  rw [hagree n hP]

/-- Pruning changes nothing of what a class that is left has, inherited properties included. -/
theorem allProperties_prune (classes : ClassMap) (allowed : List String) (name : String)
    (h : name ∈ (prune classes allowed).2.keys) :
    (allProperties (prune classes allowed).2 name).entries =
      (allProperties classes name).entries := by
  have hkept := (mem_keys_prune.mp h).2
  rw [allProperties_congr (fun _ ha => Retains.pruned.get?_eq ha) (fun _ _ => .step) hkept]

theorem allProperties_prune_tangled :
    "Both" ∈ (prune tangledHierarchy ["Gone"]).2.keys ∧
    (allProperties (prune tangledHierarchy ["Gone"]).2 "Both").entries =
      (allProperties tangledHierarchy "Both").entries ∧
    (allProperties tangledHierarchy "Both").entries =
      [("Size", "float"), ("Name", "string"), ("Font", "Font")] := by
  have h : "Both" ∈ (prune tangledHierarchy ["Gone"]).2.keys := by decide
  exact ⟨h, allProperties_prune tangledHierarchy ["Gone"] "Both" h, by decide +kernel⟩

end LuauBindings
