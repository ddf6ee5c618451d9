import LuauBindings.Proofs.Hierarchy.Merge

/-!
# Which overrides the walk keeps

A class overrides a key of a class above it by declaring the key again. The first class with the key that
the walk meets gives the type (`exists_first_declaring`). The walk comes to a class by a chain of classes
that it has met before, so what wins is not overridden on that chain (`exists_unshadowed`): an override can
be lost only where a chain leads past it.

Whether one can be lost depends on the order of the walk alone. If the walk meets no class before one that
descends from it, every override is kept, whatever the classes declare (`MeetsDescendantsFirst.keepsOverrides`);
and if it does, the two classes need only declare the same key (`exists_not_keepsOverrides`).
-/

namespace LuauBindings
open Relation

namespace ClassMap

/-- Every inherited type is declared by a class that no other class below `name` overrides. -/
def KeepsOverrides (classes : ClassMap) (name : String) : Prop :=
  ∀ k t, (allProperties classes name).get? k = some t →
    ∃ d, ReflTransGen classes.Lists name d ∧ ownType? classes k d = some t ∧
      ∀ e, ReflTransGen classes.Lists name e → TransGen classes.Lists e d → ownType? classes k e = none

/-- A chain of parents leads from `name` to `d` by classes that do not declare `k`. -/
def Unshadowed (classes : ClassMap) (k name d : String) : Prop :=
  ReflTransGen (fun a b => ownType? classes k a = none ∧ classes.Lists a b) name d

/-- The walk from `name` meets no class before one that descends from it. -/
def MeetsDescendantsFirst (classes : ClassMap) (name : String) : Prop :=
  (preorder classes name).Pairwise fun met later => ¬ TransGen classes.Lists later met

/-- The same hierarchy, in which the class `n` declares the properties `declared n`. -/
def redeclare (classes : ClassMap) (declared : String → List Property) : ClassMap :=
  classes.mapValues fun n c => { c with properties := declared n }

/-- The declarations in which every marked class has one property, whose type is the name of the class. -/
def marking (marked : List String) (n : String) : List Property :=
  if n ∈ marked then [⟨"Mark", n⟩] else []

variable {classes : ClassMap} {name n k t : String} {declared : String → List Property} {marked : List String}

theorem get?_redeclare : (classes.redeclare declared).get? n =
    (classes.get? n).map fun c => { c with properties := declared n } :=
  OrderedMap.get?_mapValues

theorem lists_redeclare : (classes.redeclare declared).Lists = classes.Lists := by
  funext a b
  simp only [Lists, get?_redeclare, Option.map_eq_some_iff]
  refine propext ⟨?_, ?_⟩
  · rintro ⟨-, ⟨c, hc, rfl⟩, hb⟩
    exact ⟨c, hc, hb⟩
  · rintro ⟨c, hc, hb⟩
    exact ⟨_, ⟨c, hc, rfl⟩, hb⟩

theorem preorder_redeclare (name : String) : preorder (classes.redeclare declared) name = preorder classes name :=
  preorder_mapValues (f := fun n c => { c with properties := declared n }) (fun _ _ => rfl) name

theorem ownType?_marking : ownType? (classes.redeclare (marking marked)) "Mark" n =
    if n ∈ classes.keys ∧ n ∈ marked then some n else none := by
  rw [ownType?, get?_redeclare]
  cases hc : classes.get? n with
  | none =>
    have hn : n ∉ classes.keys := OrderedMap.get?_eq_none_iff.mp hc
    simp [hn]
  | some c =>
    have hn : n ∈ classes.keys := OrderedMap.mem_keys_of_get? hc
    have hshort : Property.shortName ⟨"Mark", n⟩ = "Mark" := by
      change Property.shortName ⟨"Mark", ""⟩ = "Mark"
      decide
    rw [Option.map_some, Option.bind_some, get?_ownProperties, marking]
    by_cases hmarked : n ∈ marked <;> simp [hn, hmarked, hshort]

/-- A number that falls from every class to its parents falls along every chain. -/
theorem lt_of_ascends {rank : String → Nat} {a b : String}
    (hrank : ∀ e ∈ classes.entries, ∀ p ∈ e.2.inherits, rank p < rank e.1) (h : TransGen classes.Lists a b) :
    rank b < rank a := by
  have hstep : ∀ a b, classes.Lists a b → rank b < rank a := by
    intro a b hab
    obtain ⟨e, he, rfl, hb⟩ := lists_iff_mem_entries.mp hab
    exact hrank e he b hb
  induction h with
  | single hab => exact hstep _ _ hab
  | tail _ hbc ih => exact Nat.lt_trans (hstep _ _ hbc) ih

/-- The type of a key comes from the first class of the preorder that declares it. -/
theorem exists_first_declaring (h : (allProperties classes name).get? k = some t) :
    ∃ before d after, preorder classes name = before ++ d :: after ∧ ownType? classes k d = some t ∧
      ∀ e ∈ before, ownType? classes k e = none := by
  rwa [get?_allProperties, List.findSome?_eq_some_iff] at h

theorem exists_unshadowed (h : (allProperties classes name).get? k = some t) :
    ∃ d, classes.Unshadowed k name d ∧ ownType? classes k d = some t := by
  obtain ⟨before, d, after, hsplit, hown, hbefore⟩ := exists_first_declaring h
  rw [preorder_eq_walk] at hsplit
  obtain ⟨x, hx, hchain⟩ := exists_chain_of_walk hsplit
  rw [List.mem_singleton] at hx
  subst hx
  exact ⟨d, ReflTransGen.mono (fun a _ => And.imp_left (hbefore a)) _ _ hchain, hown⟩

theorem MeetsDescendantsFirst.keepsOverrides (hacyclic : ∀ n, ¬ TransGen classes.Lists n n)
    (h : classes.MeetsDescendantsFirst name) : classes.KeepsOverrides name := by
  intro k t ht
  obtain ⟨before, d, after, hsplit, hown, hbefore⟩ := exists_first_declaring ht
  have hd : d ∈ preorder classes name := by simp [hsplit]
  refine ⟨d, (mem_preorder.mp hd).2, hown, fun e hreach hpath => ?_⟩
  obtain ⟨parent, hlists, -⟩ := TransGen.head'_iff.mp hpath
  have he : e ∈ preorder classes name := mem_preorder.mpr ⟨hlists.mem_keys, hreach⟩
  rw [MeetsDescendantsFirst, hsplit, List.pairwise_append, List.pairwise_cons] at h
  rw [hsplit, List.mem_append, List.mem_cons] at he
  rcases he with he | rfl | he
  · exact hbefore e he
  · exact absurd hpath (hacyclic e)
  · exact absurd hpath (h.2.1.1 e he)

/-- If a class is met before one that descends from it, it wins a key that only these two declare. -/
theorem exists_not_keepsOverrides (h : ¬ classes.MeetsDescendantsFirst name) :
    ∃ declared, ¬ (classes.redeclare declared).KeepsOverrides name := by
  rw [MeetsDescendantsFirst, List.pairwise_iff_forall_sublist] at h
  push Not at h
  obtain ⟨d, e, hsub, hpath⟩ := h
  obtain ⟨front, back, hsplit, hd, he⟩ := List.cons_sublist_iff.mp hsub
  obtain ⟨before, after, rfl⟩ := List.append_of_mem hd
  rw [List.singleton_sublist] at he
  have hkey : ∀ n ∈ preorder classes name, n ∈ classes.keys := fun n hn => (mem_preorder.mp hn).1
  have hunmarked : ∀ n ∈ before, n ∉ [d, e] := by
    have hnodup : (before ++ d :: after ++ back).Nodup := hsplit ▸ nodup_preorder
    rw [List.append_assoc, List.nodup_append] at hnodup
    intro n hn hmarked
    rcases List.mem_pair.mp hmarked with rfl | rfl
    · exact hnodup.2.2 n hn n (by simp) rfl
    · exact hnodup.2.2 n hn n (by simp [he]) rfl
  have hwins : (allProperties (classes.redeclare (marking [d, e])) name).get? "Mark" = some d := by
    rw [get?_allProperties, preorder_redeclare, List.findSome?_eq_some_iff]
    refine ⟨before, d, after ++ back, by simp [hsplit], ?_, fun n hn => ?_⟩
    · rw [ownType?_marking, if_pos ⟨hkey d (by simp [hsplit]), by simp⟩]
    · rw [ownType?_marking, if_neg fun h => hunmarked n hn h.2]
  refine ⟨marking [d, e], fun hkeeps => ?_⟩
  obtain ⟨winner, -, hown, hlast⟩ := hkeeps "Mark" d hwins
  -- the class that has the type `d` is `d` itself, and `e` overrides it
  have hwinner : winner = d := by
    rw [ownType?_marking] at hown
    split at hown
    · exact Option.some.inj hown
    · cases hown
  subst hwinner
  have he' : e ∈ preorder classes name := by simp [hsplit, he]
  rw [lists_redeclare] at hlast
  have hnone := hlast e (mem_preorder.mp he').2 hpath
  rw [ownType?_marking, if_pos ⟨hkey e he', by simp⟩] at hnone
  cases hnone

theorem meetsDescendantsFirst_of_rank {rank : String → Nat}
    (hrank : ∀ e ∈ classes.entries, ∀ p ∈ e.2.inherits, rank p < rank e.1)
    (hfalls : (preorder classes name).Pairwise fun met later => rank later ≤ rank met) :
    classes.MeetsDescendantsFirst name :=
  hfalls.imp fun hle hpath => absurd (lt_of_ascends hrank hpath) (Nat.not_lt.mpr hle)

end ClassMap

/-- Whether overrides are kept depends on the order of the walk. They are where no class is met before one
that descends from it; elsewhere some declarations over the same hierarchy lose one. In any case the class
that gives the type of a key is reached by classes that do not declare the key. -/
theorem walk_order_decides_overrides (classes : ClassMap) (name : String)
    (hacyclic : ∀ n, ¬ TransGen classes.Lists n n) :
    (classes.MeetsDescendantsFirst name → classes.KeepsOverrides name) ∧
    (¬ classes.MeetsDescendantsFirst name →
      ∃ declared, ¬ (classes.redeclare declared).KeepsOverrides name) ∧
    ∀ k t, (allProperties classes name).get? k = some t →
      ∃ d, classes.Unshadowed k name d ∧ ownType? classes k d = some t :=
  ⟨fun h => h.keepsOverrides hacyclic, ClassMap.exists_not_keepsOverrides,
    fun _ _ => ClassMap.exists_unshadowed⟩

/-- A diamond of which the second side overrides what the top declares. -/
def crossedDiamond : ClassMap :=
  .ofList <| List.map (fun c => (c.name, c))
    [{ name := "Top", properties := [⟨"Top.Size", "int"⟩] },
      { name := "Left", inherits := ["Top"] },
      { name := "Right", inherits := ["Top"], properties := [⟨"Right.Size", "float"⟩] },
      { name := "Both", inherits := ["Left", "Right"] }]

theorem rank_crossedDiamond : ∀ e ∈ crossedDiamond.entries, ∀ p ∈ e.2.inherits,
    ["Top", "Left", "Right", "Both"].idxOf p < ["Top", "Left", "Right", "Both"].idxOf e.1 := by
  decide

theorem acyclic_crossedDiamond (n : String) : ¬ TransGen crossedDiamond.Lists n n :=
  fun h => Nat.lt_irrefl _ (ClassMap.lt_of_ascends rank_crossedDiamond h)

theorem right_overrides_top : TransGen crossedDiamond.Lists "Right" "Top" :=
  .single (by decide)

theorem walk_order_decides_overrides_diamond :
    (∀ n, ¬ TransGen crossedDiamond.Lists n n) ∧
    crossedDiamond.MeetsDescendantsFirst "Right" ∧ crossedDiamond.KeepsOverrides "Right" ∧
    ¬ crossedDiamond.MeetsDescendantsFirst "Both" ∧
    (∃ declared, ¬ (crossedDiamond.redeclare declared).KeepsOverrides "Both") ∧
    (allProperties crossedDiamond "Both").get? "Size" = some "int" ∧
    ∃ d, crossedDiamond.Unshadowed "Size" "Both" d ∧ ownType? crossedDiamond "Size" d = some "int" := by
  have hright : crossedDiamond.MeetsDescendantsFirst "Right" :=
    ClassMap.meetsDescendantsFirst_of_rank rank_crossedDiamond (by decide)
  have hboth : ¬ crossedDiamond.MeetsDescendantsFirst "Both" := by
    intro h
    have hsub : ["Top", "Right"].Sublist (preorder crossedDiamond "Both") := by decide
    exact List.pairwise_iff_forall_sublist.mp h hsub right_overrides_top
  have hsize : (allProperties crossedDiamond "Both").get? "Size" = some "int" := by decide +kernel
  obtain ⟨hkept, -, -⟩ := walk_order_decides_overrides crossedDiamond "Right" acyclic_crossedDiamond
  obtain ⟨-, hlost, hchain⟩ := walk_order_decides_overrides crossedDiamond "Both" acyclic_crossedDiamond
  exact ⟨acyclic_crossedDiamond, hright, hkept hright, hboth, hlost hboth, hsize, hchain _ _ hsize⟩

/-- The top is met by way of the left side, before the right side that overrides it. -/
theorem override_lost_in_diamond :
    (∀ n, ¬ TransGen crossedDiamond.Lists n n) ∧ ¬ crossedDiamond.KeepsOverrides "Both" := by
  refine ⟨acyclic_crossedDiamond, fun hkeeps => ?_⟩
  obtain ⟨d, -, hown, hlast⟩ := hkeeps "Size" "int" (by decide +kernel)
  have hd : d ∈ crossedDiamond.keys := by
    rw [← OrderedMap.get?_isSome_iff]
    obtain ⟨c, hc, -⟩ := Option.bind_eq_some_iff.mp hown
    rw [hc]
    rfl
  have htop : ∀ n ∈ crossedDiamond.keys, ownType? crossedDiamond "Size" n = some "int" → n = "Top" := by
    decide +kernel
  obtain rfl := htop d hd hown
  have hreach : ReflTransGen crossedDiamond.Lists "Both" "Right" := .single (by decide)
  have hnone := hlast "Right" hreach right_overrides_top
  have hsome : ownType? crossedDiamond "Size" "Right" = some "float" := by decide +kernel
  rw [hsome] at hnone
  cases hnone

end LuauBindings
