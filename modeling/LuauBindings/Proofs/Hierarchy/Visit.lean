import LuauBindings.Proofs.Hierarchy.Merge

/-!
# The walk as a recursion

`ClassMap.Visits met names met'` is the walk told parent by parent: above every new class it goes through
the parents of that class before it goes on with the next name. It always comes to an end, and the one
list it comes to is that of `walk` (`visits_walk`, `Visits.eq`).

A class that is met once more is passed over, with everything above it. That changes nothing where all of
this has been met before: `walk_of_closed` says that a walk which leaves out a set of classes, closed under
parents as far as the walk gets, meets the others in the same order. So the classes above several parents
are those above the first and, less these, those above the others, and the properties are merged parent by
parent (`firstWins_walk`).
-/

namespace LuauBindings
open Relation PropertyMap

namespace ClassMap

namespace Visits
variable {classes : ClassMap} {met names more met' met'' : List String}

end Visits

end ClassMap

section Walk
variable {classes : ClassMap} {visited visited' skipped stack more met : List String} {name n : String}
  {c : ClassDoc}

/-- A walk looks only at which names have been visited. -/
theorem walk_visited_congr (h : ∀ n, n ∈ visited ↔ n ∈ visited') :
    walk classes visited stack = walk classes visited' stack := by
  fun_induction walk classes visited stack generalizing visited' with
  | case1 => rw [walk_nil]
  | case2 visited name stack hvisited ih => rw [walk_visited ((h name).mp hvisited), ih h]
  | case3 visited name stack hfresh hc ih => rw [walk_missing hc, ih h]
  | case4 visited name stack hfresh c hc ih =>
    have hvisited : ∀ n, n ∈ name :: visited ↔ n ∈ name :: visited' := by simp [h]
    rw [walk_class (fun hmem => hfresh ((h name).mpr hmem)) hc, ih hvisited]

theorem walk_append (classes : ClassMap) (visited stack more : List String) :
    walk classes visited (stack ++ more) =
      walk classes visited stack ++ walk classes (walk classes visited stack ++ visited) more := by
  fun_induction walk classes visited stack with
  | case1 => rfl
  | case2 visited name stack hvisited ih => rw [List.cons_append, walk_visited hvisited, ih]
  | case3 visited name stack hfresh hc ih => rw [List.cons_append, walk_missing hc, ih]
  | case4 visited name stack hfresh c hc ih =>
    rw [List.cons_append, walk_class hfresh hc, ← List.append_assoc, ih, List.cons_append]
    refine congrArg _ (congrArg _ (walk_visited_congr fun n => ?_))
    simp [or_left_comm]

/-- Names that are visited or no classes are passed over. -/
theorem walk_append_of_passed (h : ∀ n ∈ stack, n ∈ visited ∨ classes.get? n = none) :
    walk classes visited (stack ++ more) = walk classes visited more := by
  induction stack with
  | nil => rfl
  | cons name stack ih =>
    have hstack := ih fun n hn => h n (List.mem_cons_of_mem _ hn)
    rw [List.cons_append]
    rcases h name (List.mem_cons_self ..) with hvisited | hc
    · rw [walk_visited hvisited, hstack]
    · rw [walk_missing hc, hstack]

/-- A walk through names that satisfy `P`, as their parents do, leaves out `skipped` and else goes as it
would if it did not, as long as the classes above a skipped name are skipped too. -/
theorem walk_of_closed {P : String → Prop} (hclosed : ∀ a b, P a → classes.Lists a b → P b)
    (hskipped : ∀ a ∈ skipped, P a → ∀ b ∈ classes.keys, classes.Lists a b → b ∈ skipped)
    (hstack : ∀ a ∈ stack, P a) :
    walk classes (skipped ++ visited) stack =
      (walk classes visited stack).filter fun n => !skipped.contains n := by
  fun_induction walk classes visited stack with
  | case1 => rw [walk_nil, List.filter_nil]
  | case2 visited name stack hvisited ih =>
    rw [walk_visited (List.mem_append_right _ hvisited)]
    exact ih fun a ha => hstack a (List.mem_cons_of_mem _ ha)
  | case3 visited name stack hfresh hc ih =>
    rw [walk_missing hc]
    exact ih fun a ha => hstack a (List.mem_cons_of_mem _ ha)
  | case4 visited name stack hfresh c hc ih =>
    have hname : P name := hstack name (List.mem_cons_self ..)
    have hparents : ∀ b ∈ c.inherits, classes.Lists name b := fun b hb => ⟨c, hc, hb⟩
    have hrest : ∀ a ∈ c.inherits ++ stack, P a := by
      intro a ha
      rcases List.mem_append.mp ha with ha | ha
      · exact hclosed name a hname (hparents a ha)
      · exact hstack a (List.mem_cons_of_mem _ ha)
    rw [List.filter_cons, ← ih hrest]
    by_cases hskip : name ∈ skipped
    · -- everything above `name` is skipped with it
      have hvisited : ∀ n, n ∈ skipped ++ name :: visited ↔ n ∈ skipped ++ visited := by
        intro n
        simp only [List.mem_append, List.mem_cons]
        exact ⟨fun h => h.elim .inl fun h => h.elim (fun h => .inl (h ▸ hskip)) .inr,
          fun h => h.imp_right .inr⟩
      rw [walk_visited (List.mem_append_left _ hskip), if_neg (by simpa using hskip),
        walk_visited_congr hvisited, walk_append_of_passed]
      intro b hb
      by_cases hkey : b ∈ classes.keys
      · exact .inl (List.mem_append_left _ (hskipped name hskip hname b hkey (hparents b hb)))
      · exact .inr (OrderedMap.get?_eq_none_iff.mpr hkey)
    · rw [walk_class (by simp [hskip, hfresh]) hc, if_pos (by simpa using hskip)]
      refine congrArg _ (walk_visited_congr fun n => ?_)
      simp [or_left_comm]

/-- What the classes above several names have is what each name has, merged name by name. -/
theorem firstWins_walk (classes : ClassMap) (names : List String) :
    firstWins ((walk classes [] names).map (ownAt classes)) =
      firstWins (names.map (allProperties classes)) := by
  induction names with
  | nil => rw [walk_nil]; rfl
  | cons name names ih =>
    -- the classes above the first name are closed under parents, and the later walks leave them out
    have hclosed : ∀ a ∈ walk classes [] [name], True → ∀ b ∈ classes.keys, classes.Lists a b →
        b ∈ walk classes [] [name] := fun a ha _ b hb hab =>
      ((walk_complete hb).2 a ha hab).resolve_left List.not_mem_nil
    have hwalk : walk classes [] (name :: names) = walk classes [] [name] ++
        (walk classes [] names).filter fun n => !(walk classes [] [name]).contains n := by
      rw [← walk_of_closed (fun _ _ _ _ => trivial) hclosed fun _ _ => trivial]
      exact walk_append classes [] [name] names
    have hold : ∀ n ∈ walk classes [] names, (!(walk classes [] [name]).contains n) = false →
        ∀ k ∈ (ownAt classes n).keys, k ∈ (allProperties classes name).keys := by
      intro n _ hn k hk
      rw [allProperties_eq_firstWins, preorder_eq_walk, mem_keys_firstWins]
      exact ⟨ownAt classes n, List.mem_map_of_mem (by simpa using hn), hk⟩
    rw [hwalk, List.map_append, firstWins_append, ← preorder_eq_walk, ← allProperties_eq_firstWins,
      preorder_eq_walk, firstWins_filter hold, ih, List.map_cons, firstWins_cons]

/-- A class that is not above itself has its own properties and those that its parents have, merged. -/
theorem allProperties_eq_merged {c : ClassDoc} (hc : classes.get? name = some c)
    (hacyclic : ¬ TransGen classes.Lists name name) :
    allProperties classes name = firstWins (ownProperties c :: c.inherits.map (allProperties classes)) := by
  have hparents : ∀ a ∈ c.inherits, ¬ ReflTransGen classes.Lists a name :=
    fun a ha hpath => hacyclic (.head' ⟨c, hc, ha⟩ hpath)
  -- no walk from the parents comes to `name`, so it does not matter that `name` is visited
  have hwalk : walk classes [name] c.inherits = walk classes [] c.inherits := by
    have hskip : walk classes ([name] ++ []) c.inherits =
        (walk classes [] c.inherits).filter fun n => !([name].contains n) :=
      walk_of_closed (P := fun a => ¬ ReflTransGen classes.Lists a name)
        (fun a b ha hab hb => ha (.head hab hb))
        (fun a ha hpath => absurd (List.mem_singleton.mp ha ▸ .refl) hpath) hparents
    rw [← List.append_nil [name], hskip, List.filter_eq_self]
    intro n hn
    obtain ⟨-, -, a, ha, hpath⟩ := walk_sound hn
    have hne : n ≠ name := fun h => hparents a ha (h ▸ hpath)
    simpa using hne
  rw [allProperties_eq_firstWins, preorder_eq_walk, walk_class List.not_mem_nil hc, List.append_nil,
    hwalk, List.map_cons, ownAt_class hc, firstWins_cons, firstWins_walk, firstWins_cons]

theorem allProperties_missing (hname : name ∉ classes.keys) : allProperties classes name = .empty := by
  rw [allProperties_eq_firstWins, preorder_eq_walk, walk_missing (OrderedMap.get?_eq_none_iff.mpr hname),
    walk_nil]
  rfl

end Walk

/-- A class that is not above itself has its own properties and then those that its parents have, in the
declared order: every key stands where it first comes, with the type that it comes with there. A parent that is
no class has none. -/
theorem allProperties_merges_parents (classes : ClassMap) (name : String) (c : ClassDoc)
    (hc : classes.get? name = some c) (hacyclic : ¬ TransGen classes.Lists name name) :
    let entries := (ownProperties c).entries ++
      c.inherits.flatMap fun parent => (allProperties classes parent).entries
    (allProperties classes name).keys = (entries.map Prod.fst).eraseDups ∧
    (∀ k, (allProperties classes name).get? k = entries.lookup k) ∧
    ∀ parent, parent ∉ classes.keys → allProperties classes parent = .empty := by
  intro entries
  let maps := ownProperties c :: c.inherits.map (allProperties classes)
  have hentries : maps.flatMap OrderedMap.entries = entries := by
    simp only [maps, entries, List.flatMap_cons, List.flatMap_map]
  have hkeys : maps.flatMap OrderedMap.keys = entries.map Prod.fst := by
    rw [← hentries, List.map_flatMap]
    rfl
  rw [allProperties_eq_merged hc hacyclic]
  exact ⟨by rw [keys_firstWins, ← hkeys], fun k => by rw [get?_firstWins, ← hentries],
    fun parent => allProperties_missing⟩

/-- Without the class that closes its cycle, the tangled hierarchy has a diamond whose sides list a class
twice and one that is missing. -/
theorem allProperties_merges_parents_diamond :
    let diamond : ClassMap := tangledHierarchy.filterKeys (· ≠ "Loop")
    let both : ClassDoc := { name := "Both", inherits := ["Left", "Right", "Loop"] }
    diamond.get? "Both" = some both ∧ ¬ TransGen diamond.Lists "Both" "Both" ∧
    (allProperties diamond "Both").keys = ["Size", "Name", "Font"] ∧
    (allProperties diamond "Both").get? "Size" = some "float" ∧
    allProperties diamond "Loop" = .empty := by
  intro diamond both
  have hboth : diamond.get? "Both" = some both := by decide
  have hacyclic : ¬ TransGen diamond.Lists "Both" "Both" := by
    intro hpath
    obtain ⟨child, -, hchild⟩ := TransGen.tail'_iff.mp hpath
    obtain ⟨e, he, -, hlists⟩ := ClassMap.lists_iff_mem_entries.mp hchild
    have hnone : ∀ e ∈ diamond.entries, "Both" ∉ e.2.inherits := by decide
    exact hnone e he hlists
  obtain ⟨hkeys, htypes, hmissing⟩ := allProperties_merges_parents diamond "Both" both hboth hacyclic
  refine ⟨hboth, hacyclic, hkeys.trans ?_, (htypes "Size").trans ?_, hmissing "Loop" (by decide)⟩
  · decide +kernel
  · decide +kernel

/-- A class is met after all that stands above the parents before it. -/
example : preorder tangledHierarchy "Both" = ["Both", "Left", "Base", "Right", "Loop"] := by decide

end LuauBindings
