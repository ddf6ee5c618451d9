import LuauBindings.Hierarchy.Properties
import LuauBindings.Proofs.Hierarchy.Relation

/-!
# The walk over a class and its ancestors

`walk classes visited stack` is the walk of `preorderFrom` without its fuel. It ends because every
step takes one from `pending`: the names on the stack and the declared parents of the classes not yet
visited. The fuel of `preorder` is what is pending at its start (`preorder_eq_walk`).

A walk visits classes that the stack leads up to (`walk_sound`), each once (`nodup_walk`), and it
misses none: what it has visited is closed under parents (`walk_complete`). It looks only at the
parents of the classes it meets, so two mappings that agree on these in a set of names closed under
parents have the same walks in it (`walk_congr`).
-/

namespace LuauBindings
open Relation

variable {classes reduced : ClassMap} {visited stack : List String} {name n : String} {c : ClassDoc}

/-- How many declared parents the entries have that are not visited. -/
def unvisitedParents (visited : List String) (entries : List (String × ClassDoc)) : Nat :=
  ((entries.filter fun e => !visited.contains e.1).flatMap fun e => e.2.inherits).length

/-- How many names a walk may still look at. -/
def pending (classes : ClassMap) (visited stack : List String) : Nat :=
  stack.length + unvisitedParents visited classes.entries

theorem unvisitedParents_cons (e : String × ClassDoc) (entries : List (String × ClassDoc)) :
    unvisitedParents visited (e :: entries) =
      (if e.1 ∈ visited then 0 else e.2.inherits.length) + unvisitedParents visited entries := by
  by_cases h : e.1 ∈ visited <;> simp [unvisitedParents, h]

theorem unvisitedParents_visit_of_not_mem {entries : List (String × ClassDoc)}
    (h : name ∉ entries.map Prod.fst) :
    unvisitedParents (name :: visited) entries = unvisitedParents visited entries := by
  induction entries with
  | nil => rfl
  | cons e entries ih =>
    rw [List.map_cons, List.mem_cons, not_or] at h
    have hne : e.1 ≠ name := fun h' => h.1 h'.symm
    rw [unvisitedParents_cons, unvisitedParents_cons, ih h.2]
    simp [hne]

theorem unvisitedParents_visit {entries : List (String × ClassDoc)}
    (hnodup : (entries.map Prod.fst).Nodup) (hfresh : name ∉ visited) (hc : (name, c) ∈ entries) :
    c.inherits.length + unvisitedParents (name :: visited) entries =
      unvisitedParents visited entries := by
  induction entries with
  | nil => exact absurd hc List.not_mem_nil
  | cons e entries ih =>
    rw [List.map_cons, List.nodup_cons] at hnodup
    rw [unvisitedParents_cons, unvisitedParents_cons]
    rcases List.mem_cons.mp hc with rfl | hc
    · rw [unvisitedParents_visit_of_not_mem hnodup.1]
      simp [hfresh]
    · have hne : e.1 ≠ name := fun h => hnodup.1 (h ▸ List.mem_map_of_mem hc)
      have := ih hnodup.2 hc
      simp only [List.mem_cons, hne, false_or]
      omega

theorem pending_visit (stack : List String) (hfresh : name ∉ visited) (hc : classes.get? name = some c) :
    pending classes (name :: visited) (c.inherits ++ stack) + 1 =
      pending classes visited (name :: stack) := by
  have := unvisitedParents_visit classes.nodup hfresh (OrderedMap.get?_eq_some_iff.mp hc)
  simp only [pending, List.length_append, List.length_cons]
  omega

/-- The classes met from `stack`, first to last, when every class is followed by its parents and then
by the rest of the stack; `visited` are left out. -/
def walk (classes : ClassMap) (visited stack : List String) : List String :=
  match stack with
  | [] => []
  | name :: stack =>
    if _h : name ∈ visited then walk classes visited stack
    else match _hc : classes.get? name with
      | none => walk classes visited stack
      | some c => name :: walk classes (name :: visited) (c.inherits ++ stack)
termination_by pending classes visited stack
decreasing_by
  · simp [pending]
  · simp [pending]
  · exact Nat.lt_of_succ_le (Nat.le_of_eq (pending_visit _ ‹_› ‹_›))

theorem walk_nil : walk classes visited [] = [] := by
  rw [walk]

theorem walk_visited (h : name ∈ visited) :
    walk classes visited (name :: stack) = walk classes visited stack := by
  rw [walk, dif_pos h]

theorem walk_missing (h : classes.get? name = none) :
    walk classes visited (name :: stack) = walk classes visited stack := by
  rw [walk]
  split
  · rfl
  · split
    · rfl
    · next hc => rw [h] at hc; cases hc

theorem walk_class (hfresh : name ∉ visited) (hc : classes.get? name = some c) :
    walk classes visited (name :: stack) =
      name :: walk classes (name :: visited) (c.inherits ++ stack) := by
  rw [walk, dif_neg hfresh]
  split
  · next h => rw [hc] at h; cases h
  · next h => rw [hc] at h; cases h; rfl

/-- With fuel for what is pending the walk runs to its end. -/
theorem preorderFrom_eq_walk {fuel : Nat} (h : pending classes visited stack ≤ fuel) :
    preorderFrom classes fuel visited stack = walk classes visited stack := by
  induction fuel generalizing visited stack with
  | zero =>
    have : stack = [] := List.length_eq_zero_iff.mp (by unfold pending at h; omega)
    rw [this, walk_nil, preorderFrom]
  | succ fuel ih =>
    cases stack with
    | nil => rw [walk_nil, preorderFrom]
    | cons name stack =>
      have htail : pending classes visited stack ≤ fuel := by
        simp only [pending, List.length_cons] at h ⊢
        omega
      rw [preorderFrom]
      by_cases hvisited : name ∈ visited
      · rw [walk_visited hvisited, if_pos (by simpa using hvisited), ih htail]
      · rw [if_neg (by simpa using hvisited)]
        cases hc : classes.get? name with
        | none => rw [walk_missing hc]; exact ih htail
        | some c =>
          have := pending_visit stack hvisited hc
          rw [walk_class hvisited hc]
          exact congrArg _ (ih (by omega))

theorem preorder_eq_walk : preorder classes name = walk classes [] [name] := by
  have hall : (classes.entries.filter fun e => !([] : List String).contains e.1) = classes.entries :=
    List.filter_eq_self.mpr (by simp)
  refine preorderFrom_eq_walk ?_
  rw [pending, unvisitedParents, hall]
  exact Nat.le_refl _

theorem walk_sound (h : n ∈ walk classes visited stack) :
    n ∉ visited ∧ n ∈ classes.keys ∧ ∃ x ∈ stack, ReflTransGen classes.Lists x n := by
  fun_induction walk classes visited stack with
  | case1 => exact absurd h List.not_mem_nil
  | case2 visited name stack hvisited ih =>
    obtain ⟨hn, hkey, x, hx, hpath⟩ := ih h
    exact ⟨hn, hkey, x, List.mem_cons_of_mem _ hx, hpath⟩
  | case3 visited name stack hfresh hc ih =>
    obtain ⟨hn, hkey, x, hx, hpath⟩ := ih h
    exact ⟨hn, hkey, x, List.mem_cons_of_mem _ hx, hpath⟩
  | case4 visited name stack hfresh c hc ih =>
    rcases List.mem_cons.mp h with rfl | h
    · refine ⟨hfresh, OrderedMap.mem_keys_of_get? hc, n, List.mem_cons_self .., .refl⟩
    · obtain ⟨hn, hkey, x, hx, hpath⟩ := ih h
      refine ⟨fun hv => hn (List.mem_cons_of_mem _ hv), hkey, ?_⟩
      rcases List.mem_append.mp hx with hx | hx
      · exact ⟨name, List.mem_cons_self .., .head ⟨c, hc, hx⟩ hpath⟩
      · exact ⟨x, List.mem_cons_of_mem _ hx, hpath⟩

theorem nodup_walk : (walk classes visited stack).Nodup := by
  fun_induction walk classes visited stack with
  | case1 => exact List.nodup_nil
  | case2 visited name stack hvisited ih => exact ih
  | case3 visited name stack hfresh hc ih => exact ih
  | case4 visited name stack hfresh c hc ih =>
    exact List.nodup_cons.mpr ⟨fun h => (walk_sound h).1 (List.mem_cons_self ..), ih⟩

/-- A walk misses no class on its stack and no parent of a class it visits. -/
theorem walk_complete (hn : n ∈ classes.keys) :
    (n ∈ stack → n ∈ visited ∨ n ∈ walk classes visited stack) ∧
    ∀ a ∈ walk classes visited stack, classes.Lists a n →
      n ∈ visited ∨ n ∈ walk classes visited stack := by
  fun_induction walk classes visited stack with
  | case1 => simp
  | case2 visited name stack hvisited ih =>
    refine ⟨fun hmem => ?_, ih.2⟩
    rcases List.mem_cons.mp hmem with rfl | hmem
    · exact .inl hvisited
    · exact ih.1 hmem
  | case3 visited name stack hfresh hc ih =>
    refine ⟨fun hmem => ?_, ih.2⟩
    rcases List.mem_cons.mp hmem with rfl | hmem
    · exact absurd hn (OrderedMap.get?_eq_none_iff.mp hc)
    · exact ih.1 hmem
  | case4 visited name stack hfresh c hc ih =>
    -- only `name` itself moves from the visited names to the walk
    have shift : n ∈ name :: visited ∨ n ∈ walk classes (name :: visited) (c.inherits ++ stack) →
        n ∈ visited ∨ n ∈ name :: walk classes (name :: visited) (c.inherits ++ stack) := by
      rintro (h | h)
      · rcases List.mem_cons.mp h with rfl | h
        · exact .inr (List.mem_cons_self ..)
        · exact .inl h
      · exact .inr (List.mem_cons_of_mem _ h)
    refine ⟨fun hmem => ?_, fun a ha hlists => shift ?_⟩
    · rcases List.mem_cons.mp hmem with rfl | hmem
      · exact .inr (List.mem_cons_self ..)
      · exact shift (ih.1 (List.mem_append_right _ hmem))
    · rcases List.mem_cons.mp ha with rfl | ha
      · obtain ⟨doc, hdoc, hlisted⟩ := hlists
        rw [hc] at hdoc
        cases hdoc
        exact ih.1 (List.mem_append_left _ hlisted)
      · exact ih.2 a ha hlists

theorem mem_preorder :
    n ∈ preorder classes name ↔ n ∈ classes.keys ∧ ReflTransGen classes.Lists name n := by
  rw [preorder_eq_walk]
  constructor
  · intro h
    obtain ⟨-, hn, x, hx, hpath⟩ := walk_sound h
    rw [List.mem_singleton] at hx
    exact ⟨hn, hx ▸ hpath⟩
  · rintro ⟨hn, hpath⟩
    induction hpath with
    | refl => exact ((walk_complete hn).1 (List.mem_singleton_self _)).resolve_left List.not_mem_nil
    | tail _ hstep ih =>
      exact ((walk_complete hn).2 _ (ih hstep.mem_keys) hstep).resolve_left List.not_mem_nil

theorem nodup_preorder : (preorder classes name).Nodup := by
  rw [preorder_eq_walk]
  exact nodup_walk

theorem walk_congr {P : String → Prop}
    (hagree : ∀ a, P a →
      (reduced.get? a).map ClassDoc.inherits = (classes.get? a).map ClassDoc.inherits)
    (hclosed : ∀ a b, P a → classes.Lists a b → P b) (hstack : ∀ a ∈ stack, P a) :
    walk reduced visited stack = walk classes visited stack := by
  fun_induction walk classes visited stack with
  | case1 => rw [walk_nil]
  | case2 visited name stack hvisited ih =>
    rw [walk_visited hvisited]
    exact ih fun a ha => hstack a (List.mem_cons_of_mem _ ha)
  | case3 visited name stack hfresh hc ih =>
    have hname := hagree name (hstack name (List.mem_cons_self ..))
    rw [hc, Option.map_none, Option.map_eq_none_iff] at hname
    rw [walk_missing hname]
    exact ih fun a ha => hstack a (List.mem_cons_of_mem _ ha)
  | case4 visited name stack hfresh c hc ih =>
    have hP := hstack name (List.mem_cons_self ..)
    have hname := hagree name hP
    rw [hc, Option.map_some, Option.map_eq_some_iff] at hname
    obtain ⟨c', hc', hinherits⟩ := hname
    rw [walk_class hfresh hc', hinherits, ih]
    intro a ha
    rcases List.mem_append.mp ha with ha | ha
    · exact hclosed name a hP ⟨c, hc, ha⟩
    · exact hstack a (List.mem_cons_of_mem _ ha)

theorem preorder_congr {P : String → Prop}
    (hagree : ∀ a, P a →
      (reduced.get? a).map ClassDoc.inherits = (classes.get? a).map ClassDoc.inherits)
    (hclosed : ∀ a b, P a → classes.Lists a b → P b) (hname : P name) :
    preorder reduced name = preorder classes name := by
  rw [preorder_eq_walk, preorder_eq_walk]
  exact walk_congr hagree hclosed fun a ha => List.mem_singleton.mp ha ▸ hname

theorem preorder_mapValues {f : String → ClassDoc → ClassDoc} (hf : ∀ n c, (f n c).inherits = c.inherits)
    (name : String) : preorder (classes.mapValues f) name = preorder classes name := by
  refine preorder_congr (P := fun _ => True) (fun a _ => ?_) (fun _ _ _ _ => trivial) trivial
  rw [OrderedMap.get?_mapValues, Option.map_map]
  exact congrArg (Option.map · (classes.get? a)) (funext fun c => hf a c)

/-- Every class of a walk is met above one that waits on the stack, by a chain of classes that are
all met before it. -/
theorem exists_chain_of_walk {before after : List String}
    (h : walk classes visited stack = before ++ n :: after) :
    ∃ x ∈ stack, ReflTransGen (fun a b => a ∈ before ∧ classes.Lists a b) x n := by
  fun_induction walk classes visited stack generalizing before with
  | case1 => simp at h
  | case2 visited name stack hvisited ih =>
    obtain ⟨x, hx, hchain⟩ := ih h
    exact ⟨x, List.mem_cons_of_mem _ hx, hchain⟩
  | case3 visited name stack hfresh hc ih =>
    obtain ⟨x, hx, hchain⟩ := ih h
    exact ⟨x, List.mem_cons_of_mem _ hx, hchain⟩
  | case4 visited name stack hfresh c hc ih =>
    cases before with
    | nil =>
      rw [List.nil_append, List.cons.injEq] at h
      exact ⟨name, List.mem_cons_self .., h.1 ▸ .refl⟩
    | cons m before =>
      rw [List.cons_append, List.cons.injEq] at h
      obtain ⟨rfl, hrest⟩ := h
      obtain ⟨x, hx, hchain⟩ := ih hrest
      have hlonger : ReflTransGen (fun a b => a ∈ name :: before ∧ classes.Lists a b) x n :=
        ReflTransGen.mono (fun _ _ => And.imp_left (List.mem_cons_of_mem name)) _ _ hchain
      rcases List.mem_append.mp hx with hx | hx
      · exact ⟨name, List.mem_cons_self .., .head ⟨List.mem_cons_self .., c, hc, hx⟩ hlonger⟩
      · exact ⟨x, List.mem_cons_of_mem _ hx, hlonger⟩

end LuauBindings
