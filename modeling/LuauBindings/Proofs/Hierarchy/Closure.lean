import LuauBindings.Hierarchy.Closure
import LuauBindings.Proofs.Hierarchy.Relation
import Mathlib.Data.List.Basic
import Mathlib.Order.Bounds.Basic

/-!
# The closure of a set of names is what the set leads to

A closure is found with a work list: the names reached, and those of them that still wait in the frontier
to be looked at. A `Round` looks at any name of the frontier and goes through its neighbours in any order,
so that nothing hangs on how sets are enumerated; `closeFrom`, which looks at the first name and keeps the
listed order, is one way to take the rounds (`exists_rounds_closeFrom`).

`Closing graph order w` is the invariant of the work lists that start from `order`: no name is reached
twice, what is reached follows from the seed, and a reached name that no longer waits has its neighbours
among the reached. One round keeps it (`Closing.round`). A round takes one name from the frontier and puts
into it whatever it reaches, so the names reached and no longer waiting are as many as the rounds taken
(`Rounds.count`). Hence there are no more rounds than names to which the seed leads, and the fuel of
`closeOver` lasts until the frontier is empty (`exists_rounds_closeOver`). Then exactly those names are
reached (`Closing.mem_iff`, `mem_closeOver`), whichever way was taken (`closeOver_least`).
-/

namespace LuauBindings
open Relation

/-- The names reached, and those of them that wait to be looked at. -/
structure WorkList where
  reached : List String
  frontier : List String

namespace WorkList

/-- The work list of a seed that is enumerated as `order`. -/
def start (order : List String) : WorkList := ⟨order, order⟩

/-- `w` when `name` is met: unless it is reached already, it is reached and waits. -/
def meet (w : WorkList) (name : String) : WorkList :=
  if w.reached.contains name then w else ⟨w.reached ++ [name], w.frontier ++ [name]⟩

theorem foldl_meet (names : List String) (w : WorkList) : names.foldl meet w =
    ⟨w.reached ++ newNames w.reached names, w.frontier ++ newNames w.reached names⟩ := by
  induction names generalizing w with
  | nil => simp [newNames]
  | cons name names ih =>
    rw [List.foldl_cons, ih]
    by_cases h : name ∈ w.reached
    · simp [meet, h, newNames_cons_of_mem h]
    · simp [meet, h, newNames_cons_of_not_mem h]

/-- One round: some name leaves the frontier, and its neighbours are met in some order. -/
def Round (graph : NameGraph) (v w : WorkList) : Prop :=
  ∃ (before after names : List String) (name : String), v.frontier = before ++ name :: after ∧
    names.Perm (graph.next name) ∧ w = names.foldl meet ⟨v.reached, before ++ after⟩

/-- So many rounds lead from one work list to the other. -/
inductive Rounds (graph : NameGraph) : Nat → WorkList → WorkList → Prop
  | refl (w : WorkList) : Rounds graph 0 w w
  | step {k : Nat} {u v w : WorkList} :
      Round graph u v → Rounds graph k v w → Rounds graph (k + 1) u w

variable {graph : NameGraph} {u v w : WorkList} {k : Nat}

/-- All that a round does: the new names are the neighbours that were not reached, each of them once. -/
theorem Round.cases (h : Round graph v w) : ∃ before after name new,
    v.frontier = before ++ name :: after ∧ new.Nodup ∧
    (∀ n, n ∈ new ↔ graph.Leads name n ∧ n ∉ v.reached) ∧
    w = ⟨v.reached ++ new, before ++ after ++ new⟩ := by
  obtain ⟨before, after, names, name, hfrontier, hperm, rfl⟩ := h
  refine ⟨before, after, name, newNames v.reached names, hfrontier, nodup_newNames .., ?_, foldl_meet ..⟩
  intro n
  rw [mem_newNames, hperm.mem_iff, NameGraph.Leads]

theorem exists_round (h : w.frontier ≠ []) : ∃ next, Round graph w next := by
  obtain ⟨name, after, hfrontier⟩ := List.exists_cons_of_ne_nil h
  exact ⟨_, [], after, graph.next name, name, hfrontier, .refl _, rfl⟩

/-- Every round takes one name from the frontier, and what it reaches waits. -/
theorem Rounds.count (h : Rounds graph k v w) :
    k + w.frontier.length + v.reached.length = w.reached.length + v.frontier.length := by
  induction h with
  | refl => omega
  | step hround _ ih =>
    obtain ⟨before, after, name, new, hfrontier, -, -, rfl⟩ := hround.cases
    rw [hfrontier]
    simp only [List.length_append, List.length_cons] at ih ⊢
    omega

end WorkList

open WorkList

variable {graph : NameGraph} {order : List String} {v w : WorkList} {k : Nat}

/-- The invariant of the work lists that start from `order`. -/
structure Closing (graph : NameGraph) (order : List String) (w : WorkList) : Prop where
  nodup : w.reached.Nodup
  seed_mem : ∀ n ∈ order, n ∈ w.reached
  led : ∀ n ∈ w.reached, ∃ s ∈ order, ReflTransGen graph.Leads s n
  frontier_mem : ∀ n ∈ w.frontier, n ∈ w.reached
  closed : ∀ a ∈ w.reached, a ∉ w.frontier → ∀ b, graph.Leads a b → b ∈ w.reached

theorem Closing.start (h : order.Nodup) : Closing graph order (.start order) :=
  ⟨h, fun _ hn => hn, fun n hn => ⟨n, hn, .refl⟩, fun _ hn => hn, fun _ hn hn' => absurd hn hn'⟩

theorem Closing.round (h : Closing graph order v) (hround : Round graph v w) : Closing graph order w := by
  obtain ⟨before, after, name, new, hfrontier, hnodup, hnew, rfl⟩ := hround.cases
  have hname : name ∈ v.reached := h.frontier_mem name (by simp [hfrontier])
  constructor
  case nodup =>
    refine List.nodup_append.mpr ⟨h.nodup, hnodup, ?_⟩
    rintro n hn _ hn' rfl
    exact ((hnew n).mp hn').2 hn
  case seed_mem =>
    intro n hn
    exact List.mem_append_left _ (h.seed_mem n hn)
  case led =>
    intro n hn
    rcases List.mem_append.mp hn with hn | hn
    · exact h.led n hn
    · obtain ⟨s, hs, hpath⟩ := h.led name hname
      exact ⟨s, hs, hpath.tail ((hnew n).mp hn).1⟩
  case frontier_mem =>
    intro n hn
    rcases List.mem_append.mp hn with hn | hn
    · have hwaited : n ∈ v.frontier := by
        rw [hfrontier, List.mem_append, List.mem_cons]
        exact (List.mem_append.mp hn).imp_right .inr
      exact List.mem_append_left _ (h.frontier_mem n hwaited)
    · exact List.mem_append_right _ hn
  case closed =>
    intro a ha hwaits b hab
    rw [List.mem_append, not_or] at hwaits
    have ha : a ∈ v.reached := (List.mem_append.mp ha).resolve_right hwaits.2
    rw [List.mem_append]
    by_cases hb : b ∈ v.reached
    · exact .inl hb
    -- a neighbour not reached before is one of the name looked at: other names had been looked at already
    · by_cases haname : a = name
      · subst haname
        exact .inr ((hnew b).mpr ⟨hab, hb⟩)
      · have hlooked : a ∉ v.frontier := by simpa [hfrontier, haname] using hwaits.1
        exact absurd (h.closed a ha hlooked b hab) hb

theorem Closing.rounds (h : Closing graph order v) (hrounds : Rounds graph k v w) : Closing graph order w := by
  induction hrounds with
  | refl => exact h
  | step hround _ ih => exact ih (h.round hround)

/-- When no name waits, the names reached are those to which the seed leads. -/
theorem Closing.mem_iff (h : Closing graph order w) (hdone : w.frontier = []) {n : String} :
    n ∈ w.reached ↔ ∃ s ∈ order, ReflTransGen graph.Leads s n := by
  refine ⟨h.led n, ?_⟩
  rintro ⟨s, hs, hpath⟩
  induction hpath with
  | refl => exact h.seed_mem s hs
  | tail _ hstep ih => exact h.closed _ ih (by simp [hdone]) _ hstep

/-- What is reached is in the seed or listed as a neighbour. -/
theorem Closing.length_reached_le (h : Closing graph order w) :
    w.reached.length ≤ order.length + (graph.entries.flatMap Prod.snd).length := by
  rw [← List.length_append]
  refine h.nodup.length_le_of_subset fun n hn => ?_
  obtain ⟨s, hs, hpath⟩ := h.led n hn
  rw [List.mem_append]
  rcases ReflTransGen.cases_tail_iff _ _ _ |>.mp hpath with rfl | ⟨a, -, hstep⟩
  · exact .inl hs
  · exact .inr hstep.mem_flatMap

/-- The work list that takes the first name of the frontier takes rounds, until none waits or the fuel is
spent. -/
theorem exists_rounds_closeFrom (graph : NameGraph) (fuel : Nat) (reached frontier : List String) :
    ∃ k waiting, Rounds graph k ⟨reached, frontier⟩ ⟨closeFrom graph fuel reached frontier, waiting⟩ ∧
      (waiting = [] ∨ k = fuel) := by
  induction fuel generalizing reached frontier with
  | zero => exact ⟨0, frontier, .refl _, .inr rfl⟩
  | succ fuel ih =>
    cases frontier with
    | nil => exact ⟨0, [], .refl _, .inl rfl⟩
    | cons name frontier =>
      have hround : Round graph ⟨reached, name :: frontier⟩
          ⟨reached ++ newNames reached (graph.next name), frontier ++ newNames reached (graph.next name)⟩ :=
        ⟨[], frontier, graph.next name, name, rfl, .refl _, (foldl_meet _ ⟨reached, frontier⟩).symm⟩
      obtain ⟨k, waiting, hrounds, hend⟩ := ih (reached ++ newNames reached (graph.next name))
        (frontier ++ newNames reached (graph.next name))
      exact ⟨k + 1, waiting, .step hround hrounds, hend.imp_right (congrArg (· + 1))⟩

/-- The fuel lasts: the closure is what some rounds reach that leave no name waiting. -/
theorem exists_rounds_closeOver (seed : NameSet) (graph : NameGraph) :
    ∃ k reached, Rounds graph k (.start seed.toList) ⟨reached, []⟩ ∧ closeOver seed graph = .ofList reached := by
  obtain ⟨k, waiting, hrounds, hend⟩ := exists_rounds_closeFrom graph
    (seed.size + (graph.entries.flatMap Prod.snd).length) seed.toList seed.toList
  have hnone : waiting = [] := by
    rcases hend with hnone | hspent
    · exact hnone
    -- the rounds taken and the names waiting make up the names reached, and those are no more than the fuel
    · have hcount := hrounds.count
      have hle := ((Closing.start seed.nodup).rounds hrounds).length_reached_le
      have hsize : seed.size = seed.toList.length := rfl
      simp only at hcount hle
      exact List.length_eq_zero_iff.mp (by omega)
  subst hnone
  exact ⟨k, _, hrounds, rfl⟩

theorem mem_closeOver {seed : NameSet} {n : String} :
    n ∈ closeOver seed graph ↔ ∃ s ∈ seed, ReflTransGen graph.Leads s n := by
  obtain ⟨k, reached, hrounds, hclosure⟩ := exists_rounds_closeOver seed graph
  rw [hclosure, NameSet.mem_ofList]
  exact ((Closing.start seed.nodup).rounds hrounds).mem_iff rfl

/-- `s` holds the seed and whatever its members lead to. -/
structure ClosedOver (graph : NameGraph) (seed : NameSet) (s : Set String) : Prop where
  seed_mem : ∀ n ∈ seed, n ∈ s
  next_mem : ∀ a ∈ s, ∀ b, graph.Leads a b → b ∈ s

theorem closedOver_closeOver (seed : NameSet) (graph : NameGraph) :
    ClosedOver graph seed {n | n ∈ closeOver seed graph} where
  seed_mem n hn := mem_closeOver.mpr ⟨n, hn, .refl⟩
  next_mem _ ha _ hab :=
    let ⟨s, hs, hpath⟩ := mem_closeOver.mp ha
    mem_closeOver.mpr ⟨s, hs, hpath.tail hab⟩

theorem ClosedOver.mem_of_leads {seed : NameSet} {s : Set String} (h : ClosedOver graph seed s) {a n : String}
    (ha : a ∈ seed) (hpath : ReflTransGen graph.Leads a n) : n ∈ s := by
  induction hpath with
  | refl => exact h.seed_mem a ha
  | tail _ hstep ih => exact h.next_mem _ ih _ hstep

/-- Only what leads where counts, not the order in which neighbours are listed or how often. -/
theorem closeOver_congr {other : NameGraph} {seed : NameSet}
    (h : ∀ a b, other.Leads a b ↔ graph.Leads a b) : closeOver seed other = closeOver seed graph := by
  have hleads : other.Leads = graph.Leads := by
    funext a b
    exact propext (h a b)
  ext n
  rw [mem_closeOver, mem_closeOver, hleads]

namespace Closing
variable {seed : NameSet}

theorem mem_closeOver_of_mem (h : Closing graph order w) (hseed : order.Perm seed.toList) {n : String}
    (hn : n ∈ w.reached) : n ∈ closeOver seed graph := by
  obtain ⟨s, hs, hpath⟩ := h.led n hn
  exact mem_closeOver.mpr ⟨s, hseed.mem_iff.mp hs, hpath⟩

theorem length_reached_le_size (h : Closing graph order w) (hseed : order.Perm seed.toList) :
    w.reached.length ≤ (closeOver seed graph).size :=
  h.nodup.length_le_of_subset fun _ hn => h.mem_closeOver_of_mem hseed hn

theorem ofList_reached (h : Closing graph order w) (hseed : order.Perm seed.toList) (hdone : w.frontier = []) :
    .ofList w.reached = closeOver seed graph := by
  ext n
  rw [NameSet.mem_ofList, h.mem_iff hdone, mem_closeOver]
  simp only [hseed.mem_iff, NameSet.mem_def]

end Closing

/-- The closure is the least set that holds the seed and whatever its members lead to. In whatever order the
seed and the neighbours of a name are enumerated and names are taken from the frontier, the work list has
looked at all names after just as many rounds as the closure has names, and has then reached the closure;
before that there is a next round. -/
theorem closeOver_least (seed : NameSet) (graph : NameGraph) :
    IsLeast {s | ClosedOver graph seed s} {n | n ∈ closeOver seed graph} ∧
    (∀ order, order.Perm seed.toList → ∀ k w, Rounds graph k (.start order) w →
      (w.frontier = [] ∧ k = (closeOver seed graph).size ∧ .ofList w.reached = closeOver seed graph) ∨
      (w.frontier ≠ [] ∧ k < (closeOver seed graph).size ∧ ∃ next, Round graph w next)) ∧
    ∀ other : NameGraph, (∀ a, (other.next a).Perm (graph.next a)) →
      closeOver seed other = closeOver seed graph := by
  refine ⟨⟨closedOver_closeOver seed graph, ?_⟩, ?_, ?_⟩
  · intro s hs n hn
    obtain ⟨a, ha, hpath⟩ := mem_closeOver.mp hn
    exact hs.mem_of_leads ha hpath
  · intro order hseed k w hrounds
    have h : Closing graph order w := (Closing.start (hseed.nodup_iff.mpr seed.nodup)).rounds hrounds
    have hcount : k + w.frontier.length = w.reached.length := Nat.add_right_cancel hrounds.count
    have hle := h.length_reached_le_size hseed
    by_cases hdone : w.frontier = []
    · have hclosure := h.ofList_reached hseed hdone
      have hsize : (closeOver seed graph).size = w.reached.length := by
        refine NameSet.size_eq_length h.nodup fun n => ?_
        rw [← hclosure, NameSet.mem_ofList]
      rw [hdone, List.length_nil, Nat.add_zero] at hcount
      exact .inl ⟨hdone, hcount.trans hsize.symm, hclosure⟩
    · have hwaits : 0 < w.frontier.length := List.length_pos_iff.mpr hdone
      exact .inr ⟨hdone, by omega, exists_round hdone⟩
  · intro other hother
    exact closeOver_congr fun a b => (hother a).mem_iff

/-- Names that lead to themselves, to each other, twice to the same name and to one that has no entry. -/
def knottedNames : NameGraph :=
  .ofList [("A", ["B", "B", "A"]), ("B", ["A", "C"]), ("D", ["A"])]

theorem closeOver_least_knotted :
    ["B", "A"].Perm (NameSet.ofList ["A", "B"]).toList ∧
    Rounds knottedNames 3 (.start ["B", "A"]) ⟨["B", "A", "C"], []⟩ ∧
    (closeOver (.ofList ["A", "B"]) knottedNames).size = 3 ∧
    .ofList ["B", "A", "C"] = closeOver (.ofList ["A", "B"]) knottedNames ∧
    closeOver (.ofList ["A", "B"]) (knottedNames.mapValues fun _ names => names.reverse) =
      closeOver (.ofList ["A", "B"]) knottedNames := by
  have hseed : ["B", "A"].Perm (NameSet.ofList ["A", "B"]).toList := by decide
  have hlast : Round knottedNames ⟨["B", "A"], ["B", "A"]⟩ ⟨["B", "A"], ["B"]⟩ :=
    ⟨["B"], [], ["A", "B", "B"], "A", rfl, by decide, rfl⟩
  have hnew : Round knottedNames ⟨["B", "A"], ["B"]⟩ ⟨["B", "A", "C"], ["C"]⟩ :=
    ⟨[], [], ["C", "A"], "B", rfl, by decide, rfl⟩
  have hnone : Round knottedNames ⟨["B", "A", "C"], ["C"]⟩ ⟨["B", "A", "C"], []⟩ :=
    ⟨[], [], [], "C", rfl, by decide, rfl⟩
  have hrounds : Rounds knottedNames 3 (.start ["B", "A"]) ⟨["B", "A", "C"], []⟩ :=
    .step hlast (.step hnew (.step hnone (.refl _)))
  have hturned : ∀ a, (NameGraph.next (knottedNames.mapValues fun _ names => names.reverse) a).Perm
      (knottedNames.next a) := by
    intro a
    rw [NameGraph.next, NameGraph.next, OrderedMap.get?_mapValues]
    cases knottedNames.get? a with
    | none => exact .refl _
    | some names => exact List.reverse_perm names
  obtain ⟨-, hends, hlists⟩ := closeOver_least (.ofList ["A", "B"]) knottedNames
  rcases hends _ hseed _ _ hrounds with ⟨-, hk, hclosure⟩ | ⟨hwaits, -⟩
  · exact ⟨hseed, hrounds, hk.symm, hclosure, hlists _ hturned⟩
  · exact absurd rfl hwaits

end LuauBindings
