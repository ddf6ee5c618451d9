import LuauBindings.Cli.Config
import LuauBindings.Proofs.Hierarchy.Pruning

/-!
# The seed of a pruning, and its account

Every kept name is kept for one name of the seed: a path leads down from that name and up again, and no
second name has a part in it. So the names kept for several seeds are those kept for each of them
(`ClassMap.kept_append`), a longer seed keeps what a shorter one keeps, and the seed counts as a set
(`prune_congr_seed`).

`PruneStats.Accounts` says what the figures of a pruning mean. Names that are no classes make it less than
obvious: the seed and the ancestors may hold some, so the retained classes are not the sum of the three sets
but the classes among them (`covers_iff`).
-/

namespace LuauBindings
open Relation

section Seeds
variable {classes : ClassMap} {allowed other wider : List String} {d n : String}

namespace ClassMap

theorem below_append : classes.Below (allowed ++ other) d ↔ classes.Below allowed d ∨ classes.Below other d := by
  simp only [Below, List.mem_append, or_and_right, exists_or]

theorem kept_append : classes.Kept (allowed ++ other) n ↔ classes.Kept allowed n ∨ classes.Kept other n := by
  simp only [Kept, below_append, or_and_right, exists_or]

end ClassMap

/-- A wider seed leaves all classes that the narrower one leaves, in the same order. -/
theorem prune_sublist_prune (h : ∀ n ∈ allowed, n ∈ wider) :
    (prune classes allowed).2.entries.Sublist (prune classes wider).2.entries := by
  refine List.monotone_filter_right _ fun e he => ?_
  rw [decide_eq_true_eq] at he ⊢
  exact mem_inheritClosure_kept.mpr ((mem_inheritClosure_kept.mp he).mono h)

/-- The order and the repetition of names in the seed do not matter. -/
theorem prune_congr_seed (h : ∀ n, n ∈ other ↔ n ∈ allowed) : prune classes other = prune classes allowed := by
  have hseed : NameSet.ofList other = NameSet.ofList allowed :=
    NameSet.ext fun n => by rw [NameSet.mem_ofList, NameSet.mem_ofList, h]
  simp only [prune, hseed]

end Seeds

/-- The classes left for two seeds together are those left for each of them. So more allowed names beside the
usual ones never cost a class, and of the seed only the set of its names counts. -/
theorem prune_distributes (classes : ClassMap) (allowed other : List String) :
    (∀ n, n ∈ (prune classes (allowed ++ other)).2.keys ↔
      n ∈ (prune classes allowed).2.keys ∨ n ∈ (prune classes other).2.keys) ∧
    (∀ names more : List String, (∀ n ∈ names, n ∈ more) →
      (prune classes (Config.allowedWith names)).2.entries.Sublist
        (prune classes (Config.allowedWith more)).2.entries) ∧
    ∀ again : List String, (∀ n, n ∈ again ↔ n ∈ allowed) → prune classes again = prune classes allowed := by
  refine ⟨fun n => ?_, fun names more hmore => prune_sublist_prune fun n hn => ?_, fun _ => prune_congr_seed⟩
  · rw [mem_keys_prune, mem_keys_prune, mem_keys_prune, ClassMap.kept_append, and_or_left]
  · exact mem_allowedWith.mpr ((mem_allowedWith.mp hn).imp_right (hmore n))

theorem prune_distributes_tangled :
    "Loop" ∈ (prune tangledHierarchy (["Right"] ++ ["Far"])).2.keys ∧
    "Lone" ∈ (prune tangledHierarchy (["Right"] ++ ["Far"])).2.keys ∧
    (∀ n ∈ ["Lone"], n ∈ ["Far", "Lone"]) ∧
    (prune tangledHierarchy (Config.allowedWith ["Lone"])).2.entries.Sublist
      (prune tangledHierarchy (Config.allowedWith ["Far", "Lone"])).2.entries ∧
    (∀ n, n ∈ ["Right", "Right"] ↔ n ∈ ["Right"]) ∧
    prune tangledHierarchy ["Right", "Right"] = prune tangledHierarchy ["Right"] := by
  obtain ⟨hunion, hmore, hseed⟩ := prune_distributes tangledHierarchy ["Right"] ["Far"]
  have hsub : ∀ n ∈ ["Lone"], n ∈ ["Far", "Lone"] := by decide
  have hset : ∀ n, n ∈ ["Right", "Right"] ↔ n ∈ ["Right"] := by simp
  exact ⟨(hunion _).mpr (.inl (by decide)), (hunion _).mpr (.inr (by decide)), hsub, hmore _ _ hsub, hset,
    hseed _ hset⟩

namespace PruneStats

/-- A name of the seed, or one that was added. -/
def Covers (s : PruneStats) (allowed : List String) (n : String) : Prop :=
  n ∈ allowed ∨ n ∈ s.descendantsAdded ∨ n ∈ s.ancestorsAdded

instance (s : PruneStats) (allowed : List String) : DecidablePred (s.Covers allowed) := fun n => by
  unfold Covers
  infer_instance

/-- The account `s` of a pruning of `classes` by `allowed` that leaves `left`. -/
structure Accounts (classes : ClassMap) (allowed : List String) (left : ClassMap) (s : PruneStats) : Prop where
  seedCount : s.seedCount = allowed.eraseDups.length
  seed_descendants : ∀ n ∈ s.descendantsAdded, n ∉ allowed
  seed_ancestors : ∀ n ∈ s.ancestorsAdded, n ∉ allowed
  descendants_ancestors : ∀ n ∈ s.ancestorsAdded, n ∉ s.descendantsAdded
  /-- One step or more leads down from the seed to a descendant. -/
  descends : ∀ d ∈ s.descendantsAdded, d ∈ classes.keys ∧
    ∃ seed ∈ allowed, TransGen (fun parent child => classes.Lists child parent) seed d
  ancestor_listed : ∀ a ∈ s.ancestorsAdded, ∃ c ∈ left.keys, left.Lists c a
  retained : s.retainedCount = (classes.keys.filter fun n => s.Covers allowed n).length
  size_left : left.size = s.retainedCount
  mem_removed : ∀ n, n ∈ s.removed ↔ n ∈ classes.keys ∧ ¬ s.Covers allowed n
  total : s.retainedCount + s.removed.size = classes.size

end PruneStats

section Account
variable {classes : ClassMap} {allowed : List String} {a d n : String}

/-- The names of the seed and those added are the kept ones, classes or not. -/
theorem covers_iff : (prune classes allowed).1.Covers allowed n ↔ classes.Kept allowed n := by
  rw [PruneStats.Covers, mem_descendantsAdded, mem_ancestorsAdded]
  constructor
  · rintro (hseed | ⟨hbelow, -⟩ | ⟨hkept, -⟩)
    · exact ClassMap.Below.kept ⟨n, hseed, .refl⟩
    · exact hbelow.kept
    · exact hkept
  · intro hkept
    by_cases hseed : n ∈ allowed
    · exact .inl hseed
    · by_cases hbelow : classes.Below allowed n
      · exact .inr (.inl ⟨hbelow, hseed⟩)
      · exact .inr (.inr ⟨hkept, hbelow⟩)

theorem descends_of_mem_descendantsAdded (h : d ∈ (prune classes allowed).1.descendantsAdded) :
    d ∈ classes.keys ∧ ∃ seed ∈ allowed, TransGen (fun parent child => classes.Lists child parent) seed d := by
  obtain ⟨⟨seed, hseed, hpath⟩, hfresh⟩ := mem_descendantsAdded.mp h
  rcases ReflTransGen.cases_head_iff.mp hpath with rfl | ⟨parent, hstep, hrest⟩
  · exact absurd hseed hfresh
  · exact ⟨hstep.mem_keys, seed, hseed, transGen_swap.mpr (.head' hstep hrest)⟩

/-- A name that was added as an ancestor was reached by a step from a class that is kept. -/
theorem listed_of_mem_ancestorsAdded (h : a ∈ (prune classes allowed).1.ancestorsAdded) :
    ∃ c ∈ (prune classes allowed).2.keys, (prune classes allowed).2.Lists c a := by
  obtain ⟨⟨d, hd, hpath⟩, hbelow⟩ := mem_ancestorsAdded.mp h
  rcases ReflTransGen.cases_tail_iff _ _ _ |>.mp hpath with rfl | ⟨c, hrest, hstep⟩
  · exact absurd hd hbelow
  · have hc : c ∈ (prune classes allowed).2.keys := mem_keys_prune.mpr ⟨hstep.mem_keys, d, hd, hrest⟩
    exact ⟨c, hc, (ClassMap.lists_congr (get?_prune hc)).mpr hstep⟩

end Account

/-- A pruning accounts for every name: for those of the seed, those added and those removed. -/
theorem prune_accounts (classes : ClassMap) (allowed : List String) :
    (prune classes allowed).1.Accounts classes allowed (prune classes allowed).2 where
  seedCount := NameSet.size_eq_length (nodup_eraseDups allowed) fun n => by
    rw [NameSet.mem_ofList, List.mem_eraseDups]
  seed_descendants _ hn := (mem_descendantsAdded.mp hn).2
  seed_ancestors n hn hseed := (mem_ancestorsAdded.mp hn).2 ⟨n, hseed, .refl⟩
  descendants_ancestors _ hn hdown := (mem_ancestorsAdded.mp hn).2 (mem_descendantsAdded.mp hdown).1
  descends _ := descends_of_mem_descendantsAdded
  ancestor_listed _ := listed_of_mem_ancestorsAdded
  retained := by
    have hkeys : (prune classes allowed).2.keys =
        classes.keys.filter fun n => (prune classes allowed).1.Covers allowed n := by
      rw [keys_prune]
      exact List.filter_congr fun n _ => decide_eq_decide.mpr (mem_inheritClosure_kept.trans covers_iff.symm)
    rw [← hkeys, OrderedMap.length_keys]
    rfl
  size_left := rfl
  mem_removed n := by rw [mem_removed, covers_iff]
  total := retainedCount_add_removed classes allowed

/-- A parent that is no class is among the ancestors but not among the retained classes. -/
example : "Gone" ∈ (prune tangledHierarchy ["Right"]).1.ancestorsAdded ∧
    (prune tangledHierarchy ["Right"]).1.retainedCount = 5 ∧
    (prune tangledHierarchy ["Right"]).1.removed.toList = ["Far", "Lone"] := by
  decide

end LuauBindings
