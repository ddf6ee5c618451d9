import Mathlib.Data.List.Forall2

/-!
# Steps that may fail

A sequence of steps has a result if every step has one, and fails as its first failing step does. A list of
steps has for its results what the steps have for theirs.
-/

namespace LuauBindings
variable {α β ε δ : Type} {a : α} {b : β} {e : ε}

theorem bind_eq_ok {x : Except ε α} {f : α → Except ε β} :
    (x >>= f) = .ok b ↔ ∃ a, x = .ok a ∧ f a = .ok b := by
  cases x <;> simp [bind, Except.bind]

theorem bind_eq_error {x : Except ε α} {f : α → Except ε β} :
    (x >>= f) = .error e ↔ x = .error e ∨ ∃ a, x = .ok a ∧ f a = .error e := by
  cases x <;> simp [bind, Except.bind]

theorem map_eq_ok {x : Except ε α} {f : α → β} : x.map f = .ok b ↔ ∃ a, x = .ok a ∧ f a = b := by
  cases x <;> simp [Except.map]

theorem map_eq_error {x : Except ε α} {f : α → β} : x.map f = .error e ↔ x = .error e := by
  cases x <;> simp [Except.map]

theorem mapError_eq_error {x : Except δ α} {f : δ → ε} :
    x.mapError f = .error e ↔ ∃ d, x = .error d ∧ f d = e := by
  cases x with
  | error d =>
    change Except.error (f d) = (.error e : Except ε α) ↔ _
    simp
  | ok a =>
    change Except.ok a = (.error e : Except ε α) ↔ _
    simp

/-- A list of steps fails as the first of them that fails. -/
theorem mapM_eq_error_iff {f : α → Except ε β} {l : List α} : l.mapM f = .error e ↔
    ∃ before a after, l = before ++ a :: after ∧ (∀ a' ∈ before, ∃ b, f a' = .ok b) ∧ f a = .error e := by
  induction l with
  | nil => simp [pure, Except.pure]
  | cons a l ih =>
    rw [List.mapM_cons, bind_eq_error]
    constructor
    · rintro (h | ⟨b, hb, h⟩)
      · exact ⟨[], a, l, rfl, by simp, h⟩
      · rcases bind_eq_error.mp h with h | ⟨bs, -, h⟩
        · obtain ⟨before, a', after, rfl, hbefore, h⟩ := ih.mp h
          exact ⟨a :: before, a', after, rfl, List.forall_mem_cons.mpr ⟨⟨b, hb⟩, hbefore⟩, h⟩
        · cases h
    · rintro ⟨before, a', after, hl, hbefore, h⟩
      cases before with
      | nil =>
        cases hl
        exact .inl h
      | cons a'' before =>
        cases hl
        obtain ⟨⟨b, hb⟩, hbefore⟩ := List.forall_mem_cons.mp hbefore
        exact .inr ⟨b, hb, bind_eq_error.mpr (.inl (ih.mpr ⟨before, a', after, rfl, hbefore, h⟩))⟩

theorem exists_of_mapM_eq_error {f : α → Except ε β} {l : List α} (h : l.mapM f = .error e) :
    ∃ a ∈ l, f a = .error e := by
  obtain ⟨before, a, after, rfl, -, ha⟩ := mapM_eq_error_iff.mp h
  exact ⟨a, by simp, ha⟩

theorem mapM_eq_of_forall₂ {f : α → Except ε δ} {g : β → Except ε δ} {l : List α} {m : List β}
    (h : List.Forall₂ (fun a b => f a = g b) l m) : l.mapM f = m.mapM g := by
  induction h with
  | nil => rfl
  | cons hab _ ih => rw [List.mapM_cons, List.mapM_cons, hab, ih]

theorem mapM_congr {f g : α → Except ε β} {l : List α} (h : ∀ a ∈ l, f a = g a) :
    l.mapM f = l.mapM g :=
  mapM_eq_of_forall₂ (List.forall₂_same.mpr h)

theorem map_eq_append_cons {f : α → β} {l : List α} {before after : List β}
    (h : l.map f = before ++ b :: after) : ∃ before' a after', l = before' ++ a :: after' ∧
      before'.map f = before ∧ f a = b ∧ after'.map f = after := by
  obtain ⟨before', rest, rfl, hbefore, hrest⟩ := List.map_eq_append_iff.mp h
  obtain ⟨a, after', rfl, ha, hafter⟩ := List.map_eq_cons_iff.mp hrest
  exact ⟨before', a, after', rfl, hbefore, ha, hafter⟩

theorem exists_mem_of_forall₂ {R : α → β → Prop} {l : List α} {m : List β} (h : List.Forall₂ R l m)
    (ha : a ∈ l) : ∃ b ∈ m, R a b := by
  induction h with
  | nil => cases ha
  | @cons a' b l m hab _ ih =>
    rcases List.mem_cons.mp ha with rfl | ha
    · exact ⟨b, List.mem_cons_self .., hab⟩
    · obtain ⟨b', hb', hR⟩ := ih ha
      exact ⟨b', List.mem_cons_of_mem b hb', hR⟩

theorem pairwise_of_forall₂ {R : α → β → Prop} {P : β → β → Prop} {Q : α → α → Prop} {l : List α}
    {m : List β} (h : List.Forall₂ R l m) (hm : m.Pairwise P)
    (hPQ : ∀ a a' b b', R a b → R a' b' → P b b' → Q a a') : l.Pairwise Q := by
  induction h with
  | nil => exact .nil
  | @cons a b l m hab hlm ih =>
    rw [List.pairwise_cons] at hm
    refine .cons (fun a' ha' => ?_) (ih hm.2)
    obtain ⟨b', hb', hR⟩ := exists_mem_of_forall₂ hlm ha'
    exact hPQ a a' b b' hab hR (hm.1 b' hb')

theorem mapM_eq_ok_iff {f : α → Except ε β} {l : List α} {bs : List β} :
    l.mapM f = .ok bs ↔ List.Forall₂ (fun a b => f a = .ok b) l bs := by
  induction l generalizing bs with
  | nil => simp [pure, Except.pure, eq_comm]
  | cons a l ih =>
    simp only [List.mapM_cons, bind_eq_ok, ih, List.forall₂_cons_left_iff, ← exists_and_left]
    simp [pure, Except.pure, eq_comm]

theorem mapM_eq_ok_map {f : α → Except ε β} {g : α → β} {l : List α} (h : ∀ a ∈ l, f a = .ok (g a)) :
    l.mapM f = .ok (l.map g) := by
  rw [mapM_eq_ok_iff, List.forall₂_map_right_iff]
  exact List.forall₂_same.mpr h

theorem mem_of_mapM_eq_ok {f : α → Except ε β} {l : List α} {bs : List β} (h : l.mapM f = .ok bs) :
    b ∈ bs ↔ ∃ a ∈ l, f a = .ok b := by
  rw [mapM_eq_ok_iff] at h
  induction h with
  | nil => simp
  | cons hb _ ih =>
    simp only [List.mem_cons, exists_eq_or_imp, hb, Except.ok.injEq]
    exact or_congr eq_comm ih

theorem mapM_eq_ok_of_forall {f g : α → Except ε β} {l : List α} {bs : List β}
    (hfg : ∀ a ∈ l, ∀ b, f a = .ok b → g a = .ok b) (h : l.mapM f = .ok bs) : l.mapM g = .ok bs := by
  rw [mapM_eq_ok_iff] at h ⊢
  exact ((List.forall₂_and_left ..).mpr ⟨hfg, h⟩).imp fun _ b h => h.1 b h.2

end LuauBindings
