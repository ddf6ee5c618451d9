import LuauBindings.Text.Pattern
import Mathlib.Data.List.Infix

/-!
# Occurrences in texts put together from parts

`Apart p s t` says that no occurrence of `p` begins in `s` and ends in the text `t` after it; then the
occurrences in `s ++ t` are those of the two parts (`Apart.infix_append`, `Apart.occurrences_append`).
A part that is `Sealed` is apart from whatever stands on its two sides, because no proper end of `p`
fits its start and no proper start of `p` fits its end. Of a fixed text this is a matter of computation,
and it carries over to every text that begins and ends with fixed texts that are sealed.
-/

namespace LuauBindings.Text
variable {p q f s t : List Char}

/-- No occurrence of `p` begins in `s` and ends in the text `t` after it. -/
def Apart (p s t : List Char) : Prop :=
  ∀ u v, u ≠ [] → v ≠ [] → p = u ++ v → u <:+ s → ¬ v <+: t

/-- The number of places of `s` at which `p` stands, overlaps included. -/
def occurrences (p : List Char) : List Char → Nat
  | [] => if p.isEmpty then 1 else 0
  | c :: s => (if p.isPrefixOf (c :: s) then 1 else 0) + occurrences p s

/-- `q` stands right after every occurrence of `p` in `s`. -/
def Followed (p q s : List Char) : Prop :=
  ∀ before after, s = before ++ (p ++ after) → q <+: after

theorem occurrences_nil (hp : p ≠ []) : occurrences p [] = 0 := by
  simp [occurrences, hp]

theorem occurrences_cons_of_found {c : Char} (h : p <+: c :: s) :
    occurrences p (c :: s) = 1 + occurrences p s := by
  rw [occurrences, if_pos (List.isPrefixOf_iff_prefix.mpr h)]

theorem occurrences_cons_of_not_found {c : Char} (h : ¬ p <+: c :: s) :
    occurrences p (c :: s) = occurrences p s := by
  rw [occurrences, if_neg (fun h' => h (List.isPrefixOf_iff_prefix.mp h')), Nat.zero_add]

theorem occurrences_eq_zero (h : ¬ p <:+: s) : occurrences p s = 0 := by
  induction s with
  | nil => exact occurrences_nil fun hp => h (hp ▸ List.nil_infix)
  | cons c s ih =>
    rw [List.infix_cons_iff, not_or] at h
    rw [occurrences_cons_of_not_found h.1, ih h.2]

theorem occurrences_self (hp : p ≠ []) : occurrences p p = 1 := by
  obtain ⟨c, l, rfl⟩ := List.exists_cons_of_ne_nil hp
  have hl : ¬ c :: l <:+: l := fun h => by
    have := h.length_le
    rw [List.length_cons] at this
    omega
  rw [occurrences_cons_of_found (List.prefix_refl _), occurrences_eq_zero hl]

theorem followed_nil (hp : p ≠ []) : Followed p q [] := by
  intro before after h
  have hparts := List.append_eq_nil_iff.mp h.symm
  exact absurd (List.append_eq_nil_iff.mp hparts.2).1 hp

theorem followed_cons_iff {c : Char} :
    Followed p q (c :: s) ↔ (p <+: c :: s → p ++ q <+: c :: s) ∧ Followed p q s := by
  constructor
  · intro h
    refine ⟨?_, fun before after hs => h (c :: before) after (by rw [hs, List.cons_append])⟩
    rintro ⟨after, hafter⟩
    rw [← hafter]
    exact (List.prefix_append_right_inj p).mpr (h [] after hafter.symm)
  · rintro ⟨hhead, htail⟩ before after hs
    cases before with
    | nil =>
      have hfront : p <+: c :: s := ⟨after, hs.symm⟩
      have := hhead hfront
      rw [hs, List.nil_append] at this
      exact (List.prefix_append_right_inj p).mp this
    | cons d before => exact htail before after (List.cons.inj hs).2

namespace Apart

theorem of_suffix {s' : List Char} (h : Apart p s t) (hs : s' <:+ s) : Apart p s' t :=
  fun u v hu hv hp hus => h u v hu hv hp (hus.trans hs)

theorem tail {c : Char} (h : Apart p (c :: s) t) : Apart p s t :=
  h.of_suffix (List.suffix_cons c s)

theorem prefix_append_iff (h : Apart p s t) (hs : s ≠ []) : p <+: s ++ t ↔ p <+: s := by
  refine ⟨fun hp => ?_, fun hp => hp.trans (List.prefix_append s t)⟩
  rcases List.prefix_or_prefix_of_prefix hp (List.prefix_append s t) with hps | ⟨v, hv⟩
  · exact hps
  · -- the rest `v` of the occurrence behind `s` stands at the front of `t`
    rcases eq_or_ne v [] with rfl | hne
    · exact ⟨[], by simp [← hv]⟩
    · rw [← hv, List.prefix_append_right_inj] at hp
      exact absurd hp (h s v hs hne hv.symm (List.suffix_refl s))

theorem infix_append (h : Apart p s t) : p <:+: s ++ t ↔ p <:+: s ∨ p <:+: t := by
  induction s with
  | nil =>
    refine ⟨.inr, fun hp => hp.elim (fun hp => ?_) id⟩
    rw [List.infix_nil.mp hp]
    exact List.nil_infix
  | cons c s ih =>
    rw [List.cons_append, List.infix_cons_iff, ih h.tail, List.infix_cons_iff, ← List.cons_append,
      h.prefix_append_iff (List.cons_ne_nil c s), or_assoc]

theorem occurrences_append (h : Apart p s t) (hp : p ≠ []) :
    occurrences p (s ++ t) = occurrences p s + occurrences p t := by
  induction s with
  | nil => rw [List.nil_append, occurrences_nil hp, Nat.zero_add]
  | cons c s ih =>
    have hfront := h.prefix_append_iff (List.cons_ne_nil c s)
    rw [List.cons_append] at hfront ⊢
    by_cases hc : p <+: c :: s
    · rw [occurrences_cons_of_found hc, occurrences_cons_of_found (hfront.mpr hc), ih h.tail,
        Nat.add_assoc]
    · rw [occurrences_cons_of_not_found hc,
        occurrences_cons_of_not_found (fun h' => hc (hfront.mp h')), ih h.tail]

theorem followed_append (h : Apart p s t) (hs : Followed p q s) (ht : Followed p q t) :
    Followed p q (s ++ t) := by
  induction s with
  | nil => exact ht
  | cons c s ih =>
    obtain ⟨hhead, htail⟩ := followed_cons_iff.mp hs
    refine followed_cons_iff.mpr ⟨fun hp => ?_, ih h.tail htail⟩
    have hps : p <+: c :: s := (h.prefix_append_iff (List.cons_ne_nil c s)).mp hp
    exact (hhead hps).trans (List.prefix_append (c :: s) t)

end Apart

/-- No proper end of `p` agrees with the start of `s`, as far as both go. -/
def SealedStart (p s : List Char) : Prop :=
  ∀ i < p.length, 0 < i → ¬ p.drop i <+: s ∧ ¬ s <+: p.drop i

/-- No proper start of `p` agrees with the end of `s`, as far as both go. -/
def SealedEnd (p s : List Char) : Prop :=
  ∀ i < p.length, 0 < i → ¬ p.take i <:+ s ∧ ¬ s <:+ p.take i

instance (p s : List Char) : Decidable (SealedStart p s) :=
  inferInstanceAs (Decidable (∀ i < p.length, 0 < i → ¬ p.drop i <+: s ∧ ¬ s <+: p.drop i))

instance (p s : List Char) : Decidable (SealedEnd p s) :=
  inferInstanceAs (Decidable (∀ i < p.length, 0 < i → ¬ p.take i <:+ s ∧ ¬ s <:+ p.take i))

theorem SealedStart.apart (h : SealedStart p t) : Apart p s t := by
  rintro u v hu hv rfl - hvt
  have hlt : u.length < (u ++ v).length := by
    rw [List.length_append]
    exact Nat.lt_add_of_pos_right (List.length_pos_iff.mpr hv)
  refine (h u.length hlt (List.length_pos_iff.mpr hu)).1 ?_
  rwa [List.drop_left]

theorem SealedEnd.apart (h : SealedEnd p s) : Apart p s t := by
  rintro u v hu hv rfl hus -
  have hlt : u.length < (u ++ v).length := by
    rw [List.length_append]
    exact Nat.lt_add_of_pos_right (List.length_pos_iff.mpr hv)
  refine (h u.length hlt (List.length_pos_iff.mpr hu)).1 ?_
  rwa [List.take_left]

theorem SealedStart.append (h : SealedStart p s) (t : List Char) : SealedStart p (s ++ t) := by
  intro i hi hpos
  obtain ⟨hend, hstart⟩ := h i hi hpos
  refine ⟨fun hpre => ?_, fun hpre => hstart ((List.prefix_append s t).trans hpre)⟩
  rcases List.prefix_or_prefix_of_prefix hpre (List.prefix_append s t) with h' | h'
  exacts [hend h', hstart h']

theorem SealedEnd.append (h : SealedEnd p t) (s : List Char) : SealedEnd p (s ++ t) := by
  intro i hi hpos
  obtain ⟨hstart, hend⟩ := h i hi hpos
  refine ⟨fun hsuf => ?_, fun hsuf => hend ((List.suffix_append s t).trans hsuf)⟩
  rcases List.suffix_or_suffix_of_suffix hsuf (List.suffix_append s t) with h' | h'
  exacts [hstart h', hend h']

/-- A character that stands in `p` at the front at most seals the start of a text. -/
theorem sealedStart_cons {c : Char} (h : c ∉ p.tail) (s : List Char) : SealedStart p (c :: s) := by
  intro i hi hpos
  -- the first character of a proper end of `p` is in the tail of `p`
  have hmem : ∀ d ∈ p.drop i, d ≠ c := by
    rintro d hd rfl
    rw [show i = 1 + (i - 1) from by omega, ← List.drop_drop, List.drop_one] at hd
    exact h (List.mem_of_mem_drop hd)
  have hne : p.drop i ≠ [] := by
    rw [ne_eq, List.drop_eq_nil_iff]
    omega
  obtain ⟨d, l, hdl⟩ := List.exists_cons_of_ne_nil hne
  rw [hdl] at hmem ⊢
  have hd : d ≠ c := hmem d (List.mem_cons_self ..)
  simp [List.cons_prefix_cons, hd, hd.symm]

/-- A text without the first character of `p`, but with one that is not in `p`, is sealed at its end. -/
theorem sealedEnd_of_not_mem {c d : Char} (hc : p.head? = some c) (hcs : c ∉ s) (hd : d ∈ s)
    (hdp : d ∉ p) : SealedEnd p s := by
  intro i hi hpos
  obtain ⟨l, rfl⟩ := List.head?_eq_some_iff.mp hc
  refine ⟨fun hsuf => hcs (hsuf.subset ?_), fun hsuf => hdp (List.mem_of_mem_take (hsuf.subset hd))⟩
  obtain ⟨j, rfl⟩ := Nat.exists_eq_succ_of_ne_zero hpos.ne'
  exact List.mem_cons_self ..

/-- Apart from whatever stands before and after. -/
structure Sealed (p s : List Char) : Prop where
  start : SealedStart p s
  stop : SealedEnd p s

theorem Sealed.of_ends {first last : List Char} (hf : SealedStart p first) (hl : SealedEnd p last)
    (s : List Char) : Sealed p (first ++ s ++ last) :=
  ⟨by rw [List.append_assoc]; exact hf.append _, hl.append _⟩

/-- An occurrence of `p` takes no character of `f`, whatever stands around. -/
structure Bars (p f : List Char) : Prop extends Sealed p f where
  absent : ¬ p <:+: f

instance (p f : List Char) : Decidable (Bars p f) :=
  decidable_of_iff (SealedStart p f ∧ SealedEnd p f ∧ occursIn p f = false)
    ⟨fun h => ⟨⟨h.1, h.2.1⟩, fun hf => by simp [occursIn_iff.mpr hf] at h⟩,
      fun h => ⟨h.start, h.stop, Bool.eq_false_iff.mpr fun hf => h.absent (occursIn_iff.mp hf)⟩⟩

namespace Bars

theorem infix_right (h : Bars p f) : p <:+: f ++ t ↔ p <:+: t := by
  rw [h.stop.apart.infix_append, or_iff_right h.absent]

theorem infix_left (h : Bars p f) : p <:+: s ++ f ↔ p <:+: s := by
  rw [h.start.apart.infix_append, or_iff_left h.absent]

theorem infix_between (h : Bars p f) : p <:+: s ++ (f ++ t) ↔ p <:+: s ∨ p <:+: t := by
  rw [(h.start.append t).apart.infix_append, h.infix_right]

end Bars

theorem infix_of_infix_intercalate {l : List (List Char)} (h : Sealed p f)
    (hp : p <:+: f.intercalate l) (hne : p ≠ []) : p <:+: f ∨ ∃ x ∈ l, p <:+: x := by
  induction l with
  | nil => exact absurd (List.infix_nil.mp hp) hne
  | cons x l ih =>
    cases l with
    | nil => exact .inr ⟨x, List.mem_singleton_self x, by simpa using hp⟩
    | cons y l =>
      rw [List.intercalate_cons_cons, List.append_assoc,
        (h.start.append _).apart.infix_append, h.stop.apart.infix_append] at hp
      rcases hp with hx | hf | hrest
      · exact .inr ⟨x, List.mem_cons_self .., hx⟩
      · exact .inl hf
      · rcases ih hrest with hf | ⟨z, hz, hpz⟩
        exacts [.inl hf, .inr ⟨z, List.mem_cons_of_mem _ hz, hpz⟩]

theorem infix_intercalate_of_mem {l : List (List Char)} {x : List Char} (hx : x ∈ l) :
    x <:+: f.intercalate l := by
  induction l with
  | nil => simp at hx
  | cons y l ih =>
    cases l with
    | nil =>
      rw [List.mem_singleton.mp hx]
      simp
    | cons z l =>
      rw [List.intercalate_cons_cons]
      rcases List.mem_cons.mp hx with rfl | hx
      · exact ⟨[], f ++ f.intercalate (z :: l), by simp⟩
      · exact (ih hx).trans (List.suffix_append _ _).isInfix

theorem Bars.infix_intercalate {l : List (List Char)} (h : Bars p f) (hne : p ≠ []) :
    p <:+: f.intercalate l ↔ ∃ x ∈ l, p <:+: x := by
  constructor
  · intro hp
    exact (infix_of_infix_intercalate h.toSealed hp hne).resolve_left h.absent
  · rintro ⟨x, hx, hp⟩
    exact hp.trans (infix_intercalate_of_mem hx)

end LuauBindings.Text
