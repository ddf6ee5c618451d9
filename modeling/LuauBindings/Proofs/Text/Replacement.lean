import LuauBindings.Proofs.Text.Occurrence
import Mathlib.Data.List.Basic

/-!
# Replacement

`pieces` and `replaceAll` walk through a text from left to right: an occurrence of the pattern is passed
over as a whole, any other character alone. `scan_induction` is induction along this walk. Replacement
goes into the parts of a text that are apart (`Apart.replaceAll_append`), and it brings a text `q` about
only if `q` is in the replacement or was there before (`not_infix_replaceAll`).

A pattern whose first character does not recur in it may be replaced by an extension of itself. That can
always be undone (`replaceAll_extension_cancel`). If moreover the extension does not make a second
occurrence, every occurrence of the pattern in the result is an extended one.
-/

namespace LuauBindings.Text
variable {p q r s t : List Char}

theorem piecesFrom_eq_pieces_drop (p : List Char) (skip : Nat) (s : List Char) :
    piecesFrom p skip s = pieces p (s.drop skip) := by
  induction s generalizing skip with
  | nil => simp [piecesFrom]
  | cons c s ih =>
    cases skip with
    | zero => rfl
    | succ skip => rw [piecesFrom, ih, List.drop_succ_cons]

theorem pieces_ne_nil (p s : List Char) : pieces p s ≠ [] :=
  piecesFrom_ne_nil p 0 s

theorem pieces_pattern_append (hp : p ≠ []) (s : List Char) :
    pieces p (p ++ s) = [] :: pieces p s := by
  obtain ⟨c, l, rfl⟩ := List.exists_cons_of_ne_nil hp
  have hfront : (c :: l).isPrefixOf (c :: (l ++ s)) = true :=
    List.isPrefixOf_iff_prefix.mpr (List.prefix_append (c :: l) s)
  rw [pieces, List.cons_append, piecesFrom, if_pos hfront, piecesFrom_eq_pieces_drop,
    List.length_cons, Nat.add_sub_cancel, List.drop_left]

theorem pieces_cons {c : Char} (h : ¬ p <+: c :: s) :
    pieces p (c :: s) = (pieces p s).modifyHead (c :: ·) := by
  rw [pieces, piecesFrom, if_neg fun h' => h (List.isPrefixOf_iff_prefix.mp h')]
  rfl

/-- Induction along the walk through a text that passes over the occurrences of `p`. -/
@[elab_as_elim]
theorem scan_induction {motive : List Char → Prop} (hp : p ≠ []) (nil : motive [])
    (found : ∀ s, motive s → motive (p ++ s))
    (cons : ∀ c s, ¬ p <+: c :: s → motive s → motive (c :: s)) (s : List Char) : motive s := by
  induction hn : s.length using Nat.strong_induction_on generalizing s with
  | _ n ih =>
    subst hn
    by_cases h : p <+: s
    · obtain ⟨rest, rfl⟩ := h
      refine found rest (ih rest.length ?_ rest rfl)
      rw [List.length_append]
      exact Nat.lt_add_of_pos_left (List.length_pos_iff.mpr hp)
    · cases s with
      | nil => exact nil
      | cons c s => exact cons c s h (ih s.length (Nat.lt_succ_self _) s rfl)

theorem intercalate_modifyHead {l : List (List Char)} (hl : l ≠ []) (c : Char) :
    r.intercalate (l.modifyHead (c :: ·)) = c :: r.intercalate l := by
  obtain ⟨x, l, rfl⟩ := List.exists_cons_of_ne_nil hl
  cases l with
  | nil => simp
  | cons y l => simp [List.intercalate_cons_cons]

@[simp] theorem replaceAll_nil (p r : List Char) : replaceAll p r [] = [] := by
  simp [replaceAll]

theorem replaceAll_pattern_append (hp : p ≠ []) (r s : List Char) :
    replaceAll p r (p ++ s) = r ++ replaceAll p r s := by
  obtain ⟨x, l, hxl⟩ := List.exists_cons_of_ne_nil (pieces_ne_nil p s)
  rw [replaceAll, replaceAll, pieces_pattern_append hp, hxl, List.intercalate_cons_cons,
    List.nil_append]

theorem replaceAll_cons {c : Char} (h : ¬ p <+: c :: s) (r : List Char) :
    replaceAll p r (c :: s) = c :: replaceAll p r s := by
  rw [replaceAll, pieces_cons h, intercalate_modifyHead (pieces_ne_nil p s), replaceAll]

theorem intercalate_pieces (hp : p ≠ []) (s : List Char) : p.intercalate (pieces p s) = s := by
  change replaceAll p p s = s
  induction s using scan_induction hp with
  | nil => exact replaceAll_nil p p
  | found s ih => rw [replaceAll_pattern_append hp, ih]
  | cons c s h ih => rw [replaceAll_cons h, ih]

theorem pieces_of_not_infix (h : ¬ p <:+: s) : pieces p s = [s] := by
  induction s with
  | nil => exact pieces_nil p
  | cons c s ih =>
    rw [List.infix_cons_iff, not_or] at h
    rw [pieces_cons h.1, ih h.2, List.modifyHead_cons]

/-- A text without the pattern, and apart from what follows, goes before the first piece. -/
theorem pieces_append (hs : ¬ p <:+: s) (h : Apart p s t) :
    pieces p (s ++ t) = (pieces p t).modifyHead (s ++ ·) := by
  induction s with
  | nil =>
    obtain ⟨x, l, hxl⟩ := List.exists_cons_of_ne_nil (pieces_ne_nil p t)
    rw [List.nil_append, hxl, List.modifyHead_cons, List.nil_append]
  | cons c s ih =>
    rw [List.infix_cons_iff, not_or] at hs
    have hfront : ¬ p <+: c :: (s ++ t) := by
      rw [← List.cons_append, h.prefix_append_iff (List.cons_ne_nil c s)]
      exact hs.1
    rw [List.cons_append, pieces_cons hfront, ih hs.2 h.tail, List.modifyHead_modifyHead]
    rfl

theorem pieces_append_pattern (hp : p ≠ []) (hs : ¬ p <:+: s) (h : Apart p s (p ++ t)) :
    pieces p (s ++ (p ++ t)) = s :: pieces p t := by
  rw [pieces_append hs h, pieces_pattern_append hp, List.modifyHead_cons, List.append_nil]

/-- Texts without the pattern are what is found between its occurrences when they are joined by it. -/
theorem pieces_intercalate {l : List (List Char)} (hp : p ≠ []) (hself : SealedStart p p) (hl : l ≠ [])
    (h : ∀ x ∈ l, ¬ p <:+: x) : pieces p (p.intercalate l) = l := by
  induction l with
  | nil => exact absurd rfl hl
  | cons x l ih =>
    obtain ⟨hx, hrest⟩ := List.forall_mem_cons.mp h
    cases l with
    | nil =>
      rw [List.intercalate_singleton]
      exact pieces_of_not_infix hx
    | cons y l =>
      have hapart : Apart p x (p ++ p.intercalate (y :: l)) := (hself.append _).apart
      rw [List.intercalate_cons_cons, List.append_assoc, pieces_append_pattern hp hx hapart,
        ih (List.cons_ne_nil y l) hrest]

theorem prefix_of_pieces_eq_cons {x : List Char} {l : List (List Char)} (hp : p ≠ [])
    (h : pieces p s = x :: l) : x <+: s := by
  have hs := intercalate_pieces hp s
  rw [h] at hs
  cases l with
  | nil => exact ⟨[], by simpa using hs⟩
  | cons y l =>
    rw [List.intercalate_cons_cons, List.append_assoc] at hs
    exact ⟨_, hs⟩

theorem not_infix_of_mem_pieces {x : List Char} (hp : p ≠ []) (hx : x ∈ pieces p s) :
    ¬ p <:+: x := by
  induction s using scan_induction hp generalizing x with
  | nil =>
    rw [pieces_nil, List.mem_singleton] at hx
    rw [hx, List.infix_nil]
    exact hp
  | found s ih =>
    rw [pieces_pattern_append hp] at hx
    rcases List.mem_cons.mp hx with rfl | hx
    · rw [List.infix_nil]
      exact hp
    · exact ih hx
  | cons c s h ih =>
    obtain ⟨y, l, hyl⟩ := List.exists_cons_of_ne_nil (pieces_ne_nil p s)
    rw [pieces_cons h, hyl, List.modifyHead_cons] at hx
    rw [hyl] at ih
    rcases List.mem_cons.mp hx with rfl | hx
    · -- an occurrence at the front of the longer piece would be one at the front of the text
      have hy : y <+: s := prefix_of_pieces_eq_cons hp hyl
      rw [List.infix_cons_iff, not_or]
      refine ⟨fun hfront => h (hfront.trans ?_), ih (List.mem_cons_self ..)⟩
      exact (List.prefix_cons_inj c).mpr hy
    · exact ih (List.mem_cons_of_mem y hx)

theorem intercalate_map_ofList (separator : String) (l : List (List Char)) :
    separator.intercalate (l.map String.ofList) = String.ofList (separator.toList.intercalate l) := by
  rw [← String.toList_inj, String.toList_intercalate, List.map_map, String.toList_ofList]
  simp only [Function.comp_def, String.toList_ofList, List.map_id']

/-- `result` is `s` with `r` in place of every `p`: both are joined from the same parts, which have no `p`. -/
def Replaced (p r s result : String) : Prop :=
  ∃ parts : List String, (∀ part ∈ parts, ¬ p.toList <:+: part.toList) ∧
    s = p.intercalate parts ∧ result = r.intercalate parts

theorem replaced_replace {p : String} (hp : p.toList ≠ []) (s r : String) :
    Replaced p r s (replace s p r) := by
  refine ⟨(pieces p.toList s.toList).map String.ofList, fun part hpart => ?_, ?_, ?_⟩
  · obtain ⟨x, hx, rfl⟩ := List.mem_map.mp hpart
    rw [String.toList_ofList]
    exact not_infix_of_mem_pieces hp hx
  · rw [intercalate_map_ofList, intercalate_pieces hp, String.ofList_toList]
  · rw [intercalate_map_ofList, replace, replaceAll]

theorem length_pieces (hp : p ≠ []) (hself : SealedEnd p p) (s : List Char) :
    (pieces p s).length = occurrences p s + 1 := by
  induction s using scan_induction hp with
  | nil => rw [pieces_nil, occurrences_nil hp, List.length_singleton]
  | found s ih =>
    rw [pieces_pattern_append hp, List.length_cons, ih, hself.apart.occurrences_append hp,
      occurrences_self hp, Nat.add_comm 1]
  | cons c s h ih => rw [pieces_cons h, List.length_modifyHead, ih, occurrences_cons_of_not_found h]

theorem replaceAll_of_not_infix (h : ¬ p <:+: s) (r : List Char) : replaceAll p r s = s := by
  induction s with
  | nil => exact replaceAll_nil p r
  | cons c s ih =>
    rw [List.infix_cons_iff, not_or] at h
    rw [replaceAll_cons h.1, ih h.2]

/-- A character that is not in the pattern stays. -/
theorem mem_replaceAll {d : Char} (hp : p ≠ []) (hd : d ∉ p) (r : List Char) (h : d ∈ s) :
    d ∈ replaceAll p r s := by
  induction s using scan_induction hp with
  | nil => cases h
  | found s ih =>
    rw [replaceAll_pattern_append hp]
    exact List.mem_append_right r (ih ((List.mem_append.mp h).resolve_left hd))
  | cons c s hno ih =>
    rw [replaceAll_cons hno]
    rcases List.mem_cons.mp h with rfl | h
    · exact List.mem_cons_self ..
    · exact List.mem_cons_of_mem c (ih h)

theorem Apart.replaceAll_append (h : Apart p s t) (hp : p ≠ []) (r : List Char) :
    replaceAll p r (s ++ t) = replaceAll p r s ++ replaceAll p r t := by
  induction s using scan_induction hp with
  | nil => rw [replaceAll_nil, List.nil_append, List.nil_append]
  | found s ih =>
    have hs : Apart p s t := h.of_suffix (List.suffix_append p s)
    rw [List.append_assoc, replaceAll_pattern_append hp, replaceAll_pattern_append hp, ih hs,
      List.append_assoc]
  | cons c s hc ih =>
    -- no occurrence at the front of `s` means none at the front of `s ++ t`, as none crosses over
    have hcst : ¬ p <+: c :: (s ++ t) := by
      rwa [← List.cons_append, h.prefix_append_iff (List.cons_ne_nil c s)]
    rw [List.cons_append, replaceAll_cons hcst, replaceAll_cons hc, ih h.tail, List.cons_append]

theorem Sealed.replaceAll_intercalate {b : List Char} (h : Sealed p b) (hp : p ≠ [])
    (r : List Char) (l : List (List Char)) :
    replaceAll p r (b.intercalate l) = (replaceAll p r b).intercalate (l.map (replaceAll p r)) := by
  induction l with
  | nil => simp
  | cons x l ih =>
    cases l with
    | nil => simp
    | cons y l =>
      have hx : Apart p x (b ++ b.intercalate (y :: l)) := (h.start.append _).apart
      have hb : Apart p b (b.intercalate (y :: l)) := h.stop.apart
      rw [List.intercalate_cons_cons, List.append_assoc, hx.replaceAll_append hp,
        hb.replaceAll_append hp, ih, List.map_cons, List.map_cons, List.map_cons,
        List.intercalate_cons_cons, List.append_assoc]

/-- Replacement leaves no occurrence of the pattern if the replacement is sealed and without one. -/
theorem not_infix_replaceAll_self (h : Bars p r) (hp : p ≠ []) (s : List Char) :
    ¬ p <:+: replaceAll p r s := by
  rw [replaceAll, h.infix_intercalate hp]
  rintro ⟨x, hx, hpx⟩
  exact not_infix_of_mem_pieces hp hx hpx

/-- A text that is not there before, and that the replacement bars, is not there after. -/
theorem not_infix_replaceAll (h : Bars q r) (hq : q ≠ []) (hp : p ≠ []) (hs : ¬ q <:+: s) :
    ¬ q <:+: replaceAll p r s := by
  rw [replaceAll, h.infix_intercalate hq]
  rintro ⟨x, hx, hqx⟩
  have hxs : x <:+: p.intercalate (pieces p s) := infix_intercalate_of_mem hx
  rw [intercalate_pieces hp] at hxs
  exact hs (hqx.trans hxs)

section Extension
variable {c d : Char} {w e : List Char}

/-- The characters of `q` that stand at the front after a replacement stood there before, if the
replacement begins with another character. -/
theorem prefix_of_prefix_replaceAll (hp : p ≠ []) (hd : d ∉ q)
    (h : q <+: replaceAll p (d :: r) s) : q <+: s := by
  induction s using scan_induction hp generalizing q with
  | nil => simpa using h
  | found s ih =>
    -- the replacement is at the front, and its first character is not in `q`
    rw [replaceAll_pattern_append hp, List.cons_append] at h
    cases q with
    | nil => exact List.nil_prefix
    | cons a q =>
      rw [List.cons_prefix_cons] at h
      exact absurd (h.1 ▸ List.mem_cons_self ..) hd
  | cons a s hc ih =>
    rw [replaceAll_cons hc] at h
    cases q with
    | nil => exact List.nil_prefix
    | cons b q =>
      rw [List.cons_prefix_cons] at h ⊢
      exact ⟨h.1, ih (fun hq => hd (List.mem_cons_of_mem b hq)) h.2⟩

theorem not_prefix_cons_replaceAll (hd : d ∉ w) (h : ¬ d :: w <+: c :: s) :
    ¬ d :: w <+: c :: replaceAll (d :: w) (d :: r) s := by
  rw [List.cons_prefix_cons] at h ⊢
  rintro ⟨rfl, hw⟩
  exact h ⟨rfl, prefix_of_prefix_replaceAll (List.cons_ne_nil d w) hd hw⟩

/-- Extending every occurrence of a pattern is undone by taking the extension off. -/
theorem replaceAll_extension_cancel (hd : d ∉ w) (e s : List Char) :
    replaceAll (d :: w ++ e) (d :: w) (replaceAll (d :: w) (d :: w ++ e) s) = s := by
  have hp : d :: w ≠ [] := List.cons_ne_nil d w
  have hpe : d :: w ++ e ≠ [] := List.cons_ne_nil d (w ++ e)
  induction s using scan_induction hp with
  | nil => simp
  | found s ih => rw [replaceAll_pattern_append hp, replaceAll_pattern_append hpe, ih]
  | cons c s hc ih =>
    have hstep : ¬ d :: w ++ e <+: c :: replaceAll (d :: w) (d :: w ++ e) s := fun h' =>
      not_prefix_cons_replaceAll hd hc ((List.prefix_append (d :: w) e).trans h')
    rw [replaceAll_cons hc, replaceAll_cons hstep, ih]

theorem followed_replaceAll (hd : d ∉ w) (hstop : SealedEnd (d :: w) (d :: w ++ e))
    (hself : Followed (d :: w) e (d :: w ++ e)) (s : List Char) :
    Followed (d :: w) e (replaceAll (d :: w) (d :: w ++ e) s) := by
  have hp : d :: w ≠ [] := List.cons_ne_nil d w
  induction s using scan_induction hp with
  | nil =>
    rw [replaceAll_nil]
    exact followed_nil hp
  | found s ih =>
    rw [replaceAll_pattern_append hp]
    exact hstop.apart.followed_append hself ih
  | cons c s hc ih =>
    rw [replaceAll_cons hc, followed_cons_iff]
    exact ⟨fun h' => absurd h' (not_prefix_cons_replaceAll hd hc), ih⟩

theorem occurrences_replaceAll (hd : d ∉ w) (hstop : SealedEnd (d :: w) (d :: w ++ e))
    (hpattern : SealedEnd (d :: w) (d :: w))
    (hself : occurrences (d :: w) (d :: w ++ e) = occurrences (d :: w) (d :: w)) (s : List Char) :
    occurrences (d :: w) (replaceAll (d :: w) (d :: w ++ e) s) = occurrences (d :: w) s := by
  have hp : d :: w ≠ [] := List.cons_ne_nil d w
  induction s using scan_induction hp with
  | nil => rw [replaceAll_nil]
  | found s ih =>
    rw [replaceAll_pattern_append hp, hstop.apart.occurrences_append hp, hself, ih,
      hpattern.apart.occurrences_append hp]
  | cons c s hc ih =>
    have hstep : ¬ d :: w <+: c :: replaceAll (d :: w) (d :: w ++ e) s :=
      not_prefix_cons_replaceAll hd hc
    rw [replaceAll_cons hc, occurrences_cons_of_not_found hstep, occurrences_cons_of_not_found hc, ih]

end Extension

end LuauBindings.Text
