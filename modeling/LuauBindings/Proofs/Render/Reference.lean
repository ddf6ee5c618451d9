import LuauBindings.Proofs.Render.Block
import LuauBindings.Proofs.Text.Replacement

/-!
# References in the text of a type

After its table type, the type of a class has ` & _PProps` for every parent `P`. Who reads such a text
finds a reference behind every mark ` & _`, up to the next mark (`Mentions`). These are the references to the
parents, unless the name of one has a mark in it (`mentions_referenceText_iff`): the one parent
"AProps & _B" is read as the two parents "A" and "B".
-/

namespace LuauBindings

/-- The text refers to the type of `p`: the rest of its name stands between two marks, or behind the last. -/
def Mentions (text p : String) : Prop :=
  (p ++ "Props").toList ∈ (Text.pieces " & _".toList text.toList).tail

instance (text p : String) : Decidable (Mentions text p) :=
  inferInstanceAs (Decidable (_ ∈ (Text.pieces " & _".toList text.toList).tail))

/-- The references to the types of these parents. -/
def referenceText (parents : List String) : String :=
  String.join (parents.map fun p => " & _" ++ p ++ "Props")

/-- The class has no parent with a mark in its name. -/
def ClassDoc.PlainParents (c : ClassDoc) : Prop :=
  ∀ p ∈ c.inherits, Text.contains p " & _" = false

instance (c : ClassDoc) : Decidable c.PlainParents :=
  inferInstanceAs (Decidable (∀ p ∈ c.inherits, Text.contains p " & _" = false))

variable {text p : String} {parents : List String}

theorem typeReference_eq (p : String) : typeReference p = " & _" ++ p ++ "Props" := by
  have hmark : " & _" = " & " ++ "_" := by decide
  rw [hmark, typeReference, propsTypeName]
  simp only [String.append_assoc]

theorem join_references_named (c : ClassDoc) :
    String.join (TypeMode.named.references c) = referenceText c.inherits :=
  congrArg String.join (List.map_congr_left fun p _ => typeReference_eq p)

theorem toList_referenceText_cons (p : String) (parents : List String) :
    (referenceText (p :: parents)).toList =
      " & _".toList ++ ((p ++ "Props").toList ++ (referenceText parents).toList) := by
  simp only [referenceText, List.map_cons, String.join_cons, String.toList_append, List.append_assoc]

theorem apart_referenceText (s : List Char) (parents : List String) :
    Text.Apart " & _".toList s (referenceText parents).toList := by
  cases parents with
  | nil => exact fun u v _ hv _ _ hfits => hv (List.prefix_nil.mp hfits)
  | cons p parents =>
    have hstart : Text.SealedStart " & _".toList " & _".toList := by decide
    rw [toList_referenceText_cons]
    exact (hstart.append _).apart

theorem pieces_referenceText (h : ∀ p ∈ parents, Text.contains p " & _" = false) :
    Text.pieces " & _".toList (referenceText parents).toList =
      [] :: parents.map fun p => (p ++ "Props").toList := by
  induction parents with
  | nil => rfl
  | cons p parents ih =>
    obtain ⟨hp, hparents⟩ := List.forall_mem_cons.mp h
    have hbars : Text.Bars " & _".toList "Props".toList := by decide
    have hplain : ¬ " & _".toList <:+: (p ++ "Props").toList := by
      rw [String.toList_append, hbars.infix_left, ← Text.contains_iff, hp]
      exact Bool.false_ne_true
    rw [toList_referenceText_cons, Text.pieces_pattern_append (by decide),
      Text.pieces_append hplain (apart_referenceText _ _), ih hparents, List.modifyHead_cons,
      List.append_nil, List.map_cons]

theorem mentions_referenceText_iff (h : ∀ p ∈ parents, Text.contains p " & _" = false) :
    Mentions (referenceText parents) p ↔ p ∈ parents := by
  have hsame (q : String) : (q ++ "Props").toList = (p ++ "Props").toList ↔ q = p := by
    rw [String.toList_inj, String.append_left_inj]
  rw [Mentions, pieces_referenceText h, List.tail_cons, List.mem_map]
  simp only [hsame, exists_eq_right]

/-- A text before the references that has no mark refers to nothing. -/
theorem mentions_append_referenceText_iff (h : Text.contains text " & _" = false) :
    Mentions (text ++ referenceText parents) p ↔ Mentions (referenceText parents) p := by
  have hplain : ¬ " & _".toList <:+: text.toList := by
    rw [← Text.contains_iff, h]
    exact Bool.false_ne_true
  rw [Mentions, Mentions, String.toList_append, Text.pieces_append hplain (apart_referenceText _ _),
    List.tail_modifyHead]

end LuauBindings
