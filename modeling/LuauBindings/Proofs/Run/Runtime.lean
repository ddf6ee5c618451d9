import LuauBindings.Run.Runtime

/-!
# Texts and encodings

An encoding takes the texts whose characters all have codes (`Encoding.Takes`), so it takes a text exactly if it
takes the parts of it. A runtime without limits takes every text.
-/

namespace LuauBindings

namespace Encoding
variable {e : Encoding} {text other message : String}

/-- Every character of the text has a code. -/
def Takes (e : Encoding) (text : String) : Prop :=
  ∀ ch ∈ text.toList, e.encodes ch = true

theorem refusal?_eq_none_iff : e.refusal? text = none ↔ e.Takes text := by
  simp [refusal?, Takes]

theorem refusal?_eq_some_iff : e.refusal? text = some message ↔ ¬ e.Takes text ∧ e.message text = message := by
  simp [refusal?, Takes]

@[simp]
theorem takes_append : e.Takes (text ++ other) ↔ e.Takes text ∧ e.Takes other := by
  simp [Takes, or_imp, forall_and]

@[simp]
theorem takes_total (text : String) : total.Takes text :=
  fun _ _ => rfl

@[simp]
theorem refusal?_total (text : String) : total.refusal? text = none :=
  refusal?_eq_none_iff.mpr (takes_total text)

end Encoding

namespace Runtime
variable {rt : Runtime} {text message : String}

/-- The runtime with encodings that take every text. -/
def unlimited (rt : Runtime) : Runtime :=
  { rt with console := .total, files := .total }

@[simp] theorem loader_unlimited (rt : Runtime) : rt.unlimited.loader = rt.loader := rfl
@[simp] theorem console_unlimited (rt : Runtime) : rt.unlimited.console = .total := rfl
@[simp] theorem files_unlimited (rt : Runtime) : rt.unlimited.files = .total := rfl

/-- `message` is what is said of some text that is refused. -/
def Refuses (rt : Runtime) (message : String) : Prop :=
  ∃ text, rt.console.refusal? text = some message ∨ rt.files.refusal? text = some message

theorem not_refuses_unlimited (rt : Runtime) (message : String) : ¬ rt.unlimited.Refuses message := by
  simp [Refuses]

end Runtime

end LuauBindings
