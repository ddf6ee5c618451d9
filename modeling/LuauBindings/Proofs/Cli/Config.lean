import LuauBindings.Cli.Config
import LuauBindings.Proofs.Sequence

/-!
# What the options are taken to ask for

`Config.ofOptions` checks one thing after another (`ofOptions_eq`). A discovery command is taken from a
flag or from a class name that is not empty (`Options.Discovers`), and it is refused beside comments or a
suffix that is not empty (`Options.WantsBuild`); nothing else is refused as a conflict
(`ofOptions_eq_conflict_iff`). What is then settled is read off the options: `FromDiscovery` for a
discovery command, `FromBuild` for generating.
-/

namespace LuauBindings

/-- The options are taken for a discovery command. -/
def Options.Discovers (o : Options) : Prop :=
  o.listClasses = true ∨ ∃ name, o.info = some name ∧ name ≠ ""

/-- The options are taken to ask for something that only a build has. -/
def Options.WantsBuild (o : Options) : Prop :=
  o.comments = true ∨ ∃ suffix, o.internalSuffix = some suffix ∧ suffix ≠ ""

instance Options.decidableHasText (s : Option String) : Decidable (∃ text, s = some text ∧ text ≠ "") :=
  match s with
  | none => .isFalse (by simp)
  | some text => decidable_of_iff (text ≠ "") (by simp)

instance (o : Options) : Decidable o.Discovers :=
  inferInstanceAs (Decidable (_ ∨ _))

instance (o : Options) : Decidable o.WantsBuild :=
  inferInstanceAs (Decidable (_ ∨ _))

namespace Config
variable {t : FileTree} {o : Options} {p : Path} {allowed names : List String}

theorem any_not_isEmpty {s : Option String} :
    (s.any fun s => !s.isEmpty) = true ↔ ∃ text, s = some text ∧ text ≠ "" := by
  cases s <;> simp

theorem ofOptions_eq (t : FileTree) (o : Options) : ofOptions t o = (do
    let allowed := allowedWith (← normalizeAllowed o.allow)
    if o.Discovers ∧ o.WantsBuild then .error .conflict
    else
      let docsDir ← checkDocs t o
      if o.Discovers then discovery o docsDir allowed else building t o docsDir allowed) := by
  unfold ofOptions
  simp only [Bool.and_eq_true, Bool.or_eq_true, any_not_isEmpty]
  refine congrArg _ (funext fun names => ?_)
  by_cases h : o.Discovers ∧ o.WantsBuild
  · rw [if_pos h]
    exact if_pos h
  · rw [if_neg h]
    exact if_neg h

theorem checkPath_eq_ok {path : Option Path} {flag : String} {suggestion : Option String}
    (h : checkPath t path flag suggestion = .ok p) : path = some p ∧ t.exists? p = true := by
  unfold checkPath at h
  split at h
  · cases h
  · split at h
    · next hp =>
      cases h
      exact ⟨rfl, hp⟩
    · cases h

theorem checkPath_ne_conflict {path : Option Path} {flag : String} {suggestion : Option String} :
    checkPath t path flag suggestion ≠ .error .conflict := by
  unfold checkPath
  split
  · simp
  · split <;> simp

theorem checkClassName_eq_ok {name checked : String} (h : checkClassName name = .ok checked) :
    checked = name ∧ Text.passesAsIdentifier name = true := by
  unfold checkClassName at h
  split at h <;> simp_all

theorem checkSuffix_eq_ok {suffix checked : String} (h : checkSuffix suffix = .ok checked) :
    checked = suffix := by
  unfold checkSuffix at h
  split at h <;> simp_all

theorem checkOptional_eq_ok {α ε : Type} {check : α → Except ε α} {a b : Option α}
    (hcheck : ∀ x y, check x = .ok y → y = x) (h : checkOptional check a = .ok b) :
    b = a ∧ ∀ x, a = some x → check x = .ok x := by
  cases a with
  | none =>
    cases h
    simp
  | some x =>
    obtain ⟨y, hy, rfl⟩ := map_eq_ok.mp h
    obtain rfl := hcheck x y hy
    simpa using hy

theorem checkOptional_ne_conflict {check : String → Except ConfigFault String}
    (hcheck : ∀ x, check x ≠ .error .conflict) (a : Option String) :
    checkOptional check a ≠ .error .conflict := by
  cases a with
  | none => simp [checkOptional]
  | some x => exact fun h => hcheck x (map_eq_error.mp h)

theorem checkClassName_ne_conflict (name : String) : checkClassName name ≠ .error .conflict := by
  unfold checkClassName
  split <;> simp

theorem checkSuffix_ne_conflict (suffix : String) : checkSuffix suffix ≠ .error .conflict := by
  unfold checkSuffix
  split <;> simp

theorem discovery_ne_conflict {docsDir : Path} : discovery o docsDir allowed ≠ .error .conflict := by
  intro h
  rcases bind_eq_error.mp h with h | ⟨info, -, h⟩
  · exact checkOptional_ne_conflict checkClassName_ne_conflict _ h
  · cases h

theorem building_ne_conflict {docsDir : Path} : building t o docsDir allowed ≠ .error .conflict := by
  intro h
  rcases bind_eq_error.mp h with h | ⟨host, -, h⟩
  · exact checkPath_ne_conflict h
  · rcases bind_eq_error.mp h with h | ⟨suffix, -, h⟩
    · exact checkOptional_ne_conflict checkSuffix_ne_conflict _ h
    · cases h

theorem ofOptions_eq_conflict_iff (hallow : normalizeAllowed o.allow = .ok names) :
    ofOptions t o = .error .conflict ↔ o.Discovers ∧ o.WantsBuild := by
  rw [ofOptions_eq, hallow]
  change (if _ then _ else _) = _ ↔ _
  split
  · next h => exact iff_of_true rfl h
  · next hconflict =>
    refine iff_of_false (fun h => ?_) hconflict
    rcases bind_eq_error.mp h with h | ⟨docsDir, -, h⟩
    · exact checkPath_ne_conflict h
    · split at h
      · exact discovery_ne_conflict h
      · exact building_ne_conflict h

/-- What is settled for a discovery command. -/
structure FromDiscovery (t : FileTree) (o : Options) (c : DiscoveryConfig) : Prop where
  discovers : o.Discovers
  noBuild : ¬ o.WantsBuild
  allowed : ∃ names, normalizeAllowed o.allow = .ok names ∧ c.allowed = allowedWith names
  docsDir : o.docsDir = some c.docsDir ∧ t.exists? c.docsDir = true
  command : c.command = some (commandOf o)
  infoClass : c.infoClass = o.info ∧
    ∀ name, o.info = some name → Text.passesAsIdentifier name = true
  mode : c.mode = modeOf o

/-- What is settled for generating. -/
structure FromBuild (t : FileTree) (o : Options) (c : GenerateConfig) : Prop where
  noDiscovery : ¬ o.Discovers
  allowed : ∃ names, normalizeAllowed o.allow = .ok names ∧ c.allowed = allowedWith names
  docsDir : o.docsDir = some c.docsDir ∧ t.exists? c.docsDir = true
  host : o.host = some c.host ∧ t.exists? c.host = true
  output : c.output = o.output
  mode : c.mode = modeOf o
  comments : c.comments = o.comments
  suffix : c.suffix = o.internalSuffix ∧ ∀ s, o.internalSuffix = some s → checkSuffix s = .ok s

/-- A configuration is settled as the options ask. -/
theorem of_ofOptions {c : Config} (h : ofOptions t o = .ok c) :
    (∃ d, c = .discover d ∧ FromDiscovery t o d) ∨ ∃ g, c = .generate g ∧ FromBuild t o g := by
  rw [ofOptions_eq, bind_eq_ok] at h
  obtain ⟨names, hnames, h⟩ := h
  dsimp only at h
  split at h
  · cases h
  · next hconflict =>
    obtain ⟨docs, hdocs, h⟩ := bind_eq_ok.mp h
    split at h
    · next hdiscovers =>
      obtain ⟨info, hinfo, h⟩ := bind_eq_ok.mp h
      cases h
      obtain ⟨rfl, hname⟩ := checkOptional_eq_ok (fun _ _ h => (checkClassName_eq_ok h).1) hinfo
      refine .inl ⟨_, rfl, hdiscovers, fun hbuild => hconflict ⟨hdiscovers, hbuild⟩,
        ⟨names, hnames, rfl⟩, checkPath_eq_ok hdocs, rfl, ⟨rfl, fun name h => ?_⟩, rfl⟩
      exact (checkClassName_eq_ok (hname name h)).2
    · next hdiscovers =>
      obtain ⟨host, hhost, h⟩ := bind_eq_ok.mp h
      obtain ⟨suffix, hsuffix, h⟩ := bind_eq_ok.mp h
      cases h
      obtain ⟨rfl, hchecked⟩ := checkOptional_eq_ok (fun _ _ => checkSuffix_eq_ok) hsuffix
      exact .inr ⟨_, rfl, hdiscovers, ⟨names, hnames, rfl⟩, checkPath_eq_ok hdocs,
        checkPath_eq_ok hhost, rfl, rfl, rfl, rfl, hchecked⟩

theorem FromDiscovery.infoClass_ne_none {c : DiscoveryConfig} (h : FromDiscovery t o c)
    (hc : c.command = some .info) : c.infoClass ≠ none := by
  rw [h.infoClass.1]
  rcases h.discovers with hlist | ⟨name, hname, -⟩
  · rw [h.command, commandOf, if_pos hlist] at hc
    cases hc
  · simp [hname]

theorem ne_generate (ho : o.Discovers) (g : GenerateConfig) : ofOptions t o ≠ .ok (.generate g) := by
  intro h
  rcases of_ofOptions h with ⟨d, hd, -⟩ | ⟨g', -, hg⟩
  · cases hd
  · exact hg.noDiscovery ho

/-- What the options ask for without a discovery command does not depend on the class name. -/
theorem ofOptions_of_not_discovers (ho : ¬ o.Discovers) :
    ofOptions t o = ofOptions t { o with info := none } := by
  have hnone : ¬ { o with info := none : Options }.Discovers := by
    rintro (hlist | ⟨name, hname, -⟩)
    · exact ho (.inl hlist)
    · cases hname
  simp only [ofOptions_eq, ho, hnone, false_and, if_false]
  rfl

end Config

end LuauBindings
