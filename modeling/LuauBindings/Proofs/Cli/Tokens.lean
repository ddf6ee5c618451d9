import LuauBindings.Proofs.Build.Suffix
import LuauBindings.Proofs.Cli.Config
import LuauBindings.Proofs.Text.Token
import LuauBindings.Run.Generate

/-!
# The tokens of a configuration

The names of a configuration are the default ones and those that the options give, which may stand in lists of
the allowed names (`mem_normalizeAllowed`), and they are identifiers; its suffix is a word. This holds up to a
newline at the end of a text that the options give (`plain_iff`). With plain tokens, what a build puts for the
internal symbol is one identifier, also with the suffix derived from the block (`isIdentifier_symbol`).
-/

namespace LuauBindings
open Text (IsIdentifier IsWord EndsInNewline UpToNewline)
open Yaml (Value)
variable {t : FileTree} {o : Options} {c : Config} {v : Value} {values : List Value} {name suffix : String}
  {names : List String}

theorem isWord_deriveSuffix (block : String) : IsWord (deriveSuffix block) where
  ne_empty := (Admissible.derived block rfl).ne_empty
  plain c hc := by
    have hdigits : Text.hexDigits.all Char.isAlphanum = true := by decide
    exact List.all_eq_true.mp hdigits c (mem_hexDigits_of_mem_deriveSuffix hc)

namespace Options

/-- The value of the allowed names holds this one, as an entry or in a list that is an entry. -/
inductive Allows : Value → String → Prop
  | entry {entries : List Value} {name : String} (h : .str name ∈ entries) : Allows (.list entries) name
  | nested {entries names : List Value} {name : String} (hnames : .list names ∈ entries)
    (h : .str name ∈ names) : Allows (.list entries) name

/-- The text is given for a name or for the suffix. -/
def Gives (o : Options) (s : String) : Prop :=
  Allows o.allow s ∨ o.info = some s ∨ o.internalSuffix = some s

end Options

namespace Config
open Options (Allows)

def classNames : Config → List String
  | .generate c => c.allowed
  | .discover c => c.allowed ++ c.infoClass.toList

def givenSuffix : Config → Option String
  | .generate c => c.suffix
  | .discover _ => none

/-- The tokens of the configuration have no other characters than those of a token. -/
structure Plain (c : Config) : Prop where
  names : ∀ name ∈ c.classNames, IsIdentifier name
  suffix : ∀ s, c.givenSuffix = some s → IsWord s

section Check

theorem checkClassName_eq_ok_iff : checkClassName name = .ok name ↔ UpToNewline IsIdentifier name := by
  rw [← Text.passesAsIdentifier_iff, checkClassName]
  split <;> simp_all

theorem checkSuffix_eq_ok_iff_isWord : checkSuffix suffix = .ok suffix ↔ UpToNewline IsWord suffix := by
  rw [checkSuffix_eq_ok_iff, Text.passesAsWord_iff]

theorem nameOf_eq_ok_iff : nameOf v = .ok name ↔ v = .str name ∧ UpToNewline IsIdentifier name := by
  rw [← checkClassName_eq_ok_iff]
  constructor
  · intro h
    unfold nameOf at h
    split at h
    · obtain ⟨rfl, -⟩ := checkClassName_eq_ok h
      exact ⟨rfl, h⟩
    · cases h
  · rintro ⟨rfl, h⟩
    exact h

theorem mem_of_mapM_nameOf (h : values.mapM nameOf = .ok names) : name ∈ names ↔ .str name ∈ values := by
  rw [mem_of_mapM_eq_ok h]
  constructor
  · rintro ⟨v, hv, hname⟩
    obtain ⟨rfl, -⟩ := nameOf_eq_ok_iff.mp hname
    exact hv
  · intro hmem
    obtain ⟨other, -, hname⟩ := exists_mem_of_forall₂ (mapM_eq_ok_iff.mp h) hmem
    obtain ⟨heq, -⟩ := nameOf_eq_ok_iff.mp hname
    cases heq
    exact ⟨_, hmem, hname⟩

theorem upToNewline_of_mapM_nameOf (h : values.mapM nameOf = .ok names) (hname : name ∈ names) :
    UpToNewline IsIdentifier name := by
  obtain ⟨v, -, hv⟩ := (mem_of_mapM_eq_ok h).mp hname
  exact (nameOf_eq_ok_iff.mp hv).2

theorem mem_namesOfEntry (h : namesOfEntry v = .ok names) :
    name ∈ names ↔ v = .str name ∨ ∃ values, v = .list values ∧ .str name ∈ values := by
  unfold namesOfEntry at h
  split at h
  · next values =>
    rw [mem_of_mapM_nameOf h]
    simp
  · next hlist =>
    obtain ⟨only, honly, rfl⟩ := map_eq_ok.mp h
    obtain ⟨rfl, -⟩ := nameOf_eq_ok_iff.mp honly
    simp [eq_comm]

theorem upToNewline_of_namesOfEntry (h : namesOfEntry v = .ok names) (hname : name ∈ names) :
    UpToNewline IsIdentifier name := by
  unfold namesOfEntry at h
  split at h
  · exact upToNewline_of_mapM_nameOf h hname
  · obtain ⟨only, honly, rfl⟩ := map_eq_ok.mp h
    rw [List.mem_singleton.mp hname]
    exact (nameOf_eq_ok_iff.mp honly).2

theorem mem_normalizeAllowed (h : normalizeAllowed v = .ok names) :
    name ∈ names ↔ Allows v name := by
  unfold normalizeAllowed at h
  split at h
  · cases h
    exact iff_of_false List.not_mem_nil (by rintro ⟨⟩)
  · next entries =>
    obtain ⟨lists, hlists, rfl⟩ := map_eq_ok.mp h
    rw [List.mem_flatten]
    constructor
    · rintro ⟨list, hlist, hname⟩
      obtain ⟨entry, hentry, hread⟩ := (mem_of_mapM_eq_ok hlists).mp hlist
      rcases (mem_namesOfEntry hread).mp hname with rfl | ⟨values, rfl, hvalues⟩
      · exact .entry hentry
      · exact .nested hentry hvalues
    · have hread {entry : Value} (hentry : entry ∈ entries)
          (hname : entry = .str name ∨ ∃ values, entry = .list values ∧ .str name ∈ values) :
          ∃ list ∈ lists, name ∈ list := by
        obtain ⟨list, hlist, hread⟩ := exists_mem_of_forall₂ (mapM_eq_ok_iff.mp hlists) hentry
        exact ⟨list, hlist, (mem_namesOfEntry hread).mpr hname⟩
      intro hallows
      cases hallows with
      | entry hentry => exact hread hentry (.inl rfl)
      | nested hentry hvalues => exact hread hentry (.inr ⟨_, rfl, hvalues⟩)
  · cases h

theorem upToNewline_of_normalizeAllowed (h : normalizeAllowed v = .ok names) (hname : name ∈ names) :
    UpToNewline IsIdentifier name := by
  unfold normalizeAllowed at h
  split at h
  · cases h
    cases hname
  · obtain ⟨lists, hlists, rfl⟩ := map_eq_ok.mp h
    obtain ⟨list, hlist, hname⟩ := List.mem_flatten.mp hname
    obtain ⟨entry, -, hread⟩ := (mem_of_mapM_eq_ok hlists).mp hlist
    exact upToNewline_of_namesOfEntry hread hname
  · cases h

end Check

theorem isIdentifier_of_mem_defaultAllowed (h : name ∈ defaultAllowed) : IsIdentifier name := by
  have hall : ∀ name ∈ defaultAllowed, Text.isIdentifier name.toList = true := by decide
  exact Text.isIdentifier_iff.mp (hall name h)

theorem mem_classNames (h : ofOptions t o = .ok c) : name ∈ c.classNames ↔
    name ∈ defaultAllowed ∨ Allows o.allow name ∨ (∃ d, c = .discover d) ∧ o.info = some name := by
  rcases of_ofOptions h with ⟨d, rfl, hd⟩ | ⟨g, rfl, hg⟩
  · obtain ⟨names, hnames, hallowed⟩ := hd.allowed
    rw [classNames, List.mem_append, hallowed, mem_allowedWith, mem_normalizeAllowed hnames,
      Option.mem_toList, hd.infoClass.1, or_assoc]
    simp
  · obtain ⟨names, hnames, hallowed⟩ := hg.allowed
    rw [classNames, hallowed, mem_allowedWith, mem_normalizeAllowed hnames]
    simp

theorem upToNewline_of_mem_classNames (h : ofOptions t o = .ok c) (hname : name ∈ c.classNames) :
    UpToNewline IsIdentifier name := by
  rcases of_ofOptions h with ⟨d, rfl, hd⟩ | ⟨g, rfl, hg⟩
  · obtain ⟨names, hnames, hallowed⟩ := hd.allowed
    rw [classNames, List.mem_append, hallowed, mem_allowedWith, Option.mem_toList] at hname
    rcases hname with (hname | hname) | hname
    · exact .inl (isIdentifier_of_mem_defaultAllowed hname)
    · exact upToNewline_of_normalizeAllowed hnames hname
    · exact Text.passesAsIdentifier_iff.mp (hd.infoClass.2 name (hd.infoClass.1 ▸ hname))
  · obtain ⟨names, hnames, hallowed⟩ := hg.allowed
    rw [classNames, hallowed, mem_allowedWith] at hname
    rcases hname with hname | hname
    · exact .inl (isIdentifier_of_mem_defaultAllowed hname)
    · exact upToNewline_of_normalizeAllowed hnames hname

theorem of_givenSuffix (h : ofOptions t o = .ok c) (hsuffix : c.givenSuffix = some suffix) :
    o.internalSuffix = some suffix ∧ UpToNewline IsWord suffix := by
  rcases of_ofOptions h with ⟨d, rfl, -⟩ | ⟨g, rfl, hg⟩
  · cases hsuffix
  · have hgiven : o.internalSuffix = some suffix := hg.suffix.1.symm.trans hsuffix
    exact ⟨hgiven, checkSuffix_eq_ok_iff_isWord.mp (hg.suffix.2 suffix hgiven)⟩

theorem givenSuffix_of_internalSuffix (h : ofOptions t o = .ok c) (hsuffix : o.internalSuffix = some suffix) :
    suffix = "" ∨ c.givenSuffix = some suffix := by
  rcases of_ofOptions h with ⟨d, -, hd⟩ | ⟨g, rfl, hg⟩
  · left
    by_contra hne
    exact hd.noBuild (.inr ⟨suffix, hsuffix, hne⟩)
  · exact .inr (hg.suffix.1.trans hsuffix)

theorem mem_classNames_of_info (h : ofOptions t o = .ok c) (hname : o.info = some name) :
    name = "" ∨ name ∈ c.classNames := by
  rcases of_ofOptions h with ⟨d, rfl, hd⟩ | ⟨g, -, hg⟩
  · exact .inr ((mem_classNames h).mpr (.inr (.inr ⟨⟨d, rfl⟩, hname⟩)))
  · left
    by_contra hne
    exact hg.noDiscovery (.inr ⟨name, hname, hne⟩)

/-- All tokens of a configuration are plain if no text that the options give ends in a newline. -/
theorem plain_iff (h : ofOptions t o = .ok c) :
    c.Plain ↔ ∀ s, o.Gives s → ¬ EndsInNewline s := by
  have hempty : ¬ EndsInNewline "" := fun hs => absurd (Text.newline_mem_of_endsInNewline hs) (by decide)
  constructor
  · rintro hplain s (hallows | hinfo | hsuffix)
    · exact (hplain.names s ((mem_classNames h).mpr (.inr (.inl hallows)))).not_endsInNewline
    · rcases mem_classNames_of_info h hinfo with rfl | hmem
      · exact hempty
      · exact (hplain.names s hmem).not_endsInNewline
    · rcases givenSuffix_of_internalSuffix h hsuffix with rfl | hgiven
      · exact hempty
      · exact (hplain.suffix s hgiven).not_endsInNewline
  · intro hgives
    refine ⟨fun name hname => ?_, fun s hs => ?_⟩
    · have hup := upToNewline_of_mem_classNames h hname
      refine (hup.iff_not_endsInNewline fun _ => IsIdentifier.not_endsInNewline).mpr ?_
      rcases (mem_classNames h).mp hname with hdefault | hallows | ⟨-, hinfo⟩
      · exact (isIdentifier_of_mem_defaultAllowed hdefault).not_endsInNewline
      · exact hgives name (.inl hallows)
      · exact hgives name (.inr (.inl hinfo))
    · obtain ⟨hgiven, hup⟩ := of_givenSuffix h hs
      exact (hup.iff_not_endsInNewline fun _ => IsWord.not_endsInNewline).mpr (hgives s (.inr (.inr hgiven)))

theorem isIdentifier_symbol {g : GenerateConfig} (h : (Config.generate g).Plain) (block : GeneratedBlock) :
    IsIdentifier (internalSymbol ++ "_" ++ Generate.suffixFor g block) := by
  have hsymbol : IsIdentifier (internalSymbol ++ "_") := Text.isIdentifier_iff.mp (by decide)
  have hword : IsWord (Generate.suffixFor g block) := by
    unfold Generate.suffixFor
    split
    · next s hs =>
      split
      · exact isWord_deriveSuffix block.text
      · exact h.suffix s hs
    · exact isWord_deriveSuffix block.text
  exact hsymbol.append hword

/-- The names of a configuration are identifiers and its suffix is a word, up to a newline at the end of a text
that the options give. Without such a newline all of them are plain, and then so is the symbol of a build. Every
identifier passes as a name, and every word as a suffix. -/
theorem ofOptions_accepts_tokens (t : FileTree) (o : Options) :
    (∀ c, ofOptions t o = .ok c →
      (∀ name ∈ c.classNames, UpToNewline IsIdentifier name) ∧
      (∀ s, c.givenSuffix = some s → UpToNewline IsWord s) ∧
      (c.Plain ↔ ∀ s, o.Gives s → ¬ EndsInNewline s) ∧
      (c.Plain → ∀ g, c = .generate g → ∀ block : GeneratedBlock,
        IsIdentifier (internalSymbol ++ "_" ++ Generate.suffixFor g block))) ∧
    (∀ name, IsIdentifier name → checkClassName name = .ok name) ∧
    ∀ s, IsWord s → checkSuffix s = .ok s := by
  refine ⟨fun c h => ⟨fun _ => upToNewline_of_mem_classNames h, fun _ hs => (of_givenSuffix h hs).2,
    plain_iff h, ?_⟩, fun name hname => ?_, fun s hs => ?_⟩
  · rintro hplain g rfl block
    exact isIdentifier_symbol hplain block
  · exact checkClassName_eq_ok_iff.mpr (.inl hname)
  · exact checkSuffix_eq_ok_iff_isWord.mpr (.inl hs)

section Nested

/-- A build with two more names, one of them in a list, and a suffix. -/
def tokenOptions (name suffix : String) : Options :=
  { docsDir := some (.ofText "/"), host := some (.ofText "/")
    allow := .list [.list [.str name], .str "Part_2"], internalSuffix := some suffix }

theorem ofOptions_accepts_tokens_nested :
    ∃ g, ofOptions ⟨.empty, []⟩ (tokenOptions "Frame" "3f9a1c") = .ok (.generate g) ∧
      (Config.generate g).Plain ∧
      ∀ block : GeneratedBlock, IsIdentifier (internalSymbol ++ "_" ++ Generate.suffixFor g block) := by
  have h : ofOptions ⟨.empty, []⟩ (tokenOptions "Frame" "3f9a1c") = .ok (.generate _) := rfl
  obtain ⟨-, -, hplain, hsymbol⟩ := (ofOptions_accepts_tokens _ _).1 _ h
  have hgiven : ∀ s, (tokenOptions "Frame" "3f9a1c").Gives s → s ∈ ["Frame", "Part_2", "3f9a1c"] := by
    rintro s (hallows | hinfo | hsuffix)
    · cases hallows with
      | entry hentry => simp_all
      | nested hentry hname =>
        simp only [List.mem_cons, Value.list.injEq, List.not_mem_nil, or_false, reduceCtorEq] at hentry
        simp_all
    · cases hinfo
    · cases hsuffix
      decide
  have hnewline : ∀ s ∈ ["Frame", "Part_2", "3f9a1c"], '\n' ∉ s.toList := by decide
  have hall := hplain.mpr fun s hs hends =>
    hnewline s (hgiven s hs) (Text.newline_mem_of_endsInNewline hends)
  exact ⟨_, h, hall, hsymbol hall _ rfl⟩

/-- A newline at the end of a name or of the suffix passes, and then the symbol of the build is no identifier. -/
theorem newline_passes :
    ∃ g, ofOptions ⟨.empty, []⟩ (tokenOptions "Frame\n" "abc\n") = .ok (.generate g) ∧
      "Frame\n" ∈ g.allowed ∧ ¬ IsIdentifier "Frame\n" ∧ g.suffix = some "abc\n" ∧ ¬ IsWord "abc\n" ∧
      ∀ block : GeneratedBlock, ¬ IsIdentifier (internalSymbol ++ "_" ++ Generate.suffixFor g block) := by
  refine ⟨_, rfl, by decide, fun h => ?_, rfl, fun h => ?_, fun block h => ?_⟩
  · exact h.not_endsInNewline ⟨"Frame", rfl⟩
  · exact h.not_endsInNewline ⟨"abc", rfl⟩
  · exact h.not_endsInNewline ⟨"_internal_abc", rfl⟩

end Nested

end Config

end LuauBindings
