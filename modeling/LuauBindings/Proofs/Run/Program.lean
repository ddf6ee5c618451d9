import LuauBindings.Proofs.Build.Splice
import LuauBindings.Proofs.Cli.Config
import LuauBindings.Proofs.Run.Discovery
import LuauBindings.Proofs.Run.Generate

/-!
# What the program changes

The program exits with a code of its own for a command line or a configuration that it refuses. When it
carries out a configuration, every failure is one that it reports (`Failure.Reported`), as long as the
documents have no scalar of a form that their tag excludes: the configuration comes from the options, so
class information is only ever asked for with a class. The report itself is a text that the console can refuse
(`Program.Closed`). The files stay as they are unless the program generates, and then only the output is another
(`Program.Carried`). Options that are taken for a discovery command never come to that.
-/

namespace LuauBindings
open FileTree (SameFiles)
variable {rt : Runtime} {t : FileTree} {o : Options} {c : Config} {f : Failure} {argv : List String}

namespace Program

/-- How the program ends if it does not complete: with a code, or because a text of its report is refused. -/
inductive Closed (rt : Runtime) : Ending → Prop
  | exited {code : Nat} (h : code ≤ 2) : Closed rt (.exited code)
  | refused {message : String} (h : rt.Refuses message) : Closed rt (.unreported (.unencodable message))

theorem tree_close (rt : Runtime) (t : FileTree) (code : Nat) (printed : String) (texts : List String) :
    (close rt t code printed texts).tree = t := by
  induction texts generalizing printed with
  | nil => rfl
  | cons text texts ih =>
    rw [close]
    split
    · rfl
    · exact ih _

theorem closed_close {code : Nat} (hcode : code ≤ 2) (t : FileTree) (printed : String) (texts : List String) :
    Closed rt (close rt t code printed texts).ending := by
  induction texts generalizing printed with
  | nil => exact .exited hcode
  | cons text texts ih =>
    rw [close]
    split
    · next message h => exact .refused ⟨text, .inl h⟩
    · exact ih _

theorem closed_fail (hf : f.Reported) (t : FileTree) (printed : String) :
    Closed rt (fail rt t printed f).ending := by
  unfold fail
  split
  · exact closed_close (by decide) t _ _
  · exact closed_close (by decide) t _ _
  · next h => exact absurd h hf

theorem tree_fail (rt : Runtime) (t : FileTree) (printed : String) (f : Failure) :
    (fail rt t printed f).tree = t := by
  unfold fail
  split
  · exact tree_close rt t 1 _ _
  · exact tree_close rt t 1 _ _
  · rfl

theorem tree_runConfig_discover (rt : Runtime) (t : FileTree) (d : DiscoveryConfig) :
    (runConfig rt t (.discover d)).tree = t := by
  unfold runConfig
  dsimp only
  split
  · exact tree_fail rt t _ _
  · split
    · exact tree_fail rt t _ _
    · rfl
  · rfl

/-- What carrying out a configuration can do. -/
inductive Carried (rt : Runtime) (t : FileTree) : Config → Outcome → Prop
  | failed {c : Config} {run : Outcome} (hend : Closed rt run.ending)
    (hfiles : SameFiles t run.tree) : Carried rt t c run
  | discovered {d : DiscoveryConfig} {run : Outcome} (hend : run.ending = .completed)
    (htree : run.tree = t) : Carried rt t (.discover d) run
  /-- The output has been opened. What happens then can fail only if a text is refused. -/
  | generated {g : GenerateConfig} {run : Outcome} (l : Location)
    (hend : run.ending = .completed ∨ Closed rt run.ending ∧ ∃ message, rt.Refuses message)
    (hlocate : run.tree.locate g.output = .ok l)
    (hothers : ∀ k, k ≠ l → run.tree.fileAt? k = t.fileAt? k) : Carried rt t (.generate g) run

theorem carried_discover {d : DiscoveryConfig} (hread : t.DocumentsRead rt.loader)
    (hinfo : d.command = some .info → d.infoClass ≠ none) :
    Carried rt t (.discover d) (runConfig rt t (.discover d)) := by
  have htree := tree_runConfig_discover rt t d
  have hsame : SameFiles t (runConfig rt t (.discover d)).tree := by
    rw [htree]
    exact .refl t
  cases hrun : discover rt.loader t d with
  | error f =>
    refine .failed ?_ hsame
    simp only [runConfig, hrun]
    exact closed_fail (reported_of_discover hread hinfo hrun) t ""
  | ok found =>
    cases found with
    | printed text =>
      cases hrefusal : rt.console.refusal? text with
      | none => exact .discovered (by simp only [runConfig, hrun, hrefusal]) htree
      | some message =>
        refine .failed ?_ hsame
        simp only [runConfig, hrun, hrefusal]
        exact closed_fail (.unencodable message) t ""
    | refused name =>
      refine .failed ?_ hsame
      simp only [runConfig, hrun]
      exact .exited (by decide)

theorem runConfig_of_generate_ok {g : GenerateConfig} {s : Summary} (h : (generate rt t g).result = .ok s) :
    runConfig rt t (.generate g) =
      { tree := (generate rt t g).tree, stdout := (generate rt t g).printed } := by
  simp only [runConfig, h]

theorem runConfig_of_generate_error {g : GenerateConfig} (h : (generate rt t g).result = .error f) :
    runConfig rt t (.generate g) = fail rt (generate rt t g).tree (generate rt t g).printed f := by
  simp only [runConfig, h]

theorem carried_generate (hread : t.DocumentsRead rt.loader) (g : GenerateConfig) :
    Carried rt t (.generate g) (runConfig rt t (.generate g)) := by
  rcases generate_files rt t g with
    ⟨f, hresult, hf, hsame⟩ | ⟨l, hlocate, hothers, ⟨s, hresult⟩ | ⟨message, hrefused, hresult⟩⟩
  · have hreported : f.Reported := by
      rcases hf with hf | ⟨e, rfl⟩
      · exact hf.reported hread
      · exact .file e
    rw [runConfig_of_generate_error hresult]
    refine .failed (closed_fail hreported _ _) ?_
    rw [tree_fail]
    exact hsame
  · rw [runConfig_of_generate_ok hresult]
    exact .generated l (.inl rfl) hlocate hothers
  · rw [runConfig_of_generate_error hresult]
    refine .generated l (.inr ⟨closed_fail (.unencodable message) _ _, message, hrefused⟩) ?_ ?_
    · rw [tree_fail]
      exact hlocate
    · rw [tree_fail]
      exact hothers

theorem carried_of_ofOptions (hread : t.DocumentsRead rt.loader) (hc : Config.ofOptions t o = .ok c) :
    Carried rt t c (runConfig rt t c) := by
  rcases Config.of_ofOptions hc with ⟨d, rfl, hd⟩ | ⟨g, rfl, -⟩
  · exact carried_discover hread hd.infoClass_ne_none
  · exact carried_generate hread g

end Program

theorem runProgram_of_config (hparse : Options.parse argv = .ok (.run o))
    (hc : Config.ofOptions t o = .ok c) : runProgram rt t argv = Program.runConfig rt t c := by
  simp only [runProgram, hparse, hc]

/-- The program either carries out a configuration of its options, or it ends and touches nothing. -/
theorem runProgram_cases (rt : Runtime) (t : FileTree) (argv : List String) :
    (∃ o c, Options.parse argv = .ok (.run o) ∧ Config.ofOptions t o = .ok c ∧
      runProgram rt t argv = Program.runConfig rt t c) ∨
    Program.Closed rt (runProgram rt t argv).ending ∧ (runProgram rt t argv).tree = t := by
  unfold runProgram
  cases hparse : Options.parse argv with
  | error e => exact .inr ⟨.exited (by decide), rfl⟩
  | ok request =>
    cases request with
    | help => exact .inr ⟨Program.closed_close (by decide) t _ _, Program.tree_close rt t 0 _ _⟩
    | run o =>
      dsimp only
      cases hc : Config.ofOptions t o with
      | error fault => exact .inr ⟨Program.closed_close (by decide) t _ _, Program.tree_close rt t 1 _ _⟩
      | ok c => exact .inl ⟨o, c, rfl, hc, rfl⟩

/-- How the program can end, and what it can have changed by then. -/
structure Program.Ends (rt : Runtime) (t : FileTree) (argv : List String) (outcome : Outcome) : Prop where
  ending : outcome.ending = .completed ∨ Closed rt outcome.ending
  files : outcome.ending = .completed ∨ SameFiles t outcome.tree ∨ ∃ message, rt.Refuses message
  output : ∀ l, outcome.tree.fileAt? l ≠ t.fileAt? l → ∃ o g, Options.parse argv = .ok (.run o) ∧
    Config.ofOptions t o = .ok (.generate g) ∧ outcome.tree.locate o.output = .ok l

theorem ends_runProgram (hread : t.DocumentsRead rt.loader) (argv : List String) :
    Program.Ends rt t argv (runProgram rt t argv) := by
  rcases runProgram_cases rt t argv with ⟨o, c, hparse, hc, hrun⟩ | ⟨hclosed, htree⟩
  · have hcarried := Program.carried_of_ofOptions hread hc
    rw [← hrun] at hcarried
    cases hcarried with
    | failed hend hfiles => exact ⟨.inr hend, .inr (.inl hfiles), fun l hl => absurd (hfiles l) hl⟩
    | discovered hend htree =>
      exact ⟨.inl hend, .inl hend, fun l hl => absurd (congrArg (FileTree.fileAt? · l) htree) hl⟩
    | @generated g _ l hend hlocate hothers =>
      refine ⟨hend.imp_right And.left, hend.imp_right fun h => .inr h.2, fun k hk => ⟨o, g, hparse, hc, ?_⟩⟩
      have hkl : k = l := Decidable.byContradiction fun hne => hk (hothers k hne)
      rcases Config.of_ofOptions hc with ⟨d, hd, -⟩ | ⟨g', hg, hbuild⟩
      · cases hd
      · cases hg
        rw [hkl, ← hbuild.output]
        exact hlocate
  · have hfiles : SameFiles t (runProgram rt t argv).tree := by
      rw [htree]
      exact .refl t
    exact ⟨.inr hclosed, .inr (.inl hfiles), fun l hl => absurd (hfiles l) hl⟩

section SmallTree

/-- What the small corpus and its host are built with. -/
def smallConfig : GenerateConfig where
  docsDir := .ofText "docs"
  host := .ofText "host.luau"
  output := .ofText "out/build.luau"
  allowed := defaultAllowed
  mode := .named
  comments := false
  suffix := some "x"

def smallCommand : List String :=
  ["--docs-dir", "docs", "--host", "host.luau", "--output", "out/build.luau", "--internal-suffix", "x"]

/-- A run that generates renders what the discovery commands show. -/
theorem context_eq_rendering (corpus : Corpus) (c : GenerateConfig) :
    (Generate.context corpus c).2 = corpus.rendering c.allowed c.mode := rfl

theorem exists_built_small (output : Path) : ∃ b, Generate.Built {} smallTree { smallConfig with output }
    smallCorpus "--!strict\n-- AUTOGEN\n" b := by
  obtain ⟨block, hblock⟩ := exists_block_small
  have hsource : splice "--!strict\n-- AUTOGEN\n" block.text "x" = .ok _ :=
    splice_eq_ok (by decide) (by decide)
  exact ⟨⟨_, block, "x", _⟩, load_smallTree, rfl, hblock, Encoding.takes_total _, rfl, rfl, rfl, hsource⟩

/-- The small tree lacks the folder of the output, which is made with it. -/
theorem generate_smallConfig : ∃ content printed s, generate {} smallTree smallConfig =
    ⟨(smallTree.put ["out"] .folder).put ["out", "build.luau"] (.file content), printed, .ok s⟩ := by
  obtain ⟨b, hbuilt⟩ := exists_built_small smallConfig.output
  have hrun : generate {} smallTree smallConfig = _ := generate_of_built hbuilt
  have hwrite : smallTree.write smallConfig.output b.source =
      ((smallTree.put ["out"] .folder).put ["out", "build.luau"] (.file b.source.toUTF8),
        .ok ⟨"/out/build.luau", Text.countNewlines b.source, b.source.toUTF8.size⟩) := rfl
  rw [hrun, Generate.finish_of_write (Encoding.takes_total _) hwrite (Encoding.takes_total _)]
  exact ⟨_, _, _, rfl⟩

theorem runConfig_smallConfig : ∃ content printed,
    Program.runConfig {} smallTree (.generate smallConfig) =
      { tree := (smallTree.put ["out"] .folder).put ["out", "build.luau"] (.file content)
        stdout := printed } := by
  obtain ⟨content, printed, s, hrun⟩ := generate_smallConfig
  refine ⟨content, printed, ?_⟩
  simp only [Program.runConfig, hrun]

end SmallTree

section Discovery

/-- A discovery command never generates and changes nothing. The conflict with what only a build has is
reported exactly if there is one, provided the allowed names are valid. An empty text counts neither as a
class name nor as a suffix: options without a discovery command lead to what they lead to without a class
name. -/
theorem discovery_never_generates (rt : Runtime) (t : FileTree) (o : Options) :
    (o.Discovers → (∀ g, Config.ofOptions t o ≠ .ok (.generate g)) ∧
      ∀ argv, Options.parse argv = .ok (.run o) → (runProgram rt t argv).tree = t) ∧
    (∀ names, Config.normalizeAllowed o.allow = .ok names →
      (Config.ofOptions t o = .error .conflict ↔ o.Discovers ∧ o.WantsBuild)) ∧
    (¬ o.Discovers → Config.ofOptions t o = Config.ofOptions t { o with info := none }) := by
  refine ⟨fun ho => ⟨Config.ne_generate ho, fun argv hparse => ?_⟩,
    fun names hallow => Config.ofOptions_eq_conflict_iff hallow, Config.ofOptions_of_not_discovers⟩
  rcases runProgram_cases rt t argv with ⟨o', c, hparse', hc, hrun⟩ | ⟨-, htree⟩
  · cases hparse.symm.trans hparse'
    rcases Config.of_ofOptions hc with ⟨d, rfl, -⟩ | ⟨g, rfl, -⟩
    · rw [hrun]
      exact Program.tree_runConfig_discover rt t d
    · exact absurd hc (Config.ne_generate ho g)
  · exact htree

theorem discovery_never_generates_info_with_comments :
    let o : Options :=
      { info := some "GuiObject", comments := true, allow := .list [.list [.str "Part"]] }
    let argv := ["--info", "GuiObject", "--comments", "--allow", "Part"]
    o.Discovers ∧ o.WantsBuild ∧ Options.parse argv = .ok (.run o) ∧
    (runProgram {} smallTree argv).tree = smallTree ∧
    Config.ofOptions smallTree o = .error .conflict := by
  intro o argv
  have ho : o.Discovers := by decide
  have hbuild : o.WantsBuild := by decide
  have hparse : Options.parse argv = .ok (.run o) := rfl
  have hallow : Config.normalizeAllowed o.allow = .ok ["Part"] := rfl
  obtain ⟨hdiscovers, hconflict, -⟩ := discovery_never_generates {} smallTree o
  exact ⟨ho, hbuild, hparse, (hdiscovers ho).2 argv hparse, (hconflict _ hallow).mpr ⟨ho, hbuild⟩⟩

/-- An empty class name is given and the program generates, comments or not; an empty suffix is given and
it lists the classes. -/
theorem empty_texts_pass_for_none :
    let asked : Options :=
      { docsDir := some (.ofText "docs"), host := some (.ofText "host.luau"), info := some ""
        comments := true }
    let listed : Options :=
      { docsDir := some (.ofText "docs"), listClasses := true, internalSuffix := some "" }
    (∃ g, Config.ofOptions smallTree asked = .ok (.generate g)) ∧
    (∃ d, Config.ofOptions smallTree listed = .ok (.discover d)) ∧
    (runProgram {} smallTree (smallCommand ++ ["--info", ""])).tree.fileAt? ["out", "build.luau"] ≠
      smallTree.fileAt? ["out", "build.luau"] := by
  intro asked listed
  refine ⟨⟨_, rfl⟩, ⟨_, rfl⟩, ?_⟩
  have hcarried : runProgram {} smallTree (smallCommand ++ ["--info", ""]) =
      Program.runConfig {} smallTree (.generate smallConfig) := runProgram_of_config rfl rfl
  obtain ⟨content, printed, hrun⟩ := runConfig_smallConfig
  have hbefore : smallTree.fileAt? ["out", "build.luau"] = none := rfl
  have hafter : ((smallTree.put ["out"] .folder).put ["out", "build.luau"] (.file content)).fileAt?
      ["out", "build.luau"] = some content := rfl
  rw [hcarried, hrun, hbefore, hafter]
  exact Option.some_ne_none content

end Discovery

end LuauBindings
