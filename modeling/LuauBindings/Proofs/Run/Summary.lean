import LuauBindings.Proofs.Corpus.Loaded
import LuauBindings.Proofs.Hierarchy.Pruning
import LuauBindings.Proofs.Run.Program

/-!
# The figures of a run

The figures of a summary come from different stages: the numbers of classes and enums from the corpus before
it is pruned, the numbers of types and functions from the block, the totals from the file that is written.
`Summary.Accounts` says what each of them counts, and so how they are related. A run that succeeds has a
summary that accounts for it (`summary_accounts`).
-/

namespace LuauBindings
variable {rt : Runtime} {t u : FileTree} {c : GenerateConfig} {corpus : Corpus} {host content : String}
  {b : Build} {w : FileTree.Written}

/-- The figures of `s` are those of a run that loads `corpus` and writes `content`. -/
structure Summary.Accounts (loader : Yaml.Loader) (t : FileTree) (c : GenerateConfig) (corpus : Corpus)
    (content : String) (s : Summary) : Prop where
  mode : s.mode = c.mode.text
  loaded : {p | Corpus.IsDocument t (c.docsDir.child "classes") p}.encard = s.loadedClasses
  /-- Documents of enums may share a name. -/
  enums : {name | ∃ p, Corpus.IsDocument t (c.docsDir.child "enums") p ∧
    Corpus.readAs loader documentName t p = .ok name}.encard = s.enumCount
  pruned : s.prune = (LuauBindings.prune corpus.classes c.allowed).1
  classes : s.loadedClasses = s.prune.retainedCount + s.prune.removed.size
  stubs : s.stubCount = s.prune.retainedCount
  types : s.typeCount = match c.mode with
    | .named => s.prune.retainedCount
    | .flattened => 0
  suffix : s.internalSuffix ≠ ""
  lines : s.output.lineCount = content.toList.count '\n'
  bytes : s.output.byteCount = content.toUTF8.size

namespace Generate

theorem counts_of_built (h : Built rt t c corpus host b) :
    b.block.stubCount = b.stats.retainedCount ∧
    b.block.typeCount = match c.mode with
      | .named => b.stats.retainedCount
      | .flattened => 0 := by
  have hblock := (RenderContext.of_buildBlock h.block).2
  have hretained : b.stats.retainedCount = (context corpus c).2.classes.size := by
    rw [h.stats]
    rfl
  rw [hblock, hretained]
  exact ⟨RenderContext.length_stubs _ _, RenderContext.length_declarations _⟩

theorem accounts_of_built (h : Built rt t c corpus host b) (hw : t.write c.output b.source = (u, .ok w)) :
    (summary corpus c b w).Accounts rt.loader t c corpus b.source := by
  obtain ⟨hclasses, henums⟩ := Corpus.load_eq_ok_iff.mp h.loaded
  obtain ⟨hstubs, htypes⟩ := counts_of_built h
  obtain ⟨hlines, hbytes⟩ := FileTree.counts_of_write hw
  have hstats : b.stats = (prune corpus.classes c.allowed).1 := h.stats
  exact {
    mode := rfl
    loaded := Corpus.size_of_loadClasses hclasses
    enums := by
      simp only [← Corpus.mem_of_loadEnums henums]
      exact corpus.enums.encard_mem
    pruned := hstats
    classes := by
      change corpus.classes.size = b.stats.retainedCount + b.stats.removed.size
      rw [hstats, retainedCount_add_removed]
    stubs := hstubs
    types := htypes
    suffix := (of_splice_eq_ok h.source).2.1
    lines := hlines
    bytes := hbytes }

end Generate

/-- The summary of a run accounts for it, and the output holds the splice of the host with the block of the
pruned classes, with the suffix that the summary gives. -/
theorem summary_accounts (rt : Runtime) (t : FileTree) (c : GenerateConfig) (s : Summary)
    (h : (generate rt t c).result = .ok s) :
    ∃ corpus block host content,
      Corpus.load rt.loader t c.docsDir = .ok corpus ∧
      ((corpus.rendering c.allowed c.mode).buildBlock c.comments).2 = .ok block ∧
      Generate.readHost t c = .ok host ∧
      splice host block.text s.internalSuffix = .ok content ∧
      Spliced host block.text s.internalSuffix content ∧
      (generate rt t c).tree.read c.output = .ok content.toUTF8 ∧
      s.Accounts rt.loader t c corpus content := by
  obtain ⟨corpus, host, b, w, hbuilt, -, hw, rfl⟩ := built_of_result h
  refine ⟨corpus, b.block, host, b.source, hbuilt.loaded, ?_, hbuilt.hostText, hbuilt.source,
    spliced_of_splice hbuilt.source, FileTree.read_of_write hw, Generate.accounts_of_built hbuilt hw⟩
  rw [← context_eq_rendering]
  exact hbuilt.block

theorem summary_accounts_small : ∃ s, (generate {} smallTree smallConfig).result = .ok s ∧
    s.loadedClasses = 3 ∧ s.prune.retainedCount = 2 ∧ s.prune.removed.toList = ["Part"] ∧
    s.stubCount = 2 ∧ s.typeCount = 2 ∧ s.internalSuffix ≠ "" := by
  obtain ⟨content, printed, s, hrun⟩ := generate_smallConfig
  have hresult : (generate {} smallTree smallConfig).result = .ok s := by rw [hrun]
  obtain ⟨corpus, block, host, content', hload, -, -, -, -, -, haccounts⟩ :=
    summary_accounts {} smallTree smallConfig s hresult
  obtain rfl : smallCorpus = corpus := Except.ok.inj (load_smallTree.symm.trans hload)
  have hretained : s.prune.retainedCount = 2 := by
    rw [haccounts.pruned]
    decide +kernel
  have hremoved : s.prune.removed.toList = ["Part"] := by
    rw [haccounts.pruned]
    decide +kernel
  refine ⟨s, hresult, ?_, hretained, hremoved, ?_, ?_, haccounts.suffix⟩
  · rw [haccounts.classes, hretained, NameSet.size, hremoved]
    rfl
  · rw [haccounts.stubs, hretained]
  · rw [haccounts.types, smallConfig, hretained]

end LuauBindings
