import LuauBindings.Proofs.Corpus.InOrder
import LuauBindings.Proofs.Files.LineEnds
import LuauBindings.Proofs.Run.Regeneration

/-!
# Line ends do not show

All that a run reads it reads as text, and a text is the same with any line ends. So over trees that differ in
line ends the corpus is the same (`Corpus.load_restyled`), the host is the same, and the build is the same; it is
written in the same place with the same bytes, for what is written does not depend on what was there.
-/

namespace LuauBindings
open FileTree (Restyled SameOutcome)
variable {rt : Runtime} {t u : FileTree} {c : GenerateConfig}

namespace Corpus

theorem readDocument_restyled (h : Restyled t u) (loader : Yaml.Loader) (p : Path) :
    readDocument loader u p = readDocument loader t p := by
  have hread := h.read p
  rw [readDocument, readDocument]
  generalize t.read p = found at hread ⊢
  generalize u.read p = found' at hread ⊢
  cases hread with
  | error _ => rfl
  | ok hbytes =>
    dsimp only
    rw [Text.readText_of_rewritten hbytes]

theorem documentPaths_restyled (h : Restyled t u) (folder : Path) :
    documentPaths u folder = documentPaths t folder := by
  rw [documentPaths, documentPaths, FileTree.children, FileTree.children, h.locate_eq]
  rcases t.locate folder with fault | l
  · rfl
  · have hnames : documentNames (u.childrenAt l) = documentNames (t.childrenAt l) :=
      documentNames_congr fun name _ => h.isSome_fileAt? (l ++ [name])
    have hentry := h.entry l
    dsimp only
    generalize t.lookup l = e at hentry ⊢
    generalize u.lookup l = e' at hentry ⊢
    cases hentry with
    | absent => rfl
    | folder =>
      dsimp only [Except.map]
      rw [hnames]
    | file _ => rfl

theorem load_restyled (h : Restyled t u) (loader : Yaml.Loader) (docs : Path) :
    load loader u docs = load loader t docs := by
  have hclasses : loadClasses loader u (docs.child "classes") = loadClasses loader t (docs.child "classes") := by
    simp only [loadClasses, documentPaths_restyled h,
      addClasses_congr fun p _ => readDocument_restyled h loader p]
  have henums : loadEnums loader u (docs.child "enums") = loadEnums loader t (docs.child "enums") := by
    have hread : readAs loader documentName u = readAs loader documentName t := by
      funext p
      rw [readAs, readAs, readDocument_restyled h loader p]
    rw [loadEnums, loadEnums, documentPaths_restyled h, hread]
  rw [load, load, hclasses, henums]

end Corpus

namespace Generate

/-- Runs that print the same, end the same and leave trees that differ in line ends. -/
structure SameRun (r r' : GenerateRun) : Prop where
  tree : Restyled r.tree r'.tree
  printed : r'.printed = r.printed
  result : r'.result = r.result

theorem readHost_restyled (h : Restyled t u) (c : GenerateConfig) : readHost u c = readHost t c := by
  have hread := h.read c.host
  rw [readHost, readHost]
  generalize t.read c.host = found at hread ⊢
  generalize u.read c.host = found' at hread ⊢
  cases hread with
  | error _ => rfl
  | ok hbytes =>
    dsimp only
    rw [Text.readText_of_rewritten hbytes]

theorem cr_not_mem_of_readHost {host : String} (h : readHost t c = .ok host) : '\r' ∉ host.toList := by
  unfold readHost at h
  split at h
  · cases h
  · next bytes _ =>
    rcases htext : Text.Utf8.readText bytes with fault | text
    · rw [htext] at h
      cases h
    · rw [htext] at h
      obtain rfl : text = host := Except.ok.inj h
      obtain ⟨decoded, -, rfl⟩ := map_eq_ok.mp htext
      rw [String.toList_ofList]
      exact Text.not_mem_unifyNewlines decoded.toList

theorem SameRun.print (h : Restyled t u) {next next' : String → GenerateRun}
    (hnext : ∀ printed, SameRun (next printed) (next' printed)) (printed text : String) :
    SameRun (print rt t printed text next) (print rt u printed text next') := by
  rw [Generate.print, Generate.print]
  split
  · exact ⟨h, rfl, rfl⟩
  · exact hnext _

theorem writeOutput_restyled (h : Restyled t u) (rt : Runtime) (c : GenerateConfig) (source : String) :
    Restyled (writeOutput rt t c source).1 (writeOutput rt u c source).1 ∧
    (writeOutput rt u c source).2 = (writeOutput rt t c source).2 := by
  have hwrites (text : String) := h.write c.output text
  unfold writeOutput
  split
  · have hwrites := hwrites source
    generalize t.write c.output source = written at hwrites ⊢
    generalize u.write c.output source = written' at hwrites ⊢
    cases hwrites with
    | mk hleft answer => cases answer <;> exact ⟨hleft, rfl⟩
  · have hwrites := hwrites ""
    generalize t.write c.output "" = written at hwrites ⊢
    generalize u.write c.output "" = written' at hwrites ⊢
    cases hwrites with
    | mk hleft answer => cases answer <;> exact ⟨hleft, rfl⟩

theorem finish_restyled (h : Restyled t u) (c : GenerateConfig) (printed : String) (corpus : Corpus) (b : Build) :
    SameRun (finish rt t c printed corpus b) (finish rt u c printed corpus b) := by
  obtain ⟨htree, hanswer⟩ := writeOutput_restyled h rt c b.source
  rw [finish, finish]
  generalize writeOutput rt t c b.source = written at htree hanswer ⊢
  generalize writeOutput rt u c b.source = written' at htree hanswer ⊢
  obtain ⟨left, answer⟩ := written
  obtain ⟨left', answer'⟩ := written'
  obtain rfl : answer' = answer := hanswer
  cases answer' with
  | error f => exact ⟨htree, rfl, rfl⟩
  | ok w =>
    dsimp only
    refine SameRun.print htree (fun printed => ?_) _ _
    refine SameRun.print htree (fun printed => ?_) _ _
    exact ⟨htree, rfl, rfl⟩

theorem afterLoading_restyled (h : Restyled t u) (c : GenerateConfig) (printed : String) (corpus : Corpus) :
    SameRun (afterLoading rt t c printed corpus) (afterLoading rt u c printed corpus) := by
  have hbuild (stats : PruneStats) (block : GeneratedBlock) :
      build rt u c stats block = build rt t c stats block := by
    rw [build, build, readHost_restyled h]
  rw [afterLoading, afterLoading]
  dsimp only
  refine SameRun.print h (fun _ => SameRun.print h (fun printed => ?_) _ _) _ _
  rcases (context corpus c).2.buildBlock c.comments with ⟨ctx, e | block⟩
  · exact ⟨h, rfl, rfl⟩
  · refine SameRun.print h (fun printed => ?_) _ _
    rw [hbuild]
    rcases build rt t c (context corpus c).1 block with e | b
    · exact ⟨h, rfl, rfl⟩
    · exact finish_restyled h c _ corpus b

theorem sameRun_of_restyled (h : Restyled t u) (rt : Runtime) (c : GenerateConfig) :
    SameRun (generate rt t c) (generate rt u c) := by
  rw [generate, generate, Corpus.load_restyled h]
  refine SameRun.print h (fun printed => ?_) _ _
  rcases Corpus.load rt.loader t c.docsDir with e | corpus
  · exact ⟨h, rfl, rfl⟩
  · exact afterLoading_restyled h c _ corpus

theorem Built.restyled {corpus : Corpus} {host : String} {b : Build} (h : Restyled t u)
    (hbuilt : Built rt t c corpus host b) : Built rt u c corpus host b :=
  { hbuilt with
    loaded := (Corpus.load_restyled h rt.loader c.docsDir).trans hbuilt.loaded
    hostText := (readHost_restyled h c).trans hbuilt.hostText }

theorem read_of_result {s : Summary} {corpus : Corpus} {host : String} {b : Build} (h : Built rt t c corpus host b)
    (hs : (generate rt t c).result = .ok s) : (generate rt t c).tree.read c.output = .ok b.source.toUTF8 := by
  obtain ⟨corpus', host', b', w, hbuilt, -, hw, -⟩ := built_of_result hs
  rw [h.eq_of_built hbuilt]
  exact FileTree.read_of_write hw

end Generate

open Generate (Built)

/-- A run ends and prints the same over trees that differ in line ends, and the trees it leaves differ in no more.
If it succeeds, it has read the same host in both, which is written with newline characters, and made the same
build of it, in which no strict directive is left. -/
theorem line_ends_invisible (rt : Runtime) (c : GenerateConfig) (h : Restyled t u) :
    (generate rt u c).result = (generate rt t c).result ∧ (generate rt u c).printed = (generate rt t c).printed ∧
    Restyled (generate rt t c).tree (generate rt u c).tree ∧
    ∀ s, (generate rt t c).result = .ok s → ∃ corpus host b, '\r' ∉ host.toList ∧
      Built rt t c corpus host b ∧ Built rt u c corpus host b ∧
      (generate rt t c).tree.read c.output = .ok b.source.toUTF8 ∧
      (generate rt u c).tree.read c.output = .ok b.source.toUTF8 ∧
      ∀ settled o, Config.ofOptions settled o = .ok (.generate c) →
        Text.contains b.source strictDirective = false := by
  obtain ⟨htree, hprinted, hresult⟩ := Generate.sameRun_of_restyled h rt c
  refine ⟨hresult, hprinted, htree, fun s hs => ?_⟩
  obtain ⟨corpus, host, b, w, hbuilt, -, -, -⟩ := built_of_result hs
  have hbuilt' := hbuilt.restyled h
  refine ⟨corpus, host, b, ?_, hbuilt, hbuilt', Generate.read_of_result hbuilt hs,
    Generate.read_of_result hbuilt' (hresult.trans hs), fun settled o hc => ?_⟩
  · exact Generate.cr_not_mem_of_readHost hbuilt.hostText
  · have hsuffix : Admissible b.suffix := by
      rw [hbuilt.suffix]
      exact Generate.admissible_suffixFor hc b.block
    exact not_strict_of_splice hsuffix.dash_not_mem hbuilt.source

/-- The small tree with CR LF in the host and CR in a document. -/
def restyledTree : FileTree :=
  let host := Text.LineEnd.crlf.rewriteText "--!strict\n-- AUTOGEN\n"
  let document := Text.LineEnd.cr.rewriteText
    "name: GuiObject\ninherits: [Base]\nproperties: [\x7bname: end, type: Style\x7d]"
  (smallTree.put ["host.luau"] (.file host.toUTF8)).put ["docs", "classes", "GuiObject.yaml"]
    (.file document.toUTF8)

theorem restyled_restyledTree : Restyled smallTree restyledTree := by
  let host := "--!strict\n-- AUTOGEN\n"
  let document := "name: GuiObject\ninherits: [Base]\nproperties: [\x7bname: end, type: Style\x7d]"
  have hplain : (smallTree.put ["host.luau"] (.file host.toUTF8)).put
      ["docs", "classes", "GuiObject.yaml"] (.file document.toUTF8) = smallTree := by
    have hhost : smallTree.put ["host.luau"] (.file host.toUTF8) = smallTree := FileTree.put_of_fileAt? rfl
    rw [hhost]
    exact FileTree.put_of_fileAt? rfl
  have hput := ((Restyled.refl smallTree).put ["host.luau"] (.file (.lineEnds .crlf host (by decide)))).put
    ["docs", "classes", "GuiObject.yaml"] (.file (.lineEnds .cr document (by decide)))
  rwa [hplain] at hput

theorem line_ends_invisible_mixed : ∃ s b,
    (generate {} smallTree smallConfig).result = .ok s ∧ (generate {} restyledTree smallConfig).result = .ok s ∧
    Built {} restyledTree smallConfig smallCorpus "--!strict\n-- AUTOGEN\n" b ∧
    (generate {} restyledTree smallConfig).tree.read smallConfig.output = .ok b.source.toUTF8 ∧
    Text.contains b.source strictDirective = false := by
  let o : Options :=
    { docsDir := some (.ofText "docs"), host := some (.ofText "host.luau")
      output := .ofText "out/build.luau", internalSuffix := some "x" }
  obtain ⟨hresult, -, -, hbuilds⟩ := line_ends_invisible {} smallConfig restyled_restyledTree
  obtain ⟨content, printed, s, hrun⟩ := generate_smallConfig
  have hs : (generate {} smallTree smallConfig).result = .ok s := congrArg GenerateRun.result hrun
  obtain ⟨corpus, host, b, -, hbuilt, hbuilt', -, hread, hstrict⟩ := hbuilds s hs
  obtain ⟨_, hsmall⟩ := exists_built_small smallConfig.output
  obtain rfl : corpus = smallCorpus := Except.ok.inj (hbuilt.loaded.symm.trans hsmall.loaded)
  obtain rfl : host = "--!strict\n-- AUTOGEN\n" := Except.ok.inj (hbuilt.hostText.symm.trans hsmall.hostText)
  exact ⟨s, b, hs, hresult.trans hs, hbuilt', hread, hstrict smallTree o rfl⟩

end LuauBindings
