import LuauBindings.Proofs.Run.Program

/-!
# How the program ends

An encoding that takes a text does with it what one without limits does. So if the encodings take all that the
program prints, hashes and writes when there are no limits (`Program.Encodable`), the program does the same with
them (`runProgram_of_encodable`), and it ends cleanly: it completes or exits with a code, and unless it completes no
file is another than before (`runProgram_ends_cleanly`).

If a text is refused, this is lost in three ways (`refused_texts_end_badly`). The handler of configuration errors
prints a text that the console may refuse as well. The output is opened before the build is encoded. And what the
run says of its success it says after it has written.
-/

namespace LuauBindings
open FileTree (SameFiles)
open Generate (context readHost suffixFor)
variable {rt : Runtime} {t u : FileTree} {c : GenerateConfig} {f : Failure} {corpus : Corpus} {host : String}
  {block : GeneratedBlock} {b : Build} {argv : List String} {printed : String}

namespace Generate

/-- The texts that a run encodes for files: the block, which is hashed, and the build, which is written. -/
inductive Encodes (loader : Yaml.Loader) (t : FileTree) (c : GenerateConfig) : String → Prop
  | block {corpus : Corpus} {block : GeneratedBlock} (hload : Corpus.load loader t c.docsDir = .ok corpus)
    (hblock : ((context corpus c).2.buildBlock c.comments).2 = .ok block) : Encodes loader t c block.text
  | source {corpus : Corpus} {block : GeneratedBlock} {host source : String}
    (hload : Corpus.load loader t c.docsDir = .ok corpus)
    (hblock : ((context corpus c).2.buildBlock c.comments).2 = .ok block) (hhost : readHost t c = .ok host)
    (hsource : splice host block.text (suffixFor c block) = .ok source) : Encodes loader t c source

/-- If the console takes all that a run without limits has printed in the end, then it takes what was printed
before the run, and with its own limits the run is the same. -/
def Unhindered (rt : Runtime) (run : Runtime → String → GenerateRun) : Prop :=
  ∀ printed, rt.console.Takes (run rt.unlimited printed).printed →
    rt.console.Takes printed ∧ run rt printed = run rt.unlimited printed

theorem unhindered_end (rt : Runtime) (t : FileTree) (result : Except Failure Summary) :
    Unhindered rt fun _ printed => ⟨t, printed, result⟩ :=
  fun _ h => ⟨h, rfl⟩

/-- What is printed before the rest of a run is part of what there is in the end. -/
theorem Unhindered.print {run : Runtime → String → GenerateRun} (h : Unhindered rt run) (t : FileTree)
    (text : String) : Unhindered rt fun rt printed => print rt t printed text (run rt) := by
  intro printed hprinted
  have htotal : rt.unlimited.console.Takes text := Encoding.takes_total text
  dsimp only at hprinted ⊢
  rw [print_of_takes htotal] at hprinted ⊢
  obtain ⟨htakes, hsame⟩ := h _ hprinted
  obtain ⟨hbefore, htext⟩ := Encoding.takes_append.mp htakes
  exact ⟨hbefore, (print_of_takes htext t printed _).trans hsame⟩

theorem build_of_takes (h : rt.files.Takes block.text) (stats : PruneStats) :
    build rt t c stats block = build rt.unlimited t c stats block := by
  have hhashed : suffixRefusal? rt c block = suffixRefusal? rt.unlimited c block := by
    simp only [suffixRefusal?, Encoding.refusal?_eq_none_iff.mpr h, Runtime.files_unlimited,
      Encoding.refusal?_total]
  rw [build, build, hhashed]

theorem writeOutput_of_takes {source : String} (h : rt.files.Takes source) :
    writeOutput rt t c source = writeOutput rt.unlimited t c source := by
  simp only [writeOutput, Encoding.refusal?_eq_none_iff.mpr h, Runtime.files_unlimited, Encoding.refusal?_total]

theorem unhindered_finish (t : FileTree) (c : GenerateConfig) (corpus : Corpus)
    (hsource : rt.files.Takes b.source) :
    Unhindered rt fun rt printed => finish rt t c printed corpus b := by
  intro printed hprinted
  dsimp only [finish] at hprinted ⊢
  rw [writeOutput_of_takes hsource]
  generalize writeOutput rt.unlimited t c b.source = written at hprinted ⊢
  rcases written with ⟨u, f | w⟩
  · exact ⟨hprinted, rfl⟩
  · exact (((unhindered_end rt u _).print u _).print u _) printed hprinted

theorem unhindered_afterLoading (hload : Corpus.load rt.loader t c.docsDir = .ok corpus)
    (hfiles : ∀ text, Encodes rt.loader t c text → rt.files.Takes text) :
    Unhindered rt fun rt printed => afterLoading rt t c printed corpus := by
  unfold afterLoading
  dsimp only
  refine Unhindered.print (Unhindered.print ?_ t _) t _
  cases hblock : (context corpus c).2.buildBlock c.comments with
  | mk ctx result =>
    cases result with
    | error e => exact unhindered_end rt t _
    | ok block =>
      have hblock : ((context corpus c).2.buildBlock c.comments).2 = .ok block := congrArg Prod.snd hblock
      refine Unhindered.print (fun printed hprinted => ?_) t _
      rw [build_of_takes (hfiles _ (.block hload hblock))]
      rcases build_cases rt.unlimited t c (context corpus c).1 block with
        ⟨f, hbuild, -⟩ | ⟨host, source, hhost, -, hsource, hbuild⟩
      · rw [hbuild] at hprinted ⊢
        exact ⟨hprinted, rfl⟩
      · rw [hbuild] at hprinted ⊢
        exact unhindered_finish t c corpus (hfiles _ (.source hload hblock hhost hsource)) printed hprinted

end Generate

open Generate

theorem generate_of_takes (hfiles : ∀ text, Encodes rt.loader t c text → rt.files.Takes text)
    (hprinted : rt.console.Takes (generate rt.unlimited t c).printed) :
    generate rt t c = generate rt.unlimited t c := by
  unfold generate at hprinted ⊢
  cases hload : Corpus.load rt.loader t c.docsDir with
  | error f =>
    simp only [Runtime.loader_unlimited, hload] at hprinted ⊢
    exact ((unhindered_end rt t (.error f)).print t (loadingLine c) "" hprinted).2
  | ok corpus =>
    simp only [Runtime.loader_unlimited, hload] at hprinted ⊢
    exact ((unhindered_afterLoading hload hfiles).print t (loadingLine c) "" hprinted).2

namespace Program

theorem close_of_takes {code : Nat} {texts : List String}
    (h : rt.console.Takes (close rt.unlimited t code printed texts).stdout) :
    rt.console.Takes printed ∧ close rt t code printed texts = close rt.unlimited t code printed texts := by
  induction texts generalizing printed with
  | nil => exact ⟨h, rfl⟩
  | cons text texts ih =>
    simp only [close, Runtime.console_unlimited, Encoding.refusal?_total] at h ⊢
    obtain ⟨htakes, hsame⟩ := ih h
    obtain ⟨hbefore, htext⟩ := Encoding.takes_append.mp htakes
    rw [Encoding.refusal?_eq_none_iff.mpr htext]
    exact ⟨hbefore, hsame⟩

theorem fail_of_takes (h : rt.console.Takes (fail rt.unlimited t printed f).stdout) :
    rt.console.Takes printed ∧ fail rt t printed f = fail rt.unlimited t printed f := by
  unfold fail at h ⊢
  split
  · next hreport =>
    simp only [hreport] at h
    exact close_of_takes h
  · next hreport =>
    simp only [hreport] at h
    exact close_of_takes h
  · next hreport =>
    simp only [hreport] at h
    exact ⟨h, rfl⟩

/-- The encodings take what the program prints when there are no limits, and what it hashes and writes. -/
structure Encodable (rt : Runtime) (t : FileTree) (argv : List String) : Prop where
  stdout : rt.console.Takes (runProgram rt.unlimited t argv).stdout
  files : ∀ o g text, Options.parse argv = .ok (.run o) → Config.ofOptions t o = .ok (.generate g) →
    Encodes rt.loader t g text → rt.files.Takes text

theorem runConfig_discover_of_takes {d : DiscoveryConfig}
    (h : rt.console.Takes (runConfig rt.unlimited t (.discover d)).stdout) :
    runConfig rt t (.discover d) = runConfig rt.unlimited t (.discover d) := by
  unfold runConfig at h ⊢
  simp only [Runtime.loader_unlimited, Runtime.console_unlimited, Encoding.refusal?_total] at h ⊢
  rcases hrun : discover rt.loader t d with f | text | name
  · simp only [hrun] at h ⊢
    exact (fail_of_takes h).2
  · simp only [hrun] at h ⊢
    simp only [Encoding.refusal?_eq_none_iff.mpr h]
  · rfl

theorem runConfig_generate_of_takes {g : GenerateConfig}
    (hfiles : ∀ text, Encodes rt.loader t g text → rt.files.Takes text)
    (h : rt.console.Takes (runConfig rt.unlimited t (.generate g)).stdout) :
    runConfig rt t (.generate g) = runConfig rt.unlimited t (.generate g) := by
  cases hresult : (generate rt.unlimited t g).result with
  | error f =>
    rw [runConfig_of_generate_error hresult] at h ⊢
    obtain ⟨hprinted, hfail⟩ := fail_of_takes h
    have hsame := generate_of_takes hfiles hprinted
    rw [runConfig_of_generate_error (hsame ▸ hresult), hsame, hfail]
  | ok s =>
    rw [runConfig_of_generate_ok hresult] at h ⊢
    have hsame := generate_of_takes hfiles h
    rw [runConfig_of_generate_ok (hsame ▸ hresult), hsame]

end Program

/-- Encodings that take what they have to make no difference. -/
theorem runProgram_of_encodable (h : Program.Encodable rt t argv) :
    runProgram rt t argv = runProgram rt.unlimited t argv := by
  have hstdout := h.stdout
  unfold runProgram at hstdout ⊢
  cases hparse : Options.parse argv with
  | error e => rfl
  | ok request =>
    cases request with
    | help =>
      simp only [hparse] at hstdout ⊢
      exact (Program.close_of_takes hstdout).2
    | run o =>
      simp only [hparse] at hstdout ⊢
      cases hc : Config.ofOptions t o with
      | error fault =>
        simp only [hc] at hstdout ⊢
        exact (Program.close_of_takes hstdout).2
      | ok c =>
        simp only [hc] at hstdout ⊢
        cases c with
        | discover d => exact Program.runConfig_discover_of_takes hstdout
        | generate g => exact Program.runConfig_generate_of_takes (h.files o g · hparse hc) hstdout

/-- The program completes or exits with code 0, 1 or 2, and if it does not complete no file is another than before,
as long as its texts can be encoded. In any case no failure but a refused report leaves the program, and a file
that is another is the output of options that ask for a build. -/
theorem runProgram_ends_cleanly (rt : Runtime) (t : FileTree) (argv : List String)
    (hread : t.DocumentsRead rt.loader) :
    let outcome := runProgram rt t argv
    (Program.Encodable rt t argv →
      (outcome.ending = .completed ∨ ∃ code, code ≤ 2 ∧ outcome.ending = .exited code) ∧
      (outcome.ending ≠ .completed → ∀ l, outcome.tree.fileAt? l = t.fileAt? l)) ∧
    (outcome.ending = .completed ∨ (∃ code, code ≤ 2 ∧ outcome.ending = .exited code) ∨
      ∃ message, rt.Refuses message ∧ outcome.ending = .unreported (.unencodable message)) ∧
    ∀ l, outcome.tree.fileAt? l ≠ t.fileAt? l → ∃ o g, Options.parse argv = .ok (.run o) ∧
      Config.ofOptions t o = .ok (.generate g) ∧ outcome.tree.locate o.output = .ok l := by
  intro outcome
  obtain ⟨hending, -, houtput⟩ := ends_runProgram hread argv
  refine ⟨fun hencodable => ?_, ?_, houtput⟩
  · have hsame : outcome = runProgram rt.unlimited t argv := runProgram_of_encodable hencodable
    have hread' : t.DocumentsRead rt.unlimited.loader := hread
    obtain ⟨hending, hfiles, -⟩ := ends_runProgram hread' argv
    rw [← hsame] at hending hfiles
    refine ⟨hending.imp_right fun hclosed => ?_, fun hne => ?_⟩
    · generalize outcome.ending = ending at hclosed
      cases hclosed with
      | exited hcode => exact ⟨_, hcode, rfl⟩
      | refused h => exact absurd h (rt.not_refuses_unlimited _)
    · rcases hfiles with hdone | hfiles | ⟨message, h⟩
      · exact absurd hdone hne
      · exact hfiles
      · exact absurd h (rt.not_refuses_unlimited message)
  · refine hending.imp_right fun hclosed => ?_
    generalize outcome.ending = ending at hclosed
    cases hclosed with
    | exited hcode => exact .inl ⟨_, hcode, rfl⟩
    | refused h => exact .inr ⟨_, h, rfl⟩

section SmallTree

/-- The encoding of a console that knows ASCII, with what it says of the texts below. -/
def ascii : Encoding where
  encodes ch := decide (ch.val < 128)
  message _ := "'ascii' codec can't encode character '\\xe9'"

/-- A build is written, and a class name that is none is refused in a text that the console takes. -/
theorem runProgram_ends_cleanly_new_folder :
    let outcome := runProgram {} smallTree smallCommand
    let misspelt := smallCommand ++ ["--allow", "1"]
    let refused := runProgram { console := ascii } smallTree misspelt
    smallTree.DocumentsRead Yaml.load ∧ Program.Encodable {} smallTree smallCommand ∧
    outcome.ending = .completed ∧ (outcome.tree.fileAt? ["out", "build.luau"]).isSome ∧
    (∀ l, l ≠ ["out", "build.luau"] → outcome.tree.fileAt? l = smallTree.fileAt? l) ∧
    Program.Encodable { console := ascii } smallTree misspelt ∧ refused.ending = .exited 1 ∧
    ∀ l, refused.tree.fileAt? l = smallTree.fileAt? l := by
  intro outcome misspelt refused
  have hencodable : Program.Encodable {} smallTree smallCommand :=
    ⟨Encoding.takes_total _, fun _ _ _ _ _ _ => Encoding.takes_total _⟩
  obtain ⟨-, -, hchanged⟩ := runProgram_ends_cleanly {} smallTree smallCommand documentsRead_smallTree
  have hcarried : outcome = Program.runConfig {} smallTree (.generate smallConfig) :=
    runProgram_of_config rfl rfl
  obtain ⟨content, printed, hrun⟩ := runConfig_smallConfig
  have hend : outcome.ending = .completed := by rw [hcarried, hrun]
  have hout : (outcome.tree.fileAt? ["out", "build.luau"]).isSome ∧
      outcome.tree.locate (.ofText "out/build.luau") = .ok ["out", "build.luau"] := by
    rw [hcarried, hrun]
    exact ⟨rfl, rfl⟩
  have hmisspelt : Program.Encodable { console := ascii } smallTree misspelt := by
    refine ⟨Encoding.refusal?_eq_none_iff.mp (by decide), fun o g text hparse hc => ?_⟩
    cases hparse
    cases hc
  have hrefused : refused.ending = .exited 1 := rfl
  obtain ⟨hclean, -, -⟩ := runProgram_ends_cleanly { console := ascii } smallTree misspelt documentsRead_smallTree
  refine ⟨documentsRead_smallTree, hencodable, hend, hout.1, fun l hl => ?_, hmisspelt, hrefused, ?_⟩
  · refine Decidable.byContradiction fun hne => hl ?_
    obtain ⟨o, g, hparse, -, hlocate⟩ := hchanged l hne
    cases hparse
    exact Except.ok.inj (hlocate.symm.trans hout.2)
  · exact (hclean hmisspelt).2 (by rw [hrefused]; exact fun h => by cases h)

theorem exists_built_accented : ∃ b, Generate.Built { console := ascii } smallTree
    { smallConfig with output := .ofText "é.luau" } smallCorpus "--!strict\n-- AUTOGEN\n" b := by
  obtain ⟨b, hbuilt⟩ := exists_built_small (.ofText "é.luau")
  refine ⟨b, { hbuilt with printed := Encoding.refusal?_eq_none_iff.mp ?_ }⟩
  obtain ⟨-, hblock⟩ := RenderContext.of_buildBlock hbuilt.block
  rw [hblock]
  decide +kernel

/-- The console refuses the name of the file that has been written. -/
theorem generate_accented : ∃ content printed,
    generate { console := ascii } smallTree { smallConfig with output := .ofText "é.luau" } =
      ⟨smallTree.put ["é.luau"] (.file content), printed, .error (.unencodable (ascii.message ""))⟩ := by
  obtain ⟨b, hbuilt⟩ := exists_built_accented
  let w : FileTree.Written := ⟨"/é.luau", Text.countNewlines b.source, b.source.toUTF8.size⟩
  have hwrite : smallTree.write (.ofText "é.luau") b.source =
      (smallTree.put ["é.luau"] (.file b.source.toUTF8), .ok w) := rfl
  have hrefused : ascii.refusal? (writtenLine w) = some (ascii.message "") := by
    have haccented : ¬ ascii.Takes ("/é.luau" ++ "\n") := fun h => absurd (h 'é' (by decide)) (by decide)
    refine Encoding.refusal?_eq_some_iff.mpr ⟨fun h => ?_, rfl⟩
    rw [writtenLine, String.append_assoc, Encoding.takes_append] at h
    exact haccented h.2
  rw [generate_of_built hbuilt, Generate.finish, writeOutput_of_write (Encoding.takes_total _) hwrite]
  dsimp only
  rw [print, hrefused]
  exact ⟨_, _, rfl⟩

theorem runProgram_accented : ∃ content printed,
    runProgram { console := ascii } smallTree (smallCommand ++ ["--output", "é.luau"]) =
      Program.fail { console := ascii } (smallTree.put ["é.luau"] (.file content)) printed
        (.unencodable (ascii.message "")) := by
  obtain ⟨content, printed, hrun⟩ := generate_accented
  have hcarried : runProgram { console := ascii } smallTree (smallCommand ++ ["--output", "é.luau"]) =
    Program.runConfig { console := ascii } smallTree
      (.generate { smallConfig with output := .ofText "é.luau" }) := runProgram_of_config rfl rfl
  refine ⟨content, printed, ?_⟩
  rw [hcarried, Program.runConfig_of_generate_error (congrArg GenerateRun.result hrun), hrun]

end SmallTree

section HalfPair

/-- Half of a surrogate pair. -/
def halfPair : Char := Char.ofNat 0x10d800

/-- The encoding of files, which has a code for everything but half of a pair. -/
def utf8 : Encoding where
  encodes ch := ch != halfPair
  message _ := "'utf-8' codec can't encode character '\\ud800'"

/-- A class document with half of a pair for the type of a property, a host, and an earlier build. -/
def halfPairTree : FileTree where
  entries := .ofList
    [(["docs"], .folder), (["docs", "classes"], .folder), (["docs", "enums"], .folder),
      (["docs", "classes", "Frame.yaml"], .file
        "name: GuiObject\nproperties: [\x7bname: Size, type: \"\\ud800\"\x7d]".toUTF8),
      (["host.luau"], .file "-- AUTOGEN\n".toUTF8), (["build.luau"], .file "old".toUTF8)]
  current := []

/-- A loader that reads the escape in this document for half of a pair. -/
def halfPairLoader : Yaml.Loader := fun _ =>
  .ok (.map [(.str "name", .str "GuiObject"), (.str "properties", .list [.map
    [(.str "name", .str "Size"), (.str "type", .str (String.singleton halfPair))]])])

def halfPairRuntime : Runtime :=
  { loader := halfPairLoader, files := utf8 }

def halfPairCorpus : Corpus where
  classes := .ofList [("GuiObject",
    { name := "GuiObject", properties := [⟨"Size", String.singleton halfPair⟩] })]
  enums := .empty

theorem load_halfPairTree : Corpus.load halfPairLoader halfPairTree (.ofText "docs") = .ok halfPairCorpus := by
  have hchildren : halfPairTree.children (.ofText "docs/classes") =
      .ok (halfPairTree.childrenAt ["docs", "classes"]) := rfl
  have henums : halfPairTree.children (.ofText "docs/enums") = .ok [] := rfl
  have hclassPaths := Corpus.documentPaths_of_sorted hchildren rfl (List.pairwise_singleton ..)
  have henumPaths := Corpus.documentPaths_of_sorted henums rfl .nil
  have hdocs : (Path.ofText "docs").child "classes" = .ofText "docs/classes" ∧
      (Path.ofText "docs").child "enums" = .ofText "docs/enums" := by decide
  have hread : ((Corpus.addClasses halfPairLoader halfPairTree .empty
      [(Path.ofText "docs/classes").child "Frame.yaml"]).map OrderedMap.entries).toOption =
        some halfPairCorpus.classes.entries := by decide
  rw [Corpus.load, hdocs.1, hdocs.2, Corpus.loadClasses, Corpus.loadEnums, hclassPaths, henumPaths]
  dsimp only [List.map_cons, List.map_nil]
  generalize Corpus.addClasses halfPairLoader halfPairTree .empty _ = classes at hread ⊢
  rcases classes with f | classes
  · cases hread
  · obtain rfl : classes = halfPairCorpus.classes := OrderedMap.ext (Option.some.inj hread)
    rfl

def halfPairConfig : GenerateConfig :=
  { smallConfig with output := .ofText "build.luau" }

theorem mem_blockText {declarations wrappers : List String} {ch : Char}
    (h : ch ∈ (String.join declarations).toList) :
    ch ∈ (RenderContext.blockText declarations wrappers).toList := by
  unfold RenderContext.blockText
  rw [String.toList_append, String.toList_append, String.toList_append, String.toList_append]
  exact List.mem_append_left _ (List.mem_append_left _ (List.mem_append_left _ (List.mem_append_right _ h)))

/-- What stands in a declaration, and in neither directive nor symbol, stands in the build. -/
theorem mem_build_of_mem_declarations {ctx : RenderContext} {comments : Bool} {source : String} {ch : Char}
    (hblock : (ctx.buildBlock comments).2 = .ok block)
    (hsource : splice "-- AUTOGEN\n" block.text "x" = .ok source) (hstrict : ch ∉ strictDirective.toList)
    (hsymbol : ch ∉ internalSymbol.toList) (h : ch ∈ (String.join ctx.declarations).toList) :
    ch ∈ source.toList := by
  have htext : ch ∈ block.text.toList := by
    rw [(RenderContext.of_buildBlock hblock).2]
    exact mem_blockText h
  have hfinished : ch ∈ (finishText "x" block.text).toList := by
    have hunchecked := Text.mem_replaceAll (by decide) hstrict nocheckDirective.toList htext
    rw [toList_finishText]
    exact Text.mem_replaceAll (by decide) hsymbol _ (toList_unchecked block.text ▸ hunchecked)
  have hmarker : Text.contains "-- AUTOGEN\n" spliceMarker = true := by decide
  have hpieces : (hostPieces "-- AUTOGEN\n").map (finishText "x") = ["", "\n"] := by decide
  have hsuffix : "x" ≠ "" := by decide
  have hsplice := (splice_piecewise hblock hmarker hsuffix).1
  rw [hpieces, hsource] at hsplice
  rw [Except.ok.inj hsplice, String.toList_intercalate]
  simp [hfinished]

/-- The build holds the type of the property. -/
theorem exists_built_halfPair : ∃ b, Generate.Built halfPairRuntime halfPairTree halfPairConfig halfPairCorpus
    "-- AUTOGEN\n" b ∧ utf8.refusal? b.source = some (utf8.message "") := by
  let ctx := (context halfPairCorpus halfPairConfig).2
  obtain ⟨block, hblock⟩ : ∃ block, (ctx.buildBlock false).2 = .ok block :=
    RenderContext.exists_block (by decide)
  have hsource : splice "-- AUTOGEN\n" block.text "x" = .ok _ := splice_eq_ok (by decide) (by decide)
  refine ⟨⟨_, block, "x", _⟩,
    ⟨load_halfPairTree, rfl, hblock, Encoding.takes_total _, rfl, rfl, rfl, hsource⟩, ?_⟩
  have hdeclared : halfPair ∈ (String.join ctx.declarations).toList := by decide
  have hbuild := mem_build_of_mem_declarations hblock hsource (by decide) (by decide) hdeclared
  exact Encoding.refusal?_eq_some_iff.mpr ⟨fun h => absurd (h halfPair hbuild) (by decide), rfl⟩

/-- The output is opened, and the build is refused. -/
theorem generate_halfPair : ∃ printed, generate halfPairRuntime halfPairTree halfPairConfig =
    ⟨halfPairTree.put ["build.luau"] (.file .empty), printed, .error (.unencodable (utf8.message ""))⟩ := by
  obtain ⟨b, hbuilt, hrefused⟩ := exists_built_halfPair
  have hrefused : halfPairRuntime.files.refusal? b.source = some (utf8.message "") := hrefused
  have hopened : halfPairTree.write halfPairConfig.output "" =
      (halfPairTree.put ["build.luau"] (.file .empty), .ok ⟨"/build.luau", 0, 0⟩) := rfl
  have hwrite : writeOutput halfPairRuntime halfPairTree halfPairConfig b.source =
      (halfPairTree.put ["build.luau"] (.file .empty), .error (.unencodable (utf8.message ""))) := by
    simp only [writeOutput, hrefused, hopened]
  rw [generate_of_built hbuilt, finish_of_error hwrite]
  exact ⟨_, rfl⟩

theorem runProgram_halfPair : ∃ printed,
    runProgram halfPairRuntime halfPairTree (smallCommand ++ ["--output", "build.luau"]) =
      Program.fail halfPairRuntime (halfPairTree.put ["build.luau"] (.file .empty)) printed
        (.unencodable (utf8.message "")) := by
  obtain ⟨printed, hrun⟩ := generate_halfPair
  have hcarried : runProgram halfPairRuntime halfPairTree (smallCommand ++ ["--output", "build.luau"]) =
    Program.runConfig halfPairRuntime halfPairTree (.generate halfPairConfig) := runProgram_of_config rfl rfl
  refine ⟨printed, ?_⟩
  rw [hcarried, Program.runConfig_of_generate_error (congrArg GenerateRun.result hrun), hrun]

end HalfPair

/-- Three ends that are not clean. The report of a class name that is none is refused and the program ends by
itself. The build is written to a file whose name the console refuses, and the program exits with code 1. The build
is refused, the program exits with code 1, and the earlier build is gone. -/
theorem refused_texts_end_badly :
    let console : Runtime := { console := ascii }
    let misspelt := runProgram console smallTree (smallCommand ++ ["--allow", "é"])
    let unsaid := runProgram console smallTree (smallCommand ++ ["--output", "é.luau"])
    let emptied := runProgram halfPairRuntime halfPairTree (smallCommand ++ ["--output", "build.luau"])
    (smallTree.DocumentsRead console.loader ∧ halfPairTree.DocumentsRead halfPairRuntime.loader) ∧
    misspelt.ending = .unreported (.unencodable (ascii.message "")) ∧
    (unsaid.ending = .exited 1 ∧ smallTree.fileAt? ["é.luau"] = none ∧
      (unsaid.tree.fileAt? ["é.luau"]).isSome) ∧
    emptied.ending = .exited 1 ∧ halfPairTree.fileAt? ["build.luau"] = some "old".toUTF8 ∧
      emptied.tree.fileAt? ["build.luau"] = some .empty := by
  intro console misspelt unsaid emptied
  refine ⟨⟨documentsRead_smallTree, ?_⟩, rfl, ?_, ?_⟩
  · intro l name bytes text _ _ _ _ f hf
    cases hf
  · obtain ⟨content, printed, hrun⟩ := runProgram_accented
    have hunsaid : unsaid = _ := hrun
    rw [hunsaid]
    exact ⟨rfl, rfl, rfl⟩
  · obtain ⟨printed, hrun⟩ := runProgram_halfPair
    have hemptied : emptied = _ := hrun
    rw [hemptied]
    exact ⟨rfl, rfl, rfl⟩

end LuauBindings
