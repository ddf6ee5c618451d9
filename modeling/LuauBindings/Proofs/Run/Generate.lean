import LuauBindings.Proofs.Corpus.Documents
import LuauBindings.Proofs.Render.Block
import LuauBindings.Proofs.Run.Runtime
import LuauBindings.Run.Generate

/-!
# What a run that generates can do

A run either stops before it writes anything (`Generate.Stopped`), or it has a build (`Generate.Built`)
and comes to its last stages with it (`generate_cases`). In these it opens the output, and no other file can be
another afterwards. Unless a text is refused there, the files are as they were or the run has succeeded
(`generate_files`).
-/

namespace LuauBindings
open FileTree (SameFiles)
variable {rt : Runtime} {t u : FileTree} {c : GenerateConfig} {f : Failure} {corpus : Corpus}
  {block : GeneratedBlock} {host printed text message : String} {b : Build} {s : Summary}
  {w : FileTree.Written}

namespace Generate

/-- What stops a run before it writes. -/
inductive Stopped (rt : Runtime) (t : FileTree) (c : GenerateConfig) : Failure → Prop
  | load {f : Failure} (h : Corpus.load rt.loader t c.docsDir = .error f) : Stopped rt t c f
  | marker : Stopped rt t c (.block .holdsMarker)
  | hostFile {e : FileError} (h : t.read c.host = .error e) : Stopped rt t c (.file e)
  | hostText (fault : Text.Utf8.Fault) : Stopped rt t c (.encoding fault)
  | splice (fault : SpliceFault) : Stopped rt t c (.splice fault)
  | refused {message : String} (h : rt.Refuses message) : Stopped rt t c (.unencodable message)

theorem Stopped.reported (hread : t.DocumentsRead rt.loader) (h : Stopped rt t c f) : f.Reported := by
  cases h with
  | load h => exact Corpus.reported_of_load hread h
  | marker => exact .holdsMarker
  | hostFile _ => exact .file _
  | hostText fault => exact .encoding fault
  | splice fault => exact .splice fault
  | refused _ => exact .unencodable _

/-- What a run has printed once it has a block. -/
def progress (corpus : Corpus) (c : GenerateConfig) (block : GeneratedBlock) : String :=
  loadingLine c ++ corpusLine corpus ++ prunedLine (context corpus c).1 ++ renderedLine block

/-- `b` is the build of a run: the block of the pruned corpus, spliced into the host. -/
structure Built (rt : Runtime) (t : FileTree) (c : GenerateConfig) (corpus : Corpus) (host : String) (b : Build) :
    Prop where
  loaded : Corpus.load rt.loader t c.docsDir = .ok corpus
  stats : b.stats = (context corpus c).1
  block : ((context corpus c).2.buildBlock c.comments).2 = .ok b.block
  printed : rt.console.Takes (progress corpus c b.block)
  hostText : readHost t c = .ok host
  hashed : suffixRefusal? rt c b.block = none
  suffix : b.suffix = suffixFor c b.block
  source : splice host b.block.text b.suffix = .ok b.source

/-- A run has one build. -/
theorem Built.eq_of_built {corpus' : Corpus} {host' : String} {b' : Build} (h : Built rt t c corpus host b)
    (h' : Built rt t c corpus' host' b') : b = b' := by
  obtain rfl : corpus = corpus' := Except.ok.inj (h.loaded.symm.trans h'.loaded)
  obtain rfl : host = host' := Except.ok.inj (h.hostText.symm.trans h'.hostText)
  have hblock : b.block = b'.block := Except.ok.inj (h.block.symm.trans h'.block)
  have hsuffix : b.suffix = b'.suffix := by rw [h.suffix, h'.suffix, hblock]
  have hsource : b.source = b'.source := by
    have hsame := h.source
    rw [hblock, hsuffix, h'.source] at hsame
    exact (Except.ok.inj hsame).symm
  obtain ⟨stats, block, suffix, source⟩ := b
  obtain ⟨stats', block', suffix', source'⟩ := b'
  obtain rfl : stats = stats' := h.stats.trans h'.stats.symm
  simp_all

section Print

theorem print_of_takes (h : rt.console.Takes text) (t : FileTree) (printed : String)
    (next : String → GenerateRun) : print rt t printed text next = next (printed ++ text) := by
  rw [print, Encoding.refusal?_eq_none_iff.mpr h]

/-- A text is printed, or the run ends there. -/
theorem print_cases (rt : Runtime) (t : FileTree) (printed text : String) (next : String → GenerateRun) :
    (rt.console.Takes text ∧ print rt t printed text next = next (printed ++ text)) ∨
    ∃ message, rt.Refuses message ∧
      print rt t printed text next = ⟨t, printed, .error (.unencodable message)⟩ := by
  cases h : rt.console.refusal? text with
  | none =>
    have htakes := Encoding.refusal?_eq_none_iff.mp h
    exact .inl ⟨htakes, print_of_takes htakes t printed next⟩
  | some message => exact .inr ⟨message, ⟨text, .inl h⟩, by rw [print, h]⟩

end Print

section Build

theorem stopped_of_readHost (h : readHost t c = .error f) : Stopped rt t c f := by
  unfold readHost at h
  split at h
  · next e he =>
    cases h
    exact .hostFile he
  · obtain ⟨fault, -, rfl⟩ := mapError_eq_error.mp h
    exact .hostText fault

theorem eq_holdsMarker {ctx : RenderContext} {comments : Bool} {e : BlockFault}
    (h : (ctx.buildBlock comments).2 = .error e) : e = .holdsMarker := by
  rw [RenderContext.block_eq_ofParts] at h
  exact (GeneratedBlock.ofParts_eq_error_iff.mp h).2

theorem refuses_of_suffixRefusal? (h : suffixRefusal? rt c block = some message) : rt.Refuses message := by
  unfold suffixRefusal? at h
  split at h
  · split at h
    · exact ⟨_, .inr h⟩
    · cases h
  · exact ⟨_, .inr h⟩

/-- The build of a block stops the run, or it is the block spliced into the host. -/
theorem build_cases (rt : Runtime) (t : FileTree) (c : GenerateConfig) (stats : PruneStats)
    (block : GeneratedBlock) :
    (∃ f, build rt t c stats block = .error f ∧ Stopped rt t c f) ∨
    ∃ host source, readHost t c = .ok host ∧ suffixRefusal? rt c block = none ∧
      splice host block.text (suffixFor c block) = .ok source ∧
      build rt t c stats block = .ok ⟨stats, block, suffixFor c block, source⟩ := by
  unfold build
  cases hhost : readHost t c with
  | error f => exact .inl ⟨f, rfl, stopped_of_readHost hhost⟩
  | ok host =>
    cases hrefused : suffixRefusal? rt c block with
    | some message => exact .inl ⟨_, rfl, .refused (refuses_of_suffixRefusal? hrefused)⟩
    | none =>
      cases hsource : splice host block.text (suffixFor c block) with
      | error fault => exact .inl ⟨_, by simp only [hsource], .splice fault⟩
      | ok source => exact .inr ⟨host, source, rfl, rfl, hsource, by simp only [hsource]⟩

end Build

theorem afterLoading_cases (hload : Corpus.load rt.loader t c.docsDir = .ok corpus)
    (hloading : rt.console.Takes (loadingLine c)) :
    (∃ printed f, afterLoading rt t c (loadingLine c) corpus = ⟨t, printed, .error f⟩ ∧ Stopped rt t c f) ∨
    ∃ host b, afterLoading rt t c (loadingLine c) corpus = finish rt t c (progress corpus c b.block) corpus b ∧
      Built rt t c corpus host b := by
  unfold afterLoading
  dsimp only
  rcases print_cases rt t (loadingLine c) (corpusLine corpus) _ with ⟨hcorpus, h⟩ | ⟨message, hm, h⟩
  · rw [h]
    rcases print_cases rt t (loadingLine c ++ corpusLine corpus) (prunedLine (context corpus c).1) _ with
      ⟨hpruned, h⟩ | ⟨message, hm, h⟩
    · rw [h]
      split
      · next e hblock =>
        obtain rfl := eq_holdsMarker (congrArg Prod.snd hblock)
        exact .inl ⟨_, _, rfl, .marker⟩
      · next block hblock =>
        rcases print_cases rt t (loadingLine c ++ corpusLine corpus ++ prunedLine (context corpus c).1)
          (renderedLine block) _ with ⟨hrendered, h⟩ | ⟨message, hm, h⟩
        · rw [h]
          have hprinted : rt.console.Takes (progress corpus c block) := by simp [progress, *]
          rcases build_cases rt t c (context corpus c).1 block with
            ⟨f, hf, hstopped⟩ | ⟨host, source, hhost, hhashed, hsource, hb⟩
          · rw [hf]
            exact .inl ⟨_, f, rfl, hstopped⟩
          · let b : Build := { stats := (context corpus c).1, block, suffix := suffixFor c block, source }
            have hbuilt : Built rt t c corpus host b :=
              ⟨hload, rfl, congrArg Prod.snd hblock, hprinted, hhost, hhashed, rfl, hsource⟩
            rw [hb]
            exact .inr ⟨host, b, rfl, hbuilt⟩
        · exact .inl ⟨_, _, h, .refused hm⟩
    · exact .inl ⟨_, _, h, .refused hm⟩
  · exact .inl ⟨_, _, h, .refused hm⟩

end Generate

open Generate

theorem generate_cases (rt : Runtime) (t : FileTree) (c : GenerateConfig) :
    (∃ printed f, generate rt t c = ⟨t, printed, .error f⟩ ∧ Stopped rt t c f) ∨
    ∃ corpus host b, generate rt t c = Generate.finish rt t c (progress corpus c b.block) corpus b ∧
      Built rt t c corpus host b := by
  unfold generate
  rcases print_cases rt t "" (loadingLine c) _ with ⟨hloading, h⟩ | ⟨message, hm, h⟩
  · rw [h, String.empty_append]
    cases hload : Corpus.load rt.loader t c.docsDir with
    | error f => exact .inl ⟨_, f, rfl, .load hload⟩
    | ok corpus =>
      rcases afterLoading_cases hload hloading with h | ⟨host, b, h⟩
      · exact .inl h
      · exact .inr ⟨corpus, host, b, h⟩
  · exact .inl ⟨_, _, h, .refused hm⟩

theorem generate_of_block (hload : Corpus.load rt.loader t c.docsDir = .ok corpus)
    (hblock : ((context corpus c).2.buildBlock c.comments).2 = .ok block)
    (hprinted : rt.console.Takes (progress corpus c block)) :
    generate rt t c =
      match build rt t c (context corpus c).1 block with
      | .error f => ⟨t, progress corpus c block, .error f⟩
      | .ok b => Generate.finish rt t c (progress corpus c block) corpus b := by
  have hpair : (context corpus c).2.buildBlock c.comments =
      (((context corpus c).2.buildBlock c.comments).1, .ok block) := Prod.ext rfl hblock
  simp only [progress, Encoding.takes_append] at hprinted
  obtain ⟨⟨⟨hloading, hcorpus⟩, hpruned⟩, hrendered⟩ := hprinted
  rw [generate, print_of_takes hloading, hload, String.empty_append]
  dsimp only [afterLoading]
  rw [print_of_takes hcorpus, print_of_takes hpruned, hpair]
  dsimp only
  rw [print_of_takes hrendered]
  rfl

theorem generate_of_built (h : Built rt t c corpus host b) :
    generate rt t c = Generate.finish rt t c (progress corpus c b.block) corpus b := by
  have hbuild : build rt t c (context corpus c).1 b.block = .ok b := by
    simp only [build, h.hostText, h.hashed, ← h.suffix, h.source, ← h.stats]
  rw [generate_of_block h.loaded h.block h.printed, hbuild]

theorem generate_of_splice_error {fault : SpliceFault}
    (hload : Corpus.load rt.loader t c.docsDir = .ok corpus)
    (hblock : ((context corpus c).2.buildBlock c.comments).2 = .ok block)
    (hprinted : rt.console.Takes (progress corpus c block)) (hhost : readHost t c = .ok host)
    (hhashed : suffixRefusal? rt c block = none)
    (hsplice : splice host block.text (suffixFor c block) = .error fault) :
    generate rt t c = ⟨t, progress corpus c block, .error (.splice fault)⟩ := by
  have hbuild : build rt t c (context corpus c).1 block = .error (.splice fault) := by
    simp only [build, hhost, hhashed, hsplice]
  rw [generate_of_block hload hblock hprinted, hbuild]

namespace Generate

/-- The output is not opened, or it is opened and the text is written or refused. -/
theorem writeOutput_cases (rt : Runtime) (t : FileTree) (c : GenerateConfig) (source : String) :
    (∃ u e, writeOutput rt t c source = (u, .error (.file e)) ∧ SameFiles t u) ∨
    ∃ u l, u.locate c.output = .ok l ∧ (∀ k, k ≠ l → u.fileAt? k = t.fileAt? k) ∧
      ((∃ w, rt.files.Takes source ∧ t.write c.output source = (u, .ok w) ∧
          writeOutput rt t c source = (u, .ok w)) ∨
        ∃ message, rt.Refuses message ∧ writeOutput rt t c source = (u, .error (.unencodable message))) := by
  unfold writeOutput
  cases h : rt.files.refusal? source with
  | none =>
    rcases t.write_cases c.output source with ⟨u, e, hw, hsame⟩ | ⟨u, l, hw, hlocate, -, hothers⟩
    · exact .inl ⟨u, e, by rw [hw], hsame⟩
    · have htakes := Encoding.refusal?_eq_none_iff.mp h
      exact .inr ⟨u, l, hlocate, hothers, .inl ⟨_, htakes, hw, by rw [hw]⟩⟩
  | some message =>
    rcases t.write_cases c.output "" with ⟨u, e, hw, hsame⟩ | ⟨u, l, hw, hlocate, -, hothers⟩
    · exact .inl ⟨u, e, by rw [hw], hsame⟩
    · exact .inr ⟨u, l, hlocate, hothers, .inr ⟨message, ⟨source, .inr h⟩, by rw [hw]⟩⟩

theorem writeOutput_of_write {source : String} (htakes : rt.files.Takes source)
    (hw : t.write c.output source = (u, .ok w)) : writeOutput rt t c source = (u, .ok w) := by
  simp only [writeOutput, Encoding.refusal?_eq_none_iff.mpr htakes, hw]

theorem finish_of_error (h : writeOutput rt t c b.source = (u, .error f)) (printed : String) (corpus : Corpus) :
    finish rt t c printed corpus b = ⟨u, printed, .error f⟩ := by
  rw [finish, h]

theorem finish_of_write (htakes : rt.files.Takes b.source) (hw : t.write c.output b.source = (u, .ok w))
    (hprinted : rt.console.Takes (writtenLine w ++ (summary corpus c b w).report.text)) (printed : String) :
    finish rt t c printed corpus b =
      ⟨u, printed ++ writtenLine w ++ (summary corpus c b w).report.text, .ok (summary corpus c b w)⟩ := by
  obtain ⟨hwritten, hreport⟩ := Encoding.takes_append.mp hprinted
  rw [finish, writeOutput_of_write htakes hw]
  dsimp only
  rw [print_of_takes hwritten, print_of_takes hreport]

/-- Once the build is written, the run succeeds unless the console refuses to say so. -/
theorem finish_of_written (h : writeOutput rt t c b.source = (u, .ok w)) (printed : String) (corpus : Corpus) :
    (finish rt t c printed corpus b).tree = u ∧
    ((finish rt t c printed corpus b).result = .ok (summary corpus c b w) ∨
      ∃ message, rt.Refuses message ∧
        (finish rt t c printed corpus b).result = .error (.unencodable message)) := by
  rw [finish, h]
  dsimp only
  rcases print_cases rt u printed (writtenLine w) _ with ⟨-, h⟩ | ⟨message, hm, h⟩
  · rw [h]
    rcases print_cases rt u (printed ++ writtenLine w) (summary corpus c b w).report.text _ with
      ⟨-, h⟩ | ⟨message, hm, h⟩
    · rw [h]
      exact ⟨rfl, .inl rfl⟩
    · rw [h]
      exact ⟨rfl, .inr ⟨message, hm, rfl⟩⟩
  · rw [h]
    exact ⟨rfl, .inr ⟨message, hm, rfl⟩⟩

end Generate

theorem built_of_result (h : (generate rt t c).result = .ok s) :
    ∃ corpus host b w, Built rt t c corpus host b ∧ rt.files.Takes b.source ∧
      t.write c.output b.source = ((generate rt t c).tree, .ok w) ∧ s = summary corpus c b w := by
  rcases generate_cases rt t c with ⟨printed, f, hrun, -⟩ | ⟨corpus, host, b, hrun, hbuilt⟩
  · rw [hrun] at h
    cases h
  · rw [hrun] at h ⊢
    rcases writeOutput_cases rt t c b.source with
      ⟨u, e, hw, -⟩ | ⟨u, l, -, -, ⟨w, htakes, hwrite, hw⟩ | ⟨message, -, hw⟩⟩
    · rw [finish_of_error hw] at h
      cases h
    · obtain ⟨htree, hresult | ⟨message, -, hresult⟩⟩ := finish_of_written hw (progress corpus c b.block) corpus
      · rw [hresult] at h
        exact ⟨corpus, host, b, w, hbuilt, htakes, htree ▸ hwrite, (Except.ok.inj h).symm⟩
      · rw [hresult] at h
        cases h
    · rw [finish_of_error hw] at h
      cases h

/-- No file but the one to which the output leads is another after a run. That one can be, if the run has
succeeded or if a text is refused; otherwise the files are as they were. -/
theorem generate_files (rt : Runtime) (t : FileTree) (c : GenerateConfig) :
    (∃ f, (generate rt t c).result = .error f ∧ (Stopped rt t c f ∨ ∃ e, f = .file e) ∧
      SameFiles t (generate rt t c).tree) ∨
    ∃ l, (generate rt t c).tree.locate c.output = .ok l ∧
      (∀ k, k ≠ l → (generate rt t c).tree.fileAt? k = t.fileAt? k) ∧
      ((∃ s, (generate rt t c).result = .ok s) ∨
        ∃ message, rt.Refuses message ∧ (generate rt t c).result = .error (.unencodable message)) := by
  rcases generate_cases rt t c with ⟨printed, f, hrun, hf⟩ | ⟨corpus, host, b, hrun, -⟩
  · rw [hrun]
    exact .inl ⟨f, rfl, .inl hf, .refl t⟩
  · rw [hrun]
    rcases writeOutput_cases rt t c b.source with
      ⟨u, e, hw, hsame⟩ | ⟨u, l, hlocate, hothers, ⟨w, -, -, hw⟩ | ⟨message, hm, hw⟩⟩
    · rw [finish_of_error hw]
      exact .inl ⟨.file e, rfl, .inr ⟨e, rfl⟩, hsame⟩
    · obtain ⟨htree, hresult⟩ := finish_of_written hw (progress corpus c b.block) corpus
      rw [htree]
      exact .inr ⟨l, hlocate, hothers, hresult.imp_left fun h => ⟨_, h⟩⟩
    · rw [finish_of_error hw]
      exact .inr ⟨l, hlocate, hothers, .inr ⟨message, hm, rfl⟩⟩

end LuauBindings
