import LuauBindings.Proofs.Corpus.Loaded
import LuauBindings.Proofs.Run.Program

/-!
# Generating again

A run that succeeds changes one file. If no document can stand in its place, the corpus is loaded as before
(`Corpus.load_of_keepsBut`), and so the block is the same. What becomes of a second run depends on the host.
A host that is another file is read as before, and the same build is written once more, which changes
nothing. A host that the build was written over has lost its splice marker: nothing that the first run did
brings the marker back, and reading the line ends of a text does not make one either.
-/

namespace LuauBindings
open FileTree (KeepsBut)
variable {rt : Runtime} {t u : FileTree} {o : Options} {c : GenerateConfig} {corpus : Corpus} {host source : String}
  {b : Build} {l : Location} {w : FileTree.Written}

namespace Generate

theorem admissible_suffixFor (hc : Config.ofOptions t o = .ok (.generate c)) (block : GeneratedBlock) :
    Admissible (suffixFor c block) := by
  rcases Config.of_ofOptions hc with ⟨d, hd, -⟩ | ⟨g, hg, hbuild⟩
  · cases hd
  · cases hg
    obtain ⟨hsuffix, hchecked⟩ := hbuild.suffix
    unfold suffixFor
    split
    · next s hs =>
      split
      · exact .derived block.text rfl
      · exact .given (hchecked s (hsuffix.symm.trans hs))
    · exact .derived block.text rfl

theorem readHost_of_keepsBut (h : KeepsBut l t u) (hl : t.resolve c.host ≠ l)
    (hhost : readHost t c = .ok host) : readHost u c = .ok host := by
  unfold readHost at hhost ⊢
  cases hbytes : t.read c.host with
  | error e =>
    rw [hbytes] at hhost
    cases hhost
  | ok bytes =>
    rw [hbytes] at hhost
    rw [h.read hl hbytes]
    exact hhost

/-- What was written in place of the host is read as a host, up to its line ends. -/
theorem readHost_of_locate (hlocate : u.locate c.host = .ok l)
    (hfile : u.fileAt? l = some source.toUTF8) :
    readHost u c = .ok (String.ofList (Text.unifyNewlines source.toList)) := by
  have hread : u.read c.host = .ok source.toUTF8 := FileTree.read_eq_ok_iff.mpr ⟨l, hlocate, hfile⟩
  simp only [readHost, hread, Text.Utf8.readText_toUTF8]
  rfl

theorem locate_of_readHost (h : readHost t c = .ok host) : ∃ l, t.locate c.host = .ok l := by
  unfold readHost at h
  split at h
  · cases h
  · next bytes hbytes =>
    obtain ⟨l, hlocate, -⟩ := FileTree.read_eq_ok_iff.mp hbytes
    exact ⟨l, hlocate⟩

namespace Built

/-- A build has no splice marker, whatever line ends it is read with. -/
theorem splice_source (h : Built rt t c corpus host b) (hsuffix : Admissible b.suffix) (text suffix : String) :
    splice (String.ofList (Text.unifyNewlines b.source.toList)) text suffix =
      .error .hostLacksMarker := by
  have hmarker : Text.contains b.source spliceMarker = false :=
    not_contains_of_splice (framed_of_buildBlock h.block) (not_contains_of_buildBlock h.block)
      hsuffix.dash_not_mem h.source
  refine splice_eq_error ?_
  rw [Bool.eq_false_iff, ne_eq, Text.contains_iff] at hmarker ⊢
  rw [String.toList_ofList]
  exact fun hin => hmarker (Text.infix_of_infix_unifyNewlines (by decide) hin)

theorem generate_again (h : Built rt t c corpus host b) (htakes : rt.files.Takes b.source)
    (hw : t.write c.output b.source = (u, .ok w)) (hload : Corpus.load rt.loader u c.docsDir = .ok corpus)
    (hhost : readHost u c = .ok host) : generate rt u c = generate rt t c := by
  have hbuilt : Built rt u c corpus host b := { h with loaded := hload, hostText := hhost }
  have hagain := writeOutput_of_write htakes (FileTree.write_again hw)
  rw [generate_of_built h, generate_of_built hbuilt, finish, finish, writeOutput_of_write htakes hw, hagain]

end Built

end Generate

open Generate

/-- Generating a second time does what the first run did and leaves the tree that it left, unless the build
has been written over the host: then the second run fails for want of a marker and leaves the tree as it is.
The output must not be in the place of a document. -/
theorem generate_twice (rt : Runtime) (settled t : FileTree) (o : Options) (c : GenerateConfig) (s : Summary)
    (hc : Config.ofOptions settled o = .ok (.generate c)) (hrun : (generate rt t c).result = .ok s)
    (hout : ¬ Corpus.DocumentPlace t c.docsDir (t.resolve c.output)) :
    let first := generate rt t c
    let second := generate rt first.tree c
    (t.resolve c.output ≠ t.resolve c.host → second.result = .ok s ∧ second.tree = first.tree ∧
      second.printed = first.printed) ∧
    (t.resolve c.output = t.resolve c.host → second.result = .error (.splice .hostLacksMarker) ∧
      second.tree = first.tree) := by
  intro first second
  obtain ⟨corpus, host, b, w, hbuilt, htakes, hw, -⟩ := built_of_result hrun
  obtain ⟨l, hlocate, hkeeps, hfile⟩ := FileTree.keepsBut_of_write hw
  have hl : t.resolve c.output = l :=
    (FileTree.resolve_congr hkeeps.folders.current).symm.trans (FileTree.resolve_eq_of_locate hlocate)
  rw [hl] at hout ⊢
  have hload : Corpus.load rt.loader first.tree c.docsDir = .ok corpus :=
    Corpus.load_of_keepsBut hkeeps hout hbuilt.loaded
  refine ⟨fun hne => ?_, fun heq => ?_⟩
  · have hhost : readHost first.tree c = .ok host :=
      readHost_of_keepsBut hkeeps (Ne.symm hne) hbuilt.hostText
    have hagain : second = first := hbuilt.generate_again htakes hw hload hhost
    rw [hagain]
    exact ⟨hrun, rfl, rfl⟩
  · -- the path of the host leads where it led, which is where the build is now
    obtain ⟨k, hk⟩ := locate_of_readHost hbuilt.hostText
    have hkl : k = l := (FileTree.resolve_eq_of_locate hk).symm.trans heq.symm
    have hover : first.tree.locate c.host = .ok l :=
      FileTree.locate_of_foldersKept hkeeps.folders (hkl ▸ hk)
    have hsuffix : Admissible b.suffix := by
      rw [hbuilt.suffix]
      exact admissible_suffixFor hc b.block
    have hfails := generate_of_splice_error hload hbuilt.block hbuilt.printed (readHost_of_locate hover hfile)
      hbuilt.hashed (hbuilt.splice_source hsuffix b.block.text _)
    have hsecond : second = ⟨first.tree, _, .error (.splice .hostLacksMarker)⟩ := hfails
    rw [hsecond]
    exact ⟨rfl, rfl⟩

/-- The small configuration with the build written over the host. -/
def overHost : GenerateConfig :=
  { smallConfig with output := smallConfig.host }

theorem generate_overHost : ∃ s, (generate {} smallTree overHost).result = .ok s := by
  obtain ⟨b, hbuilt⟩ := exists_built_small smallConfig.host
  have hrun : generate {} smallTree overHost = _ := generate_of_built hbuilt
  have hwrite : smallTree.write overHost.output b.source =
      (smallTree.put ["host.luau"] (.file b.source.toUTF8),
        .ok ⟨"/host.luau", Text.countNewlines b.source, b.source.toUTF8.size⟩) := rfl
  rw [hrun, Generate.finish_of_write (Encoding.takes_total _) hwrite (Encoding.takes_total _)]
  exact ⟨_, rfl⟩

theorem length_of_documentPlace_small (h : Corpus.DocumentPlace smallTree (.ofText "docs") l) :
    l.length = 3 := by
  obtain ⟨folder, hfolder, name, -, rfl⟩ := h
  have hup : folder ≠ ".." := by
    rintro rfl
    exact absurd hfolder (by decide)
  rw [FileTree.resolve_child hup]
  rfl

theorem generate_twice_small :
    (∃ s, (generate {} smallTree smallConfig).result = .ok s ∧
      (generate {} (generate {} smallTree smallConfig).tree smallConfig).result = .ok s) ∧
    (∃ s, (generate {} smallTree overHost).result = .ok s ∧
      (generate {} (generate {} smallTree overHost).tree overHost).result =
        .error (.splice .hostLacksMarker)) := by
  let o : Options :=
    { docsDir := some (.ofText "docs"), host := some (.ofText "host.luau")
      output := .ofText "out/build.luau", internalSuffix := some "x" }
  have hplace {c : GenerateConfig} (hdocs : c.docsDir = .ofText "docs")
      (hlength : (smallTree.resolve c.output).length ≠ 3) :
      ¬ Corpus.DocumentPlace smallTree c.docsDir (smallTree.resolve c.output) := by
    rw [hdocs]
    exact fun h => hlength (length_of_documentPlace_small h)
  constructor
  · obtain ⟨content, printed, s, hrun⟩ := generate_smallConfig
    have hresult : (generate {} smallTree smallConfig).result = .ok s := congrArg GenerateRun.result hrun
    have htwice := generate_twice {} smallTree smallTree o smallConfig s rfl hresult
      (hplace rfl (by decide))
    exact ⟨s, hresult, (htwice.1 (by decide)).1⟩
  · obtain ⟨s, hresult⟩ := generate_overHost
    have htwice := generate_twice {} smallTree smallTree { o with output := .ofText "host.luau" } overHost s
      rfl hresult (hplace rfl (by decide))
    exact ⟨s, hresult, (htwice.2 rfl).1⟩

end LuauBindings
