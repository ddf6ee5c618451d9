import LuauBindings.Files.Tree
import LuauBindings.Hierarchy.Prune
import LuauBindings.Render.TypeMode
import LuauBindings.Render.Wrapper
import LuauBindings.Text.Column

/-!
# The summary of a run

A `Summary` holds what a run did, a `SummaryReport` the texts and figures of it that are printed.
-/

namespace LuauBindings

/-- The lines of a summary. Each figure stands in a column of six, and the two totals are grouped by
thousands. -/
structure SummaryReport where
  mode : String
  output : String
  internalSuffix : String
  loaded : Int
  seed : Int
  retained : Int
  descendants : Int
  ancestors : Int
  removed : Int
  enums : Int
  types : Int
  stubs : Int
  lineTotal : Int
  byteTotal : Int

/-- The report as it is printed. -/
def SummaryReport.text (r : SummaryReport) : String :=
  let count (n : Int) : String := Text.padLeft 6 (Text.decimal n)
  "\n".intercalate
    ["Rover bindings generated:", "",
      "  Mode:       " ++ r.mode ++ " types",
      "  Output:     " ++ r.output,
      "  Internal:   " ++ internalSymbol ++ "_" ++ r.internalSuffix,
      "",
      "  Classes:",
      "    Loaded:      " ++ count r.loaded,
      "    Seed:        " ++ count r.seed,
      "    Retained:    " ++ count r.retained ++ "  (+" ++ Text.decimal r.descendants ++
        " descendants, +" ++ Text.decimal r.ancestors ++ " ancestors)",
      "    Removed:     " ++ count r.removed,
      "  Enums:         " ++ count r.enums,
      "",
      "  Generated:",
      "    Types:       " ++ count r.types,
      "    Functions:   " ++ count r.stubs,
      "",
      "  Total: " ++ Text.grouped r.lineTotal ++ " lines, " ++ Text.grouped r.byteTotal ++ " bytes",
      ""]

/-- What a run did. -/
structure Summary where
  /-- The name of the type mode. -/
  mode : String
  loadedClasses : Nat
  enumCount : Nat
  prune : PruneStats
  typeCount : Nat
  stubCount : Nat
  internalSuffix : String
  output : FileTree.Written

/-- What is printed of a summary. -/
def Summary.report (s : Summary) : SummaryReport where
  mode := s.mode
  output := s.output.path
  internalSuffix := s.internalSuffix
  loaded := s.loadedClasses
  seed := s.prune.seedCount
  retained := s.prune.retainedCount
  descendants := s.prune.descendantsAdded.size
  ancestors := s.prune.ancestorsAdded.size
  removed := s.prune.removed.size
  enums := s.enumCount
  types := s.typeCount
  stubs := s.stubCount
  lineTotal := s.output.lineCount
  byteTotal := s.output.byteCount

end LuauBindings
