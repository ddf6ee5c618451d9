import LuauBindings.Main
import LuauBindings.Proofs.Text.Occurrence
import LuauBindings.Proofs.Text.Replacement
import LuauBindings.Proofs.Text.Preserved
import LuauBindings.Proofs.Hierarchy.Relation
import LuauBindings.Proofs.Hierarchy.Index
import LuauBindings.Proofs.Hierarchy.Closure
import LuauBindings.Proofs.Hierarchy.Pruning
import LuauBindings.Proofs.Hierarchy.Walk
import LuauBindings.Proofs.Hierarchy.Inherited
import LuauBindings.Proofs.Render.Block
import LuauBindings.Proofs.Render.Reference
import LuauBindings.Proofs.Render.Modes
import LuauBindings.Proofs.Render.Marker
import LuauBindings.Proofs.Build.Suffix
import LuauBindings.Proofs.Build.Splice
import LuauBindings.Proofs.Build.Rename
import LuauBindings.Proofs.Corpus.Documents
import LuauBindings.Proofs.Cli.Config
import LuauBindings.Proofs.Run.Generate
import LuauBindings.Proofs.Run.Discovery
import LuauBindings.Proofs.Run.Runtime
import LuauBindings.Proofs.Run.Program
import LuauBindings.Proofs.Run.Ending
import LuauBindings.Proofs.Hierarchy.Merge
import LuauBindings.Proofs.Hierarchy.Visit
import LuauBindings.Proofs.Files.Write
import LuauBindings.Proofs.Corpus.Loaded
import LuauBindings.Proofs.Run.Summary
import LuauBindings.Proofs.Run.Regeneration
import LuauBindings.Proofs.Hierarchy.Override
import LuauBindings.Proofs.Hierarchy.Seeds
import LuauBindings.Proofs.Corpus.Shape
import LuauBindings.Proofs.Text.Token
import LuauBindings.Proofs.Text.Literal
import LuauBindings.Proofs.Corpus.InOrder
import LuauBindings.Proofs.Corpus.Attribution
import LuauBindings.Proofs.Cli.Tokens
import LuauBindings.Proofs.Render.PropertyKey
import LuauBindings.Proofs.Render.Foreign
import LuauBindings.Proofs.Render.Literal
import LuauBindings.Proofs.Render.Table
import LuauBindings.Proofs.Render.Comments
import LuauBindings.Proofs.Build.Calls
import LuauBindings.Proofs.Files.Writable
import LuauBindings.Proofs.Files.History
import LuauBindings.Proofs.Render.Session
import LuauBindings.Proofs.Corpus.Structure
import LuauBindings.Proofs.Run.Structure
import LuauBindings.Proofs.Files.LineEnds
import LuauBindings.Proofs.Run.LineEnds
