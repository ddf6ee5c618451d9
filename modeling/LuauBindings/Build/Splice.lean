import LuauBindings.Hash.Sha256
import LuauBindings.Render.Block

/-!
# Splicing the block into the host

The block takes the place of every splice marker of the host; then strict checking is turned off and
every internal symbol, of host and block alike, gets the suffix.
-/

namespace LuauBindings

/-- Why there is no build. -/
inductive SpliceFault
  | hostLacksMarker
  | emptySuffix
deriving DecidableEq, Repr

/-- The line that asks for strict checking. -/
def strictDirective : String := "--!strict\n"

/-- The lines that turn checking off. -/
def nocheckDirective : String :=
  "--!nocheck\n-- Typechecking is disabled due to the sheer number of autogen types\n"

/-- The first twelve hexadecimal digits of the hash of a block. -/
def deriveSuffix (block : String) : String :=
  String.ofList ((Hash.Sha256.hexDigest block.toUTF8.data.toList).take 12)

/-- The internal symbols of `source` with the suffix. -/
def renameInternal (source suffix : String) : String :=
  Text.replace source internalSymbol (internalSymbol ++ "_" ++ suffix)

/-- The host with the block in it, before the internal symbols are renamed. -/
def insertBlock (host block : String) : String :=
  Text.replace (Text.replace host spliceMarker block) strictDirective nocheckDirective

/-- The build. -/
def splice (host block suffix : String) : Except SpliceFault String :=
  if !Text.contains host spliceMarker then .error .hostLacksMarker
  else if suffix.isEmpty then .error .emptySuffix
  else .ok (renameInternal (insertBlock host block) suffix)

end LuauBindings
