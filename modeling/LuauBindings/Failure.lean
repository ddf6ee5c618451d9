import LuauBindings.Build.Splice
import LuauBindings.Files.Tree
import LuauBindings.Text.Utf8
import LuauBindings.Yaml.Load

/-!
# Failures of a run

Everything that can stop a run once its configuration is settled. A run reports the failures of
documents and files as errors, and those of texts and values as internal errors, a document that no
message can name among them; the others are faults of the program's own (`Failure.report`).
-/

namespace LuauBindings

inductive Failure
  | document (e : DocumentError)
  | file (e : FileError)
  /-- A file is not UTF-8. -/
  | encoding (f : Text.Utf8.Fault)
  /-- A scalar of a document does not read under its tag. -/
  | scalar (f : Yaml.ScalarFault)
  /-- A text cannot be encoded; `message` is what its encoding says of it. -/
  | unencodable (message : String)
  | block (f : BlockFault)
  | splice (f : SpliceFault)
  /-- Class information was asked for, but of no class. -/
  | noClassGiven
deriving DecidableEq, Repr

namespace Failure

def message : Failure → String
  | .document e => e.message
  | .file e => e.message
  | .encoding f => f.message
  | .scalar f => f.message
  | .unencodable message => message
  | .block (.unknownClass name) => Text.quote name
  | .block .holdsMarker =>
    "Generated block contains the splice marker " ++ Text.quote spliceMarker
  | .splice .hostLacksMarker => "Host source has no " ++ Text.quote spliceMarker ++ " marker"
  | .splice .emptySuffix => "suffix must not be empty"
  | .noClassGiven => ""

/-- How a run ends on a failure: with a message of one of two kinds, or not at all by itself. -/
inductive Report
  | error
  | internalError
  | none
deriving DecidableEq, Repr

def report : Failure → Report
  | .document e => if e.fault.isAttributable then .error else .internalError
  | .file e => if e.fault = .nullCharacter then .internalError else .error
  | .encoding _ | .unencodable _ => .internalError
  | .scalar f => match f with
    | .notInteger _ _ | .tooManyDigits _ | .notFloat _ | .calendar _ => .internalError
    | .emptyNumber | .notTruthWord _ | .notTimestamp | .timestampMapping => .none
  | .block .holdsMarker => .internalError
  | .block (.unknownClass _) => .none
  | .splice _ => .internalError
  | .noClassGiven => .none

end Failure

end LuauBindings
