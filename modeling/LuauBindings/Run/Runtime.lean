import LuauBindings.Yaml.Load

/-!
# What a run is given

A run reads documents with a loader, and its texts leave it in encodings: what it prints in that of the console,
what it writes or hashes in that of files. A text with a character that its encoding has no code for is refused
as a whole. What stands in a text without being a character, such as half of a surrogate pair, counts as a
character that no encoding has a code for.
-/

namespace LuauBindings

/-- A character encoding. -/
structure Encoding where
  /-- There is a code for the character. -/
  encodes : Char → Bool
  /-- What is said of a text that has a character without a code. -/
  message : String → String

namespace Encoding

/-- The encoding that has a code for every character. -/
def total : Encoding where
  encodes _ := true
  message _ := ""

/-- What is said of the text if it is refused. -/
def refusal? (e : Encoding) (text : String) : Option String :=
  if text.toList.all e.encodes then none else some (e.message text)

end Encoding

/-- What a run is given to read, print and write with. -/
structure Runtime where
  loader : Yaml.Loader := Yaml.load
  console : Encoding := .total
  files : Encoding := .total

end LuauBindings
