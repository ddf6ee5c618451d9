import LuauBindings.Run.Discovery
import LuauBindings.Run.Generate

/-!
# The program

`runProgram` reads the command line, settles the configuration and carries it out. The exit code is
0 on success, 1 for an error that is reported, 2 for a command line that cannot be read. The error stream
takes every text; a console that refuses the report of an error leaves the program without an exit code.
-/

namespace LuauBindings

/-- How the program ends. -/
inductive Ending
  | completed
  | exited (code : Nat)
  /-- A failure that the program does not report itself. -/
  | unreported (f : Failure)

/-- What the program leaves: the file tree, what it printed, and how it ended. -/
structure Outcome where
  tree : FileTree
  stdout : String := ""
  stderr : String := ""
  ending : Ending := .completed

namespace Program

/-- What is printed for a configuration error, text by text. -/
def configErrorTexts (r : ConfigReport) : List String :=
  let hint := match r.suggestion with
    | some s => if s.isEmpty then [] else ["Hint: " ++ s ++ "\n"]
    | none => []
  ("Config error [" ++ r.code.text ++ "]: " ++ r.message ++ "\n") :: hint

/-- The end of a program that has printed `printed` and prints `texts` before it exits. -/
def close (rt : Runtime) (t : FileTree) (code : Nat) (printed : String) : (texts : List String) → Outcome
  | [] => { tree := t, stdout := printed, ending := .exited code }
  | text :: texts =>
    match rt.console.refusal? text with
    | some message => { tree := t, stdout := printed, ending := .unreported (.unencodable message) }
    | none => close rt t code (printed ++ text) texts

/-- The end of a run that failed after it had printed `printed`. -/
def fail (rt : Runtime) (t : FileTree) (printed : String) (f : Failure) : Outcome :=
  match f.report with
  | .error => close rt t 1 printed ["Error: " ++ f.message ++ "\n"]
  | .internalError => close rt t 1 printed ["Internal error: " ++ f.message ++ "\n"]
  | .none => { tree := t, stdout := printed, ending := .unreported f }

/-- A configuration carried out. -/
def runConfig (rt : Runtime) (t : FileTree) : Config → Outcome
  | .discover c =>
    match discover rt.loader t c with
    | .error f => fail rt t "" f
    | .ok (.printed text) =>
      match rt.console.refusal? text with
      | some message => fail rt t "" (.unencodable message)
      | none => { tree := t, stdout := text }
    | .ok (.refused name) => { tree := t, stderr := refusalText name, ending := .exited 1 }
  | .generate c =>
    let run := generate rt t c
    match run.result with
    | .error f => fail rt run.tree run.printed f
    | .ok _ => { tree := run.tree, stdout := run.printed }

end Program

/-- The program run with the words of its command line. -/
def runProgram (rt : Runtime) (t : FileTree) (argv : List String) : Outcome :=
  match Options.parse argv with
  | .error e => { tree := t, stderr := e.text, ending := .exited 2 }
  | .ok .help => Program.close rt t 0 "" [helpText]
  | .ok (.run o) =>
    match Config.ofOptions t o with
    | .error f => Program.close rt t 1 "" (Program.configErrorTexts f.report)
    | .ok c => Program.runConfig rt t c

end LuauBindings
