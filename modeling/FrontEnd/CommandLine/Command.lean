import FrontEnd.CommandLine.Report
import FrontEnd.Settings.Toml
import FrontEnd.Summary

/-!
The command line: what its arguments ask for, and what is printed.
-/

namespace FrontEnd

inductive Command
  | build (root : String) (settingsPath? : Option String) (printsSummary : Bool)
  | help
deriving DecidableEq, Repr

namespace Command

/-- What was found among the arguments read so far. -/
structure Options where
  root? : Option String
  settingsPath? : Option String
  printsSummary : Bool

def ofOptions (o : Options) : Command :=
  match o.root? with
  | some root => .build root o.settingsPath? o.printsSummary
  | none => .help

/-- Reads arguments from left to right; asking for help ends reading. -/
def read (o : Options) : List String → Except String Command
  | [] => .ok (ofOptions o)
  | "help" :: _ | "--help" :: _ | "-h" :: _ => .ok .help
  | "--dump-json" :: rest => read { o with printsSummary := true } rest
  | ["--config"] => .error "--config needs a path"
  | "--config" :: path :: rest => read { o with settingsPath? := some path } rest
  | argument :: rest =>
    if argument.toList.take 2 = ['-', '-'] then .error ("Unknown flag " ++ argument)
    else if o.root?.isSome then
      .error ("Only one root file can be compiled, found " ++ argument)
    else read { o with root? := some argument } rest

def ofArguments (arguments : List String) : Except String Command :=
  read ⟨none, none, false⟩ arguments

end Command

/-- What a command prints, line by line, and how it exits. -/
structure Outcome where
  exit : Nat
  lines : List String
deriving DecidableEq, Repr

namespace Outcome

def output (o : Outcome) : String :=
  String.join (o.lines.map (· ++ "\n"))

def helpLines : List String :=
  ["------------------------------------",
   "Umbra compiler front end",
   "Usage: umbra <file> [--dump-json] [--config <path>]",
   "  --dump-json        Prints the declarations, globals and code as JSON",
   "  --config <path>    Uses this config file instead of umbra.toml next to the root file"]

/-- A program that is refused exits with 1. -/
def ofDiagnostic (d : Diagnostic) (disk : Disk) : Outcome := ⟨1, d.report disk⟩

/-- The counts of a compiled program and the time it took; predeclared names are counted, their
module is not. -/
def countLine (s : Session) (elapsed : String) : String :=
  "Compiled " ++ toString (s.modules.size - 1) ++ " modules, " ++ toString s.idents.size ++
    " identifiers and " ++ toString s.code.size ++ " instructions in: " ++ elapsed

end Outcome

namespace Settings

/-- Reads a settings file that was asked for. -/
def load (disk : Disk) (path : String) : Except Diagnostic Settings :=
  match disk.read path with
  | .ok text => ofText text path
  | .error reason => .error (.ofFile path (.unreadable ("Could not read config file: " ++ reason)))

/-- Reads the settings file next to a root file, if there is one. -/
def discover (disk : Disk) (root : String) : Except Diagnostic Settings :=
  let path := Path.join ((Path.parent? root).getD "") fileName
  if disk.isFile path then load disk path else .ok standard

def find (disk : Disk) (root : String) (path? : Option String) : Except Diagnostic Settings :=
  match path? with
  | some path => load disk path
  | none => discover disk root

end Settings

namespace Command

/-- Compiles a program and says what came of it. -/
def buildProgram (disk : Disk) (root : String) (settingsPath? : Option String)
    (printsSummary : Bool) (elapsed : String) : Outcome :=
  match Settings.find disk root settingsPath? with
  | .error d => .ofDiagnostic d disk
  | .ok settings =>
    if Path.extension root ≠ settings.fileExtension then
      ⟨1, ["Expected a ." ++ settings.fileExtension ++ " file but got " ++ root]⟩
    else
      match compile ⟨settings, disk.sources, .empty⟩ root with
      | .error d => .ofDiagnostic d disk
      | .ok session =>
        ⟨0, [if printsSummary then session.summary.toJson.toText
             else Outcome.countLine session elapsed]⟩

/-- Runs the command that the arguments ask for. Arguments that ask for nothing sensible exit with 2
and show the help text. -/
def run (disk : Disk) (arguments : List String) (elapsed : String) : Outcome :=
  match ofArguments arguments with
  | .error message => ⟨2, message :: Outcome.helpLines⟩
  | .ok .help => ⟨0, Outcome.helpLines⟩
  | .ok (.build root settingsPath? printsSummary) =>
    buildProgram disk root settingsPath? printsSummary elapsed

end Command

end FrontEnd
