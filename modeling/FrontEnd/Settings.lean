import FrontEnd.Diagnostic

/-!
The settings of a compilation and the fixed names and limits of the language.
-/

namespace FrontEnd

structure Settings where
  /-- The function that a program starts with. -/
  entryFunction : String
  /-- The characters of a string type without a length of its own. -/
  defaultTextLength : Int64
  fileExtension : String
  /-- How deep imports may be nested, the root file included. -/
  maxImportDepth : Nat
deriving DecidableEq, Repr

namespace Settings

def standard : Settings := ⟨"main", 255, "um", 64⟩

/-- The file with the settings of a program, next to its root file. -/
def fileName : String := "umbra.toml"

/-- What a settings file may not say. -/
def check (s : Settings) : Except Cause Settings :=
  if s.defaultTextLength < 0 then .error .negativeTextLengthSetting
  else if s.entryFunction = "" then .error .emptyEntrySetting
  else .ok s

end Settings

/-- The hidden first parameter of an interface method and the first field of an interface. -/
def selfName : String := "__self"

/-- The hidden last parameter through which a structured result is stored. -/
def resultName : String := "__result"

/-- The path of the module of predeclared names. -/
def predeclaredPath : String := "__universe"

/-- The most names in one group of parameters. -/
def maxParameters : Nat := 16

/-- The most names in one group of fields. -/
def maxFields : Nat := 100

/-- The most names in one variable declaration. -/
def maxVariables : Nat := 100

end FrontEnd
