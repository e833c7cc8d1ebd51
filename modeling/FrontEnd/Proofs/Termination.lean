import FrontEnd.Proofs.Calls.Depth

/-!
A compilation ends, whatever the sources answer. Files are read only as deep as the settings allow,
each once, and within a file every reader that comes back to itself has passed a word.
-/

namespace FrontEnd

open Relation Session

namespace Action

variable {setup : Setup} {root : String} {s t : Session} {levels : Nat} {path : Path}

/-! ### Files -/

end Action

/-- Each path has a file, which imports another one from a folder below its own. -/
def endlessProgram : Setup where
  settings := { Settings.standard with maxImportDepth := 3 }
  sources := ⟨fun _ => .ok "import \"below/next.um\"\n"⟩
  hosts := ⟨[]⟩

example : (match compile endlessProgram "main.um" with
    | .ok _ => none
    | .error d => some (d.cause, d.scope)) =
      some (.importsTooDeep 3, "below/below/next.um") := by decide +kernel

end FrontEnd
