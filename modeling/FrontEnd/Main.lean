import FrontEnd.CommandLine.Command

/-!
The command itself. Files are read before the command runs: its settings file, and then one source
file after another, as long as the compilation asks for one that has not been read.
-/

namespace FrontEnd

/-- What has been read so far. -/
abbrev Cache := List (String × Except String String)

/-- Stands in front of the path of a file that has not been read yet. -/
def unreadMark : String := "\x00"

def Cache.disk (cache : Cache) : Disk :=
  ⟨fun path =>
    match cache.find? (·.1 = path) with
    | some (_, answer) => answer
    | none => .error (unreadMark ++ path)⟩

/-- The path of a file that the compilation asked for in vain. -/
def Cache.wanted? (cache : Cache) (settings : Settings) (root : String) : Option String :=
  let sources : Sources := ⟨fun path =>
    match cache.find? (·.1 = path) with
    | some (_, answer) => answer
    | none => .error (unreadMark ++ path)⟩
  match compile ⟨settings, sources, .empty⟩ root with
  | .error ⟨⟨.unreadable message, _⟩, _⟩ =>
    if message.startsWith unreadMark then some ((message.drop unreadMark.length).toString) else none
  | _ => none

def readAnswer (path : String) : IO (Except String String) := do
  try
    return .ok (← IO.FS.readFile path)
  catch
    | .noFileOrDirectory .. => return .error Folder.missing
    | e => return .error (toString e)

partial def readSources (settings : Settings) (root : String) (cache : Cache) : IO Cache := do
  match cache.wanted? settings root with
  | none => return cache
  | some path => readSources settings root ((path, ← readAnswer path) :: cache)

/-- Reads everything that the command needs. -/
def readCache : Command → IO Cache
  | .help => return []
  | .build root settingsPath? _ => do
    let beside := Path.join ((Path.parent? root).getD "") Settings.fileName
    let settingsPath := settingsPath?.getD beside
    let cache : Cache := [(settingsPath, ← readAnswer settingsPath)]
    match Settings.find cache.disk root settingsPath? with
    | .error _ => return cache
    | .ok settings => readSources settings root cache

end FrontEnd

open FrontEnd in
def main (arguments : List String) : IO UInt32 := do
  let started ← IO.monoMsNow
  let cache ←
    match Command.ofArguments arguments with
    | .ok command => readCache command
    | .error _ => pure []
  let elapsed := toString ((← IO.monoMsNow) - started) ++ "ms"
  let outcome := Command.run cache.disk arguments elapsed
  IO.print outcome.output
  return outcome.exit.toUInt32
