import FrontEnd.Symbols.Ident
import FrontEnd.Source.Path

/-!
Modules: one per source file, and one for the predeclared names. A module remembers what it imports
itself, and the table which modules are still being read.
-/

namespace FrontEnd

structure Module where
  path : String
  /-- The folder that import literals are appended to. -/
  folder : String
  /-- The file name without extension, by which other modules name this one. -/
  name : String
  /-- The imported modules, oldest first, each once. -/
  imports : List ModuleId
deriving Inhabited, Repr

structure ModuleTable where
  modules : Array Module
  /-- The modules whose reading has begun and not ended. -/
  unfinished : List ModuleId
deriving Inhabited, Repr

namespace ModuleTable

def size (t : ModuleTable) : Nat := t.modules.size

def get? (t : ModuleTable) (id : ModuleId) : Option Module := t.modules[id.index]?

def path (t : ModuleTable) (id : ModuleId) : String := ((t.get? id).map (·.path)).getD ""

def folder (t : ModuleTable) (id : ModuleId) : String := ((t.get? id).map (·.folder)).getD ""

def name (t : ModuleTable) (id : ModuleId) : String := ((t.get? id).map (·.name)).getD ""

def importsOf (t : ModuleTable) (id : ModuleId) : List ModuleId :=
  ((t.get? id).map (·.imports)).getD []

def add (t : ModuleTable) (path folder name : String) : ModuleId × ModuleTable :=
  (⟨t.size⟩, { t with modules := t.modules.push ⟨path, folder, name, []⟩ })

/-- The module of a file; of two entries for one file the later one. -/
def findByPath? (t : ModuleTable) (path : String) : Option ModuleId :=
  ((List.range t.size).reverse.find? fun i =>
    match t.modules[i]? with
    | some m => Path.sameParts m.path path
    | none => false).map ModuleId.mk

/-- The oldest module with a name; the predeclared names cannot be named as a module. -/
def findByName? (t : ModuleTable) (name : String) : Option ModuleId :=
  ((List.range t.size).find? fun i =>
    match t.modules[i]? with
    | some m => i ≠ 0 && m.name = name
    | none => false).map ModuleId.mk

/-- Where several modules share a name, the one that the importer itself imports is meant. -/
def findImportedByName? (t : ModuleTable) (importer : ModuleId) (name : String) : Option ModuleId :=
  (t.importsOf importer).find? (t.name · = name) <|> t.findByName? name

def imports (t : ModuleTable) (importer imported : ModuleId) : Bool :=
  (t.importsOf importer).contains imported

/-- Records an import; a second record of the same one changes nothing. -/
def addImport (t : ModuleTable) (importer imported : ModuleId) : ModuleTable :=
  if t.imports importer imported then t
  else { t with
    modules := t.modules.modify importer.index fun m =>
      { m with imports := m.imports ++ [imported] } }

def isUnfinished (t : ModuleTable) (id : ModuleId) : Bool := t.unfinished.contains id

def begin (t : ModuleTable) (id : ModuleId) : ModuleTable :=
  if t.isUnfinished id then t else { t with unfinished := id :: t.unfinished }

def finish (t : ModuleTable) (id : ModuleId) : ModuleTable :=
  { t with unfinished := t.unfinished.filter (· ≠ id) }

end ModuleTable

end FrontEnd
