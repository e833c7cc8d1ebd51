import FrontEnd.Program
import FrontEnd.Json

/-!
The summary of a compiled program: its modules, the declarations of their scopes, the global
variables and the code.
-/

namespace FrontEnd

structure ModuleSummary where
  path : String
  name : String
  imports : List String
deriving Repr

structure DeclarationSummary where
  module : String
  name : String
  kind : IdentKind
  exported : Bool
  type : String
  /-- The value of a constant or the address of a function. -/
  value? : Option String
deriving Repr

structure GlobalSummary where
  slot : Nat
  name : String
  type : String
  value? : Option String
deriving Repr

structure Summary where
  modules : List ModuleSummary
  declarations : List DeclarationSummary
  globals : List GlobalSummary
  code : List String
deriving Repr

namespace Session

/-- Imported files in the order of their paths. -/
def moduleSummary (s : Session) (m : Module) : ModuleSummary :=
  ⟨m.path, m.name, (m.imports.map s.modules.path).mergeSort (fun a b => !decide (b < a))⟩

def declarationSummary (s : Session) (i : Ident) : DeclarationSummary :=
  { module := s.modules.name i.module
    name := i.name
    kind := i.kind
    exported := i.exported
    type := s.typeName i.type
    value? :=
      match i.payload with
      | .constant value => some value.toText
      | .function entry _ => some ("@" ++ toString entry)
      | _ => none }

/-- The summary leaves out the predeclared names and everything inside of functions. -/
def summary (s : Session) : Summary :=
  { modules := (s.modules.modules.toList.drop 1).map s.moduleSummary
    declarations :=
      (s.idents.toList.filter fun i => i.module ≠ .predeclared && i.block = .moduleScope).map
        s.declarationSummary
    globals := s.globals.toList.zipIdx.map fun (g, slot) =>
      ⟨slot, g.name, s.typeName g.type, g.value?.map Constant.toText⟩
    code := s.code.instructions.toList.map Instruction.toText }

end Session

namespace Summary

def optional (value? : Option String) : Json :=
  match value? with
  | some value => .text value
  | none => .null

def ofModule (m : ModuleSummary) : Json :=
  .object [("path", .text m.path), ("name", .text m.name), ("imports", .list (m.imports.map .text))]

/-- A declaration without a value has no entry for it. -/
def ofDeclaration (d : DeclarationSummary) : Json :=
  .object
    ([("module", .text d.module), ("name", .text d.name), ("kind", .text d.kind.name),
      ("exported", .bool d.exported), ("data_type", .text d.type)] ++
      (d.value?.map fun value => ("value", Json.text value)).toList)

def ofGlobal (g : GlobalSummary) : Json :=
  .object
    [("slot", .number g.slot), ("name", .text g.name), ("data_type", .text g.type),
      ("value", optional g.value?)]

def toJson (s : Summary) : Json :=
  .object
    [("modules", .list (s.modules.map ofModule)),
      ("declarations", .list (s.declarations.map ofDeclaration)),
      ("globals", .list (s.globals.map ofGlobal)),
      ("code", .list (s.code.map .text))]

end Summary

end FrontEnd
