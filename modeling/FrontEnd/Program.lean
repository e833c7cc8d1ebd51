import FrontEnd.Import

/-!
Whole programs: the root file with everything it imports, linked with the host functions.
-/

namespace FrontEnd

namespace Action

/-- Appends a call of a host function, to which a reserved instruction jumps. -/
def linkCall (slot : Nat) (name : String) (parametersSize : Int64) : Action Unit := do
  let stub ← emit (.callHost name)
  let _ ← emit (.leave parametersSize)
  let s ← get
  match s.code.patch? slot (.goto stub) with
  | some code => set { s with code }
  | none => failInternal (.noPrototypeSlot slot)

/-- Links a prototype with the host function of its name. -/
def linkPrototype (ident : Ident) (slot : Nat) : Action Unit := do
  let s ← get
  let path := s.modules.path ident.module
  match s.types.signature? ident.type with
  | none => failInternal (.noPrototypeType ident.name)
  | some signature =>
    match (← read).hosts.find? ident.name with
    | none => throw ((⟨.unresolvedPrototype ident.name, ident.span⟩ : Fault).inFile path)
    | some host =>
      let declared := signature.parameters.length
      if host.arity ≠ declared then
        throw ((⟨.hostArity ident.name host.arity declared, ident.span⟩ : Fault).inFile path)
      linkCall slot ident.name signature.parametersSize

/-- Links all prototypes in the order of their declaration. -/
def linkPrototypes : Action Unit := do
  (← get).idents.toList.forM fun ident =>
    match ident.reserved? with
    | some slot => linkPrototype ident slot
    | none => return

/-- Reads and links a program. The first instruction is reserved for the jump to the entry function;
the root file counts as the first level of imports. -/
def program (root : String) : Action Unit := do
  let _ ← emit .nop
  let settings := (← read).settings
  let path := Path.normalize root
  let id ← readModule (settings.maxImportDepth - 1) path
  if id ≠ .root then failInternal (.rootNotFirst id.index)
  checkForwards
  linkPrototypes
  if !(← get).code.entryDefined then
    throw (.ofFile path.toText (.entryUndefined settings.entryFunction))

end Action

/-- Compiles the program of a root file. -/
def compile (setup : Setup) (root : String) : Except Diagnostic Session :=
  match (Action.program root).run setup (.initial setup.settings) with
  | .ok () session => .ok session
  | .error d _ => .error d

namespace Session

/-- The identifier of a module's scope, by the names of both. -/
def find? (s : Session) (module name : String) : Option Ident := do
  let module ← s.modules.findByName? module
  let id ← s.idents.findInModule? module name
  s.idents.get? id

end Session

end FrontEnd
