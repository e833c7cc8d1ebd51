import FrontEnd.Proofs.Session.Ready

/-!
What is written into a session at once. A `Step` leads from one session that is ready to another,
whatever the types are that are being read. New types, and structures that gain fields, are changes
of their own: an array can turn out to be too large after it has been added, and a forward type waits
for its identifier while its name is declared.
-/

namespace FrontEnd

namespace Session

/-- An identifier of the scope that is being read. Only at module scope is it exported. -/
structure Places (s : Session) (i : Ident) : Prop where
  module : i.module = s.blocks.module
  block : i.block = s.blocks.current
  exports : i.exported = true → i.block = .moduleScope

/-- A value of the type `type` is of the kind of the type, where it is known. -/
def Holds (s : Session) (type : TypeId) (value? : Option Constant) : Prop :=
  ∀ value ∈ value?, value.HasKind (s.types.kind type)

/-- The default values of a function are of the kinds of its parameters. -/
def HoldsDefaults (s : Session) : TypeKind → Prop
  | .function signature => ∀ p ∈ signature.parameters, s.Holds p.type p.default?
  | _ => True

theorem holds_none (s : Session) (type : TypeId) : s.Holds type none := nofun

theorem Holds.grows {s t : Session} {U : Set TypeId} {type : TypeId} {value? : Option Constant}
    (h : s.Holds type value?) (g : s.Grows t) (ht : s.Usable U type) : t.Holds type value? :=
  fun value hv => g.hasKind ht (h value hv)

theorem HoldsDefaults.grows {s t : Session} {U : Set TypeId} {kind : TypeKind}
    (h : s.HoldsDefaults kind) (g : s.Grows t) (valid : kind.Valid U s) : t.HoldsDefaults kind := by
  cases kind with
  | function signature =>
    intro p hp
    exact (h p hp).grows g (valid.refs p.type (List.mem_append_left _ (List.mem_map_of_mem hp)))
  | _ => trivial

/-- A type that methods can be declared on: a structured type that a pointer points at. -/
structure IsReceiver (s : Session) (base : TypeId) : Prop where
  structured : s.types.isStructured base = true
  pointed : ∃ pointer, s.types.kind pointer = .pointer base

/-- A method of this name can be declared on the type, since no field of it has the name. -/
structure Receives (s : Session) (base : TypeId) (name : String) : Prop
    extends s.IsReceiver base where
  free : s.types.findField? base name = none

/-- A change of a session in which the types `U` are being read. -/
inductive Step (U : Set TypeId) (s : Session) : Session → Prop
  | declare {i : Ident} {id : IdentId} {idents : IdentTable}
      (added : s.idents.insert? i = some (id, idents)) (valid : i.Valid U s)
      (solid : s.types.isForward i.type = false) (placed : s.Places i)
      (receives : ∀ base ∈ i.receiver?, s.Receives base i.name) : Step U s { s with idents }
  /-- A forward type is completed by the declaration of its name. -/
  | complete {id : IdentId} {i : Ident} {forward concrete : TypeId} {exported : Bool} {span : Span}
      (declared : s.idents.get? id = some i) (kind : i.kind = .type) (type : i.type = forward)
      (pending : s.types.isForward forward = true) (solid : s.types.isForward concrete = false) :
      Step U s { s with
        types := s.types.complete forward concrete
        idents := s.idents.modify id (remark exported span) }
  | emit {i : Instruction} (valid : i.Valid U s) (straight : ∀ target, i ≠ .goto target) :
      Step U s { s with code := s.code.emit i }
  /-- The instruction reserved for the entry function or for a prototype becomes a jump. -/
  | patch {address target : Nat} {code : Code} {defined : Bool}
      (reserved : s.code.instructions[address]? = some .nop)
      (owned : address = 0 ∨ ∃ id i, s.idents.get? id = some i ∧ i.reserved? = some address)
      (patched : s.code.patch? address (.goto target) = some code) :
      Step U s { s with code := { code with entryDefined := defined } }
  | allocateGlobal {v : Global} (valid : v.Valid U s) (holds : s.Holds v.type v.value?) :
      Step U s { s with globals := s.globals.push v }
  | setGlobal {slot : Nat} {value? : Option Constant}
      (holds : ∀ g, s.globals[slot]? = some g → s.Holds g.type value?) :
      Step U s { s with globals := s.globals.modify slot fun g => { g with value? } }
  | allocateLocal {size offset : Int64} {blocks : Blocks}
      (allocated : s.blocks.allocate? size = some (offset, blocks)) : Step U s { s with blocks }
  | enter {function? : Option IdentId} (function : ∀ f ∈ function?, s.IsFunction f) :
      Step U s { s with blocks := s.blocks.enter function? }
  | leave : Step U s { s with blocks := s.blocks.leave }
  | place {place : Place} {depth : Nat} : Step U s { s with place, importDepth := depth }
  | addNames {texts : List String} : Step U s { s with names := s.names.addAll texts }
  /-- Only the root can have the path of a module that is there already. -/
  | openModule {path : String} (canonical : Path.IsCanonical path)
      (fresh : 1 < s.modules.size → ∀ id m, s.modules.get? id = some m → m.path ≠ path) :
      Step U s (s.openModule path)
  /-- A module that is being read imports one that has been read. -/
  | addImport {importer imported : ModuleId} (known : imported.index < s.modules.size)
      (reading : importer ∈ s.modules.unfinished) (read : imported ∉ s.modules.unfinished)
      (named : imported = .predeclared → ∀ id m, s.modules.get? id = some m →
        m.path = s.modules.path imported → id = imported) :
      Step U s { s with modules := s.modules.addImport importer imported }
  | finish {id : ModuleId} : Step U s { s with modules := s.modules.finish id }

/-- Any change of a session. A file is also left where reading it has failed. -/
inductive Change (s : Session) : Session → Prop
  | step {t : Session} (bound : s.Bound) (step : s.Step ∅ t) : Change s t
  | addType {kind : TypeKind} (bound : s.Bound) (valid : kind.Valid ∅ s)
      (unnamed : ∀ ident, kind ≠ .forward (some ident)) (fieldless : kind.fields = [])
      (defaults : s.HoldsDefaults kind) : Change s { s with types := (s.types.add kind).2 }
  /-- A structure gains a field while nothing refers to it. -/
  | addField {owner type : TypeId} {name : String} {offset : Int64} {types : TypeTable}
      (bound : s.Bound) (added : s.types.addField owner name type = some (offset, types))
      (structured : (s.types.kind owner).isStructure = true)
      (fresh : s.types.findField? owner name = none)
      (unreferenced : ∀ id, owner ∉ (s.types.kind id).refs) (other : type ≠ owner)
      (usable : s.Usable ∅ type) (solid : s.types.isForward type = false)
      (named : name ∈ s.names.texts)
      (anonymous : ∀ id i, s.idents.get? id = some i → i.type ≠ owner) : Change s { s with types }
  | nameForward {i : Ident} {id : IdentId} {idents : IdentTable}
      (added : s.idents.insert? i = some (id, idents)) (valid : i.Valid ∅ s) (kind : i.kind = .type)
      (forward : s.types.kind i.type = .forward none)
      (first : ∀ other j, s.idents.get? other = some j → j.type ≠ i.type) (placed : s.Places i) :
      Change s { s with idents }
  | bind {id : IdentId} {i : Ident} {forward : TypeId} (declared : s.idents.get? id = some i)
      (kind : i.kind = .type) (type : i.type = forward)
      (waiting : s.types.kind forward = .forward none) :
      Change s { s with types := s.types.bind forward id }
  | leaveFile {outer : Frame} (known : outer.module.index < s.modules.size) :
      Change s (s.leaveFile outer)

variable {U V : Set TypeId} {s t : Session}

theorem grows_complete {id : IdentId} {forward concrete : TypeId} {exported : Bool} {span : Span}
    (hf : s.types.isForward forward = true) :
    s.Grows { s with
      types := s.types.complete forward concrete
      idents := s.idents.modify id (remark exported span) } :=
  (grows_types (TypeTable.grows_complete concrete hf)).trans (grows_remark id exported span)

namespace Step

theorem grows (h : s.Step U t) : s.Grows t := by
  cases h with
  | declare added => exact grows_insert added
  | complete _ _ _ pending => exact grows_complete pending
  | emit => exact grows_code (size_emit_le _ _)
  | patch _ _ patched =>
    obtain ⟨_, rfl⟩ := patch?_eq_some patched
    exact grows_code (by simp [Code.size])
  | allocateGlobal => exact grows_allocateGlobal _
  | setGlobal => exact grows_setGlobal _ _
  | allocateLocal allocated => exact grows_allocateLocal allocated
  | enter => exact grows_blocks (Nat.le_succ _)
  | leave => exact grows_blocks (Nat.le_refl _)
  | place => exact grows_place _ _
  | addNames => exact grows_names fun _ hn => NameTable.mem_addAll _ hn
  | openModule => exact grows_openModule _
  | addImport => exact grows_addImport _ _
  | finish => exact grows_finish _

/-- A step changes no type but a forward type that is completed. -/
theorem types (h : s.Step U t) : t.types = s.types ∨
    ∃ forward concrete, s.types.isForward forward = true ∧ s.types.isForward concrete = false ∧
      t.types = s.types.complete forward concrete := by
  cases h with
  | complete _ _ _ pending solid => exact .inr ⟨_, _, pending, solid, rfl⟩
  | _ => exact .inl rfl

theorem size (h : s.Step U t) : t.types.size = s.types.size := by
  obtain he | ⟨_, _, _, _, he⟩ := h.types
  · rw [he]
  · rw [he, TypeTable.size_complete]

theorem valid (h : s.Step U t) (hs : s.Valid U) : t.Valid U := by
  cases h with
  | declare added valid => exact hs.insert added valid
  | complete _ _ _ pending solid => exact (hs.complete pending solid).remark _ _ _
  | emit valid => exact hs.emit valid
  | patch _ _ patched => exact hs.patch patched ⟨nofun, nofun⟩ _
  | allocateGlobal valid => exact hs.allocateGlobal valid
  | setGlobal => exact hs.setGlobal _ _
  | allocateLocal allocated => exact hs.allocateLocal allocated
  | enter function => exact hs.enter function
  | leave => exact hs.leave
  | place => exact hs.place _ _
  | addNames => exact hs.withNames (fun _ hn => NameTable.mem_addAll _ hn) (hs.names.addAll _)
  | openModule canonical => exact hs.openModule canonical
  | addImport known => exact hs.addImport _ known
  | finish => exact hs.finish _

theorem ready (h : s.Step U t) (hs : s.Ready U) : t.Ready U := by
  have valid := h.valid hs.toValid
  obtain he | ⟨forward, concrete, pending, solid, he⟩ := h.types
  · exact ⟨valid, fun id => he ▸ hs.bound id, he ▸ hs.founded, he ▸ hs.sized⟩
  · have completed := hs.complete pending solid
    exact ⟨valid, fun id => he ▸ completed.bound id, he ▸ completed.founded, he ▸ completed.sized⟩

/-- A type that may be referred to while more types are being read may be referred to. -/
theorem mono (h : s.Step V t) (hU : U ⊆ V) : s.Step U t := by
  have hu (id : TypeId) (hi : s.Usable V id) : s.Usable U id := hi.mono hU
  have g := Grows.refl s
  cases h with
  | declare added valid solid placed receives =>
    exact .declare added (valid.transport g hu) solid placed receives
  | complete declared kind type pending solid => exact .complete declared kind type pending solid
  | emit valid straight => exact .emit (valid.transport g hu) straight
  | patch reserved owned patched => exact .patch reserved owned patched
  | allocateGlobal valid holds => exact .allocateGlobal (valid.transport g hu) holds
  | setGlobal holds => exact .setGlobal holds
  | allocateLocal allocated => exact .allocateLocal allocated
  | enter function => exact .enter function
  | leave => exact .leave
  | place => exact .place
  | addNames => exact .addNames
  | openModule canonical fresh => exact .openModule canonical fresh
  | addImport known reading read named => exact .addImport known reading read named
  | finish => exact .finish

end Step

namespace Change

theorem grows (h : s.Change t) : s.Grows t := by
  cases h with
  | step _ step => exact step.grows
  | addType => exact grows_types (TypeTable.grows_add _ _)
  | addField _ added => exact grows_types (TypeTable.grows_addField added)
  | nameForward added => exact grows_insert added
  | bind _ _ _ waiting =>
    exact grows_types (TypeTable.grows_bind _ (TypeTable.isForward_of_kind_eq waiting))
  | leaveFile => exact grows_leaveFile _

theorem valid (h : s.Change t) (hs : s.Valid ∅) : t.Valid ∅ := by
  cases h with
  | step _ step => exact step.valid hs
  | addType bound valid unnamed =>
    exact hs.addType (fun _ hi => .inl hi) bound _ valid unnamed
  | addField _ added structured _ _ _ usable solid named =>
    exact hs.addField added structured usable solid named
  | nameForward added valid => exact hs.insert added valid
  | bind declared kind type waiting =>
    exact hs.bind (TypeTable.isForward_of_kind_eq waiting) ⟨_, declared, kind, type⟩
  | leaveFile known => exact hs.leaveFile known

end Change

end Session

end FrontEnd
