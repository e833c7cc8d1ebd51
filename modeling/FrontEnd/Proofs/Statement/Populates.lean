import FrontEnd.Proofs.Declaration.Extends
import FrontEnd.Proofs.Frames

/-!
What the body of a function adds to a session. Its names are declared in its own blocks, each
variable behind the one before it in the frame, and no type that was there before becomes another.
-/

namespace FrontEnd

/-- An identifier of a function's block in the module `m`. -/
structure Ident.Inner (m : ModuleId) (i : Ident) : Prop where
  module : i.module = m
  block : i.block ≠ .moduleScope
  payload : ∀ slot, i.payload ≠ .global slot

namespace Session

variable {n : Nat} {types : TypeTable} {P : Ident → Prop} {b s t u z : Session}

/-! ### Bodies -/

/-- A session inside a body that was opened behind `b`. -/
structure Opened (b s : Session) : Prop where
  valid : b.Valid ∅
  bound : b.Bound
  grows : b.Grows s
  kinds : ∀ id : TypeId, id.index < b.types.size → s.types.kind id = b.types.kind id
  blocks : ∀ block ∈ s.blocks.stack, b.blocks.next ≤ block.id.index
  function : s.InFunction

/-- The current block has been opened behind `b`. -/
theorem Opened.apart (h : b.Opened s) (id : IdentId) (i : Ident)
    (hi : b.idents.get? id = some i) : i.block ≠ s.blocks.current := by
  have known := (h.valid.idents id i hi).block
  have inside := h.function.at_true
  unfold At Blocks.atModuleScope at inside
  unfold Blocks.current
  cases hs : s.blocks.stack with
  | nil =>
    rw [hs] at inside
    cases inside
  | cons block rest =>
    have new := h.blocks block (hs ▸ List.mem_cons_self)
    rintro he
    rw [he] at known
    exact Nat.not_le_of_lt known new

/-- The current block of a function is not module scope. -/
theorem InFunction.inner (h : s.InFunction) (valid : s.Valid ∅) :
    s.blocks.current ≠ .moduleScope := by
  have inside := h.at_true
  unfold At Blocks.atModuleScope at inside
  unfold Blocks.current
  cases hs : s.blocks.stack with
  | nil =>
    rw [hs] at inside
    cases inside
  | cons block rest => exact (valid.blocks block (hs ▸ List.mem_cons_self)).inner

/-- Names have been declared in blocks, and variables behind each other in the frame; their sizes
are those of `types`. The first `n` types have kept their kinds. -/
structure Populates (n : Nat) (types : TypeTable) (s t : Session) : Prop where
  scope : t.blocks.scope = s.blocks.scope
  kinds : ∀ id : TypeId, id.index < n → t.types.kind id = s.types.kind id
  idents : s.idents.Gains (·.Inner s.blocks.module) t.idents
  globals : t.globals = s.globals
  modules : t.modules = s.modules
  row : types.Stacks s.blocks.frame (t.idents.variablesFrom s.idents.size) t.blocks.frame

namespace Populates

theorem module (h : s.Populates n types t) : t.blocks.module = s.blocks.module :=
  congrArg Prod.fst h.scope

theorem trans (h : s.Populates n types t) (h' : t.Populates n types u) : s.Populates n types u where
  scope := h'.scope.trans h.scope
  kinds id hi := (h'.kinds id hi).trans (h.kinds id hi)
  idents := h.idents.trans (h.module ▸ h'.idents)
  globals := h'.globals.trans h.globals
  modules := h'.modules.trans h.modules
  row := by
    rw [h'.idents.variablesFrom_append h.idents.size_le]
    exact h.row.append h'.row

/-- What adds no variables leaves the frame as it is. -/
theorem of_extends (h : s.Extends n P t)
    (hP : ∀ i, P i → i.Inner s.blocks.module ∧ i.kind ≠ .var) : s.Populates n types t where
  scope := by rw [h.blocks]
  kinds := h.kinds
  idents := h.idents.mono fun i hi => (hP i hi).1
  globals := h.globals
  modules := h.modules
  row := by
    rw [h.idents.variablesFrom_eq_nil fun i hi => (hP i hi).2, h.blocks]
    exact .nil

theorem refl (n : Nat) (types : TypeTable) (s : Session) : s.Populates n types s :=
  .of_extends (.refl n (fun _ => False) s) nofun

theorem opened (h : s.Populates b.types.size types t) (g : s.Grows t) (o : b.Opened s) :
    b.Opened t where
  valid := o.valid
  bound := o.bound
  grows := o.grows.trans g
  kinds id hi := (h.kinds id hi).trans (o.kinds id hi)
  blocks block hb := by
    have scopes : t.blocks.stack.map (·.id) = s.blocks.stack.map (·.id) := by
      have same := congrArg (fun scope => scope.2.map Prod.fst) h.scope
      simpa [Blocks.scope, Block.scope, Function.comp_def] using same
    obtain ⟨block', hb', he⟩ := List.mem_map.1 (scopes ▸ List.mem_map_of_mem hb)
    rw [← he]
    exact o.blocks block' hb'
  function := o.function.scope h.scope

end Populates

/-- A block is opened inside a body. -/
theorem Opened.enter (o : b.Opened s) (g : s.Grows { s with blocks := s.blocks.enter none }) :
    b.Opened { s with blocks := s.blocks.enter none } where
  valid := o.valid
  bound := o.bound
  grows := o.grows.trans g
  kinds := o.kinds
  blocks block hb := by
    rcases List.mem_cons.1 hb with rfl | hb
    · exact o.grows.blocks
    · exact o.blocks block hb
  function := o.function

/-- Names of the current block are inner ones. -/
theorem Opened.populates_of_names (o : b.Opened s) (valid : s.Valid ∅)
    (h : s.Extends n s.blocks.Names t) : s.Populates n types t :=
  .of_extends h fun _ hi =>
    ⟨⟨hi.module, by rw [hi.block]; exact o.function.inner valid, hi.payload_ne⟩, hi.kind_ne⟩

end Session

namespace Action

open Session

variable {setup : Setup} {root : String} {n : Nat} {P : Ident → Prop} {b s t z : Session}
  {stream : Stream}

/-! ### Variables -/

section Body

variable (last : (history setup root).getLast? = some z)

include last

/-- A variable of a function takes the room behind those before it. -/
theorem populates_declareVariable {name : String} {exported : Bool} {type : TypeId} {span : Span}
    {id : IdentId} {payload : Payload} (inside : s.InFunction)
    (h : (declareVariable name exported type span).PassesIn setup (history setup root) s
      (id, payload) t) : s.Populates n z.types t ∧ (∃ offset, payload = .local offset) ∧
      t.idents.variablesFrom s.idents.size = [t.ident name .var exported type payload span] := by
  have reached := h.last_mem
  have valid := h.valid_last
  obtain ⟨u, allocated, _, ht⟩ := of_yields_declareVariable h.yields
  obtain ⟨size, offset, blocks, takes, fits, hp, hu⟩ :=
    yields_allocate_inside inside.at_true allocated
  obtain ⟨scope, _⟩ := Blocks.allocate?_eq_some fits
  obtain ⟨place, total⟩ := Blocks.allocate?_frame inside fits
  subst hu hp
  have found : t.idents.get? ⟨s.idents.size⟩ =
      some (Session.ident { s with blocks } name .var exported type (.local offset) span) := by
    rw [ht]
    exact (IdentTable.get?_push ..).trans (if_pos rfl)
  have final := size?_of_ident reached last found (by rintro ⟨⟩)
  have scope' : t.blocks.scope = s.blocks.scope := by
    rw [ht]
    exact scope
  have inner := (inside.scope scope').inner valid
  subst ht
  have row := IdentTable.variablesFrom_push_var (t := s.idents)
    (i := Session.ident { s with blocks } name .var exported type (.local offset) span) rfl
  refine ⟨⟨scope', fun _ _ => rfl, .push .refl ⟨congrArg Prod.fst scope, inner, ?_⟩, rfl, rfl, ?_⟩,
    ⟨offset, rfl⟩, row⟩
  · rintro slot ⟨⟩
  · rw [row]
    exact .cons (congrArg Payload.local place) (final.trans takes) (place ▸ total) .nil

theorem populates_declareVariables {type : TypeId} {names : List DeclaredName} {payload : Payload}
    (inside : s.InFunction)
    (h : (declareVariables type names).PassesIn setup (history setup root) s payload t) :
    s.Populates n z.types t ∧ ∃ offset, payload = .local offset := by
  induction names generalizing s with
  | nil =>
    rw [declareVariables] at h
    exact absurd h.yields not_yields_failInternal
  | cons declared more ih =>
    rw [declareVariables] at h
    obtain ⟨⟨id, payload'⟩, u, first, h⟩ := passes_bind h
    obtain ⟨populates, place, _⟩ := populates_declareVariable (n := n) last inside first
    dsimp only at h
    split at h
    · obtain ⟨rfl, rfl⟩ := passes_pure h
      exact ⟨populates, place⟩
    · obtain ⟨others, place⟩ := ih (inside.scope populates.scope) h
      exact ⟨populates.trans others, place⟩

end Body

/-! ### Groups -/

/-- A group of items populates a body if each item does. -/
theorem populates_keywordGroup {types : TypeTable} {keyword : Symbol}
    {item : (s : Stream) → Action (Shorter s)}
    (hitem : ∀ stream s t rest, b.Opened s →
      (item stream).PassesIn setup (history setup root) s rest t →
      s.Populates b.types.size types t)
    {rest : Shorter stream} (o : b.Opened s)
    (h : (keywordGroup keyword item stream).PassesIn setup (history setup root) s rest t) :
    s.Populates b.types.size types t :=
  (of_passes_keywordGroup (I := fun _ s => b.Opened s) (R := Populates b.types.size types)
    (fun _ _ _ o _ => o)
    (fun _ _ _ _ o read =>
      ⟨(hitem _ _ _ _ o read).opened read.grows o, hitem _ _ _ _ o read⟩)
    (fun s => .refl _ _ s) (fun _ _ _ first second => first.trans second) o h).2

/-- The names that wait in a body have been used in it. -/
theorem ownsForwards_of_opened (hs : s ∈ history setup root) (o : b.Opened s) :
    OwnsForwards setup root b.types.size s := by
  intro u reached grows extended name id forward hf
  have populates : s.Populates b.types.size s.types u :=
    o.populates_of_names (valid_of_mem_history hs) (extended.mono fun _ hi => hi.names)
  have inside := populates.opened grows o
  exact le_of_forwardOf? o.valid o.bound inside.grows (tracks_of_mem_history reached) inside.kinds
    (fun id i hi _ => inside.apart id i hi) hf

theorem populates_typeDeclaration {types : TypeTable} {rest : Shorter stream} (o : b.Opened s)
    (h : (typeDeclaration stream).PassesIn setup (history setup root) s rest t) :
    s.Populates b.types.size types t := by
  obtain ⟨_, read⟩ := passes_typeDeclaration h
  refine populates_keywordGroup (fun stream s t rest o read => ?_) o read
  exact o.populates_of_names read.valid
    (extends_typeItem o.grows.types.size (ownsForwards_of_opened read.first_mem o) read)

theorem populates_constantDeclaration {types : TypeTable} {rest : Shorter stream} (o : b.Opened s)
    (h : (constantDeclaration stream).PassesIn setup (history setup root) s rest t) :
    s.Populates b.types.size types t :=
  populates_keywordGroup (fun _ _ _ _ o read =>
    o.populates_of_names read.valid (extends_constantItem o.grows.types.size read)) o h

section Body

variable (last : (history setup root).getLast? = some z)

include last

theorem populates_variableItem {rest : Shorter stream} (o : b.Opened s)
    (h : (variableItem stream).PassesIn setup (history setup root) s rest t) :
    s.Populates b.types.size z.types t := by
  unfold variableItem at h
  obtain ⟨⟨⟨names, type⟩, s₁, h₁⟩, u, read, h⟩ := passes_bind h
  obtain ⟨payload, w, declared, h⟩ := passes_bind h
  have reads : s.Populates b.types.size z.types u := o.populates_of_names read.valid
    ((extends_typedNames _ ⟨o.grows.types.size, rfl⟩ read).1.mono fun _ hi => hi.names)
  obtain ⟨populates, offset, rfl⟩ :=
    populates_declareVariables (n := b.types.size) last (o.function.scope reads.scope) declared
  have both := reads.trans populates
  have inside := both.opened (read.grows.trans declared.grows) o
  dsimp only at h
  split at h
  · obtain ⟨_, rfl⟩ := passes_pure h
    exact both
  · simp only [fail_bind] at h
    split at h
    · exact absurd h not_passes_fail
    · obtain ⟨slot?, x, prepared, h⟩ := passes_bind h
      obtain ⟨_, y, assigned, h⟩ := passes_bind h
      obtain ⟨_, rfl⟩ := passes_pure h
      obtain ⟨_, x', address, done⟩ := passes_bind prepared
      obtain ⟨rfl, rfl⟩ := passes_pure done
      have emits : w.Extends b.types.size w.blocks.Names x := extends_emit address.yields
      have stores := extends_store (P := w.blocks.Names)
        (Nat.le_trans inside.grows.types.size emits.size) assigned.yields
      exact both.trans (inside.populates_of_names address.valid (emits.trans stores))

theorem populates_shortDeclaration {rest : Shorter stream} (o : b.Opened s)
    (h : (shortDeclaration stream).PassesIn setup (history setup root) s rest t) :
    s.Populates b.types.size z.types t := by
  unfold shortDeclaration at h
  obtain ⟨⟨declared, s₁, h₁⟩, _, h⟩ := passes_ofExcept_bind h
  obtain ⟨⟨⟨⟩, s₂, h₂⟩, _, h⟩ := passes_eat_bind h
  obtain ⟨_, u, read, h⟩ := passes_bind h
  obtain ⟨_, rfl⟩ := passes_pure h
  unfold declareInferred at read
  simp only [fail_bind] at read
  obtain ⟨⟨value, s₃, h₃⟩, w, valued, read⟩ := passes_bind read
  obtain ⟨type, constant?, hv, evaluated⟩ :=
    yields_inferredValue_inside o.function.at_true valued.yields
  obtain rfl : value = ⟨type, none⟩ := hv
  have reads : s.Populates b.types.size z.types w := o.populates_of_names valued.valid
    (extends_evaluate o.grows.types.size evaluated)
  dsimp only at read
  split at read
  · obtain ⟨_, _, _, failed⟩ := passes_bind read
    exact absurd failed not_passes_fail
  obtain ⟨⟨id, payload⟩, x, placed, read⟩ := passes_bind read
  obtain ⟨⟨⟩, y, stored, read⟩ := passes_bind read
  obtain ⟨_, rfl⟩ := passes_pure read
  obtain ⟨populates, ⟨offset, rfl⟩, _⟩ :=
    populates_declareVariable (n := b.types.size) last (o.function.scope reads.scope) placed
  have both := reads.trans populates
  have inside := both.opened (valued.grows.trans placed.grows) o
  obtain ⟨_, x', address, stored⟩ := passes_bind stored
  obtain ⟨_, y', swapped, done⟩ := passes_bind stored
  obtain ⟨_, rfl⟩ := passes_pure done
  have emits := (extends_emit (n := b.types.size) (P := x.blocks.Names) address.yields).trans
    (extends_emit swapped.yields)
  exact both.trans (inside.populates_of_names address.valid emits)

end Body

/-! ### Statements -/

mutual

theorem populates_statement (last : (history setup root).getLast? = some z) (stream : Stream)
    {s t : Session} {rest : Kept stream} (o : b.Opened s)
    (h : (statement stream).PassesIn setup (history setup root) s rest t) :
    s.Populates b.types.size z.types t := by
  rw [statement] at h
  have size := o.grows.types.size
  split at h
  · obtain ⟨_, rfl⟩ := passes_pure h
    exact .refl ..
  · obtain ⟨_, rfl⟩ := passes_pure h
    exact .refl ..
  · obtain ⟨_, read⟩ := passes_kept h
    exact populates_typeDeclaration o read
  · obtain ⟨_, read⟩ := passes_kept h
    exact populates_constantDeclaration o read
  · obtain ⟨_, read⟩ := passes_kept h
    exact populates_keywordGroup (fun _ _ _ _ => populates_variableItem last) o read
  · exact absurd h not_passes_fail
  · obtain ⟨_, read⟩ := passes_kept h
    exact populates_block last stream o read
  · obtain ⟨_, read⟩ := passes_kept h
    exact o.populates_of_names read.valid (extends_returnStatement size read)
  · split at h
    · obtain ⟨_, read⟩ := passes_kept h
      exact populates_shortDeclaration last o read
    · obtain ⟨_, read⟩ := passes_kept h
      exact o.populates_of_names read.valid (extends_assignment size read)
  · exact absurd h not_passes_fail
termination_by 4 * stream.size + 2

theorem populates_statements (last : (history setup root).getLast? = some z) (stream : Stream)
    {s t : Session} {rest : Kept stream} (o : b.Opened s)
    (h : (statements stream).PassesIn setup (history setup root) s rest t) :
    s.Populates b.types.size z.types t := by
  rw [statements] at h
  obtain ⟨⟨⟨⟩, s₁, h₁⟩, u, read, h⟩ := passes_bind h
  have populates := populates_statement last stream o read
  dsimp only at h
  split at h
  · obtain ⟨_, rfl⟩ := passes_pure h
    exact populates
  · rename_i semicolon _
    obtain ⟨_, s₂, h₂⟩ := semicolon
    have hlt := (h₂.of_within h₁).2
    obtain ⟨_, w, more, h⟩ := passes_bind h
    obtain ⟨_, rfl⟩ := passes_pure h
    exact populates.trans (populates_statements last s₂ (populates.opened read.grows o) more)
termination_by 4 * stream.size + 3

theorem populates_blockBody (last : (history setup root).getLast? = some z) (stream : Stream)
    {s t : Session} {rest : Shorter stream} (o : b.Opened s)
    (h : (blockBody stream).PassesIn setup (history setup root) s rest t) :
    s.Populates b.types.size z.types t := by
  rw [blockBody] at h
  obtain ⟨⟨⟨⟩, s₁, h₁⟩, _, h⟩ := passes_eat_bind h
  have hlt := h₁.2
  obtain ⟨⟨⟨⟩, s₂, h₂⟩, u, read, h⟩ := passes_bind h
  obtain ⟨_, _, h⟩ := passes_eat_bind h
  obtain ⟨_, rfl⟩ := passes_pure h
  exact populates_statements last s₁ o read
termination_by 4 * stream.size

theorem populates_block (last : (history setup root).getLast? = some z) (stream : Stream)
    {s t : Session} {rest : Shorter stream} (o : b.Opened s)
    (h : (block stream).PassesIn setup (history setup root) s rest t) :
    s.Populates b.types.size z.types t := by
  rw [block] at h
  obtain ⟨⟨⟩, u, entered, h⟩ := passes_bind h
  obtain ⟨_, w, read, h⟩ := passes_bind h
  obtain ⟨⟨⟩, x, left, h⟩ := passes_bind h
  obtain ⟨_, rfl⟩ := passes_pure h
  cases entered.yields
  have inside := o.enter entered.grows
  have populates := populates_blockBody last stream inside read
  have scope := populates.scope
  cases left.yields
  have left : w.blocks.leave.scope = s.blocks.scope := scope_leave rfl scope
  refine ⟨left, populates.kinds, populates.idents, populates.globals, populates.modules, ?_⟩
  obtain ⟨block, rest, stack, inner⟩ := Blocks.stack_of_enter scope
  show z.types.Stacks _ _ w.blocks.leave.frame
  rw [Blocks.frame_leave stack inner]
  exact populates.row
termination_by 4 * stream.size + 1

end

section Function

variable (last : (history setup root).getLast? = some z)

include last

/-- The parameters of a function are its first variables. -/
theorem populates_parameters {parameters : List Parameter} {span : Span} (inside : s.InFunction)
    (h : (parameters.forM fun p => discard (declareVariable p.name false p.type span)).PassesIn
      setup (history setup root) s ⟨⟩ t) :
    s.Populates n z.types t ∧
      (t.idents.variablesFrom s.idents.size).map (fun i => (i.name, i.type)) =
        parameters.map fun p => (p.name, p.type) := by
  induction parameters generalizing s with
  | nil =>
    obtain ⟨_, rfl⟩ := passes_pure h
    exact ⟨.refl .., by rw [IdentTable.variablesFrom_size]; rfl⟩
  | cons p parameters ih =>
    obtain ⟨_, u, first, more⟩ := passes_bind h
    obtain ⟨⟨id, payload⟩, _, declared, done⟩ := passes_bind first
    obtain ⟨_, rfl⟩ := passes_pure done
    obtain ⟨populates, _, row⟩ := populates_declareVariable (n := n) last inside declared
    obtain ⟨others, rows⟩ := ih (inside.scope populates.scope) more
    refine ⟨populates.trans others, ?_⟩
    rw [others.idents.variablesFrom_append populates.idents.size_le, row, List.map_append, rows]
    rfl

/-- What stands in a function's block populates its frame, the parameters first. -/
theorem populates_functionBlock {signature : Signature} {span : Span} {rest : Shorter stream}
    (o : b.Opened s)
    (h : (functionBlock signature span stream).PassesIn setup (history setup root) s rest t) :
    s.Populates b.types.size z.types t ∧ ∃ parameters own,
      t.idents.variablesFrom s.idents.size = parameters ++ own ∧
        parameters.map (fun i => (i.name, i.type)) =
          signature.parameters.map fun p => (p.name, p.type) := by
  unfold functionBlock at h
  obtain ⟨⟨⟩, u, declared, read⟩ := passes_bind h
  obtain ⟨populates, names⟩ := populates_parameters (n := b.types.size) last o.function declared
  have body := populates_blockBody last stream (populates.opened declared.grows o) read
  have split := body.idents.variablesFrom_append populates.idents.size_le
  exact ⟨populates.trans body, _, _, split, names⟩

end Function

end Action

end FrontEnd
