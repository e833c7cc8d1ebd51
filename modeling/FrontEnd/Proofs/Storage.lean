import FrontEnd.Proofs.Function.Body

/-!
Where variables are stored. The variables of a function lie one behind the other in its frame, its
parameters first and where its signature says; a variable of a module has a slot of its own, which
carries its name and its type.
-/

namespace FrontEnd

/-- The variables of a function lie one behind the other from zero on, its parameters first. -/
structure TypeTable.Frames (t : TypeTable) (signature : Signature) (locals : List Ident) :
    Prop where
  row : ∃ size, t.Stacks 0 locals size
  parameters : ∃ parameters own, locals = parameters ++ own ∧
    List.Forall₂ (fun p i => i.name = p.name ∧ i.type = p.type ∧ i.payload = .local p.offset)
      signature.parameters parameters

/-- Where the sizes are those that its signature was laid out with, a function's parameters are
where the signature says. -/
theorem TypeTable.frames_of_offsets {t : TypeTable} {signature : Signature}
    {parameters own : List Ident} {size : Int64} (offsets : signature.Offsets t)
    (row : t.Stacks 0 (parameters ++ own) size)
    (names : parameters.map (fun i => (i.name, i.type)) =
      signature.parameters.map fun p => (p.name, p.type)) :
    t.Frames signature (parameters ++ own) := by
  have types : parameters.map (·.type) = signature.parameters.map (·.type) := by
    have snd := congrArg (List.map Prod.snd) names
    rwa [List.map_map, List.map_map] at snd
  refine ⟨⟨size, row⟩, parameters, own, rfl, List.forall₂_iff_get.2 ⟨?_, fun k hp hi => ?_⟩⟩
  · simpa using (congrArg List.length names).symm
  · have hp' := List.getElem?_eq_getElem hp
    have hi' := List.getElem?_eq_getElem hi
    have same := congrArg (·[k]?) names
    simp only [List.getElem?_map, hp', hi', Option.map_some, Option.some.injEq,
      Prod.mk.injEq] at same
    obtain ⟨offset, place, ends⟩ := row.offset ((List.getElem?_append_left hi).trans hi')
    rw [List.take_append_of_le_length (Nat.le_of_lt hi), List.map_take, types, ← List.map_take,
      offsets.offset k _ hp'] at ends
    cases ends
    exact ⟨same.1, same.2, place⟩

/-! ### Storage of modules -/

/-- The slot of a global variable. -/
def Ident.slot? (i : Ident) : Option Nat :=
  match i.payload with
  | .global slot => some slot
  | _ => none

theorem Ident.slot?_eq_none {i : Ident} (h : ∀ slot, i.payload ≠ .global slot) :
    i.slot? = none := by
  unfold slot?
  split
  · rename_i slot hp
    exact absurd hp (h slot)
  · rfl

/-- The slots in the order of their declaration. -/
def IdentTable.slots (t : IdentTable) : List Nat := t.toList.filterMap (·.slot?)

/-- The body of the function `f` has been read in the compilation that `z` is left of, and the
variables that were declared meanwhile make up its frame. -/
def HasFrame (setup : Setup) (root : String) (z : Session) (f : IdentId) (i : Ident) : Prop :=
  ∃ signature stream rest s t locals, z.types.kind i.type = .function signature ∧
    (Action.functionBody f i signature stream).PassesIn setup (history setup root) s rest t ∧
    z.idents.variablesFrom s.idents.size = locals ++ z.idents.variablesFrom t.idents.size ∧
    z.types.Frames signature locals

/-- The body of the function `f` has been read in the compilation, and its code starts at `entry`. -/
def WasRead (setup : Setup) (root : String) (f : IdentId) (i : Ident) (entry : Nat) : Prop :=
  ∃ signature stream rest s t, s.idents.get? f = some i ∧
    s.types.kind i.type = .function signature ∧ s.code.size = entry ∧
    (Action.functionBody f i signature stream).PassesIn setup (history setup root) s rest t

namespace Session

variable {setup : Setup} {root : String} {n : Nat} {s t u z : Session}

theorem Change.gains (h : s.Change t) : s.idents.Gains (fun _ => True) t.idents := by
  cases h with
  | step _ step =>
    cases step with
    | declare added =>
      obtain ⟨_, rfl, _⟩ := IdentTable.insert?_eq_some added
      exact .push .refl trivial
    | complete declared kind => exact .mark .refl declared kind trivial trivial
    | _ => exact .refl
  | nameForward added =>
    obtain ⟨_, rfl, _⟩ := IdentTable.insert?_eq_some added
    exact .push .refl trivial
  | _ => exact .refl

theorem gains_of_changes (h : Relation.ReflTransGen Change s t) :
    s.idents.Gains (fun _ => True) t.idents := by
  induction h with
  | refl => exact .refl
  | tail _ change ih => exact ih.trans change.gains

/-- Between two places of a module at which no function is open: each new function with a body has
been read and has its frame, and each new variable has the next slot. -/
structure Allots (s : Session) (setup : Setup) (root : String) (z t : Session) : Prop where
  outside : t.blocks.stack = []
  gains : s.idents.Gains (fun _ => True) t.idents
  functions : ∀ f i entry, s.idents.size ≤ f.index → t.idents.get? f = some i →
    i.kind = .function → i.payload = .function entry none →
      HasFrame setup root z f i ∧ WasRead setup root f i entry
  slots : s.idents.slots = List.range s.globals.size → t.idents.slots = List.range t.globals.size

namespace Allots

theorem trans (h : s.Allots setup root z t) (h' : t.Allots setup root z u) :
    s.Allots setup root z u where
  outside := h'.outside
  gains := h.gains.trans h'.gains
  functions f i entry new found kind body := by
    rcases Nat.lt_or_ge f.index t.idents.size with old | new'
    · have found := h'.gains.get?_eq old found (by rw [kind]; nofun)
      exact h.functions f i entry new found kind body
    · exact h'.functions f i entry new' found kind body
  slots hs := h'.slots (h.slots hs)

/-- Nothing is declared. -/
theorem of_same (outside : t.blocks.stack = []) (idents : t.idents = s.idents)
    (globals : t.globals.size = s.globals.size) : s.Allots setup root z t where
  outside := outside
  gains := idents ▸ .refl
  functions f i entry new found _ _ := by
    rw [idents] at found
    exact absurd (IdentTable.lt_of_get?_eq_some found) (Nat.not_lt_of_le new)
  slots hs := by rw [idents, globals]; exact hs

theorem refl (outside : s.blocks.stack = []) : s.Allots setup root z s :=
  .of_same outside rfl rfl

/-- Types and constants take no room. -/
theorem of_names (outside : s.blocks.stack = []) (h : s.Extends n s.blocks.Names t) :
    s.Allots setup root z t where
  outside := by rw [h.blocks]; exact outside
  gains := h.idents.mono fun _ _ => trivial
  functions f i entry new found kind body := by
    have mem := h.idents.of_mem_drop i (IdentTable.mem_drop_of_get? new found)
    rcases mem.kind with ⟨kind', _⟩ | ⟨_, kind', _⟩
    · cases kind.symm.trans kind'
    · cases kind.symm.trans kind'
  slots hs := by
    rw [h.globals, ← hs]
    exact h.idents.filterMap_eq _ fun i hi => Ident.slot?_eq_none hi.payload_ne

end Allots

end Session

namespace Action

open Session

variable {setup : Setup} {root : String} {s t z : Session} {stream : Stream}

/-- Outside of functions a new variable gets the next slot. -/
theorem yields_allocate_outside {name : String} {type : TypeId} {span : Span} {payload : Payload}
    (outside : s.blocks.stack = []) (h : (allocate name type span).Yields setup s payload t) :
    payload = .global s.globals.size ∧
      t = { s with globals := s.globals.push ⟨name, type, none⟩ } := by
  unfold allocate at h
  have module : s.blocks.atModuleScope = true := by
    rw [Blocks.atModuleScope, outside]
    rfl
  rw [yields_get, if_pos module] at h
  cases h
  exact ⟨rfl, rfl⟩

theorem allots_declareVariable {name : String} {exported : Bool} {type : TypeId} {span : Span}
    {id : IdentId} {payload : Payload} (outside : s.blocks.stack = [])
    (h : (declareVariable name exported type span).Yields setup s (id, payload) t) :
    s.Allots setup root z t ∧ payload = .global s.globals.size := by
  obtain ⟨u, allocated, _, rfl⟩ := of_yields_declareVariable h
  obtain ⟨rfl, rfl⟩ := yields_allocate_outside outside allocated
  refine ⟨⟨outside, .push .refl trivial, fun f i entry new found kind _ => ?_, fun hs => ?_⟩, rfl⟩
  · rw [IdentTable.get?_push] at found
    split at found
    · cases found
      cases kind
    · exact absurd (IdentTable.lt_of_get?_eq_some found) (Nat.not_lt_of_le new)
  · unfold IdentTable.slots
    rw [IdentTable.toList_push, List.filterMap_append, Array.size_push, List.range_succ]
    exact congrArg (· ++ [s.globals.size]) hs

theorem allots_declareVariables {type : TypeId} {names : List DeclaredName} {payload : Payload}
    (outside : s.blocks.stack = [])
    (h : (declareVariables type names).Yields setup s payload t) :
    s.Allots setup root z t ∧ ∃ slot, payload = .global slot := by
  induction names generalizing s with
  | nil =>
    rw [declareVariables] at h
    exact absurd h not_yields_failInternal
  | cons declared more ih =>
    rw [declareVariables] at h
    obtain ⟨⟨id, payload'⟩, u, first, h⟩ := yields_bind.1 h
    have allots : s.Allots setup root z u ∧ _ := allots_declareVariable outside first
    obtain ⟨allots, place⟩ := allots
    dsimp only at h
    split at h
    · obtain ⟨rfl, rfl⟩ := yields_pure.1 h
      exact ⟨allots, _, place⟩
    · obtain ⟨others, place⟩ := ih allots.outside h
      exact ⟨allots.trans others, place⟩

theorem allots_withValue (outside : s.blocks.stack = []) (slot : Nat) (value : Constant) :
    s.Allots setup root z (s.withValue slot value) :=
  .of_same outside rfl Array.size_modify

theorem allots_variableItem {rest : Shorter stream} (outside : s.blocks.stack = [])
    (h : (variableItem stream).PassesIn setup (history setup root) s rest t) :
    s.Allots setup root z t := by
  unfold variableItem at h
  obtain ⟨⟨⟨names, type⟩, s₁, h₁⟩, u, read, h⟩ := passes_bind h
  obtain ⟨payload, w, declared, h⟩ := passes_bind h
  have reads : s.Allots setup root z u :=
    .of_names outside ((extends_typedNames _ ⟨Nat.zero_le _, rfl⟩ read).1.mono fun _ hi => hi.names)
  have declares : u.Allots setup root z w ∧ _ :=
    allots_declareVariables reads.outside declared.yields
  obtain ⟨declares, slot, rfl⟩ := declares
  have both := reads.trans declares
  dsimp only at h
  split at h
  · obtain ⟨_, rfl⟩ := passes_pure h
    exact both
  · simp only [fail_bind] at h
    split at h
    · exact absurd h not_passes_fail
    · obtain ⟨slot?, x, prepared, assigns⟩ := passes_bind h
      obtain ⟨rfl, rfl⟩ := passes_pure prepared
      obtain ⟨_, y, assigned, done⟩ := passes_bind assigns
      obtain ⟨_, rfl⟩ := passes_pure done
      obtain ⟨v, value, folds, rfl⟩ :=
        extends_fold (n := 0) (P := x.blocks.Names) (Nat.zero_le _) assigned.yields
      have folded : x.Allots setup root z v := .of_names both.outside folds
      exact both.trans (folded.trans (allots_withValue folded.outside slot value))

theorem allots_shortDeclaration {rest : Shorter stream} (outside : s.blocks.stack = [])
    (h : (shortDeclaration stream).PassesIn setup (history setup root) s rest t) :
    s.Allots setup root z t := by
  unfold shortDeclaration at h
  obtain ⟨⟨declared, s₁, h₁⟩, _, h⟩ := passes_ofExcept_bind h
  obtain ⟨⟨⟨⟩, s₂, h₂⟩, _, h⟩ := passes_eat_bind h
  obtain ⟨_, u, read, h⟩ := passes_bind h
  obtain ⟨_, rfl⟩ := passes_pure h
  unfold declareInferred at read
  simp only [fail_bind] at read
  obtain ⟨⟨value, s₃, h₃⟩, w, valued, read⟩ := passes_bind read
  have reads : s.Allots setup root z w :=
    .of_names outside (extends_inferredValue (Nat.zero_le _) valued.yields)
  dsimp only at read
  split at read
  · obtain ⟨_, _, _, failed⟩ := passes_bind read
    exact absurd failed not_passes_fail
  obtain ⟨⟨id, payload⟩, x, placed, read⟩ := passes_bind read
  obtain ⟨⟨⟩, y, stored, read⟩ := passes_bind read
  obtain ⟨_, rfl⟩ := passes_pure read
  have declares : w.Allots setup root z x ∧ _ := allots_declareVariable reads.outside placed.yields
  obtain ⟨declares, rfl⟩ := declares
  have both := reads.trans declares
  have stored := stored.yields
  unfold storeInferred at stored
  split at stored
  · obtain ⟨_, rfl⟩ := of_yields_setGlobal stored
    exact both.trans (allots_withValue both.outside _ _)
  · rename_i place _
    cases place
  · exact absurd stored not_yields_failInternal

/-! ### Functions -/

/-- The parameters of a function that has been declared are in the end where its signature says. -/
theorem offsets_of_declared {signature : Signature} {i : Ident}
    (last : (history setup root).getLast? = some z) (hs : s ∈ history setup root)
    (kind : s.types.kind i.type = .function signature) (offsets : signature.Offsets s.types) :
    signature.Offsets z.types := by
  have valid := valid_of_mem_history hs
  have grows := grows_of_changes (changes_of_mem_history hs last)
  refine offsets.congr grows.types.size fun p hp => size?_of_settles hs last ?_
  have part : p.type ∈ (s.types.kind i.type).parts := by
    rw [kind]
    exact List.mem_append_left _ (List.mem_map_of_mem hp)
  exact ⟨valid.inUse_ref (TypeKind.mem_refs_of_mem_parts part), (valid.kinds i.type).parts _ part⟩

/-- A function that is declared and read has its frame. -/
theorem hasFrame_functionBody (last : (history setup root).getLast? = some z) {id : IdentId}
    {i : Ident} {signature : Signature} {rest : Shorter stream}
    (kind : s.types.kind i.type = .function signature)
    (offsets : signature.Offsets s.types) (embodies : s.Embodies z.types signature t)
    (h : (functionBody id i signature stream).PassesIn setup (history setup root) s rest t) :
    HasFrame setup root z id i := by
  have grows := grows_of_changes (changes_of_mem_history h.first_mem last)
  have gains := gains_of_changes (changes_of_mem_history h.last_mem last)
  obtain ⟨size, row⟩ := embodies.row
  obtain ⟨parameters, own, split, names⟩ := embodies.parameters
  refine ⟨signature, stream, rest, s, t, parameters ++ own, grows.signature kind, h, ?_, ?_⟩
  · rw [← split]
    exact gains.variablesFrom_append embodies.idents.size_le
  · rw [split] at row
    exact TypeTable.frames_of_offsets (offsets_of_declared last h.first_mem kind offsets) row
      names

/-- The body of a function declares nothing at module scope. -/
theorem allots_embodies {signature : Signature} (outside : s.blocks.stack = [])
    (valid : t.Valid ∅) (h : s.Embodies z.types signature t) : s.Allots setup root z t where
  outside := by
    have stack := congrArg (fun scope => scope.2.length) h.scope
    simpa [Blocks.scope, outside] using stack
  gains := h.idents.mono fun _ _ => trivial
  functions f i entry new found kind body := by
    have inner := h.idents.of_mem_drop i (IdentTable.mem_drop_of_get? new found)
    have carries := (valid.idents f i found).carries
    rw [Ident.Carries, kind, body] at carries
    exact absurd carries.2.2.2 inner.block
  slots hs := by
    rw [h.globals, ← hs]
    exact h.idents.filterMap_eq _ fun i hi => Ident.slot?_eq_none hi.payload

theorem allots_functionDeclaration (last : (history setup root).getLast? = some z)
    {rest : Shorter stream} (outside : s.blocks.stack = [])
    (h : (functionDeclaration stream).PassesIn setup (history setup root) s rest t) :
    s.Allots setup root z t := by
  unfold functionDeclaration at h
  simp only [fail_bind] at h
  rw [passes_get] at h
  split at h
  · exact absurd h not_passes_fail
  obtain ⟨⟨⟨⟩, s₁, h₁⟩, _, h⟩ := passes_eat_bind h
  obtain ⟨⟨⟨receiver?, started⟩, s₂, h₂⟩, u, received, h⟩ := passes_bind h
  obtain ⟨⟨name, s₃, h₃⟩, _, h⟩ := passes_functionName_bind h
  obtain ⟨⟨complete, s₅, h₅⟩, v, signed, h⟩ := passes_bind h
  obtain ⟨⟨id, i⟩, w, declared, read⟩ := passes_bind h
  obtain ⟨receives, started⟩ := extends_optionalReceiver ⟨Nat.zero_le _, rfl⟩ received
  have signs := extends_signature _ (receives.reads ⟨Nat.zero_le _, rfl⟩) signed
  have offsets := offsets_signature started signed
  have before : s.Allots setup root z v :=
    .of_names outside ((receives.trans signs).mono fun _ hi => hi.names)
  obtain ⟨rfl, hi, hw⟩ := yields_declareFunction declared.yields
  have found : w.idents.get? ⟨v.idents.size⟩ = some i := by
    rw [hw]
    exact (IdentTable.get?_push ..).trans (if_pos rfl)
  have kind : w.types.kind i.type = .function complete := by
    rw [hw, hi]
    exact v.types.kind_add_self _
  have declares : v.Extends v.types.size (fun _ => True) w := by
    rw [hw]
    exact (extends_addType (Nat.le_refl _) _ (.function complete)).trans
      ⟨rfl, Nat.le_refl _, fun _ _ => rfl, .push .refl trivial⟩
  have offsets := offsets.extends declares signed.last_mem declared.last_mem
  have outside' : w.blocks.stack = [] := by rw [declares.blocks]; exact before.outside
  have slots (hs : v.idents.slots = List.range v.globals.size) :
      w.idents.slots = List.range w.globals.size := by
    rw [declares.globals, ← hs, hw, hi]
    unfold IdentTable.slots
    rw [IdentTable.toList_push, List.filterMap_append]
    exact List.append_nil _
  -- Either way the declaration is the only one of module scope.
  have declare (framed : ∀ entry, i.payload = .function entry none →
      HasFrame setup root z ⟨v.idents.size⟩ i ∧ WasRead setup root ⟨v.idents.size⟩ i entry) :
      v.Allots setup root z w := by
    refine ⟨outside', declares.idents, fun f j entry new found' _ body => ?_, slots⟩
    have bound := IdentTable.lt_of_get?_eq_some found'
    have he : f = ⟨v.idents.size⟩ := by
      refine IdentId.ext (Nat.le_antisymm ?_ new)
      rw [hw] at bound
      exact Nat.lt_succ_iff.1 (by simpa [IdentTable.size] using bound)
    subst he
    cases found.symm.trans found'
    exact framed entry body
  dsimp only at read
  split at read
  · obtain ⟨rest', x, body, done⟩ := passes_bind read
    obtain ⟨_, rfl⟩ := passes_pure done
    have embodies := embodies_functionBody last outside' body
    have framed := hasFrame_functionBody last kind offsets embodies body
    have wasRead (entry : Nat) (he : i.payload = .function entry none) :
        WasRead setup root ⟨v.idents.size⟩ i entry := by
      refine ⟨complete, s₅, rest', w, _, found, kind, ?_, body⟩
      rw [hi] at he
      injection he with here
      rw [hw]
      exact here
    exact before.trans ((declare fun entry he => ⟨framed, wasRead entry he⟩).trans
      (allots_embodies outside' body.valid_last embodies))
  · rename_i prototype
    obtain ⟨_, x, emitted, done⟩ := passes_bind read
    obtain ⟨_, rfl⟩ := passes_pure done
    cases emitted.yields
    have framed (entry : Nat) (body : i.payload = .function entry none) :
        HasFrame setup root z ⟨v.idents.size⟩ i ∧ WasRead setup root ⟨v.idents.size⟩ i entry := by
      rw [hi, if_neg prototype] at body
      cases body
    exact before.trans ((declare framed).trans (.of_same outside' rfl rfl))

/-! ### Modules -/

/-- A group of items outside of functions. -/
theorem allots_keywordGroup {keyword : Symbol} {item : (s : Stream) → Action (Shorter s)}
    (hitem : ∀ stream s t rest, s.blocks.stack = [] →
      (item stream).PassesIn setup (history setup root) s rest t → s.Allots setup root z t)
    {rest : Shorter stream} (outside : s.blocks.stack = [])
    (h : (keywordGroup keyword item stream).PassesIn setup (history setup root) s rest t) :
    s.Allots setup root z t :=
  (of_passes_keywordGroup (I := fun _ s => s.blocks.stack = [])
    (R := fun s t => s.blocks.stack = [] → s.Allots setup root z t) (fun _ _ _ o _ => o)
    (fun _ _ _ _ o read => ⟨(hitem _ _ _ _ o read).outside, fun o => hitem _ _ _ _ o read⟩)
    (fun _ o => .refl o) (fun _ _ _ first second o => (first o).trans (second (first o).outside))
    outside h).2 outside

theorem allots_declaration (last : (history setup root).getLast? = some z) {rest : Kept stream}
    (outside : s.blocks.stack = [])
    (h : (declaration stream).PassesIn setup (history setup root) s rest t) :
    s.Allots setup root z t := by
  unfold declaration at h
  split at h
  · obtain ⟨_, read⟩ := passes_kept h
    obtain ⟨_, read⟩ := passes_typeDeclaration read
    refine allots_keywordGroup (fun stream s t rest o read => ?_) outside read
    exact .of_names o (extends_typeItem (Nat.zero_le _)
      (fun _ _ _ _ _ _ _ _ => Nat.zero_le _) read)
  · obtain ⟨_, read⟩ := passes_kept h
    exact allots_keywordGroup (fun _ _ _ _ o read =>
      .of_names o (extends_constantItem (Nat.zero_le _) read)) outside read
  · obtain ⟨_, read⟩ := passes_kept h
    exact allots_keywordGroup (fun _ _ _ _ => allots_variableItem) outside read
  · obtain ⟨_, read⟩ := passes_kept h
    exact allots_functionDeclaration last outside read
  · obtain ⟨_, read⟩ := passes_kept h
    exact allots_shortDeclaration outside read
  · rw [passes_get] at h
    split at h
    · obtain ⟨_, rfl⟩ := passes_pure h
      exact .refl outside
    · exact absurd h not_passes_fail

theorem allots_declarations (last : (history setup root).getLast? = some z) (stream : Stream)
    {s t : Session} {rest : Kept stream} (outside : s.blocks.stack = [])
    (h : (declarations stream).PassesIn setup (history setup root) s rest t) :
    s.Allots setup root z t := by
  rw [declarations] at h
  obtain ⟨⟨⟨⟩, s₁, h₁⟩, u, read, h⟩ := passes_bind h
  have allots := allots_declaration last outside read
  dsimp only at h
  split at h
  · obtain ⟨_, rfl⟩ := passes_pure h
    exact allots
  · rename_i semicolon _
    obtain ⟨_, s₂, h₂⟩ := semicolon
    have hlt := (h₂.of_within h₁).2
    obtain ⟨_, w, more, h⟩ := passes_bind h
    obtain ⟨_, rfl⟩ := passes_pure h
    exact allots.trans (allots_declarations last s₂ allots.outside more)
termination_by stream.size

/-- Reading a module allots storage to what it declares. -/
def AllotsModule (setup : Setup) (root : String) (z : Session) (load : Path → Action ModuleId) :
    Prop :=
  ∀ path s id t, s.blocks.stack = [] → (load path).PassesIn setup (history setup root) s id t →
    s.Allots setup root z t

section Imports

variable {load? : Option (Path → Action ModuleId)}
  (hl : ∀ load ∈ load?, AllotsModule setup root z load)

include hl

theorem allots_importedModule {literal : String} {span : Span} {imported : ModuleId}
    (outside : s.blocks.stack = [])
    (h : (importedModule load? literal span).PassesIn setup (history setup root) s imported t) :
    s.Allots setup root z t := by
  unfold importedModule at h
  simp only [fail_bind] at h
  rw [passes_get] at h
  split at h
  · split at h
    · exact absurd h not_passes_fail
    · obtain ⟨_, rfl⟩ := passes_pure h
      exact .refl outside
  · unfold loadImport at h
    split at h
    · rw [passes_read] at h
      exact absurd h not_passes_fail
    · rename_i load
      rw [passes_get] at h
      exact hl load rfl _ _ _ _ outside (passes_mapError h)

theorem allots_importItem {rest : Shorter stream} (outside : s.blocks.stack = [])
    (h : (importItem load? stream).PassesIn setup (history setup root) s rest t) :
    s.Allots setup root z t := by
  unfold importItem at h
  split at h
  · exact absurd h not_passes_fail
  · rw [passes_get] at h
    obtain ⟨imported, u, read, h⟩ := passes_bind h
    obtain ⟨_, w, added, h⟩ := passes_bind h
    obtain ⟨_, rfl⟩ := passes_pure h
    have allots := allots_importedModule hl outside read
    cases added.yields
    exact allots.trans (.of_same allots.outside rfl rfl)

theorem allots_importItems (stream : Stream) {s t : Session} {rest : Kept stream}
    (outside : s.blocks.stack = [])
    (h : (importItems load? stream).PassesIn setup (history setup root) s rest t) :
    s.Allots setup root z t := by
  rw [importItems] at h
  split at h
  · obtain ⟨_, rfl⟩ := passes_pure h
    exact .refl outside
  obtain ⟨⟨⟨⟩, s₁, h₁⟩, u, read, h⟩ := passes_bind h
  obtain ⟨⟨⟨⟩, s₂, h₂⟩, h⟩ := passes_separator_bind h
  have hlt := (h₂.behind h₁).2
  obtain ⟨_, w, more, h⟩ := passes_bind h
  obtain ⟨_, rfl⟩ := passes_pure h
  have allots := allots_importItem hl outside read
  exact allots.trans (allots_importItems s₂ allots.outside more)
termination_by stream.size

theorem allots_optionalImports {rest : Kept stream} (outside : s.blocks.stack = [])
    (h : (optionalImports load? stream).PassesIn setup (history setup root) s rest t) :
    s.Allots setup root z t := by
  unfold optionalImports at h
  split at h
  · obtain ⟨⟨⟨⟩, s₁, h₁⟩, u, read, h⟩ := passes_bind h
    obtain ⟨_, _, h⟩ := passes_eat_bind h
    obtain ⟨_, rfl⟩ := passes_pure h
    unfold importClause at read
    obtain ⟨⟨⟨⟩, s₂, h₂⟩, _, h⟩ := passes_eat_bind read
    dsimp only at h
    split at h
    · obtain ⟨_, w, item, h⟩ := passes_bind h
      obtain ⟨_, rfl⟩ := passes_pure h
      exact allots_importItem hl outside item
    · obtain ⟨⟨⟨⟩, s₃, h₃⟩, w, items, h⟩ := passes_bind h
      obtain ⟨_, _, h⟩ := passes_eat_bind h
      obtain ⟨_, rfl⟩ := passes_pure h
      exact allots_importItems hl _ outside items
  · obtain ⟨_, rfl⟩ := passes_pure h
    exact .refl outside

theorem allots_moduleBody (last : (history setup root).getLast? = some z) {path : String}
    {id : ModuleId} (outside : s.blocks.stack = [])
    (h : (moduleBody load? path stream).PassesIn setup (history setup root) s id t) :
    s.Allots setup root z t := by
  unfold moduleBody at h
  obtain ⟨id', u, opened, h⟩ := passes_bind h
  obtain ⟨imports, v, imported, h⟩ := passes_bind h
  obtain ⟨rest, w, declared, h⟩ := passes_bind h
  obtain ⟨_, x, ended, h⟩ := passes_bind h
  obtain ⟨_, y, finished, h⟩ := passes_bind h
  obtain ⟨_, rfl⟩ := passes_pure h
  obtain ⟨_, rfl⟩ := yields_ofExcept.1 ended.yields
  have opens : s.Allots setup root z u := by
    cases opened.yields
    exact .of_same outside rfl rfl
  have imports := allots_optionalImports hl opens.outside imported
  have declares := allots_declarations last _ imports.outside declared
  have all := (opens.trans imports).trans declares
  cases finished.yields
  exact all.trans (.of_same all.outside rfl rfl)

theorem allotsModule_moduleFile (last : (history setup root).getLast? = some z) :
    AllotsModule setup root z (moduleFile load?) := by
  intro path s id t outside h
  obtain ⟨stream, w, -, read, rfl⟩ := passes_moduleFile h
  have enters : s.Allots setup root z
      (Session.enterFile { s with names := s.names.addWords stream } path.toText) :=
    .of_same outside rfl rfl
  have all := enters.trans (allots_moduleBody hl last enters.outside read)
  exact all.trans (.of_same all.outside rfl rfl)

end Imports

theorem allotsModule_readModule (last : (history setup root).getLast? = some z) (levels : Nat) :
    AllotsModule setup root z (readModule levels) := by
  induction levels with
  | zero => exact allotsModule_moduleFile nofun last
  | succ levels ih =>
    refine allotsModule_moduleFile (fun load hl => ?_) last
    cases hl
    exact ih

/-! ### Programs -/

theorem yields_linkPrototype {i : Ident} {slot : Nat}
    (h : (linkPrototype i slot).Yields setup s () t) : ∃ code, t = { s with code } := by
  unfold linkPrototype at h
  rw [yields_get] at h
  dsimp only at h
  split at h
  · exact absurd h not_yields_failInternal
  · rw [yields_read] at h
    split at h
    · cases h
    · split at h
      · cases h
      · unfold linkCall at h
        obtain ⟨_, u, ⟨⟩, h⟩ := yields_bind.1 h
        obtain ⟨_, v, ⟨⟩, h⟩ := yields_bind.1 h
        rw [yields_get] at h
        split at h
        · cases h
          exact ⟨_, rfl⟩
        · exact absurd h not_yields_failInternal

theorem yields_linkPrototypes (h : linkPrototypes.Yields setup s () t) :
    ∃ code, t = { s with code } := by
  unfold linkPrototypes at h
  rw [yields_get] at h
  generalize s.idents.toList = idents at h
  induction idents generalizing s with
  | nil =>
    obtain ⟨_, rfl⟩ := yields_pure.1 h
    exact ⟨_, rfl⟩
  | cons i idents ih =>
    obtain ⟨⟨⟩, u, first, more⟩ := yields_bind.1 h
    have linked : ∃ code, u = { s with code } := by
      dsimp only at first
      split at first
      · exact yields_linkPrototype first
      · obtain ⟨_, rfl⟩ := yields_pure.1 first
        exact ⟨_, rfl⟩
    obtain ⟨_, rfl⟩ := linked
    obtain ⟨code, rfl⟩ := ih more
    exact ⟨code, rfl⟩

theorem allots_program (last : (history setup root).getLast? = some z)
    (outside : s.blocks.stack = [])
    (h : (program root).PassesIn setup (history setup root) s () t) : s.Allots setup root z t := by
  unfold program at h
  obtain ⟨_, u, reserved, h⟩ := passes_bind h
  rw [passes_read] at h
  obtain ⟨id, v, read, h⟩ := passes_bind h
  have reserves : s.Allots setup root z u := by
    cases reserved.yields
    exact .of_same outside rfl rfl
  have reads := reserves.trans (allotsModule_readModule last _ _ _ _ _ reserves.outside read)
  split at h
  · obtain ⟨_, _, failed, _⟩ := passes_bind h
    exact absurd failed.yields not_yields_failInternal
  obtain ⟨_, w, checked, links⟩ := passes_bind h
  obtain rfl := yields_checkForwards checked.yields
  obtain ⟨_, x, linked, checks⟩ := passes_bind links
  obtain ⟨code, rfl⟩ := yields_linkPrototypes linked.yields
  rw [passes_get] at checks
  split at checks
  · cases checks.yields
  · obtain ⟨_, rfl⟩ := passes_pure checks
    exact reads.trans (.of_same reads.outside rfl rfl)

end Action

/-- No function is predeclared. -/
theorem predeclared_kind_ne : ∀ i ∈ Session.predeclaredIdents, i.kind ≠ .function := by
  decide

/-- In a program that compiles each function with a body has been read and has its frame. -/
theorem functions_of_compile {setup : Setup} {root : String} {z : Session}
    (h : compile setup root = .ok z) {f : IdentId} {i : Ident} {entry : Nat}
    (found : z.idents.get? f = some i) (body : i.payload = .function entry none) :
    HasFrame setup root z f i ∧ WasRead setup root f i entry := by
  have last := getLast?_history_of_compile h
  have valid := valid_of_mem_history (List.mem_of_getLast? last)
  have allots := Action.allots_program last rfl (passes_of_compile h)
  have carries := (valid.idents f i found).carries
  have kind : i.kind = .function := by
    unfold Ident.Carries at carries
    rw [body] at carries
    cases hk : i.kind <;> rw [hk] at carries <;> first | rfl | exact carries.elim
  refine allots.functions f i entry ?_ found kind body
  by_contra old
  have old := allots.gains.get?_eq (Nat.lt_of_not_le old) found (by rw [kind]; nofun)
  rw [← IdentTable.getElem?_toList] at old
  exact predeclared_kind_ne i (List.mem_of_getElem? old) kind

end FrontEnd
