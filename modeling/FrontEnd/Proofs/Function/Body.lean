import FrontEnd.Proofs.Statement.Populates
import FrontEnd.Proofs.TypeExpression.Offsets

/-!
Functions of a module. A function is declared with a type of its own; what its body declares stays
in its blocks and lies in its frame.
-/

namespace FrontEnd

namespace Session

variable {s t u z : Session}

/-- A function's body has been read. Names were declared in its blocks only, and its variables lie
one behind the other, the parameters first. -/
structure Embodies (types : TypeTable) (signature : Signature) (s t : Session) : Prop where
  scope : t.blocks.scope = s.blocks.scope
  kinds : ∀ id : TypeId, id.index < s.types.size → t.types.kind id = s.types.kind id
  idents : s.idents.Gains (·.Inner s.blocks.module) t.idents
  globals : t.globals = s.globals
  modules : t.modules = s.modules
  row : ∃ size, types.Stacks 0 (t.idents.variablesFrom s.idents.size) size
  parameters : ∃ parameters own, t.idents.variablesFrom s.idents.size = parameters ++ own ∧
    parameters.map (fun i => (i.name, i.type)) =
      signature.parameters.map fun p => (p.name, p.type)

end Session

namespace Action

open Session

variable {setup : Setup} {root : String} {s t z : Session} {stream : Stream}

/-! ### Bodies -/

/-- A block is opened when every forward type has its identifier. -/
theorem bound_of_enter {function? : Option IdentId}
    (h : (enter function?).PassesIn setup (history setup root) s ⟨⟩ t) : s.Bound := by
  have ht : t = { s with blocks := s.blocks.enter function? } := by
    cases h.yields
    rfl
  have change : s.Change t := by
    have within : s :: [t] <:+: history setup root := by
      rw [ht]
      exact h.within
    exact (List.isChain_cons_cons.1 (isChain_part within)).1
  have entered : t.blocks.next = s.blocks.next + 1 := congrArg (·.blocks.next) ht
  have next : s.blocks.next ≠ s.blocks.next + 1 := Nat.ne_of_lt (Nat.lt_succ_self _)
  clear ht h
  cases change with
  | step bound => exact bound
  | _ => exact absurd entered next

theorem yields_prepareEntry {i : Ident} {signature : Signature}
    (h : (prepareEntry i signature).Yields setup s ⟨⟩ t) :
    ∃ code : Code, code.size = s.code.size ∧ t = { s with code } := by
  unfold prepareEntry at h
  rw [yields_read, yields_get] at h
  split at h
  · unfold defineEntry at h
    simp only [fail_bind] at h
    split at h
    · cases h
    · rw [yields_get] at h
      split at h
      · exact absurd h not_yields_failInternal
      · rename_i code patched
        cases h
        obtain ⟨_, rfl⟩ := patch?_eq_some patched
        refine ⟨_, ?_, rfl⟩
        exact Array.size_setIfInBounds
  · obtain ⟨_, rfl⟩ := yields_pure.1 h
    exact ⟨_, rfl, rfl⟩

/-- The body of a function of a module that is being read. -/
theorem embodies_functionBody (last : (history setup root).getLast? = some z) {id : IdentId}
    {i : Ident} {signature : Signature} {rest : Shorter stream} (outside : s.blocks.stack = [])
    (h : (functionBody id i signature stream).PassesIn setup (history setup root) s rest t) :
    s.Embodies z.types signature t := by
  unfold functionBody at h
  obtain ⟨⟨⟩, u, prepared, h⟩ := passes_bind h
  rw [passes_get] at h
  obtain ⟨⟨⟩, v, placed, h⟩ := passes_bind h
  obtain ⟨⟨⟩, w, entered, h⟩ := passes_bind h
  obtain ⟨rest', x, read, h⟩ := passes_bind h
  obtain ⟨_, y, emitted, h⟩ := passes_bind h
  obtain ⟨⟨⟩, y', left, h⟩ := passes_bind h
  obtain ⟨⟨⟩, y'', back, h⟩ := passes_bind h
  obtain ⟨_, rfl⟩ := passes_pure h
  obtain ⟨code, _, rfl⟩ := yields_prepareEntry prepared.yields
  cases placed.yields
  have bound := bound_of_enter entered
  have valid := entered.valid
  have grows := entered.grows
  cases entered.yields
  have opened : Opened _ _ :=
    { valid, bound, grows
      kinds := fun _ _ => rfl
      blocks := by
        rintro block (_ | ⟨_, hb⟩)
        · exact Nat.le_refl _
        · rw [outside] at hb
          cases hb
      function := rfl }
  obtain ⟨populates, parameters⟩ := populates_functionBlock last opened read
  have scope := populates.scope
  cases emitted.yields
  cases left.yields
  cases back.yields
  exact
    { scope := scope_leave rfl scope
      kinds := populates.kinds
      idents := populates.idents
      globals := populates.globals
      modules := populates.modules
      row := ⟨_, populates.row⟩
      parameters }

/-! ### Heads -/

theorem extends_optionalReceiver {b : Blocks} {n : Nat}
    {rest : Rest stream (Option TypeId × Signature)} (hs : s.Reads n b)
    (h : (optionalReceiver stream).PassesIn setup (history setup root) s rest t) :
    s.Extends n b.HoldsType t ∧ rest.value.2.Offsets t.types := by
  unfold optionalReceiver at h
  split at h
  · obtain ⟨past, u, read, h⟩ := passes_bind h
    have offsets := offsets_receiver read
    obtain ⟨rfl, rfl⟩ := passes_pure h
    refine ⟨?_, offsets⟩
    unfold receiver at read
    obtain ⟨⟨⟨⟩, s₁, h₁⟩, _, h⟩ := passes_eat_bind read
    obtain ⟨⟨name, s₂, h₂⟩, _, h⟩ := passes_eatName_bind h
    obtain ⟨⟨⟨⟩, s₃, h₃⟩, _, h⟩ := passes_eat_bind h
    obtain ⟨⟨type, s₄, h₄⟩, v, typed, h⟩ := passes_bind h
    dsimp only at h
    rw [passes_get] at h
    split at h
    · exact absurd h not_passes_fail
    · obtain ⟨⟨⟨⟩, s₅, h₅⟩, _, h⟩ := passes_eat_bind h
      obtain ⟨_, rfl⟩ := passes_pure h
      exact (extends_typeExpression _ hs typed).1
  · obtain ⟨rfl, rfl⟩ := passes_pure h
    exact ⟨.refl .., .of_nil rfl rfl⟩

theorem yields_checkMethodName {base : TypeId} {name : String} {span : Span}
    (h : (checkMethodName base name span).Yields setup s () t) : t = s := by
  unfold checkMethodName at h
  simp only [fail_bind] at h
  rw [yields_get] at h
  split at h
  · exact absurd h not_yields_fail
  · split at h
    · exact absurd h not_yields_fail
    · exact (yields_pure.1 h).2

theorem passes_functionName_bind {α : Type} {run : List Session} {receiver? : Option TypeId}
    {f : Past stream String → Action α} {v : α}
    (h : (functionName receiver? stream >>= f).PassesIn setup run s v t) :
    ∃ past, stream.name? = some past ∧ (f past).PassesIn setup run s v t := by
  unfold functionName at h
  rw [bind_assoc] at h
  obtain ⟨past, known, h⟩ := passes_eatName_bind h
  refine ⟨past, known, ?_⟩
  split at h
  · rw [bind_assoc] at h
    obtain ⟨_, u, checked, next⟩ := passes_bind h
    rw [yields_checkMethodName checked.yields] at next
    exact next
  · exact h

/-- A function is declared with a type of its own. -/
theorem yields_declareFunction {name : String} {exported : Bool} {receiver? : Option TypeId}
    {signature : Signature} {hasBody : Bool} {span : Span} {id : IdentId} {i : Ident}
    (h : (declareFunction name exported receiver? signature hasBody span).Yields setup s
      (id, i) t) :
    id = ⟨s.idents.size⟩ ∧ i = { s.ident name .function exported ⟨s.types.size⟩
        (.function s.code.size (if hasBody then none else some s.code.size)) span with receiver? } ∧
      t = { s with
        types := (s.types.add (.function signature)).2, idents := ⟨s.idents.idents.push i⟩ } := by
  unfold declareFunction at h
  obtain ⟨type, u, added, h⟩ := yields_bind.1 h
  obtain ⟨rfl, rfl⟩ := yields_addType added
  rw [yields_get] at h
  obtain ⟨_, _, ⟨⟩, h⟩ := yields_bind.1 h
  obtain ⟨id', w, declared, h⟩ := yields_bind.1 h
  obtain ⟨he, rfl⟩ := yields_pure.1 h
  cases he
  obtain ⟨_, table, added, rfl⟩ := yields_declare declared
  obtain ⟨rfl, rfl, _⟩ := IdentTable.insert?_eq_some added
  exact ⟨rfl, rfl, rfl⟩

end Action

end FrontEnd
