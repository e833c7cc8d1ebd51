import FrontEnd.Proofs.History

/-!
Referential integrity. Whatever number a session stores, in whichever table, is the number of an
entry, so that no look-up goes astray and the front end never has to give up on itself.
-/

namespace FrontEnd

namespace Session

/-- The numbers that an identifier carries are numbers of entries. -/
structure HoldsIdent (s : Session) (i : Ident) : Prop where
  name : i.name ∈ s.names.texts
  type : i.type.index < s.types.size
  module : i.module.index < s.modules.size
  block : i.block.index < s.blocks.next
  receiver : ∀ r ∈ i.receiver?, r.index < s.types.size
  slot : ∀ slot, i.payload = .global slot → slot < s.globals.size

/-- The numbers that a type carries are numbers of entries. -/
structure HoldsKind (s : Session) (k : TypeKind) : Prop where
  refs : ∀ r ∈ k.refs, r.index < s.types.size
  names : ∀ name ∈ k.names, name ∈ s.names.texts
  forward : ∀ id, k = .forward (some id) → id.index < s.idents.size

/-- All numbers that are stored are numbers of entries, and all names are in the table of names. -/
structure InRange (s : Session) : Prop where
  kinds : ∀ k ∈ s.types.kinds, s.HoldsKind k
  pending : ∀ id ∈ s.types.pending, id.index < s.types.size
  idents : ∀ i ∈ s.idents.idents, s.HoldsIdent i
  globals : ∀ g ∈ s.globals, g.type.index < s.types.size ∧ g.name ∈ s.names.texts
  code : ∀ i ∈ s.code.instructions,
    (∀ r ∈ i.types, r.index < s.types.size) ∧ ∀ slot ∈ i.slots, slot < s.globals.size
  modules : ∀ m ∈ s.modules.modules,
    m.name ∈ s.names.texts ∧ ∀ id ∈ m.imports, id.index < s.modules.size
  unfinished : ∀ id ∈ s.modules.unfinished, id.index < s.modules.size
  module : s.blocks.module.index < s.modules.size
  blocks : ∀ b ∈ s.blocks.stack,
    b.id.index < s.blocks.next ∧ ∀ f ∈ b.function?, f.index < s.idents.size

/-- What can follow while the forward type `id` waits for its identifier: its name is declared, it is
given the identifier, or the file is left because the name cannot be declared. -/
inductive Awaits (s : Session) (id : TypeId) : Session → Prop
  | name (idents : IdentTable) : Awaits s id { s with idents }
  | bind (ident : IdentId) (known : ident.index < s.idents.size) :
      Awaits s id { s with types := s.types.bind id ident }
  | leaveFile (outer : Frame) : Awaits s id (s.leaveFile outer)

variable {s t : Session} {i : Ident}

theorem Valid.holdsKind (h : s.Valid ∅) (id : TypeId) : s.HoldsKind (s.types.kind id) where
  refs r hr := ((h.kinds id).refs r hr).has
  names := (h.kinds id).names
  forward ident hk := by
    obtain ⟨i, hi, _⟩ := h.forwards id ident hk
    exact IdentTable.lt_of_get?_eq_some hi

theorem Valid.holdsIdent (h : s.Valid ∅) {id : IdentId} (hi : s.idents.get? id = some i) :
    s.HoldsIdent i := by
  have valid := h.idents id i hi
  refine ⟨valid.name, valid.type.has, valid.module, valid.block,
    fun r hr => (valid.receiver r hr).has, fun slot hp => ?_⟩
  have carries := valid.carries
  unfold Ident.Carries at carries
  rw [hp] at carries
  split at carries
  · rename_i he
    cases he
  · rename_i he
    cases he
  · rename_i he
    cases he
  · rename_i he
    cases he
    obtain ⟨g, hg, _⟩ := carries
    exact (Array.getElem?_eq_some_iff.1 hg).1
  · rename_i he
    cases he
  · exact carries.elim

theorem Valid.inRange (h : s.Valid ∅) : s.InRange where
  kinds k hk := by
    obtain ⟨n, hn⟩ := Array.mem_iff_getElem?.1 hk
    have kind : s.types.kind ⟨n⟩ = k := by
      unfold TypeTable.kind
      rw [hn]
      rfl
    rw [← kind]
    exact h.holdsKind ⟨n⟩
  pending := h.pending
  idents i hi := by
    obtain ⟨n, hn⟩ := Array.mem_iff_getElem?.1 hi
    have hi : s.idents.get? ⟨n⟩ = some i := hn
    exact h.holdsIdent hi
  globals g hg := by
    obtain ⟨slot, hs⟩ := Array.mem_iff_getElem?.1 hg
    exact ⟨(h.globals slot g hs).type.has, (h.globals slot g hs).name⟩
  code i hi := ⟨fun r hr => ((h.code i hi).types r hr).has, (h.code i hi).slots⟩
  modules m hm := by
    obtain ⟨n, hn⟩ := Array.mem_iff_getElem?.1 hm
    exact ⟨(h.modules ⟨n⟩ m hn).name, (h.modules ⟨n⟩ m hn).imports⟩
  unfinished := h.unfinished
  module := h.module
  blocks b hb := by
    refine ⟨(h.blocks b hb).id, fun f hf => ?_⟩
    obtain ⟨i, hi, _⟩ := (h.blocks b hb).function f hf
    exact IdentTable.lt_of_get?_eq_some hi

theorem Change.awaits (h : s.Change t) (hs : s.Valid ∅) {id : TypeId}
    (hk : s.types.kind id = .forward none) : s.Awaits id t := by
  cases h with
  | step bound => exact absurd hk (bound id)
  | addType bound => exact absurd hk (bound id)
  | addField bound => exact absurd hk (bound id)
  | nameForward => exact .name _
  | @bind ident _ forward declared _ _ waiting =>
    have hi := hs.newest id hk
    have hf := hs.newest forward waiting
    have he : forward = id := TypeId.ext (by omega)
    subst he
    exact .bind ident (IdentTable.lt_of_get?_eq_some declared)
  | leaveFile => exact .leaveFile _

end Session

/-- Throughout a compilation all numbers are in range, a forward type is given its identifier before
anything else happens, and the compilation never fails with a fault of the front end itself. -/
theorem history_inRange (setup : Setup) (root : String) :
    (∀ s ∈ history setup root, s.InRange) ∧
      (history setup root).IsChain (fun s t => ∀ id, s.types.kind id = .forward none →
        id.index + 1 = s.types.size ∧ s.Awaits id t) ∧
      ∀ d, compile setup root = .error d → d.category ≠ .internal := by
  refine ⟨fun s hs => (valid_of_mem_history hs).inRange, ?_, fun d hd => isProper_of_compile hd⟩
  refine (isChain_history setup root).imp_of_mem_imp fun s t hs _ change id hk => ?_
  have valid := valid_of_mem_history hs
  exact ⟨valid.newest id hk, change.awaits valid hk⟩

end FrontEnd
