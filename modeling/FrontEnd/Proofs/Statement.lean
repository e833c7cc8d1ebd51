import FrontEnd.Proofs.Declaration
import FrontEnd.Statement

/-!
Statements and blocks of a function. Blocks open and close in pairs, so a statement leaves the scopes
as they were, and all code that it emits is appended and plain.
-/

namespace FrontEnd

/-- The parts of a session that the body of a function changes. -/
def bodyParts : Set Part :=
  {part | part ≠ .functions ∧ part ≠ .files}

theorem itemParts_subset_bodyParts (inside : Bool) : itemParts inside ⊆ bodyParts := by
  rintro part (rfl | rfl | rfl | ⟨rfl, _⟩) <;> exact ⟨nofun, nofun⟩

theorem code_subset_bodyParts : ({.code} : Set Part) ⊆ bodyParts :=
  code_subset_itemParts.trans (itemParts_subset_bodyParts true)

namespace Session

/-- A function is being read. -/
def InFunction (s : Session) : Prop := s.blocks.function?.isSome = true

theorem InFunction.scope {s t : Session} (h : s.InFunction)
    (hs : t.blocks.scope = s.blocks.scope) : t.InFunction := by
  unfold InFunction
  rw [Blocks.function?_eq hs]
  exact h

theorem InFunction.at_true {s : Session} (h : s.InFunction) : s.At true := by
  unfold InFunction Blocks.function? at h
  unfold At Blocks.atModuleScope
  cases hs : s.blocks.stack with
  | nil =>
    rw [hs] at h
    cases h
  | cons b rest => rfl

end Session

namespace Action

open Session

variable {setup : Setup} {s : Session} {stream : Stream} {α : Type}

/-! ### Returning -/

theorem signature?_of_kind {t : TypeTable} {id : TypeId} {signature : Signature}
    (h : t.kind id = .function signature) : t.signature? id = some signature := by
  unfold TypeTable.signature?
  rw [h]

theorem meets_enclosingSignature {f : Signature → Action α} {may : Set Part}
    {Q : α → Session → Prop} (h : s.Ready ∅) (hin : s.InFunction)
    (hf : ∀ signature, (TypeKind.function signature).Valid ∅ s → s.Encloses signature →
      (f signature).Meets setup may ∅ Q s) :
    (enclosingSignature >>= f).Meets setup may ∅ Q s := by
  unfold enclosingSignature
  rw [bind_assoc, meets_get]
  obtain ⟨id, hid⟩ := Option.isSome_iff_exists.1 hin
  obtain ⟨b, hb, hfun⟩ := List.exists_of_findSome?_eq_some hid
  obtain ⟨i, hi, _, signature, hs⟩ := (h.blocks b hb).function id hfun
  rw [hid]
  dsimp only
  rw [hi, Option.bind_some, signature?_of_kind hs]
  have valid := h.kinds i.type
  rw [hs] at valid
  exact hf signature valid ⟨id, i, hid, hi, hs⟩

/-- A value is stored at the address that a parameter holds. -/
theorem meets_storeThrough {parameter : Parameter} {result : TypeId} (h : s.Ready ∅)
    (pointer : s.Usable ∅ parameter.type) (usable : s.Usable ∅ result) (settles : s.Settles result) :
    (emit (.localAddress parameter.offset) >>= fun _ => emit (.load parameter.type) >>= fun _ =>
      store result stream).Meets setup {.code} ∅ (fun _ t => s.Emits t fun types code =>
        ∃ value, types.Supplies result value ∧
          code = [.localAddress parameter.offset, .load parameter.type] ++ value ++ [.store result])
      s := by
  have address : (emit (.localAddress parameter.offset)).Meets setup {.code} ∅ _ s :=
    meets_emitTypes h nofun rfl rfl
  refine address.bind fun _ t ht e addressed => ?_
  have types (r : TypeId) (hr : r ∈ (Instruction.load parameter.type).types) : t.Usable ∅ r := by
    rw [List.mem_singleton.1 hr]
    exact pointer.evolves e
  have load : (emit (.load parameter.type)).Meets setup {.code} ∅ _ t :=
    meets_emitTypes ht types rfl rfl
  refine load.bind fun _ u hu e' loaded => ?_
  have both := e.trans e'
  refine (meets_store hu (usable.evolves both) (both.fixes.settles settles)).imp
    fun _ v _ e'' stored => ?_
  have pointed : s.Emits u fun _ code =>
      code = [.localAddress parameter.offset, .load parameter.type] :=
    addressed.append e'.fixes loaded fun _ _ _ hc hm => by rw [hc, hm]; rfl
  refine pointed.append e''.fixes stored fun _ front code hf hc => ?_
  obtain ⟨value, supplies, rfl⟩ := hc
  exact ⟨value, supplies, by rw [hf, List.append_assoc]⟩

/-- A hidden parameter is told by its name, and a structured value is stored through it. -/
theorem meets_returnedValue {signature : Signature} {result : TypeId} (h : s.Ready ∅)
    (hs : (TypeKind.function signature).Valid ∅ s) (he : s.Encloses signature)
    (returns : signature.result? = some result) (hv : result ≠ .void) :
    (returnedValue signature result stream).Meets setup {.code} ∅ (fun _ t =>
      s.InBody signature → s.Emits t (·.Hands signature ·)) s := by
  obtain ⟨id, hk⟩ := he.kind
  have settles := h.settles_result hk returns
  have usable : s.Usable ∅ result :=
    hs.refs _ (List.mem_append_right _ (List.mem_of_mem_head? returns))
  have tells {t : Session} (hb : s.InBody signature) (f : s.Fixes t) :
      t.types.TellsHidden signature result := by
    obtain ⟨other, returns', reserves⟩ := hb.returns
    cases returns.symm.trans returns'.listed
    exact TypeTable.tellsHidden_of_reservesName (f.returns returns').hidden
      ((f.reservesName settles).2 (reserves hv))
  unfold returnedValue
  split
  · rename_i none
    refine (meets_runtimeValue h usable settles).imp fun _ t _ e supplied hb => ?_
    obtain ⟨code, appends, supplies⟩ := supplied
    refine ⟨code, appends, fun u f => .value returns hv ?_ (supplies u f)⟩
    have plain := tells hb (e.fixes.trans f)
    rw [TypeTable.TellsHidden, none] at plain
    exact plain
  · rename_i parameter hp
    have mem : parameter ∈ signature.parameters := by
      obtain ⟨hl, _⟩ := Option.filter_eq_some_iff.1 hp
      exact List.mem_of_getLast? hl
    have pointer : s.Usable ∅ parameter.type :=
      hs.refs _ (List.mem_append_left _ (List.mem_map_of_mem mem))
    refine (meets_storeThrough h pointer usable settles).imp fun _ t _ e stored hb => ?_
    obtain ⟨code, appends, stores⟩ := stored
    refine ⟨code, appends, fun u f => ?_⟩
    obtain ⟨value, supplies, rfl⟩ := stores u f
    have hides := tells hb (e.fixes.trans f)
    rw [TypeTable.TellsHidden, hp] at hides
    exact .stored returns hides supplies

theorem meets_optionalValue {signature : Signature} {span : Span} (h : s.Ready ∅)
    (hs : (TypeKind.function signature).Valid ∅ s) (he : s.Encloses signature) :
    (optionalValue signature span stream).Meets setup {.code} ∅ (fun _ t =>
      s.InBody signature → s.Emits t (·.Hands signature ·)) s := by
  unfold optionalValue
  simp only [fail_bind]
  split
  · split
    · rw [meets_typeName]
      exact meets_fail rfl
    · rename_i void
      refine meets_pure h fun hb => emits_nil rfl fun _ => .nothing ?_
      obtain ⟨result, returns, _⟩ := hb.returns
      rw [returns.listed] at void ⊢
      exact congrArg some (not_not.1 void)
  · split
    · exact meets_fail rfl
    · rename_i value
      refine meets_returnedValue h hs he ?_ value
      cases hr : signature.result? with
      | none =>
        rw [hr] at value
        exact absurd rfl value
      | some result => rfl

theorem meets_returnStatement (h : s.Ready ∅) (hin : s.InFunction) :
    (returnStatement stream).Meets setup {.code} ∅ (fun _ t =>
      ∀ signature, s.InBody signature → s.Emits t (·.Phrases signature ·)) s := by
  unfold returnStatement
  apply meets_eat
  rintro ⟨⟨⟩, s₁, h₁⟩
  refine meets_enclosingSignature h hin fun signature hs he => ?_
  refine (meets_optionalValue h hs he).bind fun rest t ht _ handed => ?_
  have returned : (emit (.leave signature.parametersSize)).Meets setup {.code} ∅ _ t :=
    meets_emitTypes ht nofun rfl rfl
  refine returned.bind fun _ u hu e left => meets_pure hu fun signature' hb => ?_
  obtain rfl := he.unique hb.encloses
  refine (handed hb).append e.fixes left fun types code _ hands hm => ?_
  rw [hm, ← List.append_nil (code ++ _)]
  exact .returns hands .nil

/-! ### Blocks -/

theorem meets_enter {function? : Option IdentId} {may : Set Part} (h : s.Ready ∅)
    (hm : .scopes ∈ may) (hf : ∀ f ∈ function?, s.IsFunction f) :
    (enter function?).Meets setup may ∅
      (fun _ t => t = { s with blocks := s.blocks.enter function? }) s := by
  refine meets_write h (.enter hf) ?_ rfl
  exact { Keeps.refl may s with
    frames := fun _ hn => absurd hm hn
    scopes := fun hn => absurd hm hn }

theorem meets_leave {may : Set Part} (h : s.Ready ∅) (hm : .scopes ∈ may) :
    leave.Meets setup may ∅ (fun _ t => t = { s with blocks := s.blocks.leave }) s := by
  refine meets_write h .leave ?_ rfl
  exact { Keeps.refl may s with
    frames := fun _ hn => absurd hm hn
    scopes := fun hn => absurd hm hn }

/-- The scopes inside a block are those around it when the block is left. -/
theorem scope_leave {s t u : Session} {function? : Option IdentId}
    (ht : t.blocks = s.blocks.enter function?) (hu : u.blocks.scope = t.blocks.scope) :
    u.blocks.leave.scope = s.blocks.scope := by
  have hs : u.blocks.stack.map Block.scope = (s.blocks.enter function?).stack.map Block.scope := by
    rw [← ht]
    exact congrArg Prod.snd hu
  have hm : u.blocks.module = s.blocks.module := by
    have hm := congrArg Prod.fst hu
    rw [ht] at hm
    exact hm
  refine Prod.ext hm ?_
  show (u.blocks.stack.drop 1).map Block.scope = _
  rw [List.map_drop, hs]
  rfl

theorem meets_kept {action : Action (Shorter stream)}
    (ha : action.Meets setup bodyParts ∅ s.Continues s) :
    (kept action).Meets setup bodyParts ∅ s.Continues s := by
  unfold kept
  exact ha.bind fun _ t ht _ hs => meets_pure ht ⟨hs.scope, hs.phrases⟩

theorem meets_item {item : (s : Stream) → Action (Shorter s)} (hitem : Declares setup true item)
    (h : s.Ready ∅) (hin : s.InFunction) (hk : s.Knows stream) :
    (kept (item stream)).Meets setup bodyParts ∅ s.Continues s := by
  refine meets_kept ((hitem stream s h hin.at_true hk).mono (itemParts_subset_bodyParts true)
    (Set.Subset.refl _) fun _ _ _ e assigned => assigned.continues e.scope)

theorem meets_codeStatement {action : Action (Shorter stream)}
    (ha : action.Meets setup {.code} ∅ (fun _ t =>
      ∀ signature, s.InBody signature → s.Emits t (·.Phrases signature ·)) s) :
    (kept action).Meets setup bodyParts ∅ s.Continues s :=
  meets_kept (ha.mono code_subset_bodyParts (Set.Subset.refl _) fun _ _ _ e phrases =>
    ⟨e.keeps.scope nofun nofun, phrases⟩)

mutual

theorem meets_statement (stream : Stream) (s : Session) (h : s.Ready ∅) (hin : s.InFunction)
    (hk : s.Knows stream) :
    (statement stream).Meets setup bodyParts ∅ s.Continues s := by
  rw [statement]
  split
  · exact meets_pure h (s.continues_refl _)
  · exact meets_pure h (s.continues_refl _)
  · exact meets_item declares_typeDeclaration h hin hk
  · exact meets_item declares_constantDeclaration h hin hk
  · exact meets_item declares_variableDeclaration h hin hk
  · exact meets_fail rfl
  · exact meets_kept (meets_block stream s h hin hk)
  · exact meets_codeStatement (meets_returnStatement h hin)
  · split
    · exact meets_item declares_shortDeclaration h hin hk
    · exact meets_codeStatement ((meets_assignment h).imp fun _ _ _ _ assigned signature _ =>
        assigned.imp fun _ _ p => p signature)
  · exact meets_fail rfl
termination_by 4 * stream.size + 2

theorem meets_statements (stream : Stream) (s : Session) (h : s.Ready ∅) (hin : s.InFunction)
    (hk : s.Knows stream) :
    (statements stream).Meets setup bodyParts ∅ s.Continues s := by
  rw [statements]
  apply (meets_statement stream s h hin hk).bind
  rintro ⟨⟨⟩, s₁, h₁⟩ t ht e hs
  dsimp only
  split
  · exact meets_pure ht ⟨hs.scope, hs.phrases⟩
  · rename_i semicolon _
    obtain ⟨_, s₂, h₂⟩ := semicolon
    have h₂ := h₂.of_within h₁
    have hlt := h₂.2
    have hk := (hk.behind h₂).evolves e
    refine (meets_statements s₂ t ht (hin.scope hs.scope) hk).bind fun _ u hu e' hs' => ?_
    have both := hs.trans e hs' e'
    exact meets_pure hu ⟨both.scope, both.phrases⟩
termination_by 4 * stream.size + 3

theorem meets_blockBody (stream : Stream) (s : Session) (h : s.Ready ∅) (hin : s.InFunction)
    (hk : s.Knows stream) :
    (blockBody stream).Meets setup bodyParts ∅ s.Continues s := by
  rw [blockBody]
  apply meets_eat
  rintro ⟨⟨⟩, s₁, h₁⟩
  have hlt := h₁.2
  refine (meets_statements s₁ s h hin (hk.behind h₁)).bind fun _ t ht _ hs => ?_
  exact meets_eat fun _ => meets_pure ht ⟨hs.scope, hs.phrases⟩
termination_by 4 * stream.size

theorem meets_block (stream : Stream) (s : Session) (h : s.Ready ∅) (hin : s.InFunction)
    (hk : s.Knows stream) :
    (block stream).Meets setup bodyParts ∅ s.Continues s := by
  rw [block]
  have hm : Part.scopes ∈ bodyParts := ⟨nofun, nofun⟩
  refine (meets_enter h hm (fun _ hf => absurd hf (Option.not_mem_none _))).bind fun _ t ht e hb => ?_
  have hin' : t.InFunction := by
    rw [hb]
    exact hin
  refine (meets_blockBody stream t ht hin' (hk.evolves e)).bind fun rest u hu e' hs => ?_
  refine (meets_leave hu hm).bind fun _ v hv e'' hl => ?_
  refine meets_pure hv ⟨?_, fun signature hb' => ?_⟩
  · rw [hl]
    exact scope_leave (congrArg Session.blocks hb) hs.scope
  · -- A block inside a function belongs to the same function.
    have inside : t.InBody signature := by
      refine hb'.fixes e.fixes ?_
      obtain ⟨id, i, hf, hi, hk⟩ := hb'.encloses
      rw [hb]
      exact ⟨id, i, hf, hi, hk⟩
    have entered : s.Emits t fun _ code => code = [] := emits_nil (by rw [hb]) fun _ => rfl
    have left : u.Emits v fun _ code => code = [] := emits_nil (by rw [hl]) fun _ => rfl
    refine (entered.append e'.fixes (hs.phrases signature inside) (Q := (·.Phrases signature ·))
      fun _ _ _ hn p => by rw [hn]; exact p).append e''.fixes left fun _ _ _ p hn => ?_
    rw [hn, List.append_nil]
    exact p
termination_by 4 * stream.size + 1

end

end Action

end FrontEnd
