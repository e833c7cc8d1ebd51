import FrontEnd.Proofs.TypeExpression.Extends
import FrontEnd.Proofs.Forwards

/-!
What declarations and statements other than those of variables and functions add to a session. Types
and constants are declared in the current scope, where a name that waits for its declaration is
completed; values are computed or folded without declaring anything.
-/

namespace FrontEnd

/-- A type or a constant of the current scope. -/
structure Blocks.Names (b : Blocks) (i : Ident) : Prop where
  module : i.module = b.module
  block : i.block = b.current
  kind : i.kind = .type ∧ i.payload = .none ∨
    ∃ value, i.kind = .constant ∧ i.payload = .constant value

namespace Blocks

variable {b : Blocks} {i : Ident}

theorem HoldsType.names (h : b.HoldsType i) : b.Names i :=
  ⟨h.module, h.block, .inl ⟨h.kind, h.payload⟩⟩

theorem Names.kind_ne (h : b.Names i) : i.kind ≠ .var := by
  rcases h.kind with ⟨kind, _⟩ | ⟨_, kind, _⟩ <;> rw [kind] <;> nofun

theorem Names.payload_ne (h : b.Names i) (slot : Nat) : i.payload ≠ .global slot := by
  rcases h.kind with ⟨_, payload⟩ | ⟨_, _, payload⟩ <;> rw [payload] <;> nofun

end Blocks

namespace Session

variable {b s : Session}

/-! ### Names that wait for their declaration -/

/-- A name that waits in a scope without names of `b` has been used behind `b`. -/
theorem le_of_forwardOf? (valid : b.Valid ∅) (bound : b.Bound) (g : b.Grows s) (tracks : s.Tracks)
    (kinds : ∀ id : TypeId, id.index < b.types.size → s.types.kind id = b.types.kind id)
    (apart : ∀ id i, b.idents.get? id = some i → i.module = s.blocks.module →
      i.block ≠ s.blocks.current)
    {name : String} {id : IdentId} {forward : TypeId}
    (hf : Action.forwardOf? s name = some (id, forward)) : b.types.size ≤ forward.index := by
  by_contra old
  have old := Nat.lt_of_not_le old
  obtain ⟨i, ⟨found, ident, _, waits⟩, rfl⟩ := Action.forwardOf?_eq_some_iff.1 hf
  rw [find?_current] at found
  obtain ⟨i', ident', key⟩ := IdentTable.findNamed?_eq_some found
  cases ident.symm.trans ident'
  simp only [Ident.key, Prod.mk.injEq] at key
  have kind := kinds i.type old
  have waits' := waits
  rw [TypeTable.isForward_eq, kind] at waits'
  cases hk : b.types.kind i.type with
  | forward ident? =>
    cases ident? with
    | none => exact bound i.type hk
    | some other =>
      obtain ⟨j, hj, _, type⟩ := valid.forwards i.type other hk
      obtain ⟨exported, span, hj'⟩ := g.idents other j hj
      obtain rfl := tracks.unique other id _ i hj' ident type (by rw [type]; exact waits)
      cases ident.symm.trans hj'
      exact apart other j hj key.1 key.2.1
  | _ =>
    rw [hk] at waits'
    cases waits'

end Session

namespace Action

open Session

variable {setup : Setup} {root : String} {n : Nat} {P : Ident → Prop} {s t : Session}
  {stream : Stream}

/-! ### Types and constants -/

/-- A type is declared, or completed behind the first `n` types. -/
theorem extends_declareType {name : String} {exported : Bool} {type : TypeId} {span : Span}
    {id : IdentId} (valid : s.Valid ∅)
    (own : ∀ id forward, forwardOf? s name = some (id, forward) → n ≤ forward.index)
    (h : (declareType name exported type span).Yields setup s id t) :
    s.Extends n s.blocks.Names t := by
  unfold declareType at h
  rw [yields_get] at h
  split at h
  · rename_i other forward hf
    have hf : forwardOf? s name = some (other, forward) := by
      split at hf
      · cases hf
      · exact hf
    have behind := own other forward hf
    obtain ⟨i, ⟨found, ident, kind, waits⟩, rfl⟩ := forwardOf?_eq_some_iff.1 hf
    rw [find?_current] at found
    obtain ⟨i', ident', key⟩ := IdentTable.findNamed?_eq_some found
    cases ident.symm.trans ident'
    simp only [Ident.key, Prod.mk.injEq] at key
    have carries := (valid.idents other i ident).carries
    have names : s.blocks.Names i := by
      refine ⟨key.1, key.2.1, .inl ⟨kind, ?_⟩⟩
      unfold Ident.Carries at carries
      rw [kind] at carries
      cases hp : i.payload <;> rw [hp] at carries <;> first | rfl | exact carries.elim
    cases h
    refine ⟨rfl, Nat.le_of_eq (s.types.size_complete _ _).symm, fun id hi => ?_, ?_⟩
    · refine (TypeTable.kind_complete type id (TypeTable.index_lt_of_isForward waits)).trans ?_
      rw [if_neg]
      rintro rfl
      exact Nat.not_le_of_lt hi behind
    · exact .mark .refl ident kind names ⟨names.module, names.block, names.kind⟩
  · obtain ⟨_, _, ⟨⟩, declared⟩ := yields_bind.1 h
    exact extends_declare ⟨rfl, rfl, .inl ⟨rfl, rfl⟩⟩ declared

/-- What holds of the names that wait while the type of an item has been read. -/
def OwnsForwards (setup : Setup) (root : String) (n : Nat) (s : Session) : Prop :=
  ∀ u ∈ history setup root, s.Grows u → s.Extends n s.blocks.HoldsType u →
    ∀ name id forward, forwardOf? u name = some (id, forward) → n ≤ forward.index

theorem extends_typeItem {rest : Shorter stream} (hn : n ≤ s.types.size)
    (own : OwnsForwards setup root n s)
    (h : (typeItem stream).PassesIn setup (history setup root) s rest t) :
    s.Extends n s.blocks.Names t := by
  unfold typeItem at h
  obtain ⟨⟨declared, s₁, h₁⟩, _, h⟩ := passes_ofExcept_bind h
  obtain ⟨⟨⟨⟩, s₂, h₂⟩, _, h⟩ := passes_eat_bind h
  obtain ⟨⟨type, s₃, h₃⟩, u, read, h⟩ := passes_bind h
  obtain ⟨id, w, declares, h⟩ := passes_bind h
  obtain ⟨_, rfl⟩ := passes_pure h
  have reads := (extends_typeExpression _ ⟨hn, rfl⟩ read).1
  have adds := extends_declareType declares.valid
    (own u declares.first_mem read.grows reads declared.name) declares.yields
  rw [reads.blocks] at adds
  exact (reads.mono fun _ hi => hi.names).trans adds

theorem extends_constantItem {rest : Shorter stream} (hn : n ≤ s.types.size)
    (h : (constantItem stream).PassesIn setup (history setup root) s rest t) :
    s.Extends n s.blocks.Names t := by
  unfold constantItem at h
  obtain ⟨⟨declared, s₁, h₁⟩, _, h⟩ := passes_ofExcept_bind h
  obtain ⟨⟨⟨⟩, s₂, h₂⟩, _, h⟩ := passes_eat_bind h
  obtain ⟨⟨⟨value, type⟩, s₃, h₃⟩, u, read, h⟩ := passes_bind h
  obtain ⟨_, _, new, h⟩ := passes_bind h
  obtain ⟨id, w, declares, h⟩ := passes_bind h
  obtain ⟨_, rfl⟩ := passes_pure h
  cases new.yields
  have reads := extends_constantExpression (P := s.blocks.Names) hn read.yields
  refine reads.trans (extends_declare ⟨?_, ?_, .inr ⟨value, rfl, rfl⟩⟩ declares.yields)
  · exact congrArg Blocks.module reads.blocks
  · exact congrArg Blocks.current reads.blocks

/-! ### Values -/

theorem extends_emit {i : Instruction} {address : Nat} (h : (emit i).Yields setup s address t) :
    s.Extends n P t := by
  cases h
  exact extends_code ..

theorem extends_runtimeValue {target : TypeId} {rest : Kept stream} (hn : n ≤ s.types.size)
    (h : (runtimeValue target stream).Yields setup s rest t) : s.Extends n P t := by
  unfold runtimeValue at h
  obtain ⟨⟨value, s', hs⟩, u, read, h⟩ := yields_bind.1 h
  obtain ⟨source, w, widened, h⟩ := yields_bind.1 h
  obtain ⟨_, x, checked, h⟩ := yields_bind.1 h
  obtain ⟨_, rfl⟩ := yields_pure.1 h
  obtain ⟨_, rfl⟩ := yields_checkCompatible.1 checked
  obtain ⟨_, rfl⟩ := yields_widenOnStack.1 widened
  exact (extends_expression hn read).trans (extends_code ..)

theorem extends_store {target : TypeId} {rest : Kept stream} (hn : n ≤ s.types.size)
    (h : (store target stream).Yields setup s rest t) : s.Extends n P t := by
  unfold store at h
  obtain ⟨_, u, read, h⟩ := yields_bind.1 h
  obtain ⟨_, w, emitted, h⟩ := yields_bind.1 h
  obtain ⟨_, rfl⟩ := yields_pure.1 h
  exact (extends_runtimeValue hn read).trans (extends_emit emitted)

theorem extends_assignment {rest : Shorter stream} (hn : n ≤ s.types.size)
    (h : (assignment stream).PassesIn setup (history setup root) s rest t) : s.Extends n P t := by
  unfold assignment at h
  obtain ⟨⟨⟨id, i⟩, s₁, h₁⟩, _, h⟩ := passes_reference_bind h
  dsimp only at h
  split at h
  · exact absurd h not_passes_fail
  · obtain ⟨_, u, emitted, h⟩ := passes_bind h
    obtain ⟨_, _, h⟩ := passes_eat_bind h
    obtain ⟨_, w, stored, h⟩ := passes_bind h
    obtain ⟨_, rfl⟩ := passes_pure h
    have emits := extends_emit (n := n) (P := P) emitted.yields
    exact emits.trans (extends_store (Nat.le_trans hn emits.size) stored.yields)

theorem extends_returnedValue {signature : Signature} {result : TypeId} {rest : Kept stream}
    (hn : n ≤ s.types.size) (h : (returnedValue signature result stream).Yields setup s rest t) :
    s.Extends n P t := by
  unfold returnedValue at h
  split at h
  · exact extends_runtimeValue hn h
  · obtain ⟨_, u, address, h⟩ := yields_bind.1 h
    obtain ⟨_, w, load, h⟩ := yields_bind.1 h
    have emits := (extends_emit (n := n) (P := P) address).trans (extends_emit load)
    exact emits.trans (extends_store (Nat.le_trans hn emits.size) h)

theorem extends_optionalValue {signature : Signature} {span : Span} {rest : Kept stream}
    (hn : n ≤ s.types.size) (h : (optionalValue signature span stream).Yields setup s rest t) :
    s.Extends n P t := by
  unfold optionalValue at h
  simp only [fail_bind] at h
  split at h
  · split at h
    · obtain ⟨_, _, _, failed⟩ := yields_bind.1 h
      exact absurd failed not_yields_fail
    · obtain ⟨_, rfl⟩ := yields_pure.1 h
      exact .refl n P t
  · split at h
    · exact absurd h not_yields_fail
    · exact extends_returnedValue hn h

theorem yields_enclosingSignature {signature : Signature}
    (h : enclosingSignature.Yields setup s signature t) : t = s := by
  unfold enclosingSignature at h
  rw [yields_get] at h
  split at h
  · exact absurd h not_yields_failInternal
  · split at h
    · exact absurd h not_yields_failInternal
    · exact (yields_pure.1 h).2

theorem extends_returnStatement {rest : Shorter stream} (hn : n ≤ s.types.size)
    (h : (returnStatement stream).PassesIn setup (history setup root) s rest t) :
    s.Extends n P t := by
  unfold returnStatement at h
  obtain ⟨⟨⟨⟩, s₁, h₁⟩, _, h⟩ := passes_eat_bind h
  obtain ⟨signature, u, enclosing, h⟩ := passes_bind h
  obtain ⟨_, w, valued, h⟩ := passes_bind h
  obtain ⟨_, x, emitted, h⟩ := passes_bind h
  obtain ⟨_, rfl⟩ := passes_pure h
  obtain rfl := yields_enclosingSignature enclosing.yields
  exact (extends_optionalValue hn valued.yields).trans (extends_emit emitted.yields)

/-- A folded value is kept with its variable. -/
theorem extends_fold {target : TypeId} {slot n : Nat} {P : Ident → Prop} {rest : Kept stream}
    (hn : n ≤ s.types.size) (h : (fold target slot stream).Yields setup s rest t) :
    ∃ u value, s.Extends n P u ∧ t = u.withValue slot value := by
  unfold fold at h
  obtain ⟨⟨⟨value, source⟩, s', hs⟩, u, read, h⟩ := yields_bind.1 h
  rw [yields_get] at h
  obtain ⟨_, w, checked, h⟩ := yields_bind.1 h
  obtain ⟨_, x, kept, h⟩ := yields_bind.1 h
  obtain ⟨_, rfl⟩ := yields_pure.1 h
  obtain ⟨_, rfl⟩ := yields_checkCompatible.1 checked
  obtain ⟨_, rfl⟩ := of_yields_setGlobal kept
  exact ⟨_, _, extends_constantExpression hn read, rfl⟩

theorem extends_inferredValue {n : Nat} {P : Ident → Prop} {rest : Rest stream TypedValue}
    (hn : n ≤ s.types.size) (h : (inferredValue stream).Yields setup s rest t) :
    s.Extends n P t := by
  unfold inferredValue at h
  rw [yields_get] at h
  split at h
  · obtain ⟨_, u, read, h⟩ := yields_bind.1 h
    obtain ⟨_, rfl⟩ := yields_pure.1 h
    exact extends_constantExpression hn read
  · obtain ⟨_, u, read, h⟩ := yields_bind.1 h
    obtain ⟨_, rfl⟩ := yields_pure.1 h
    exact extends_expression hn read

/-! ### Groups -/

theorem passes_kept_rest {run : List Session} {action : Action (Shorter stream)}
    {rest : Kept stream} (h : (kept action).PassesIn setup run s rest t) :
    ∃ past, rest = past.rest ∧ action.PassesIn setup run s past t := by
  unfold kept at h
  obtain ⟨past, _, done, last⟩ := passes_bind h
  obtain ⟨rfl, rfl⟩ := passes_pure last
  exact ⟨past, rfl, done⟩

theorem passes_kept {run : List Session} {action : Action (Shorter stream)} {rest : Kept stream}
    (h : (kept action).PassesIn setup run s rest t) :
    ∃ past, action.PassesIn setup run s past t := by
  obtain ⟨past, _, done⟩ := passes_kept_rest h
  exact ⟨past, done⟩

theorem passes_typeDeclaration {run : List Session} {rest : Shorter stream}
    (h : (typeDeclaration stream).PassesIn setup run s rest t) :
    ∃ rest, (keywordGroup .typeWord typeItem stream).PassesIn setup run s rest t := by
  unfold typeDeclaration at h
  obtain ⟨rest', u, read, h⟩ := passes_bind h
  split at h
  · obtain ⟨_, w, checked, h⟩ := passes_bind h
    obtain ⟨_, rfl⟩ := passes_pure h
    obtain rfl := yields_checkForwards checked.yields
    exact ⟨rest', read⟩
  · obtain ⟨_, rfl⟩ := passes_pure h
    exact ⟨rest', read⟩

end Action

end FrontEnd
