import FrontEnd.Proofs.Expression.Folding
import FrontEnd.Proofs.History

/-!
Initial values. A value that is folded at module scope is the one that the code emitted for the same
words would compute, and what code can be emitted for folds as well, unless it reads a variable or a
fold fails.
-/

namespace FrontEnd

/-- The session in which the global variable at `slot` has got its value. -/
def Session.withValue (s : Session) (slot : Nat) (value : Constant) : Session :=
  { s with globals := s.globals.modify slot fun g => { g with value? := some value } }

/-- The tree that stands at the beginning of `stream`. -/
def Session.treeAt (s : Session) (stream : Stream) : Expression :=
  (Expression.read s.isModule stream).value

/-- What is left of `stream` behind the tree at its beginning. -/
def Session.behindTree (s : Session) (stream : Stream) : Kept stream :=
  ⟨(), (Expression.read s.isModule stream).stream, (Expression.read s.isModule stream).le⟩

/-- Turning a constant into a real is part of its value. -/
theorem widened_eq_widenConstant {types : TypeTable} {target type : TypeId} {k : Constant}
    (hk : k.HasKind (types.kind type)) :
    TypedValue.widened types target ⟨type, some k⟩ =
      ⟨(types.widenConstant target k type).2, some (types.widenConstant target k type).1⟩ := by
  unfold TypedValue.widened TypeTable.widenConstant
  by_cases hw : types.widens target type = true
  · obtain ⟨_, hi⟩ := Bool.and_eq_true_iff.1 hw
    obtain ⟨n, rfl⟩ := (TypeTable.hasKind_integer hi).1 hk
    simp [hw, Constant.toReal?]
  · simp [hw]

/-- The type of a value where `target` is expected does not depend on the value. -/
theorem type_widened {types : TypeTable} {target : TypeId} {v w : TypedValue}
    (h : v.type = w.type) : (v.widened types target).type = (w.widened types target).type := by
  unfold TypedValue.widened
  rw [h]
  split
  · rfl
  · exact h

namespace Action

variable {setup : Setup} {s t u : Session} {target type : TypeId} {slot : Nat} {stream : Stream}
  {rest : Kept stream} {v w : TypedValue} {k : Constant}

/-! ### What the two ways of giving a value need -/

theorem yields_setGlobal (h : slot < s.globals.size) (value : Constant) :
    (setGlobal slot value).Yields setup s () (s.withValue slot value) := by
  unfold setGlobal
  rw [yields_get, if_pos h]
  rfl

theorem of_yields_setGlobal {value : Constant} {x : Unit}
    (h : (setGlobal slot value).Yields setup s x t) :
    slot < s.globals.size ∧ t = s.withValue slot value := by
  unfold setGlobal at h
  rw [yields_get] at h
  split at h
  · rename_i hs
    cases h
    exact ⟨hs, rfl⟩
  · exact absurd h not_yields_failInternal

theorem yields_constantExpression {r : Rest stream (Constant × TypeId)} :
    (constantExpression stream).Yields setup s r t ↔
      ((s.treeAt stream).evaluate .constant).Yields setup s ⟨r.value.2, some r.value.1⟩ t ∧
        r = ⟨r.value, (s.behindTree stream).stream, (s.behindTree stream).le⟩ := by
  constructor
  · intro h
    obtain ⟨read, u, evaluated, known⟩ := yields_bind.1 h
    unfold expression at evaluated
    rw [yields_get] at evaluated
    obtain ⟨v, u', evaluated, done⟩ := yields_bind.1 evaluated
    obtain ⟨rfl, rfl⟩ := yields_pure.1 done
    obtain ⟨type, constant?⟩ := v
    cases constant? with
    | none => exact absurd known not_yields_failInternal
    | some k =>
      obtain ⟨rfl, rfl⟩ := yields_pure.1 known
      exact ⟨evaluated, rfl⟩
  · rintro ⟨evaluated, hr⟩
    rw [hr]
    unfold constantExpression
    have read : (expression .constant stream).Yields setup s
        ⟨⟨r.value.2, some r.value.1⟩, (s.behindTree stream).stream, (s.behindTree stream).le⟩ t := by
      unfold expression
      rw [yields_get]
      exact yields_bind.2 ⟨_, t, evaluated, yields_pure.2 ⟨rfl, rfl⟩⟩
    exact yields_bind.2 ⟨_, t, read, yields_pure.2 ⟨rfl, rfl⟩⟩

/-- A folded value is turned into a real, checked against the type of its variable and kept. -/
theorem yields_fold (g : s.Grounded ∅) : (fold target slot stream).Yields setup s rest t ↔
    ∃ type k value u, ((s.treeAt stream).evaluate .constant).Yields setup s ⟨type, some k⟩ u ∧
      (TypedValue.widened u.types target ⟨type, some k⟩).constant? = some value ∧
      u.types.compatible target (TypedValue.widened u.types target ⟨type, some k⟩).type = true ∧
      slot < u.globals.size ∧ rest = s.behindTree stream ∧ t = u.withValue slot value := by
  have kind {type : TypeId} {k : Constant} {u : Session}
      (h : ((s.treeAt stream).evaluate .constant).Yields setup s ⟨type, some k⟩ u) :
      TypedValue.widened u.types target ⟨type, some k⟩ =
        ⟨(u.types.widenConstant target k type).2, some (u.types.widenConstant target k type).1⟩ :=
    widened_eq_widenConstant ((evaluates_of_yields g h).fits.constant k rfl)
  constructor
  · intro h
    unfold fold at h
    obtain ⟨r, u, folded, h⟩ := yields_bind.1 h
    obtain ⟨evaluated, hr⟩ := yields_constantExpression.1 folded
    obtain ⟨⟨k, type⟩, left, hle⟩ := r
    dsimp only at evaluated hr h
    rw [yields_get] at h
    obtain ⟨_, u', checked, h⟩ := yields_bind.1 h
    obtain ⟨compatible, rfl⟩ := yields_checkCompatible.1 checked
    obtain ⟨_, u'', kept, h⟩ := yields_bind.1 h
    obtain ⟨hs, rfl⟩ := of_yields_setGlobal kept
    obtain ⟨rfl, rfl⟩ := yields_pure.1 h
    cases hr
    refine ⟨type, k, _, u', evaluated, ?_, ?_, hs, rfl, rfl⟩
    · rw [kind evaluated]
    · rw [kind evaluated]
      exact compatible
  · rintro ⟨type, k, value, u, evaluated, known, compatible, hs, rfl, rfl⟩
    rw [kind evaluated] at known compatible
    cases known
    unfold fold
    refine yields_bind.2 ⟨⟨(k, type), (s.behindTree stream).stream, (s.behindTree stream).le⟩, u,
      yields_constantExpression.2 ⟨evaluated, rfl⟩, ?_⟩
    dsimp only
    rw [yields_get]
    refine yields_bind.2 ⟨(), u, yields_checkCompatible.2 ⟨compatible, rfl⟩, ?_⟩
    exact yields_bind.2 ⟨(), _, yields_setGlobal hs _, yields_pure.2 ⟨rfl, rfl⟩⟩

/-- The code of a value turns it into a real, and stores it where its type fits the variable. -/
theorem yields_store : (store target stream).Yields setup s rest t ↔
    ∃ w u, ((s.treeAt stream).evaluate .runtime).Yields setup s w u ∧
      u.types.compatible target (w.widened u.types target).type = true ∧
      rest = s.behindTree stream ∧
      t = { u with code := (u.code.widen u.types target w.type).emit (.store target) } := by
  have same (types : TypeTable) (w : TypedValue) :
      (TypedValue.widened types target ⟨w.type, none⟩).type = (w.widened types target).type :=
    type_widened rfl
  constructor
  · intro h
    unfold store at h
    obtain ⟨r, u, valued, h⟩ := yields_bind.1 h
    obtain ⟨n, _, ⟨⟩, h⟩ := yields_bind.1 h
    obtain ⟨rfl, rfl⟩ := yields_pure.1 h
    unfold runtimeValue expression at valued
    obtain ⟨read, u', evaluated, h⟩ := yields_bind.1 valued
    rw [yields_get] at evaluated
    obtain ⟨w, u'', evaluated, done⟩ := yields_bind.1 evaluated
    obtain ⟨rfl, rfl⟩ := yields_pure.1 done
    obtain ⟨x, _, widened, h⟩ := yields_bind.1 h
    obtain ⟨rfl, rfl⟩ := yields_widenOnStack.1 widened
    obtain ⟨_, _, checked, h⟩ := yields_bind.1 h
    obtain ⟨compatible, rfl⟩ := yields_checkCompatible.1 checked
    obtain ⟨rfl, rfl⟩ := yields_pure.1 h
    refine ⟨w, _, evaluated, ?_, rfl, rfl⟩
    rw [← same]
    exact compatible
  · rintro ⟨w, u, evaluated, compatible, rfl, rfl⟩
    unfold store
    refine yields_bind.2 ⟨s.behindTree stream,
      { u with code := u.code.widen u.types target w.type }, ?_, rfl⟩
    unfold runtimeValue
    refine yields_bind.2 ⟨⟨w, (s.behindTree stream).stream, (s.behindTree stream).le⟩, u, ?_, ?_⟩
    · unfold expression
      rw [yields_get]
      exact yields_bind.2 ⟨w, u, evaluated, yields_pure.2 ⟨rfl, rfl⟩⟩
    refine yields_bind.2 ⟨_, _, yields_widenOnStack.2 ⟨rfl, rfl⟩, ?_⟩
    refine yields_bind.2 ⟨(), _, yields_checkCompatible.2 ⟨?_, rfl⟩, yields_pure.2 ⟨rfl, rfl⟩⟩
    dsimp only
    rw [same]
    exact compatible

/-! ### Both ways agree -/

theorem store_of_fold (g : s.Grounded ∅) (h : (fold target slot stream).Yields setup s rest t) :
    ∃ value code, t.globals[slot]?.bind (·.value?) = some value ∧ s.code.Computes code value ∧
      (store target stream).Yields setup s rest
        { t with globals := s.globals, code := code.emit (.store target) } := by
  obtain ⟨type, k, value, u, evaluated, known, compatible, hs, rfl, rfl⟩ := (yields_fold g).1 h
  obtain ⟨_, ⟨⟩, mirrors⟩ := evaluate_mirrors evaluated
  obtain ⟨w, d, emitted, shadows, computes⟩ := mirrors.emits s.code
  obtain ⟨types, rfl⟩ := mirrors.retypes
  refine ⟨value, _, ?_, computes_widened computes known,
    yields_store.2 ⟨w, _, emitted, ?_, rfl, ?_⟩⟩
  · show (s.globals.modify slot _)[slot]?.bind _ = _
    rw [Array.getElem?_modify, if_pos rfl, Array.getElem?_eq_getElem hs]
    rfl
  · rw [(shadows_widened shadows known).type]
    exact compatible
  · rw [shadows.type]
    rfl

theorem fold_of_store (g : s.Grounded ∅) (hs : slot < s.globals.size)
    (hn : (s.treeAt stream).ReadsNoVariable setup s)
    (h : (store target stream).Yields setup s rest t) :
    (∃ u, (fold target slot stream).Yields setup s rest u) ∨
      ∃ fault span u, (fold target slot stream).run setup s =
          .error ((⟨.folding fault, span⟩ : Fault).inFile s.place.file) u ∧
        (s.treeAt stream).FoldFails setup s span fault := by
  obtain ⟨w, u, emitted, compatible, rfl, rfl⟩ := yields_store.1 h
  rcases folds_of_yields g (c := s.code) emitted hn with ⟨k, folded, _⟩ | ⟨fault, span, v, failed, why⟩
  · have e := evaluates_of_yields g folded
    have kind : TypedValue.widened u.types target ⟨w.type, some k⟩ = _ :=
      widened_eq_widenConstant (e.fits.constant k rfl)
    obtain ⟨_, _, mirrors⟩ := evaluate_mirrors folded
    obtain ⟨types, he⟩ := mirrors.retypes
    refine .inl ⟨_, (yields_fold g).2 ⟨w.type, k, _, _, folded, by rw [kind], ?_, ?_, rfl, rfl⟩⟩
    · have same : (w.widened u.types target).type =
          (TypedValue.widened u.types target ⟨w.type, some k⟩).type := type_widened rfl
      exact same ▸ compatible
    · rw [he]
      exact hs
  · refine .inr ⟨fault, span, v, ?_, why⟩
    unfold fold constantExpression
    apply run_bind_error
    apply run_bind_error
    show Action.run ((s.treeAt stream).evaluate .constant >>= _) setup s = _
    exact run_bind_error failed

end Action

/-- Folding an initial value and emitting code for it agree in every session of a compilation. Where
the value folds, the emitted code computes and stores it, and both stop at the same word. Where code
is emitted for a value that reads no variable, the value folds, unless it divides by zero, does not
fit into a word or compares a real that is no number. -/
theorem assign_agrees (setup : Setup) (root : String) :
    (∀ s ∈ history setup root, ∀ target slot stream rest t,
      (Action.assign target (some slot) stream).Yields setup s rest t →
      ∃ value code, t.globals[slot]?.bind (·.value?) = some value ∧ s.code.Computes code value ∧
        (Action.assign target none stream).Yields setup s rest
          { t with globals := s.globals, code := code.emit (.store target) }) ∧
    ∀ s ∈ history setup root, ∀ target slot stream rest t, slot < s.globals.size →
      (s.treeAt stream).ReadsNoVariable setup s →
      (Action.assign target none stream).Yields setup s rest t →
      (∃ u, (Action.assign target (some slot) stream).Yields setup s rest u) ∨
        ∃ fault span u, (Action.assign target (some slot) stream).run setup s =
            .error ((⟨.folding fault, span⟩ : Fault).inFile s.place.file) u ∧
          (s.treeAt stream).FoldFails setup s span fault := by
  constructor
  · intro s hs target slot stream rest t h
    exact Action.store_of_fold (valid_of_mem_history hs).grounded h
  · intro s hs target slot stream rest t allocated hn h
    exact Action.fold_of_store (valid_of_mem_history hs).grounded allocated hn h

end FrontEnd
