import FrontEnd.Proofs.Forwards
import FrontEnd.Proofs.Structures
import FrontEnd.Proofs.Expression.Resemblance

/-!
What a name stands for that has been used before its declaration. When a forward type is completed it
becomes a copy of the declared type and stays one. No check tells a type from its copy, unless it is
one of the few types that are told by their numbers; nor does any check tell apart what is made of
them, so expressions have the same values whichever of them their names have.
-/

namespace FrontEnd

namespace TypeTable

variable {t u : TypeTable} {a b : TypeId}

/-! ### Sizes -/

/-- Fields that take the same bytes one by one take the same bytes together. -/
theorem LaysOut.next?_congr {as bs : List Field} (ha : t.LaysOut as) (hb : t.LaysOut bs)
    (h : List.Forall₂ (fun a b => t.size? a.type = t.size? b.type) as bs) :
    t.next? as = t.next? bs := by
  -- By induction on the fields from the last ones, which start at the same offset.
  induction bs using List.reverseRecOn generalizing as with
  | nil => rw [List.forall₂_nil_right_iff.1 h]
  | append_singleton bs b ih =>
    obtain ⟨a, _, size, none, last⟩ :=
      List.forall₂_cons_right_iff.1 (List.forall₂_drop_append _ _ _ h)
    cases none
    have init := List.forall₂_take_append _ _ _ h
    have split := as.take_append_drop bs.length
    rw [last] at split
    rw [← split] at ha ⊢
    have offset := ih ha.init.1 hb.init.1 init
    rw [ha.init.2, hb.init.2, Option.some_inj] at offset
    rw [next?, next?, List.getLast?_concat, List.getLast?_concat]
    simp only [size, offset]

/-- Equivalent types take the same bytes. -/
theorem IsFounded.size?_eq_of_equivalent (h : t.IsFounded)
    (laid : ∀ id, t.LaysOut (t.kind id).fields) (he : t.equivalent a b = true) :
    t.size? a = t.size? b := by
  induction a using h.induction generalizing b with
  | _ a ih =>
    by_cases hab : a = b
    · rw [hab]
    have same := (matches_of_equivalent he hab).inter (fun _ hr => hr) fun _ hr => hr
    have inside (part : TypeId) (hp : part ∈ (t.kind a).contents) := @ih part hp
    have laidA := laid a
    have laidB := laid b
    rw [h.size?_eq a, h.size?_eq b]
    unfold sizeFrom
    generalize t.kind a = k at same inside laidA
    generalize t.kind b = l at same laidB
    cases k <;> cases l <;> try exact same.elim
    case builtin.builtin => rw [show _ = _ from same]
    case array.array base length base' length' =>
      obtain ⟨rfl, base, _⟩ := same
      dsimp only
      split
      · rfl
      · rename_i closed
        rw [inside _ (by rw [TypeKind.contents, if_neg closed]; exact List.mem_singleton_self _) base]
    case text.text => exact congrArg some same
    case struct.struct | interface.interface =>
      exact laidA.next?_congr laidB (same.imp fun _ _ hf => inside _ hf.2.2.1 hf.2.1)
    all_goals rfl

/-! ### Checks -/

/-- Whatever is asked about the one type has the same answer for the other one. -/
structure Agree (t : TypeTable) (a b : TypeId) : Prop where
  families : ∀ family ∈ [isForward, isStructured, isInteger, isReal, isNumeric, isOrdinal, isPointer,
    isText, isAnyPointer], family t a = family t b
  numbers : ∀ id ∈ [TypeId.void, .null, .bool, .char], a = id ↔ b = id
  operators : ∀ op, t.hasOperator op a = t.hasOperator op b
  unaryOperators : ∀ op, t.hasUnaryOperator op a = t.hasUnaryOperator op b
  target : ∀ source, t.compatible a source = t.compatible b source ∧
    t.widens a source = t.widens b source
  source : ∀ target, t.compatible target a = t.compatible target b ∧
    t.widens target a = t.widens target b
  size : t.size? a = t.size? b

end TypeTable

namespace Session

variable {U : Set TypeId} {s t : Session} {run : List Session} {forward type : TypeId}

theorem Valid.isTold (h : s.Valid U) :
    ∀ id ∈ [TypeId.void, .null, .bool, .char], (s.types.kind id).isTold = true := by
  have builtin {id : TypeId} (known : id.index < TypeTable.initial.size)
      (told : (TypeTable.initial.kind id).isTold = true) : (s.types.kind id).isTold = true := by
    rw [(h.builtins.2 id known).2]
    exact told
  simp only [List.forall_mem_cons, List.not_mem_nil, false_implies, implies_true, and_true]
  exact ⟨builtin (by decide) rfl, builtin (by decide) rfl, builtin (by decide) rfl,
    builtin (by decide) rfl⟩

/-! ### Completing a forward type -/

/-- The forward type has become a copy of the type that its name is declared as. -/
structure Completes (s : Session) (forward concrete : TypeId) (t : Session) : Prop where
  solid : s.types.isForward concrete = false
  types : t.types = s.types.complete forward concrete
  declared : ∃ id i, t.idents.get? id = some i ∧ i.kind = .type ∧ i.type = forward

theorem Completes.kind_eq {concrete : TypeId} (h : s.Completes forward concrete t)
    (pending : s.types.isForward forward = true) :
    t.types.kind forward = s.types.kind concrete := by
  rw [h.types, TypeTable.kind_complete concrete _ (TypeTable.index_lt_of_isForward pending),
    if_pos rfl]

end Session

end FrontEnd
