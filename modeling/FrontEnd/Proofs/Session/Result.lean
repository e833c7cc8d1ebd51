import FrontEnd.Proofs.Session.Checks
import FrontEnd.Statement

/-!
The result of a signature. A structured result is stored through a hidden parameter, which the
signature says by its types, and which a return statement tells by its name.
-/

namespace FrontEnd

namespace TypeTable

variable {t : TypeTable} {signature : Signature} {result : TypeId}

/-- A hidden parameter, which points at the room for a structured result. -/
structure Hides (t : TypeTable) (signature : Signature) (parameter : Parameter) (result : TypeId) :
    Prop where
  last : signature.parameters.getLast? = some parameter
  name : parameter.name = resultName
  structured : t.isStructured result = true
  pointer : t.kind parameter.type = .pointer result

/-- The last parameter has the name of a hidden one only if it is one. -/
def ReservesName (t : TypeTable) (signature : Signature) (result : TypeId) : Prop :=
  ∀ parameter ∈ signature.parameters.getLast?, parameter.name = resultName →
    t.isStructured result = true

instance : Decidable (t.ReservesName signature result) :=
  inferInstanceAs (Decidable (∀ parameter ∈ signature.parameters.getLast?,
    parameter.name = resultName → t.isStructured result = true))

/-- Whether there is a hidden parameter can be told by the name of the last parameter. -/
def TellsHidden (t : TypeTable) (signature : Signature) (result : TypeId) : Prop :=
  match Action.resultParameter? signature with
  | some parameter => t.Hides signature parameter result
  | none => t.isStructured result = false

/-- If the name of the hidden parameter is kept free, there is one where the name says so. -/
theorem tellsHidden_of_reservesName
    (hidden : t.isStructured result = true → ∃ parameter, t.Hides signature parameter result)
    (h : t.ReservesName signature result) : t.TellsHidden signature result := by
  unfold TellsHidden Action.resultParameter?
  split
  · rename_i parameter hp
    obtain ⟨last, name⟩ := Option.filter_eq_some_iff.1 hp
    obtain ⟨hides, hh⟩ := hidden (h parameter last (of_decide_eq_true name))
    cases last.symm.trans hh.last
    exact hh
  · rename_i none
    refine Bool.eq_false_iff.2 fun structured => ?_
    obtain ⟨parameter, hides⟩ := hidden structured
    rw [hides.last, Option.filter_some, if_pos (decide_eq_true hides.name)] at none
    cases none

end TypeTable

namespace Session

variable {s t : Session} {signature : Signature} {result : TypeId}

/-- The signature has a result, and a hidden parameter if the result is structured. -/
structure Returns (s : Session) (signature : Signature) (result : TypeId) : Prop where
  listed : signature.result? = some result
  settles : s.Settles result
  hidden : s.types.isStructured result = true →
    ∃ parameter, s.types.Hides signature parameter result

theorem Fixes.isStructured (f : s.Fixes t) (h : s.Settles result) :
    t.types.isStructured result = s.types.isStructured result :=
  TypeTable.isStructured_congr (f.outline_eq h)

theorem Fixes.returns (f : s.Fixes t) (h : s.Returns signature result) :
    t.Returns signature result := by
  refine ⟨h.listed, f.settles h.settles, fun structured => ?_⟩
  rw [f.isStructured h.settles] at structured
  obtain ⟨parameter, last, name, _, pointer⟩ := h.hidden structured
  have known : parameter.type.index < s.types.size := TypeTable.index_lt_of_kind_ne fun hk => by
    rw [pointer] at hk
    cases hk
  have settles : s.Settles parameter.type :=
    ⟨inUse_of_not_structure known (by rw [pointer]; rfl),
      by rw [TypeTable.isForward_eq, pointer]; rfl⟩
  refine ⟨parameter, last, name, ?_, ?_⟩
  · rw [f.isStructured h.settles]
    exact structured
  · rw [f.kind_eq settles]
    exact pointer

theorem Fixes.reservesName (f : s.Fixes t) (h : s.Settles result) :
    t.types.ReservesName signature result ↔ s.types.ReservesName signature result := by
  unfold TypeTable.ReservesName
  rw [f.isStructured h]

end Session

end FrontEnd
