import FrontEnd.Proofs.Types.Table

/-!
The types that a type refers to. A pointer refers to its base from outside; all other types have the
types that they refer to as their own parts, and some of these lie inside them by value.
-/

namespace FrontEnd

namespace Signature

def types (s : Signature) : List TypeId := s.parameters.map (·.type) ++ s.results

end Signature

namespace TypeKind

/-- The types that a type is made of: elements, fields, parameters and results. -/
def parts : TypeKind → List TypeId
  | .array base _ => [base]
  | .struct fields | .interface fields => fields.map (·.type)
  | .function s => s.types
  | _ => []

/-- All types that a type refers to. -/
def refs : TypeKind → List TypeId
  | .pointer base => [base]
  | kind => kind.parts

/-- The parts whose values lie inside the values of a type; an open array is a pointer. -/
def contents : TypeKind → List TypeId
  | .array base length => if length = openLength then [] else [base]
  | .struct fields | .interface fields => fields.map (·.type)
  | _ => []

/-- The names in a type. -/
def names : TypeKind → List String
  | .struct fields | .interface fields => fields.map (·.name)
  | .function s => s.parameters.map (·.name)
  | _ => []

theorem mem_refs_of_mem_parts {kind : TypeKind} {r : TypeId} (h : r ∈ kind.parts) :
    r ∈ kind.refs := by
  cases kind <;> first | exact h | cases h

theorem mem_parts_of_mem_contents {kind : TypeKind} {r : TypeId} (h : r ∈ kind.contents) :
    r ∈ kind.parts := by
  cases kind with
  | array base length =>
    simp only [contents, parts] at *
    split at h
    · cases h
    · exact h
  | struct fields => exact h
  | interface fields => exact h
  | _ => cases h

theorem fields_of_contents_nil {kind : TypeKind} (h : kind.contents = []) : kind.fields = [] := by
  cases kind with
  | struct fields => exact List.map_eq_nil_iff.1 h
  | interface fields => exact List.map_eq_nil_iff.1 h
  | _ => rfl

section WithField

variable {kind : TypeKind} {field : Field}

theorem refs_withField {r : TypeId} (h : r ∈ (kind.withField field).refs) :
    r ∈ kind.refs ∨ r = field.type := by
  cases kind <;> simp_all [withField, refs, parts]

theorem parts_withField {r : TypeId} (h : r ∈ (kind.withField field).parts) :
    r ∈ kind.parts ∨ r = field.type := by
  cases kind <;> simp_all [withField, parts]

theorem names_withField {name : String} (h : name ∈ (kind.withField field).names) :
    name ∈ kind.names ∨ name = field.name := by
  cases kind <;> simp_all [withField, names]

theorem contents_withField {r : TypeId} (h : r ∈ (kind.withField field).contents) :
    r ∈ kind.contents ∨ r = field.type := by
  cases kind <;> simp_all [withField, contents]

end WithField

end TypeKind

namespace TypeTable

/-- The values of `part` lie inside the values of `whole`. -/
def Contains (t : TypeTable) (whole part : TypeId) : Prop :=
  part ∈ (t.kind whole).contents

end TypeTable

namespace TypeTable

/-- A parameter is added behind the others, at the place where they end. -/
theorem addParameter?_eq_some {t : TypeTable} {s s' : Signature} {name : String} {type : TypeId}
    {default? : Option Constant} (h : t.addParameter? s name type default? = some s') :
    ∃ total, s' = { s with
      parameters := s.parameters ++ [⟨name, type, s.parametersSize, default?⟩]
      parametersSize := total } := by
  unfold addParameter? at h
  simp only [Option.bind_eq_bind, Option.bind_eq_some_iff] at h
  obtain ⟨_, _, total, _, h⟩ := h
  cases h
  exact ⟨total, rfl⟩

end TypeTable

end FrontEnd
