import FrontEnd.Proofs.History

/-!
No type ever comes to contain itself. A type whose contents change, be it new, a structure that gains
a field or a forward type that is completed, lies inside no other type at that time.
-/

namespace FrontEnd

namespace Session

variable {s t : Session}

theorem Change.isFounded (h : s.Change t) (hs : s.Valid ∅) (hf : s.types.IsFounded) :
    t.types.IsFounded := by
  cases h with
  | step _ step =>
    obtain he | ⟨forward, concrete, pending, _, he⟩ := step.types
    · rwa [he]
    · rw [he]
      exact (hs.replaces_complete concrete pending).isFounded hf
  | addType _ valid => exact (hs.replaces_add valid).isFounded hf
  | addField _ added _ _ unreferenced other =>
    exact (replaces_addField added unreferenced other).isFounded hf
  | nameForward => exact hf
  | bind _ _ _ waiting =>
    exact (hs.replaces_bind _ (TypeTable.isForward_of_kind_eq waiting)).isFounded hf
  | leaveFile => exact hf

/-- No array, structure, signature, identifier other than a type's name, or variable has a forward
type as its own. -/
structure IsSolid (s : Session) : Prop where
  parts : ∀ id, ∀ part ∈ (s.types.kind id).parts, s.types.isForward part = false
  idents : ∀ i ∈ s.idents.idents, i.kind ≠ .type → s.types.isForward i.type = false
  globals : ∀ g ∈ s.globals, s.types.isForward g.type = false

theorem Valid.isSolid (h : s.Valid ∅) : s.IsSolid where
  parts id := (h.kinds id).parts
  idents i hi := by
    obtain ⟨n, hn⟩ := Array.mem_iff_getElem?.1 hi
    exact (h.idents ⟨n⟩ i hn).solid
  globals g hg := by
    obtain ⟨slot, hs⟩ := Array.mem_iff_getElem?.1 hg
    exact (h.globals slot g hs).solid

end Session

/-- Throughout a compilation no type contains itself by value, so the size of every type is found
from the sizes of its contents in finitely many steps. -/
theorem history_contains_acyclic (setup : Setup) (root : String) :
    (∀ s ∈ history setup root, s.IsSolid) ∧
      ∀ s ∈ history setup root, (∀ id, ¬ Relation.TransGen s.types.Contains id id) ∧
        (WellFounded fun part whole => s.types.Contains whole part) ∧
        ∀ id, s.types.size? id = s.types.sizeFrom s.types.size? id := by
  refine ⟨fun s hs => (valid_of_mem_history hs).isSolid, fun s hs => ?_⟩
  have founded : s.types.IsFounded := (history_induction (P := fun s => s.types.IsFounded)
    Session.isFounded_initial (fun _ _ hv h hf => h.change.isFounded hv hf) s hs).2
  exact ⟨founded.acyclic, founded, founded.size?_eq⟩

end FrontEnd
