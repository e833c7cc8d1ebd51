import FrontEnd.Proofs.TypeExpression.Extends
import FrontEnd.Proofs.Frames

/-!
Where the parameters of a signature lie. Each is placed behind those before it by the sizes that
types have while the signature is read; these do not change until it has been read as a whole.
-/

namespace FrontEnd

open Session

variable {setup : Setup} {root : String} {P : Ident → Prop} {s t : Session} {stream : Stream}

/-- The parameters that have been read stay where they are while more types are read. -/
theorem Signature.Offsets.extends {signature : Signature} (h : signature.Offsets s.types)
    (e : s.Extends s.types.size P t) (hs : s ∈ history setup root) (ht : t ∈ history setup root) :
    signature.Offsets t.types :=
  h.congr e.size fun p hp => size?_of_kinds hs ht (Nat.le_refl _) e.kinds (h.known p hp)

namespace Action

theorem offsets_addResult {signature complete : Signature} {type : TypeId} {span : Span}
    (hs : signature.Offsets s.types)
    (h : (addResult signature type span).PassesIn setup (history setup root) s complete t) :
    complete.Offsets t.types := by
  unfold addResult at h
  rw [passes_get] at h
  split at h
  · obtain ⟨rfl, rfl⟩ := passes_pure h
    exact hs.same rfl rfl
  obtain ⟨pointer, u, added, h⟩ := passes_bind h
  rw [passes_get] at h
  split at h
  · rename_i extended
    have reached := added.last_mem
    obtain ⟨rfl, rfl⟩ := passes_pure h
    obtain ⟨adds, _, has⟩ :=
      extends_addsType (P := fun _ => False) (Nat.le_refl s.types.size) added.yields
    have listed := hs.extends adds added.first_mem reached
    refine Signature.Offsets.addParameter? ?_ has extended
    exact listed.same rfl rfl
  · exact absurd h not_passes_fail

theorem offsets_parameterGroups {start : Signature} {defaults : Nat} (stream : Stream)
    {s t : Session} {past : Past stream (Signature × Nat)} (hs : start.Offsets s.types)
    (h : (parameterGroups start defaults stream).PassesIn setup (history setup root) s past t) :
    past.value.1.Offsets t.types := by
  rw [parameterGroups] at h
  obtain ⟨⟨⟨names, type⟩, s₁, h₁⟩, u, read, h⟩ := passes_bind h
  obtain ⟨⟨default?, s₂, h₂⟩, w, defaulted, h⟩ := passes_bind h
  obtain ⟨extended, added, h⟩ := passes_addParameters_bind h
  obtain ⟨reads, has⟩ := extends_typedNames stream ⟨Nat.le_refl _, rfl⟩ read
  have defaults := extends_defaultValue (P := s.blocks.HoldsType) reads.size defaulted
  have listed := hs.extends (reads.trans defaults) read.first_mem defaulted.last_mem
  have extended := listed.addParameters (Nat.lt_of_lt_of_le has defaults.size) added
  dsimp only at h
  split at h
  · rename_i comma _
    obtain ⟨_, s₃, h₃⟩ := comma
    have hlt := ((h₃.of_within h₂).trans h₁).2
    obtain ⟨_, y, more, h⟩ := passes_bind h
    obtain ⟨rfl, rfl⟩ := passes_pure h
    exact offsets_parameterGroups s₃ extended more
  · obtain ⟨rfl, rfl⟩ := passes_pure h
    exact extended
termination_by stream.size

theorem offsets_optionalParameters {start : Signature} {rest : Rest stream (Signature × Nat)}
    (hs : start.Offsets s.types)
    (h : (optionalParameters start stream).PassesIn setup (history setup root) s rest t) :
    rest.value.1.Offsets t.types := by
  rw [optionalParameters] at h
  split at h
  · obtain ⟨_, u, read, h⟩ := passes_bind h
    obtain ⟨rfl, rfl⟩ := passes_pure h
    exact offsets_parameterGroups stream hs read
  · obtain ⟨rfl, rfl⟩ := passes_pure h
    exact hs

theorem offsets_signature {start : Signature} {past : Past stream Signature}
    (hs : start.Offsets s.types)
    (h : (signature start stream).PassesIn setup (history setup root) s past t) :
    past.value.Offsets t.types := by
  rw [signature] at h
  obtain ⟨⟨⟨⟩, s₁, h₁⟩, _, h⟩ := passes_eat_bind h
  obtain ⟨⟨⟨listed, defaults⟩, s₂, h₂⟩, u, read, h⟩ := passes_bind h
  obtain ⟨⟨⟨⟩, s₃, h₃⟩, _, h⟩ := passes_eat_bind h
  have listed := offsets_optionalParameters hs read
  dsimp only at h
  split at h
  · obtain ⟨⟨result, s₅, h₅⟩, w, typed, h⟩ := passes_bind h
    obtain ⟨complete, x, added, h⟩ := passes_bind h
    obtain ⟨rfl, rfl⟩ := passes_pure h
    have types := (extends_typeExpression _ ⟨Nat.le_refl _, rfl⟩ typed).1
    have listed := listed.extends types typed.first_mem typed.last_mem
    refine offsets_addResult ?_ added
    exact listed.same rfl rfl
  · obtain ⟨complete, x, added, h⟩ := passes_bind h
    obtain ⟨rfl, rfl⟩ := passes_pure h
    refine offsets_addResult ?_ added
    exact listed.same rfl rfl

/-- A receiver is the first parameter. -/
theorem offsets_receiver {past : Past stream (TypeId × Signature)}
    (h : (receiver stream).PassesIn setup (history setup root) s past t) :
    past.value.2.Offsets t.types := by
  unfold receiver at h
  obtain ⟨⟨⟨⟩, s₁, h₁⟩, _, h⟩ := passes_eat_bind h
  obtain ⟨⟨name, s₂, h₂⟩, _, h⟩ := passes_eatName_bind h
  obtain ⟨⟨⟨⟩, s₃, h₃⟩, _, h⟩ := passes_eat_bind h
  obtain ⟨⟨type, s₄, h₄⟩, u, typed, h⟩ := passes_bind h
  have known := (extends_typeExpression _ ⟨Nat.le_refl _, rfl⟩ typed).2
  dsimp only at h
  rw [passes_get] at h
  split at h
  · exact absurd h not_passes_fail
  · obtain ⟨⟨⟨⟩, s₅, h₅⟩, _, h⟩ := passes_eat_bind h
    obtain ⟨rfl, rfl⟩ := passes_pure h
    exact Signature.Offsets.addParameter?_getD (.of_nil rfl rfl) name known

end Action

end FrontEnd
