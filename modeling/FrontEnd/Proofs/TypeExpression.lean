import FrontEnd.Proofs.TypeExpression.Parts

/-!
Reading a type expression answers a type that can be referred to and is not a forward type, and
nothing refers to a structure before all its fields have been read.
-/

namespace FrontEnd.Action

open Session

/-- Names of one type, all of them known. -/
structure Names (U : Set TypeId) (t : Session) (names : List DeclaredName) (type : TypeId) : Prop where
  nonempty : names ≠ []
  known : ∀ d ∈ names, d.name ∈ t.names.texts
  solid : t.Solid U type

variable {setup : Setup}

mutual

theorem meets_typeExpression {U : Set TypeId} {s : Session} {stream : Stream} (h : s.Ready U)
    (hk : s.Knows stream) :
    (typeExpression stream).Meets setup {.idents} U (fun past t => t.Solid U past.value) s := by
  rw [typeExpression]
  split
  · exact meets_namedType h
  · exact meets_pointerType h hk
  · exact meets_arrayType h hk
  · exact (meets_textType h).allow (Set.empty_subset _)
  · exact meets_structType h hk
  · exact meets_interfaceType h hk
  · exact meets_functionType h hk
  · exact meets_fail rfl
termination_by 5 * stream.size + 1

theorem meets_pointerType {U : Set TypeId} {s : Session} {stream : Stream} (h : s.Ready U)
    (hk : s.Knows stream) :
    (pointerType stream).Meets setup {.idents} U (fun past t => t.Solid U past.value) s := by
  rw [pointerType]
  apply meets_eat
  rintro ⟨⟨⟩, s₁, h₁⟩
  have hlt := h₁.2
  apply (meets_pointerTarget h (hk.behind h₁)).bind
  rintro ⟨base, s₂, h₂⟩ t ht e hu
  refine ((meets_addType ht (.pointer hu) rfl rfl trivial trivial).allow (Set.empty_subset _)).bind ?_
  intro type u hu e ha
  exact meets_pure hu ⟨ha.usable, by rw [TypeTable.isForward_eq, ha.kind]; rfl⟩
termination_by 5 * stream.size

theorem meets_pointerTarget {U : Set TypeId} {s : Session} {stream : Stream} (h : s.Ready U)
    (hk : s.Knows stream) :
    (pointerTarget stream).Meets setup {.idents} U (fun past t => t.Usable U past.value) s := by
  rw [pointerTarget]
  split
  · rename_i name hn
    exact meets_namedTarget h hk hn
  · exact (meets_typeExpression h hk).imp fun _ _ _ _ hs => hs.usable
termination_by 5 * stream.size + 2

theorem meets_arrayType {U : Set TypeId} {s : Session} {stream : Stream} (h : s.Ready U)
    (hk : s.Knows stream) :
    (arrayType stream).Meets setup {.idents} U (fun past t => t.Solid U past.value) s := by
  rw [arrayType]
  apply meets_eat
  rintro ⟨⟨⟩, s₁, h₁⟩
  apply ((meets_arrayLength h).allow (Set.empty_subset _)).bind
  rintro ⟨length, s₂, h₂⟩ t ht e measured
  apply meets_eat
  rintro ⟨⟨⟩, s₃, h₃⟩
  have h₃ := (h₃.of_within h₂).trans h₁
  have hlt := h₃.2
  have hk := (hk.behind h₃).evolves e
  apply (meets_typeExpression ht hk).bind
  rintro ⟨base, s₄, h₄⟩ u hu e' hs
  exact meets_addArray hu hs measured fun type v hv hs => meets_pure hv hs
termination_by 5 * stream.size

theorem meets_structType {U : Set TypeId} {s : Session} {stream : Stream} (h : s.Ready U)
    (hk : s.Knows stream) :
    (structType stream).Meets setup {.idents} U (fun past t => t.Solid U past.value) s := by
  rw [structType]
  apply meets_eat
  rintro ⟨⟨⟩, s₁, h₁⟩
  apply meets_eat
  rintro ⟨⟨⟩, s₂, h₂⟩
  have h₂ := h₂.trans h₁
  have hlt := h₂.2
  refine meets_addStructure h rfl rfl fun owner t ht e _ hb => ?_
  refine (meets_structFields ht ((hk.behind h₂).evolves e) hb).bind fun rest u hu e' _ => ?_
  have hb := hb.evolves e'
  exact meets_eat fun rest => meets_pure hu ⟨hb.usable, hb.solid⟩
termination_by 5 * stream.size

theorem meets_structFields {U : Set TypeId} {s : Session} {owner : TypeId} {stream : Stream}
    (h : s.Ready (insert owner U)) (hk : s.Knows stream) (hb : Building U s owner) :
    (structFields owner stream).Meets setup {.idents} U
      (fun _ t => t.Ready (insert owner U)) s := by
  have weaker := Set.subset_insert owner U
  rw [structFields]
  split
  · exact meets_pure (h.weaken weaker) h
  apply ((meets_typedNames h hk).nested (Set.Subset.refl _) weaker).bind
  rintro ⟨⟨names, type⟩, s₁, h₁⟩ t _ e ⟨ht, _, hn⟩
  have hlt := h₁.2
  refine (meets_addStructFields ht (hb.evolves e) hn.solid hn.known).bind fun _ u _ e' hu => ?_
  apply meets_separator
  rintro ⟨⟨⟩, s₂, h₂⟩
  have h₂ := h₂.behind h₁
  have hlt := h₂.2
  have hb := (hb.evolves e).evolves e'
  refine (meets_structFields hu (((hk.behind h₂).evolves e).evolves e') hb).bind ?_
  exact fun _ v hv _ ready => meets_pure hv ready
termination_by 5 * stream.size + 3

theorem meets_interfaceType {U : Set TypeId} {s : Session} {stream : Stream} (h : s.Ready U)
    (hk : s.Knows stream) :
    (interfaceType stream).Meets setup {.idents} U (fun past t => t.Solid U past.value) s := by
  rw [interfaceType]
  apply meets_eat
  rintro ⟨⟨⟩, s₁, h₁⟩
  apply meets_eat
  rintro ⟨⟨⟩, s₂, h₂⟩
  have h₂ := h₂.trans h₁
  have hlt := h₂.2
  refine meets_addInterface h fun owner t ht e hb => ?_
  refine (meets_interfaceMethods ht ((hk.behind h₂).evolves e) hb).bind fun rest u hu e' _ => ?_
  have hb := hb.evolves e'
  exact meets_eat fun rest => meets_pure hu ⟨hb.usable, hb.solid⟩
termination_by 5 * stream.size

theorem meets_interfaceMethods {U : Set TypeId} {s : Session} {owner : TypeId} {stream : Stream}
    (h : s.Ready (insert owner U)) (hk : s.Knows stream) (hb : Building U s owner) :
    (interfaceMethods owner stream).Meets setup {.idents} U
      (fun _ t => t.Ready (insert owner U)) s := by
  have weaker := Set.subset_insert owner U
  rw [interfaceMethods]
  split
  · exact meets_pure (h.weaken weaker) h
  · rename_i name s₁ h₁ hn
    have hlt := h₁.2
    have known := hk.name hn
    simp only [fail_bind]
    rw [meets_get]
    split
    · exact meets_fail rfl
    rename_i fresh
    have fresh : s.types.findField? owner name = none := by simpa using fresh
    refine meets_methodSignature h fun start hs => ?_
    apply ((meets_signature h (hk.behind h₁) hs).nested (Set.Subset.refl _) weaker).bind
    rintro ⟨complete, s₂, h₂⟩ t _ e ⟨ht, preserves, hs⟩
    have known := e.grows.names _ known
    have fresh := hb.fresh preserves fresh
    refine (meets_addMethod ht (hb.evolves e) hs.fits known fresh).bind fun _ u _ e' hu => ?_
    apply meets_separator
    rintro ⟨⟨⟩, s₃, h₃⟩
    have h₃ := (h₃.behind h₂).trans h₁
    have hlt := h₃.2
    have hb := (hb.evolves e).evolves e'
    have hk := ((hk.behind h₃).evolves e).evolves e'
    refine (meets_interfaceMethods hu hk hb).bind fun _ v hv _ ready => ?_
    exact meets_pure hv ready
termination_by 5 * stream.size

theorem meets_functionType {U : Set TypeId} {s : Session} {stream : Stream} (h : s.Ready U)
    (hk : s.Knows stream) :
    (functionType stream).Meets setup {.idents} U (fun past t => t.Solid U past.value) s := by
  rw [functionType]
  apply meets_eat
  rintro ⟨⟨⟩, s₁, h₁⟩
  have hlt := h₁.2
  refine (meets_signature h (hk.behind h₁) Signature.fits_empty).bind fun past t ht e hs => ?_
  obtain ⟨complete, s₂, h₂⟩ := past
  refine ((meets_addType ht hs.fits.valid rfl rfl trivial hs.fits.defaults).allow (Set.empty_subset _)).bind ?_
  intro type u hu e ha
  exact meets_pure hu ⟨ha.usable, by rw [TypeTable.isForward_eq, ha.kind]; rfl⟩
termination_by 5 * stream.size

theorem meets_typedNames {U : Set TypeId} {s : Session} {capacity : Nat} {stream : Stream}
    (h : s.Ready U) (hk : s.Knows stream) :
    (typedNames capacity stream).Meets setup {.idents} U
      (fun past t => Names U t past.value.1 past.value.2) s := by
  rw [typedNames]
  apply (reads_declaredNames hk capacity).meets
  rintro ⟨names, s₁, h₁⟩ ⟨nonempty, known⟩
  apply meets_eat
  rintro ⟨⟨⟩, s₂, h₂⟩
  have h₂ := h₂.trans h₁
  have hlt := h₂.2
  refine (meets_typeExpression h (hk.behind h₂)).bind fun past t ht e hs => ?_
  exact meets_pure ht ⟨nonempty, fun d hd => e.grows.names _ (known d hd), hs⟩
termination_by 5 * stream.size + 2

theorem meets_signature {U : Set TypeId} {s : Session} {start : Signature} {stream : Stream}
    (h : s.Ready U) (hk : s.Knows stream) (hs : start.Fits U s) :
    (signature start stream).Meets setup {.idents} U (fun past t => past.value.Complete U t) s := by
  rw [signature]
  apply meets_eat
  rintro ⟨⟨⟩, s₁, h₁⟩
  have hlt := h₁.2
  refine (meets_optionalParameters h (hk.behind h₁) hs).bind fun groups t ht e hs => ?_
  obtain ⟨⟨listed, defaults⟩, s₂, h₂⟩ := groups
  apply meets_eat
  rintro ⟨⟨⟩, s₃, h₃⟩
  have h₃ := (h₃.of_within h₂).trans h₁
  have fits : Signature.Fits U t { listed with defaults } := ⟨⟨hs.valid.refs, hs.valid.parts, hs.valid.names⟩, hs.defaults⟩
  dsimp only
  split
  · rename_i colon _
    obtain ⟨_, s₄, h₄⟩ := colon
    have h₄ := h₄.trans h₃
    have hlt := h₄.2
    refine (meets_typeExpression ht ((hk.behind h₄).evolves e)).bind fun past u hu e' hr => ?_
    refine (meets_addResult hu (fits.evolves e') hr).bind fun complete v hv _ hs => ?_
    exact meets_pure hv hs
  · refine (meets_addResult ht fits (void_solid ht.toValid)).bind fun complete u hu _ hs => ?_
    exact meets_pure hu hs
termination_by 5 * stream.size

theorem meets_optionalParameters {U : Set TypeId} {s : Session} {start : Signature}
    {stream : Stream} (h : s.Ready U) (hk : s.Knows stream) (hs : start.Fits U s) :
    (optionalParameters start stream).Meets setup {.idents} U
      (fun rest t => rest.value.1.Fits U t) s := by
  rw [optionalParameters]
  split
  · refine (meets_parameterGroups h hk hs).bind fun past t ht _ hs => ?_
    exact meets_pure ht hs
  · exact meets_pure h hs
termination_by 5 * stream.size + 4

theorem meets_parameterGroups {U : Set TypeId} {s : Session} {start : Signature} {defaults : Nat}
    {stream : Stream} (h : s.Ready U) (hk : s.Knows stream) (hs : start.Fits U s) :
    (parameterGroups start defaults stream).Meets setup {.idents} U
      (fun past t => past.value.1.Fits U t) s := by
  rw [parameterGroups]
  apply (meets_typedNames h hk).bind
  rintro ⟨⟨names, type⟩, s₁, h₁⟩ t ht e hn
  apply (meets_defaultValue ht).bind
  rintro ⟨default?, s₂, h₂⟩ u hu e' hd
  have known := fun d hd => e'.grows.names _ (hn.known d hd)
  have fits := (hs.evolves e).evolves e'
  refine (meets_addParameters hu fits (hn.solid.evolves e') known hd).bind fun extended v hv e'' hs => ?_
  dsimp only
  split
  · rename_i comma _
    obtain ⟨_, s₃, h₃⟩ := comma
    have h₃ := (h₃.of_within h₂).trans h₁
    have hlt := h₃.2
    have hk := (((hk.behind h₃).evolves e).evolves e').evolves e''
    refine (meets_parameterGroups hv hk hs).bind fun past w hw _ hs => ?_
    exact meets_pure hw hs
  · exact meets_pure hv hs
termination_by 5 * stream.size + 3

end

end FrontEnd.Action
