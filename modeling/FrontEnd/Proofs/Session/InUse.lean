import FrontEnd.Proofs.Session.Change

/-!
Types in use. A structure gains fields only while nothing refers to it, neither a type nor an
identifier; so a type in use keeps its kind, unless it is a forward type.
-/

namespace FrontEnd

theorem TypeKind.Grows.refs {k l : TypeKind} (h : k.Grows l) {r : TypeId} (hr : r ∈ k.refs) :
    r ∈ l.refs := by
  cases h with
  | refl => exact hr
  | struct fields more =>
    show r ∈ (fields ++ more).map (·.type)
    rw [List.map_append]
    exact List.mem_append_left _ hr
  | interface fields more =>
    show r ∈ (fields ++ more).map (·.type)
    rw [List.map_append]
    exact List.mem_append_left _ hr

theorem TypeTable.not_isForward_of_isStructure {t : TypeTable} {id : TypeId}
    (hs : (t.kind id).isStructure = true) (hf : t.isForward id = true) : False := by
  rw [isForward_eq, TypeKind.isForward_of_isStructure hs] at hf
  cases hf

namespace Session

variable {U : Set TypeId} {s t u : Session} {id : TypeId}

/-- Some identifier has the type. -/
def IsNamed (s : Session) (id : TypeId) : Prop := ∃ n i, s.idents.get? n = some i ∧ i.type = id

/-- A type that has been read as a whole: if it is a structure, something refers to it. -/
structure InUse (s : Session) (id : TypeId) : Prop where
  has : id.index < s.types.size
  referred : (s.types.kind id).isStructure = true →
    s.IsNamed id ∨ ∃ other, id ∈ (s.types.kind other).refs

theorem inUse_of_not_structure (has : id.index < s.types.size)
    (h : (s.types.kind id).isStructure = false) : s.InUse id :=
  ⟨has, fun hs => absurd (h.symm.trans hs) nofun⟩

theorem Valid.inUse_ref (h : s.Valid U) {r : TypeId} (hr : r ∈ (s.types.kind id).refs) :
    s.InUse r :=
  ⟨((h.kinds id).refs r hr).has, fun _ => .inr ⟨id, hr⟩⟩

theorem Valid.inUse_ident (h : s.Valid U) {n : IdentId} {i : Ident}
    (hi : s.idents.get? n = some i) : s.InUse i.type :=
  ⟨(h.idents n i hi).type.has, fun _ => .inl ⟨n, i, hi, rfl⟩⟩

/-- What is in use stays so and keeps its kind; only forward types become others. -/
structure Fixes (s t : Session) : Prop where
  inUse : ∀ id, s.InUse id → t.InUse id
  kind : ∀ id, s.InUse id → s.types.isForward id = false → t.types.kind id = s.types.kind id

namespace Fixes

theorem refl (s : Session) : s.Fixes s := ⟨fun _ h => h, fun _ _ _ => rfl⟩

theorem trans (h : s.Fixes t) (h' : t.Fixes u) : s.Fixes u where
  inUse id hu := h'.inUse id (h.inUse id hu)
  kind id hu hf := by
    have kept := h.kind id hu hf
    have solid : t.types.isForward id = false := by
      rw [TypeTable.isForward_eq, kept, ← TypeTable.isForward_eq]
      exact hf
    exact (h'.kind id (h.inUse id hu) solid).trans kept

end Fixes

/-- It is enough that types in use keep their kinds, and that what becomes of a forward type has a
name. -/
theorem Grows.fixes (g : s.Grows t)
    (kind : ∀ id, s.InUse id → s.types.isForward id = false → t.types.kind id = s.types.kind id)
    (named : ∀ id, s.types.isForward id = true → (t.types.kind id).isStructure = true →
      t.IsNamed id) : s.Fixes t := by
  refine ⟨fun id hu => ⟨Nat.lt_of_lt_of_le hu.has g.types.size, fun hs => ?_⟩, kind⟩
  cases hf : s.types.isForward id with
  | true => exact .inl (named id hf hs)
  | false =>
    rw [kind id hu hf] at hs
    rcases hu.referred hs with ⟨n, i, hi, rfl⟩ | ⟨other, hr⟩
    · obtain ⟨j, hj, _, type⟩ := g.ident hi
      exact .inl ⟨n, j, hj, type⟩
    · have known : other.index < s.types.size := TypeTable.index_lt_of_kind_ne fun hk => by
        rw [hk] at hr
        cases hr
      have solid : s.types.isForward other = false := by
        rw [TypeTable.isForward_eq]
        cases hk : s.types.kind other with
        | forward _ => rw [hk] at hr; cases hr
        | _ => rfl
      exact .inr ⟨other, (g.types.kind other known solid).refs hr⟩

/-- The types stay as they are. -/
theorem Grows.fixes_same (g : s.Grows t) (ht : t.types = s.types) : s.Fixes t := by
  refine g.fixes (fun id _ _ => by rw [ht]) fun id hf hs => ?_
  rw [ht] at hs
  exact (TypeTable.not_isForward_of_isStructure hs hf).elim

theorem fixes_code (s : Session) (code : Code) : s.Fixes { s with code } :=
  ⟨fun _ h => ⟨h.has, h.referred⟩, fun _ _ _ => rfl⟩

theorem Step.fixes (h : s.Step U t) : s.Fixes t := by
  have g := h.grows
  cases h with
  | @complete id i forward concrete exported span declared kind type pending solid =>
    have known := TypeTable.index_lt_of_isForward pending
    have kinds (other : TypeId) := s.types.kind_complete concrete other known
    refine g.fixes (fun other _ hf => ?_) fun other hf hs => ?_
    · rw [kinds, if_neg]
      rintro rfl
      rw [pending] at hf
      cases hf
    · have he : other = forward := by
        by_contra hne
        rw [kinds, if_neg hne] at hs
        exact TypeTable.not_isForward_of_isStructure hs hf
      obtain ⟨j, hj, _, same⟩ := g.ident declared
      exact ⟨id, j, hj, same.trans (type.trans he.symm)⟩
  | _ => exact g.fixes_same rfl

/-- A new type becomes none of the others. -/
theorem fixes_addType (s : Session) (kind : TypeKind) :
    s.Fixes { s with types := (s.types.add kind).2 } := by
  refine (grows_types (s.types.grows_add kind)).fixes
    (fun id hu _ => TypeTable.kind_add_of_ne _ (Nat.ne_of_lt hu.has)) fun id hf hs => ?_
  have known := TypeTable.index_lt_of_isForward hf
  rw [TypeTable.kind_add_of_ne _ (Nat.ne_of_lt known)] at hs
  exact (TypeTable.not_isForward_of_isStructure hs hf).elim

theorem Change.fixes (h : s.Change t) : s.Fixes t := by
  have g := h.grows
  cases h with
  | step _ step => exact step.fixes
  | addType => exact fixes_addType s _
  | addField _ added structured _ unreferenced _ _ _ _ anonymous =>
    obtain ⟨_, _, kinds⟩ := TypeTable.addField_eq_some added
    refine g.fixes (fun id hu _ => ?_) fun id hf hs => ?_
    · rw [kinds, if_neg]
      rintro rfl
      rcases hu.referred structured with ⟨n, i, hi, he⟩ | ⟨other, hr⟩
      · exact anonymous n i hi he
      · exact unreferenced other hr
    · rw [kinds] at hs
      split at hs
      · rename_i he
        exact (TypeTable.not_isForward_of_isStructure structured (he ▸ hf)).elim
      · exact (TypeTable.not_isForward_of_isStructure hs hf).elim
  | @bind ident _ forward _ _ _ waiting =>
    have pending := TypeTable.isForward_of_kind_eq waiting
    have kinds (other : TypeId) := s.types.kind_bind ident other pending
    refine g.fixes (fun other _ hf => ?_) fun other hf hs => ?_
    · rw [kinds, if_neg]
      rintro rfl
      rw [pending] at hf
      cases hf
    · rw [kinds] at hs
      split at hs
      · cases hs
      · exact (TypeTable.not_isForward_of_isStructure hs hf).elim
  | nameForward => exact g.fixes_same rfl
  | leaveFile => exact g.fixes_same rfl

/-! ### Receivers -/

namespace IsReceiver

variable {base : TypeId}

theorem solid (h : s.IsReceiver base) : s.types.isForward base = false := by
  have structured := h.structured
  unfold TypeTable.isStructured at structured
  rw [TypeTable.isForward_eq]
  cases hk : s.types.kind base with
  | forward _ =>
    rw [hk] at structured
    cases structured
  | _ => rfl

theorem inUse (h : s.IsReceiver base) : s.InUse base := by
  obtain ⟨pointer, hp⟩ := h.pointed
  refine ⟨TypeTable.index_lt_of_kind_ne fun hk => ?_, fun _ => .inr ⟨pointer, ?_⟩⟩
  · have structured := h.structured
    rw [TypeTable.isStructured, hk] at structured
    cases structured
  · rw [hp]
    exact List.mem_singleton_self base

/-- What methods can be declared on keeps its kind. -/
theorem kind_eq (h : s.IsReceiver base) (f : s.Fixes t) : t.types.kind base = s.types.kind base :=
  f.kind base h.inUse h.solid

theorem grows (h : s.IsReceiver base) (g : s.Grows t) (f : s.Fixes t) : t.IsReceiver base where
  structured := by
    rw [TypeTable.isStructured, h.kind_eq f]
    exact h.structured
  pointed := by
    obtain ⟨pointer, hp⟩ := h.pointed
    have known : pointer.index < s.types.size := TypeTable.index_lt_of_kind_ne (by rw [hp]; nofun)
    have kept := g.types.kind pointer known (by rw [TypeTable.isForward_eq, hp]; rfl)
    rw [hp] at kept
    refine ⟨pointer, ?_⟩
    generalize t.types.kind pointer = kind at kept ⊢
    cases kept
    rfl

end IsReceiver

theorem Receives.grows {base : TypeId} {name : String} (h : s.Receives base name) (g : s.Grows t)
    (f : s.Fixes t) : t.Receives base name where
  toIsReceiver := h.toIsReceiver.grows g f
  free := by
    rw [TypeTable.findField?, TypeTable.fields, h.kind_eq f]
    exact h.free

end Session

end FrontEnd
