import FrontEnd.Types.Layout

/-!
What the operations of the type table do to the kinds of types.
-/

namespace FrontEnd

@[ext] theorem TypeId.ext {a b : TypeId} (h : a.index = b.index) : a = b := by
  cases a; cases b; exact congrArg _ h

namespace TypeKind

def isForward : TypeKind → Bool
  | .forward _ => true
  | _ => false

def isStructure : TypeKind → Bool
  | .struct _ | .interface _ => true
  | _ => false

/-- The fields that a type has if it is a structure. -/
def fields : TypeKind → List Field
  | .struct fields | .interface fields => fields
  | _ => []

/-- The kind with one more field; a type without fields stays as it is. -/
def withField (field : Field) : TypeKind → TypeKind
  | .struct fields => .struct (fields ++ [field])
  | .interface fields => .interface (fields ++ [field])
  | kind => kind

theorem fields_withField {k : TypeKind} (h : k.isStructure = true) (field : Field) :
    (k.withField field).fields = k.fields ++ [field] := by
  cases k <;> first | rfl | cases h

theorem isStructure_withField (k : TypeKind) (field : Field) :
    (k.withField field).isStructure = k.isStructure := by
  cases k <;> rfl

theorem isForward_of_isStructure {k : TypeKind} (h : k.isStructure = true) :
    k.isForward = false := by
  cases k <;> first | rfl | cases h

end TypeKind

namespace TypeTable

variable {t : TypeTable}

theorem isForward_eq (t : TypeTable) (id : TypeId) : t.isForward id = (t.kind id).isForward := by
  unfold isForward TypeKind.isForward
  split <;> simp_all

theorem isForward_of_kind_eq {id : TypeId} {ident? : Option IdentId}
    (h : t.kind id = .forward ident?) : t.isForward id = true := by
  rw [isForward_eq, h]
  rfl

theorem fields_eq (t : TypeTable) (id : TypeId) : t.fields id = (t.kind id).fields := by
  unfold fields TypeKind.fields
  split <;> simp_all

/-- A number that is not in the table stands for a type without parts. -/
theorem kind_of_size_le {id : TypeId} (h : t.size ≤ id.index) : t.kind id = .builtin .void := by
  unfold kind
  rw [Array.getElem?_eq_none h]
  rfl

theorem index_lt_of_kind_ne {id : TypeId} (h : t.kind id ≠ .builtin .void) :
    id.index < t.size := by
  apply Nat.lt_of_not_le
  intro hle
  exact h (kind_of_size_le hle)

theorem index_lt_of_isStructure {id : TypeId} (h : (t.kind id).isStructure = true) :
    id.index < t.size :=
  index_lt_of_kind_ne fun hk => by
    rw [hk] at h
    exact absurd h (by decide)

theorem index_lt_of_isForward {id : TypeId} (h : t.isForward id = true) : id.index < t.size :=
  index_lt_of_kind_ne fun hk => by
    rw [isForward_eq, hk] at h
    exact absurd h (by decide)

/-! ### Adding -/

@[simp] theorem size_add (kind : TypeKind) : (t.add kind).2.size = t.size + 1 := by
  simp [add, size]

theorem kind_add_self (kind : TypeKind) : (t.add kind).2.kind ⟨t.size⟩ = kind := by
  simp [add, TypeTable.kind, size]

theorem kind_add_of_ne (kind : TypeKind) {id : TypeId} (h : id.index ≠ t.size) :
    (t.add kind).2.kind id = t.kind id := by
  unfold add TypeTable.kind size at *
  simp only [Array.getElem?_push]
  rw [if_neg h]

theorem kind_add (kind : TypeKind) (id : TypeId) :
    (t.add kind).2.kind id = if id.index = t.size then kind else t.kind id := by
  split
  · rename_i h
    rw [show id = ⟨t.size⟩ from TypeId.ext h, kind_add_self]
  · rename_i h
    exact kind_add_of_ne kind h

theorem mem_pending_add {kind : TypeKind} {id : TypeId} (h : id ∈ (t.add kind).2.pending) :
    id ∈ t.pending ∨ id = ⟨t.size⟩ := by
  unfold add at h
  cases kind with
  | forward _ => exact (List.mem_append.1 h).imp_right List.mem_singleton.1
  | _ => exact .inl h

/-! ### Changing a kind in place -/

theorem kind_set (id other : TypeId) (kind : TypeKind) (pending : List TypeId)
    (h : id.index < t.size) :
    TypeTable.kind ⟨t.kinds.setIfInBounds id.index kind, pending⟩ other =
      if other = id then kind else t.kind other := by
  unfold TypeTable.kind
  unfold size at h
  simp only [Array.getElem?_setIfInBounds]
  by_cases ho : other = id
  · subst ho
    simp [h]
  · have hi : ¬ id.index = other.index := fun hi => ho (TypeId.ext hi.symm)
    simp [ho, hi]

@[simp] theorem size_complete (forward concrete : TypeId) :
    (t.complete forward concrete).size = t.size := by
  simp [complete, size]

theorem kind_complete {forward : TypeId} (concrete : TypeId) (id : TypeId)
    (h : forward.index < t.size) :
    (t.complete forward concrete).kind id =
      if id = forward then t.kind concrete else t.kind id :=
  kind_set forward id (t.kind concrete) _ h

@[simp] theorem size_bind (forward : TypeId) (ident : IdentId) :
    (t.bind forward ident).size = t.size := by
  unfold bind
  split <;> simp [size]

theorem pending_bind (forward : TypeId) (ident : IdentId) :
    (t.bind forward ident).pending = t.pending := by
  unfold bind
  split <;> rfl

theorem kind_bind {forward : TypeId} (ident : IdentId) (id : TypeId)
    (h : t.isForward forward = true) :
    (t.bind forward ident).kind id =
      if id = forward then .forward (some ident) else t.kind id := by
  rw [bind, if_pos h]
  exact kind_set forward id _ _ (index_lt_of_isForward h)

/-- What adding a field does, where the offset and the size of the field fit. -/
theorem addField_eq_some {owner type : TypeId} {name : String} {offset : Int64} {u : TypeTable}
    (h : t.addField owner name type = some (offset, u)) :
    t.size? owner = some offset ∧ u.size = t.size ∧
      ∀ id, u.kind id =
        if id = owner then (t.kind owner).withField ⟨name, type, offset⟩ else t.kind id := by
  unfold addField at h
  simp only [Option.bind_eq_bind, Option.bind_eq_some_iff] at h
  obtain ⟨_, ho, _, _, _, _, h⟩ := h
  have keeps (id : TypeId) : (if id = owner then t.kind owner else t.kind id) = t.kind id := by
    split <;> simp_all
  split at h
  · rename_i hk
    cases h
    have hi : owner.index < t.size := index_lt_of_kind_ne (by simp [hk])
    refine ⟨ho, by simp [size], fun id => ?_⟩
    rw [kind_set owner id _ _ hi, hk]
    rfl
  · rename_i hk
    cases h
    have hi : owner.index < t.size := index_lt_of_kind_ne (by simp [hk])
    refine ⟨ho, by simp [size], fun id => ?_⟩
    rw [kind_set owner id _ _ hi, hk]
    rfl
  · rename_i h₁ h₂
    cases h
    refine ⟨ho, rfl, fun id => ?_⟩
    have hw : (t.kind owner).withField ⟨name, type, offset⟩ = t.kind owner := by
      unfold TypeKind.withField
      split
      · rename_i hk; exact absurd hk (h₁ _)
      · rename_i hk; exact absurd hk (h₂ _)
      · rfl
    rw [hw, keeps]

/-- Only a structure gains a field. -/
theorem isForward_addField {owner type : TypeId} {name : String} {offset : Int64} {u : TypeTable}
    (h : t.addField owner name type = some (offset, u)) (hs : (t.kind owner).isStructure = true)
    (id : TypeId) : u.isForward id = t.isForward id ∧
      (u.kind id = t.kind id ∨ u.isForward id = false) := by
  rw [isForward_eq, isForward_eq, (addField_eq_some h).2.2]
  split
  · rename_i he
    subst he
    have solid := TypeKind.isForward_of_isStructure
      ((TypeKind.isStructure_withField _ ⟨name, type, offset⟩).trans hs)
    exact ⟨solid.trans (TypeKind.isForward_of_isStructure hs).symm, .inr solid⟩
  · exact ⟨rfl, .inl rfl⟩

/-- A field is added only where the structure still has a size with it. -/
theorem size?_of_addField {owner type : TypeId} {name : String} {offset : Int64} {u : TypeTable}
    (h : t.addField owner name type = some (offset, u)) :
    ∃ size total, t.size? type = some size ∧ Word.add? offset size = some total := by
  unfold addField at h
  simp only [Option.bind_eq_bind, Option.bind_eq_some_iff] at h
  obtain ⟨offset', _, size, hs, total, ht, h⟩ := h
  have he : offset' = offset := by split at h <;> cases h <;> rfl
  exact ⟨size, total, hs, he ▸ ht⟩

theorem pending_addField {owner type : TypeId} {name : String} {offset : Int64} {u : TypeTable}
    (h : t.addField owner name type = some (offset, u)) : u.pending = t.pending := by
  unfold addField at h
  simp only [Option.bind_eq_bind, Option.bind_eq_some_iff] at h
  obtain ⟨_, _, _, _, _, _, h⟩ := h
  split at h <;> cases h <;> rfl

end TypeTable

end FrontEnd
