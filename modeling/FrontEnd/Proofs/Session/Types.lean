import FrontEnd.Proofs.Session.Valid

/-!
The updates of the types of a session. Each lets the session grow, and each keeps it valid if what
is new is valid.
-/

namespace FrontEnd

variable {U V : Set TypeId} {s : Session}

namespace TypeTable

variable {t : TypeTable}

theorem grows_add (t : TypeTable) (kind : TypeKind) : t.Grows (t.add kind).2 where
  size := by rw [size_add]; exact Nat.le_succ _
  kind id hi _ := by
    rw [kind_add_of_ne kind (Nat.ne_of_lt hi)]
    exact .refl _

theorem grows_complete {forward : TypeId} (concrete : TypeId) (h : t.isForward forward = true) :
    t.Grows (t.complete forward concrete) where
  size := by rw [size_complete]
  kind id hi hf := by
    have hne : id ≠ forward := fun he => by rw [he, h] at hf; cases hf
    rw [kind_complete concrete id (index_lt_of_isForward h), if_neg hne]
    exact .refl _

theorem grows_bind {forward : TypeId} (ident : IdentId) (h : t.isForward forward = true) :
    t.Grows (t.bind forward ident) where
  size := by rw [size_bind]
  kind id _ hf := by
    have hne : id ≠ forward := fun he => by rw [he, h] at hf; cases hf
    rw [kind_bind ident id h, if_neg hne]
    exact .refl _

theorem grows_withField (k : TypeKind) (field : Field) : k.Grows (k.withField field) := by
  cases k with
  | struct fields => exact .struct fields [field]
  | interface fields => exact .interface fields [field]
  | _ => exact .refl _

theorem grows_addField {owner type : TypeId} {name : String} {offset : Int64} {u : TypeTable}
    (h : t.addField owner name type = some (offset, u)) : t.Grows u := by
  obtain ⟨_, hs, hk⟩ := addField_eq_some h
  refine ⟨Nat.le_of_eq hs.symm, fun id _ _ => ?_⟩
  rw [hk]
  split
  · rename_i he
    rw [he]
    exact grows_withField _ _
  · exact .refl _

end TypeTable

namespace Session

theorem grows_types {types : TypeTable} (h : s.types.Grows types) :
    s.Grows { s with types } :=
  { Grows.refl s with types := h }

/-- Changing the types keeps a session valid if the types themselves are valid. -/
theorem Valid.withTypes (h : s.Valid U) {types : TypeTable} (g : s.types.Grows types)
    (building : ∀ id ∈ V, id.index < types.size)
    (builtins : ∀ id : TypeId, id.index < TypeTable.initial.size →
      id ∉ V ∧ types.kind id = TypeTable.initial.kind id)
    (kinds : ∀ id, (types.kind id).Valid V { s with types })
    (forwards : ∀ id ident, types.kind id = .forward (some ident) →
      ∃ i, s.idents.get? ident = some i ∧ i.kind = .type ∧ i.type = id)
    (newest : ∀ id, types.kind id = .forward none → id.index + 1 = types.size)
    (pending : ∀ id ∈ types.pending, id.index < types.size)
    (closed : ∀ id, s.Usable U id → id ∉ V) : Session.Valid V { s with types } :=
  have g' := grows_types g
  have hu (id : TypeId) (hi : s.Usable U id) : Usable V { s with types } id :=
    ⟨(hi.grows g').has, closed id hi⟩
  { building
    builtins := ⟨Nat.le_trans h.builtins.1 g.size, builtins⟩
    kinds
    forwards
    newest
    pending
    idents := fun id i hi => (h.idents id i hi).transport g' hu
    keys := h.keys
    globals := fun slot v hv => (h.globals slot v hv).transport g' hu
    code := fun i hi => (h.code i hi).transport g' hu
    blocks := fun b hb => (h.blocks b hb).grows g'
    next := h.next
    module := h.module
    modules := fun id m hm => (h.modules id m hm).grows g'
    unfinished := h.unfinished
    names := h.names
    reserved := h.reserved }

/-- A structure that has just been added can be read: nothing refers to it. -/
theorem Valid.addType (h : s.Valid U) (hV : ∀ id ∈ V, id ∈ U ∨ id.index = s.types.size)
    (bound : s.Bound) (kind : TypeKind) (hk : kind.Valid U s)
    (hf : ∀ ident, kind ≠ .forward (some ident)) :
    Session.Valid V { s with types := (s.types.add kind).2 } := by
  have closed (id : TypeId) (hu : s.Usable U id) : id ∉ V := fun hi =>
    (hV id hi).elim hu.closed fun he => Nat.ne_of_lt hu.has he
  have g := s.types.grows_add kind
  refine h.withTypes g ?_ ?_ ?_ ?_ ?_ ?_ closed
  · intro id hi
    rw [TypeTable.size_add]
    rcases hV id hi with hu | he
    · exact Nat.lt_succ_of_lt (h.building id hu)
    · omega
  · intro id hi
    have hlt : id.index < s.types.size := Nat.lt_of_lt_of_le hi h.builtins.1
    obtain ⟨hu, hk⟩ := h.builtins.2 id hi
    refine ⟨fun hv => (hV id hv).elim hu fun he => ?_, ?_⟩
    · omega
    · rw [TypeTable.kind_add_of_ne kind (Nat.ne_of_lt hlt), hk]
  · intro id
    have hu (r : TypeId) (hr : s.Usable U r) :
        Usable V { s with types := (s.types.add kind).2 } r :=
      ⟨(hr.grows (grows_types g)).has, closed r hr⟩
    rw [TypeTable.kind_add]
    split
    · exact hk.transport (grows_types g) hu
    · exact (h.kinds id).transport (grows_types g) hu
  · intro id ident hi
    rw [TypeTable.kind_add] at hi
    split at hi
    · exact absurd hi (hf ident)
    · exact h.forwards id ident hi
  · intro id hi
    rw [TypeTable.kind_add] at hi
    split at hi
    · rename_i he
      rw [he, TypeTable.size_add]
    · exact absurd hi (bound id)
  · intro id hi
    rw [TypeTable.size_add]
    rcases TypeTable.mem_pending_add hi with hi | rfl
    · exact Nat.lt_succ_of_lt (h.pending id hi)
    · exact Nat.lt_succ_self _

/-- What has been read can be referred to. -/
theorem Valid.weaken (h : s.Valid V) (hU : U ⊆ V) : s.Valid U :=
  h.withTypes (.refl _) (fun id hi => h.building id (hU hi))
    (fun id hi => ⟨fun hu => (h.builtins.2 id hi).1 (hU hu), (h.builtins.2 id hi).2⟩)
    (fun id => (h.kinds id).transport (.refl s) fun _ hr => hr.mono hU)
    h.forwards h.newest h.pending fun _ hr hu => hr.closed (hU hu)

theorem Ready.weaken (h : s.Ready V) (hU : U ⊆ V) : s.Ready U :=
  { h with toValid := h.toValid.weaken hU }

/-- A valid table stays valid where the kind of one type is replaced by a valid one. -/
theorem Valid.setKind (h : s.Valid U) {types : TypeTable} (g : s.types.Grows types)
    {changed : TypeId} {kind : TypeKind} (size : types.size = s.types.size)
    (hs : ∀ id, types.kind id = if id = changed then kind else s.types.kind id)
    (hb : TypeTable.initial.size ≤ changed.index)
    (hk : kind.Valid U { s with types })
    (forwards : ∀ ident, kind = .forward (some ident) →
      ∃ i, s.idents.get? ident = some i ∧ i.kind = .type ∧ i.type = changed)
    (newest : kind ≠ .forward none) (pending : ∀ id ∈ types.pending, id ∈ s.types.pending) :
    Session.Valid U { s with types } := by
  refine h.withTypes g (by rw [size]; exact h.building) ?_ ?_ ?_ ?_ ?_ fun _ hr => hr.closed
  · intro id hi
    have hne : id ≠ changed := fun he => by rw [he] at hi; omega
    rw [hs, if_neg hne]
    exact h.builtins.2 id hi
  · intro id
    rw [hs]
    split
    · exact hk
    · exact (h.kinds id).transport (grows_types g) fun _ hr => hr.grows (grows_types g)
  · intro id ident hi
    rw [hs] at hi
    split at hi
    · rename_i he
      rw [he]
      exact forwards ident hi
    · exact h.forwards id ident hi
  · intro id hi
    rw [hs] at hi
    rw [size]
    split at hi
    · exact absurd hi newest
    · exact h.newest id hi
  · intro id hi
    rw [size]
    exact h.pending id (pending id hi)

theorem initial_kind_plain : ∀ i < TypeTable.initial.size,
    (TypeTable.initial.kind ⟨i⟩).isForward = false ∧
      (TypeTable.initial.kind ⟨i⟩).isStructure = false := by
  decide

theorem Valid.initial_le_of_forward (h : s.Valid U) {id : TypeId}
    (hf : s.types.isForward id = true) : TypeTable.initial.size ≤ id.index := by
  apply Nat.le_of_not_lt
  intro hi
  rw [TypeTable.isForward_eq, (h.builtins.2 id hi).2, (initial_kind_plain id.index hi).1] at hf
  cases hf

theorem Valid.initial_le_of_structure (h : s.Valid U) {id : TypeId}
    (hs : (s.types.kind id).isStructure = true) : TypeTable.initial.size ≤ id.index := by
  apply Nat.le_of_not_lt
  intro hi
  rw [(h.builtins.2 id hi).2, (initial_kind_plain id.index hi).2] at hs
  cases hs

theorem Valid.bind (h : s.Valid U) {forward : TypeId} {ident : IdentId}
    (hf : s.types.isForward forward = true)
    (hi : ∃ i, s.idents.get? ident = some i ∧ i.kind = .type ∧ i.type = forward) :
    Session.Valid U { s with types := s.types.bind forward ident } := by
  refine h.setKind (s.types.grows_bind ident hf) (s.types.size_bind forward ident)
    (fun id => s.types.kind_bind ident id hf) (h.initial_le_of_forward hf) ⟨?_, ?_, ?_⟩ ?_ ?_ ?_
  · intro r hr
    cases hr
  · intro r hr
    cases hr
  · intro n hn
    cases hn
  · rintro other ⟨⟩
    exact hi
  · intro he
    cases he
  · intro id hi
    rwa [TypeTable.pending_bind] at hi

theorem Valid.complete (h : s.Valid U) {forward concrete : TypeId}
    (hf : s.types.isForward forward = true) (hc : s.types.isForward concrete = false) :
    Session.Valid U { s with types := s.types.complete forward concrete } := by
  have hi := TypeTable.index_lt_of_isForward hf
  have g := s.types.grows_complete concrete hf
  rw [TypeTable.isForward_eq] at hc
  refine h.setKind g (s.types.size_complete forward concrete)
    (fun id => s.types.kind_complete concrete id hi) (h.initial_le_of_forward hf)
    ((h.kinds concrete).transport (grows_types g) fun _ hr => hr.grows (grows_types g)) ?_ ?_ ?_
  · intro ident hk
    rw [hk] at hc
    cases hc
  · intro hk
    rw [hk] at hc
    cases hc
  · intro id hi
    exact (List.mem_filter.1 hi).1

theorem Valid.addField (h : s.Valid U) {owner type : TypeId} {name : String} {offset : Int64}
    {types : TypeTable} (ha : s.types.addField owner name type = some (offset, types))
    (ho : (s.types.kind owner).isStructure = true) (ht : s.Usable U type)
    (hf : s.types.isForward type = false) (hn : name ∈ s.names.texts) :
    Session.Valid U { s with types } := by
  obtain ⟨_, hs, hk⟩ := TypeTable.addField_eq_some ha
  have g := TypeTable.grows_addField ha
  have hw := (h.kinds owner).transport (grows_types g) fun _ hr => hr.grows (grows_types g)
  refine h.setKind g hs hk (h.initial_le_of_structure ho) ⟨?_, ?_, ?_⟩ ?_ ?_ ?_
  · intro r hr
    rcases TypeKind.refs_withField hr with hr | rfl
    · exact hw.refs r hr
    · exact ht.grows (grows_types g)
  · intro r hr
    rcases TypeKind.parts_withField hr with hr | rfl
    · exact hw.parts r hr
    · exact (grows_types g).solid ht hf
  · intro n hm
    rcases TypeKind.names_withField hm with hm | rfl
    · exact hw.names n hm
    · exact hn
  · intro ident he
    cases hk : s.types.kind owner <;> rw [hk] at ho he <;> cases ho <;> cases he
  · intro he
    cases hk : s.types.kind owner <;> rw [hk] at ho he <;> cases ho <;> cases he
  · intro id hi
    rwa [TypeTable.pending_addField ha] at hi

end Session

end FrontEnd
