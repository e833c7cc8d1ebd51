import FrontEnd.Proofs.Session.Update

/-!
Sessions that stay ready. A type whose kind changes, be it new, a structure that gains a field or a
forward type that is completed, lies inside no other type at that time; so no type ever comes to
contain itself, and the sizes of all other types stay as they are.
-/

namespace FrontEnd

variable {U : Set TypeId} {s t : Session}

namespace Session

/-- Only types that can be referred to lie inside others. -/
theorem Valid.usable_of_contains (h : s.Valid U) {whole part : TypeId}
    (hc : s.types.Contains whole part) : s.Usable U part :=
  (h.kinds whole).refs part
    (TypeKind.mem_refs_of_mem_parts (TypeKind.mem_parts_of_mem_contents hc))

/-- No forward type lies inside another type. -/
theorem Valid.not_contains_forward (h : s.Valid U) {part : TypeId}
    (hf : s.types.isForward part = true) (whole : TypeId) : ¬ s.types.Contains whole part := by
  intro hc
  have solid := (h.kinds whole).parts part (TypeKind.mem_parts_of_mem_contents hc)
  rw [hf] at solid
  cases solid

theorem Valid.replaces_add (h : s.Valid U) {kind : TypeKind} (hk : kind.Valid U s) :
    s.types.Replaces (s.types.add kind).2 ⟨s.types.size⟩ :=
  TypeTable.replaces_add (fun _ _ hc => (h.usable_of_contains hc).has) fun part hc =>
    (hk.refs part (TypeKind.mem_refs_of_mem_parts (TypeKind.mem_parts_of_mem_contents hc))).has

/-- Nothing refers to a structure that is being read. -/
theorem Valid.unreferenced (h : s.Valid U) {owner : TypeId} (ho : owner ∈ U) (id : TypeId) :
    owner ∉ (s.types.kind id).refs :=
  fun hr => ((h.kinds id).refs owner hr).closed ho

/-- Nothing contains a structure to which nothing refers. -/
theorem replaces_addField {owner type : TypeId} {name : String} {offset : Int64}
    {types : TypeTable} (added : s.types.addField owner name type = some (offset, types))
    (unreferenced : ∀ id, owner ∉ (s.types.kind id).refs) (other : type ≠ owner) :
    s.types.Replaces types owner :=
  TypeTable.replaces_addField added (fun id hc => unreferenced id
    (TypeKind.mem_refs_of_mem_parts (TypeKind.mem_parts_of_mem_contents hc))) other

/-- A forward type becomes another type while nothing contains it. -/
theorem Valid.replaces_complete (h : s.Valid U) {forward : TypeId} (concrete : TypeId)
    (pending : s.types.isForward forward = true) :
    s.types.Replaces (s.types.complete forward concrete) forward := by
  have hi := TypeTable.index_lt_of_isForward pending
  refine ⟨fun id hne => ?_, h.not_contains_forward pending, fun id hc => ?_⟩
  · rw [TypeTable.kind_complete concrete id hi, if_neg hne]
  · rw [TypeTable.Contains, TypeTable.kind_complete concrete id hi] at hc
    split at hc
    · exact h.not_contains_forward pending concrete hc
    · exact h.not_contains_forward pending id hc

theorem Valid.replaces_bind (h : s.Valid U) {forward : TypeId} (ident : IdentId)
    (pending : s.types.isForward forward = true) :
    s.types.Replaces (s.types.bind forward ident) forward := by
  refine ⟨fun id hne => ?_, h.not_contains_forward pending, fun id hc => ?_⟩
  · rw [TypeTable.kind_bind ident id pending, if_neg hne]
  · rw [TypeTable.Contains, TypeTable.kind_bind ident id pending] at hc
    split at hc
    · cases hc
    · exact h.not_contains_forward pending id hc

/-! ### New types -/

theorem Ready.addType (h : s.Ready U) {kind : TypeKind} (valid : kind.Valid U s)
    (solid : kind.isForward = false) {n : Int64}
    (size : (s.types.add kind).2.size? ⟨s.types.size⟩ = some n) :
    Session.Ready (insert ⟨s.types.size⟩ U) { s with types := (s.types.add kind).2 } := by
  have fresh (id : TypeId) (hi : id ∈ insert ⟨s.types.size⟩ U) : id ∈ U ∨ id.index = s.types.size :=
    hi.elim (fun he => .inr (congrArg TypeId.index he)) .inl
  have unnamed (ident? : Option IdentId) : kind ≠ .forward ident? := by
    rintro rfl
    cases solid
  have r := h.replaces_add valid
  refine ⟨h.toValid.addType fresh h.bound kind valid fun _ => unnamed _, fun id hk => ?_,
    r.isFounded h.founded, r.isSized h.founded h.sized size⟩
  rw [TypeTable.kind_add] at hk
  split at hk
  · exact unnamed none hk
  · exact h.bound id hk

/-- A type without contents has a size as soon as it is added. -/
theorem Valid.size?_add (h : s.Valid U) (hf : s.types.IsFounded) {kind : TypeKind}
    (valid : kind.Valid U s) (hc : kind.contents = []) :
    ∃ n, (s.types.add kind).2.size? ⟨s.types.size⟩ = some n :=
  ((h.replaces_add valid).isFounded hf).size?_of_contents_nil (by rw [TypeTable.kind_add_self, hc])

/-! ### Changed types -/

theorem Ready.addField (h : s.Ready U) {owner type : TypeId} {name : String} {offset : Int64}
    {types : TypeTable} (added : s.types.addField owner name type = some (offset, types))
    (ho : owner ∈ U) (hs : (s.types.kind owner).isStructure = true) (ht : s.Usable U type)
    (hf : s.types.isForward type = false) (hn : name ∈ s.names.texts) :
    Session.Ready U { s with types } := by
  have other : type ≠ owner := fun he => ht.closed (he ▸ ho)
  have r := replaces_addField added (h.unreferenced ho) other
  obtain ⟨size, total, hz, total⟩ := TypeTable.size?_of_addField added
  have size := r.size?_addField added h.founded hs other hz total
  refine ⟨h.toValid.addField added hs ht hf hn, fun id hk => ?_, r.isFounded h.founded,
    r.isSized h.founded h.sized size⟩
  rcases (TypeTable.isForward_addField added hs id).2 with he | he
  · exact h.bound id (he ▸ hk)
  · rw [TypeTable.isForward_eq, hk] at he
    cases he

theorem Ready.complete (h : s.Ready U) {forward concrete : TypeId}
    (hf : s.types.isForward forward = true) (hc : s.types.isForward concrete = false) :
    Session.Ready U { s with types := s.types.complete forward concrete } := by
  have hi := TypeTable.index_lt_of_isForward hf
  have r := h.replaces_complete concrete hf
  have other : concrete ≠ forward := by
    rintro rfl
    rw [hf] at hc
    cases hc
  obtain ⟨n, size⟩ := h.sized concrete
  have size := (r.size?_complete h.founded hi other).trans size
  refine ⟨h.toValid.complete hf hc, fun id hk => ?_, r.isFounded h.founded,
    r.isSized h.founded h.sized size⟩
  rw [TypeTable.kind_complete _ id hi] at hk
  split at hk
  · exact h.bound _ hk
  · exact h.bound id hk

end Session

end FrontEnd
