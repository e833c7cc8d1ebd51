import FrontEnd.Proofs.Frames

/-!
Tables with structures that are not finished. Such a structure gains fields, but nothing contains it
yet; all other types keep their kinds, and so their sizes.
-/

namespace FrontEnd.TypeTable

variable {b t u v : TypeTable} {U V O : Set TypeId} {owner type : TypeId} {kind : TypeKind}

/-- The types of `t` have kept their kinds, except for those in `O`. -/
structure Keeps (O : Set TypeId) (t u : TypeTable) : Prop where
  size : t.size ≤ u.size
  kinds : ∀ id : TypeId, id.index < t.size → id ∉ O → u.kind id = t.kind id

namespace Keeps

theorem refl (O : Set TypeId) (t : TypeTable) : t.Keeps O t :=
  ⟨Nat.le_refl _, fun _ _ _ => rfl⟩

theorem trans (h : t.Keeps O u) (h' : u.Keeps O v) : t.Keeps O v where
  size := h.size.trans h'.size
  kinds id hi ho := (h'.kinds id (Nat.lt_of_lt_of_le hi h.size) ho).trans (h.kinds id hi ho)

theorem mono (h : t.Keeps O u) (hO : O ⊆ V) : t.Keeps V u :=
  ⟨h.size, fun id hi hv => h.kinds id hi fun ho => hv (hO ho)⟩

end Keeps

theorem keeps_add (O : Set TypeId) (t : TypeTable) (kind : TypeKind) :
    t.Keeps O (t.add kind).2 where
  size := by
    rw [size_add]
    exact Nat.le_succ _
  kinds _ hi _ := kind_add_of_ne kind (Nat.ne_of_lt hi)

/-- The table `t` comes from `b`, and the structures `U` in it are open: nothing contains them. -/
structure Opens (b : TypeTable) (U : Set TypeId) (t : TypeTable) : Prop where
  size : b.size ≤ t.size
  kinds : ∀ id : TypeId, id.index < b.size → t.kind id = b.kind id
  founded : t.IsFounded
  known : ∀ whole part, t.Contains whole part → part.index < t.size
  fresh : ∀ o ∈ U, b.size ≤ o.index
  structured : ∀ o ∈ U, (t.kind o).isStructure = true
  free : ∀ o ∈ U, ∀ whole, ¬ t.Contains whole o

/-- A type of the table that is not open. -/
structure Closed (U : Set TypeId) (t : TypeTable) (id : TypeId) : Prop where
  has : id.index < t.size
  closed : id ∉ U

/-- What has no contents contains nothing that is open. -/
theorem closed_of_contents_nil (h : kind.contents = []) :
    ∀ part ∈ kind.contents, t.Closed U part := by
  rw [h]
  exact fun _ hm => absurd hm List.not_mem_nil

theorem Closed.keeps (h : t.Closed U type) (k : t.Keeps O u) : u.Closed U type :=
  ⟨Nat.lt_of_lt_of_le h.has k.size, h.closed⟩

namespace Opens

theorem mono (h : b.Opens V t) (hU : U ⊆ V) : b.Opens U t :=
  { h with
    fresh := fun o ho => h.fresh o (hU ho)
    structured := fun o ho => h.structured o (hU ho)
    free := fun o ho => h.free o (hU ho) }

theorem closed_of_lt (h : b.Opens U t) {id : TypeId} (hi : id.index < b.size) : t.Closed U id :=
  ⟨Nat.lt_of_lt_of_le hi h.size, fun ho => Nat.not_le_of_lt hi (h.fresh id ho)⟩

/-- All types that have kept their kinds have kept their sizes. -/
theorem size?_eq (h : b.Opens U t) (h' : b.Opens V u) (k : t.Keeps O u) (hO : O ⊆ U) {id : TypeId}
    (hi : id.index < t.size) (ho : id ∉ O) : u.size? id = t.size? id := by
  refine h.founded.size?_eq_of_kinds h'.founded
    (P := fun id => id.index < t.size ∧ id ∉ O) (fun id hp => k.kinds id hp.1 hp.2)
    (fun whole part _ hc => ⟨h.known whole part hc, fun ho => ?_⟩) ⟨hi, ho⟩
  exact h.free part (hO ho) whole hc

/-- The types of `b` have the sizes that they have there. -/
theorem size?_base (h : b.Opens U t) (hb : b.Opens ∅ b) {id : TypeId} (hi : id.index < b.size) :
    t.size? id = b.size? id := by
  have keeps : b.Keeps ∅ t := ⟨h.size, fun id hi _ => h.kinds id hi⟩
  exact hb.size?_eq h keeps (Set.Subset.refl _) hi (Set.notMem_empty id)

/-! ### New types -/

theorem replaces_add (h : b.Opens U t) (hk : ∀ part ∈ kind.contents, t.Closed U part) :
    t.Replaces (t.add kind).2 ⟨t.size⟩ :=
  TypeTable.replaces_add h.known fun part hc => (hk part hc).has

theorem add (h : b.Opens U t) (hk : ∀ part ∈ kind.contents, t.Closed U part) :
    b.Opens U (t.add kind).2 where
  size := h.size.trans (keeps_add ∅ t kind).size
  kinds id hi :=
    (kind_add_of_ne kind (Nat.ne_of_lt (Nat.lt_of_lt_of_le hi h.size))).trans (h.kinds id hi)
  founded := (h.replaces_add hk).isFounded h.founded
  known whole part hc := by
    rw [Contains, kind_add] at hc
    refine Nat.lt_of_lt_of_le ?_ (keeps_add ∅ t kind).size
    split at hc
    · exact (hk part hc).has
    · exact h.known whole part hc
  fresh := h.fresh
  structured o ho := by
    have hs := h.structured o ho
    rwa [kind_add_of_ne kind (Nat.ne_of_lt (index_lt_of_isStructure hs))]
  free o ho whole hc := by
    rw [Contains, kind_add] at hc
    split at hc
    · exact (hk o hc).closed ho
    · exact h.free o ho whole hc

/-- The size of a new type is found from those of its contents. -/
theorem size?_add (h : b.Opens U t) (hk : ∀ part ∈ kind.contents, t.Closed U part) :
    (t.add kind).2.size? ⟨t.size⟩ =
      (t.add kind).2.sizeFrom (t.add kind).2.size? ⟨t.size⟩ :=
  (h.add hk).founded.size?_eq _

theorem size?_add_of_closed (h : b.Opens U t) (hk : ∀ part ∈ kind.contents, t.Closed U part)
    {id : TypeId} (hi : t.Closed U id) : (t.add kind).2.size? id = t.size? id :=
  h.size?_eq (h.add hk) (keeps_add ∅ t kind) (Set.empty_subset U) hi.has (Set.notMem_empty id)

/-- A new structure without fields is open. -/
theorem start (h : b.Opens U t) (hs : kind.isStructure = true) (empty : kind.contents = []) :
    b.Opens (insert ⟨t.size⟩ U) (t.add kind).2 := by
  have closed : ∀ part ∈ kind.contents, t.Closed U part := closed_of_contents_nil empty
  have added := h.add closed
  refine { added with fresh := ?_, structured := ?_, free := ?_ }
  · rintro o (rfl | ho)
    · exact h.size
    · exact added.fresh o ho
  · rintro o (rfl | ho)
    · rw [kind_add_self, hs]
    · exact added.structured o ho
  · rintro o (rfl | ho)
    · exact (h.replaces_add closed).free'
    · exact added.free o ho

/-! ### New fields -/

/-- An open structure has gained a field at its end. -/
structure Gains (b : TypeTable) (U : Set TypeId) (t : TypeTable) (owner : TypeId) (field : Field)
    (total : Int64) (u : TypeTable) : Prop where
  opens : b.Opens U u
  keeps : t.Keeps {owner} u
  kind : u.kind owner = (t.kind owner).withField field
  size : u.size? owner = some total

/-- A field can be added to an open structure if the structure still has a size with it. -/
theorem exists_addField (h : b.Opens U t) (ho : owner ∈ U) (name : String)
    (ht : t.Closed U type) {offset size total : Int64} (start : t.size? owner = some offset)
    (hz : t.size? type = some size) (stop : Word.add? offset size = some total) :
    ∃ u, t.addField owner name type = some (offset, u) ∧
      Gains b U t owner ⟨name, type, offset⟩ total u := by
  have structured := h.structured owner ho
  obtain ⟨u, added⟩ : ∃ u, t.addField owner name type = some (offset, u) := by
    unfold addField
    simp only [Option.bind_eq_bind, start, hz, stop, Option.bind_some]
    split <;> exact ⟨_, rfl⟩
  obtain ⟨_, same, kinds⟩ := addField_eq_some added
  have other : type ≠ owner := fun he => ht.closed (he ▸ ho)
  have r := TypeTable.replaces_addField added (h.free owner ho) other
  have keeps : t.Keeps {owner} u := ⟨same.ge, fun id _ hne => r.others id hne⟩
  have gained : u.kind owner = (t.kind owner).withField ⟨name, type, offset⟩ := by
    rw [kinds, if_pos rfl]
  have contains (whole part : TypeId) (hc : u.Contains whole part) :
      t.Contains whole part ∨ part = type := by
    by_cases he : whole = owner
    · subst he
      rw [Contains, gained] at hc
      exact TypeKind.contents_withField hc
    · exact .inl ((r.contains he part).1 hc)
  refine ⟨u, added, ?_, keeps, gained,
    r.size?_addField added h.founded structured other hz stop⟩
  refine ⟨h.size.trans same.ge, fun id hi => ?_, r.isFounded h.founded, fun whole part hc => ?_,
    h.fresh, fun o hm => ?_, fun o hm whole hc => ?_⟩
  · rw [r.others id fun he => Nat.not_le_of_lt hi (he ▸ h.fresh owner ho), h.kinds id hi]
  · rw [same]
    rcases contains whole part hc with hc | rfl
    · exact h.known whole part hc
    · exact ht.has
  · by_cases he : o = owner
    · rw [he, gained, TypeKind.isStructure_withField, structured]
    · rw [r.others o he, h.structured o hm]
  · rcases contains whole o hc with hc | rfl
    · exact h.free o hm whole hc
    · exact ht.closed hm

end Opens

end FrontEnd.TypeTable
