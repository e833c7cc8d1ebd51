import FrontEnd.Proofs.Types.References
import Mathlib.Data.List.Nodup
import Mathlib.Data.List.Perm.Subperm
import Mathlib.Logic.Relation
import Mathlib.Order.WellFounded

/-!
Containment by value. Where no type contains itself, the size of a type is found from the sizes of
its contents, however deep they are nested.
-/

namespace FrontEnd.TypeTable

variable {t u : TypeTable}

/-- Following the contents of a type comes to an end. -/
def IsFounded (t : TypeTable) : Prop := WellFounded fun part whole => t.Contains whole part

/-- No type lies inside its own values. -/
theorem IsFounded.acyclic (h : t.IsFounded) (id : TypeId) :
    ¬ Relation.TransGen t.Contains id id := by
  intro hc
  have hs : Relation.TransGen (fun part whole => t.Contains whole part) id id :=
    Relation.transGen_swap.1 hc
  exact (WellFounded.transGen h).irrefl.irrefl id hs

/-- Only the kind of `slot` is another one in `u`, and nothing contains `slot` in either table. -/
structure Replaces (t u : TypeTable) (slot : TypeId) : Prop where
  others : ∀ id, id ≠ slot → u.kind id = t.kind id
  free : ∀ id, ¬ t.Contains id slot
  free' : ∀ id, ¬ u.Contains id slot

theorem Replaces.contains {slot id : TypeId} (h : t.Replaces u slot) (hne : id ≠ slot)
    (part : TypeId) : u.Contains id part ↔ t.Contains id part := by
  rw [Contains, Contains, h.others id hne]

/-- Nothing comes to contain itself where only the kind of one type changes and nothing contains
that type. -/
theorem Replaces.isFounded {slot : TypeId} (r : t.Replaces u slot) (h : t.IsFounded) :
    u.IsFounded := by
  have other (id : TypeId) (hne : id ≠ slot) :
      Acc (fun part whole => u.Contains whole part) id := by
    induction id using h.induction with
    | _ id ih =>
      refine ⟨_, fun part hp => ih part ((r.contains hne part).1 hp) fun he => r.free' id (he ▸ hp)⟩
  refine ⟨fun id => ?_⟩
  by_cases he : id = slot
  · subst he
    exact ⟨_, fun part hp => other part fun he => r.free' id (he ▸ hp)⟩
  · exact other id he

/-- A type that is added lies inside no other one. -/
theorem replaces_add {kind : TypeKind}
    (known : ∀ whole part, t.Contains whole part → part.index < t.size)
    (hk : ∀ part ∈ kind.contents, part.index < t.size) :
    t.Replaces (t.add kind).2 ⟨t.size⟩ where
  others id hne := kind_add_of_ne kind fun he => hne (TypeId.ext he)
  free id hc := Nat.lt_irrefl _ (known id _ hc)
  free' id hc := by
    rw [Contains, kind_add] at hc
    split at hc
    · exact Nat.lt_irrefl _ (hk _ hc)
    · exact Nat.lt_irrefl _ (known id _ hc)

/-- A structure that nothing contains gains a field of another type. -/
theorem replaces_addField {owner type : TypeId} {name : String} {offset : Int64}
    (added : t.addField owner name type = some (offset, u))
    (free : ∀ id, ¬ t.Contains id owner) (other : type ≠ owner) : t.Replaces u owner := by
  obtain ⟨_, _, kinds⟩ := addField_eq_some added
  refine ⟨fun id hne => ?_, free, fun id hc => ?_⟩
  · rw [kinds, if_neg hne]
  · rw [Contains, kinds] at hc
    split at hc
    · rcases TypeKind.contents_withField hc with hc | hc
      · exact free owner hc
      · exact other hc.symm
    · exact free id hc

/-! ### Sizes -/

theorem sizeFrom_congr {f g : TypeId → Option Int64} {id : TypeId}
    (h : ∀ part, t.Contains id part → f part = g part) : t.sizeFrom f id = t.sizeFrom g id := by
  have fields (fields : List Field) (hc : (t.kind id).contents = fields.map (·.type)) {last : Field}
      (hl : fields.getLast? = some last) : f last.type = g last.type := by
    refine h last.type ?_
    rw [Contains, hc]
    exact List.mem_map_of_mem (List.mem_of_getLast? hl)
  unfold sizeFrom
  cases hk : t.kind id with
  | array base length =>
    dsimp only
    split
    · rfl
    · rename_i hl
      rw [h base (by rw [Contains, hk, TypeKind.contents, if_neg hl]; exact List.mem_singleton_self base)]
  | struct members =>
    dsimp only
    cases hl : members.getLast? with
    | none => rfl
    | some last =>
      dsimp only
      rw [fields members (by rw [hk]; rfl) hl]
  | interface members =>
    dsimp only
    cases hl : members.getLast? with
    | none => rfl
    | some last =>
      dsimp only
      rw [fields members (by rw [hk]; rfl) hl]
  | _ => rfl

theorem index_lt_of_contains {whole part : TypeId} (h : t.Contains whole part) :
    whole.index < t.size := by
  apply index_lt_of_kind_ne
  intro hk
  rw [Contains, hk] at h
  cases h

/-- No path of contents is longer than the table. -/
theorem length_le_of_nodup {path : List TypeId} (hn : path.Nodup)
    (hp : ∀ id ∈ path, id.index < t.size) : path.length ≤ t.size := by
  have nodup : (path.map (·.index)).Nodup := hn.map fun _ _ => TypeId.ext
  have subset : path.map (·.index) ⊆ List.range t.size := by
    intro n hm
    obtain ⟨id, hi, rfl⟩ := List.mem_map.1 hm
    exact List.mem_range.2 (hp id hi)
  have hl := (List.subperm_of_subset nodup subset).length_le
  rwa [List.length_map, List.length_range] at hl

/-- Behind a path of types that contain each other, the size of the next one needs no deeper nesting
than the table has types left. -/
theorem IsFounded.sizeWithin_eq (h : t.IsFounded) {depth : Nat} {id : TypeId} {path : List TypeId}
    (hn : path.Nodup) (hp : ∀ whole ∈ path, Relation.TransGen t.Contains whole id)
    (hd : path.length + depth = t.size + 1) {deeper : Nat} (hle : depth ≤ deeper) :
    t.sizeWithin deeper id = t.sizeWithin depth id := by
  induction depth generalizing id path deeper with
  | zero =>
    have bound := length_le_of_nodup (t := t) hn fun whole hw => by
      obtain ⟨part, hc, _⟩ := Relation.TransGen.head'_iff.1 (hp whole hw)
      exact index_lt_of_contains hc
    omega
  | succ depth ih =>
    obtain ⟨deeper, rfl⟩ : ∃ n, deeper = n + 1 := ⟨deeper - 1, by omega⟩
    rw [sizeWithin, sizeWithin]
    refine sizeFrom_congr fun part hc => ?_
    have fresh : id ∉ path := fun hm => h.acyclic id (hp id hm)
    refine ih (List.nodup_cons.2 ⟨fresh, hn⟩) (fun whole hw => ?_) ?_ (Nat.le_of_succ_le_succ hle)
    · rcases List.mem_cons.1 hw with rfl | hw
      · exact .single hc
      · exact (hp whole hw).tail hc
    · rw [List.length_cons]
      omega

/-- The size of a type is found from the sizes of its contents. -/
theorem IsFounded.size?_eq (h : t.IsFounded) (id : TypeId) : t.size? id = t.sizeFrom t.size? id := by
  have deeper : t.sizeWithin (t.size + 2) id = t.size? id :=
    h.sizeWithin_eq .nil nofun (by rw [List.length_nil, Nat.zero_add]) (Nat.le_succ _)
  rw [← deeper, sizeWithin]
  rfl

/-- Types of the same kind have the same size. -/
theorem IsFounded.size?_congr (h : t.IsFounded) {id other : TypeId} (hk : t.kind id = t.kind other) :
    t.size? id = t.size? other := by
  rw [h.size?_eq id, h.size?_eq other, sizeFrom, sizeFrom, hk]

/-- All other types keep their sizes. -/
theorem Replaces.size?_eq {slot : TypeId} (r : t.Replaces u slot) (h : t.IsFounded) {id : TypeId}
    (hne : id ≠ slot) : u.size? id = t.size? id := by
  induction id using h.induction with
  | _ id ih =>
    rw [(r.isFounded h).size?_eq id, h.size?_eq id]
    have from_ : u.sizeFrom u.size? id = t.sizeFrom u.size? id := by
      rw [sizeFrom, sizeFrom, r.others id hne]
    rw [from_]
    exact sizeFrom_congr fun part hp => ih part hp fun he => r.free id (he ▸ hp)

/-! ### Tables in which every type has a size -/

/-- The size of every type is a word. -/
def IsSized (t : TypeTable) : Prop := ∀ id, ∃ n, t.size? id = some n

theorem Replaces.isSized {slot : TypeId} (r : t.Replaces u slot) (h : t.IsFounded)
    (sized : t.IsSized) {n : Int64} (hn : u.size? slot = some n) : u.IsSized := by
  intro id
  by_cases he : id = slot
  · exact ⟨n, he ▸ hn⟩
  · obtain ⟨m, hm⟩ := sized id
    exact ⟨m, (r.size?_eq h he).trans hm⟩

/-- A type without contents has a size. -/
theorem IsFounded.size?_of_contents_nil (h : t.IsFounded) {id : TypeId}
    (hc : (t.kind id).contents = []) : ∃ n, t.size? id = some n := by
  rw [h.size?_eq id, sizeFrom]
  cases hk : t.kind id with
  | array base length =>
    rw [hk, TypeKind.contents] at hc
    split at hc
    · rename_i hl
      exact ⟨_, if_pos hl⟩
    · cases hc
  | struct fields =>
    rw [hk] at hc
    rw [List.map_eq_nil_iff.1 hc]
    exact ⟨_, rfl⟩
  | interface fields =>
    rw [hk] at hc
    rw [List.map_eq_nil_iff.1 hc]
    exact ⟨_, rfl⟩
  | _ => exact ⟨_, rfl⟩

/-- A structure ends behind its last field. -/
theorem IsFounded.size?_of_fields (h : t.IsFounded) {id : TypeId}
    (hs : (t.kind id).isStructure = true) : t.size? id =
      match (t.kind id).fields.getLast? with
      | none => some 0
      | some last => (t.size? last.type).bind (Word.add? last.offset) := by
  rw [h.size?_eq id, sizeFrom]
  cases hk : t.kind id <;> rw [hk] at hs <;> first | rfl | cases hs

/-- A structure that gains a field gains its size. -/
theorem Replaces.size?_addField {owner type : TypeId} {name : String} {offset total size : Int64}
    (r : t.Replaces u owner) (added : t.addField owner name type = some (offset, u))
    (h : t.IsFounded) (hs : (t.kind owner).isStructure = true) (other : type ≠ owner)
    (hz : t.size? type = some size) (ht : Word.add? offset size = some total) :
    u.size? owner = some total := by
  obtain ⟨_, _, kinds⟩ := addField_eq_some added
  have kind : u.kind owner = (t.kind owner).withField ⟨name, type, offset⟩ := by
    rw [kinds, if_pos rfl]
  have last : (u.kind owner).fields.getLast? = some ⟨name, type, offset⟩ := by
    rw [kind, TypeKind.fields_withField hs, List.getLast?_concat]
  have structured : (u.kind owner).isStructure = true := by
    rw [kind, TypeKind.isStructure_withField, hs]
  rw [(r.isFounded h).size?_of_fields structured, last]
  simp only [r.size?_eq h other, hz, Option.bind_some, ht]

/-- A forward type that is completed gets the size of its declaration. -/
theorem Replaces.size?_complete {forward concrete : TypeId}
    (r : t.Replaces (t.complete forward concrete) forward) (h : t.IsFounded)
    (hi : forward.index < t.size) (hne : concrete ≠ forward) :
    (t.complete forward concrete).size? forward = t.size? concrete := by
  have kind : (t.complete forward concrete).kind forward =
      (t.complete forward concrete).kind concrete := by
    rw [kind_complete concrete forward hi, if_pos rfl, kind_complete concrete concrete hi,
      if_neg hne]
  rw [(r.isFounded h).size?_congr kind, r.size?_eq h hne]

end FrontEnd.TypeTable
