import FrontEnd.Symbols.Blocks

/-!
What the operations of the identifier table do, and what a look-up finds.
-/

namespace FrontEnd

@[ext] theorem IdentId.ext {a b : IdentId} (h : a.index = b.index) : a = b := by
  cases a; cases b; exact congrArg _ h

/-- A name for itself alone in its scope. -/
def Ident.key (i : Ident) : ModuleId × BlockId × Option TypeId × String :=
  (i.module, i.block, i.receiver?, i.name)

theorem Ident.isNamed_iff {i : Ident} {module : ModuleId} {block : BlockId}
    {receiver? : Option TypeId} {name : String} :
    i.isNamed module block receiver? name = true ↔ i.key = (module, block, receiver?, name) := by
  simp [isNamed, key, and_assoc]

namespace IdentTable

variable {t : IdentTable}

theorem getElem?_toList (t : IdentTable) (id : IdentId) : t.toList[id.index]? = t.get? id :=
  Array.getElem?_toList

theorem lt_of_get?_eq_some {id : IdentId} {i : Ident} (h : t.get? id = some i) :
    id.index < t.size := by
  obtain ⟨hi, _⟩ := Array.getElem?_eq_some_iff.1 h
  exact hi

theorem mem_of_get?_eq_some {id : IdentId} {i : Ident} (h : t.get? id = some i) :
    i ∈ t.idents :=
  Array.mem_of_getElem? h

theorem findNamed?_eq_some {module : ModuleId} {block : BlockId} {receiver? : Option TypeId}
    {name : String} {id : IdentId} (h : t.findNamed? module block receiver? name = some id) :
    ∃ i, t.get? id = some i ∧ i.key = (module, block, receiver?, name) := by
  unfold findNamed? at h
  obtain ⟨n, hn, rfl⟩ := Option.map_eq_some_iff.1 h
  obtain ⟨hlt, hp, _⟩ := Array.findIdx?_eq_some_iff_getElem.1 hn
  exact ⟨t.idents[n], Array.getElem?_eq_getElem hlt, Ident.isNamed_iff.1 hp⟩

theorem findNamed?_eq_none {module : ModuleId} {block : BlockId} {receiver? : Option TypeId}
    {name : String} (h : t.findNamed? module block receiver? name = none) {id : IdentId} {i : Ident}
    (hi : t.get? id = some i) : i.key ≠ (module, block, receiver?, name) := by
  unfold findNamed? at h
  have hn := Array.findIdx?_eq_none_iff.1 (Option.map_eq_none_iff.1 h) i (mem_of_get?_eq_some hi)
  intro he
  rw [Ident.isNamed_iff.2 he] at hn
  cases hn

/-- Where no two identifiers have the same key, a look-up finds the one that has it. -/
theorem findNamed?_of_get? (keys : ∀ id id' i i', t.get? id = some i → t.get? id' = some i' →
    i.key = i'.key → id = id') {id : IdentId} {i : Ident} (hi : t.get? id = some i) :
    t.findNamed? i.module i.block i.receiver? i.name = some id := by
  cases hf : t.findNamed? i.module i.block i.receiver? i.name with
  | none => exact absurd rfl (findNamed?_eq_none hf hi)
  | some id' =>
    obtain ⟨i', hi', hk⟩ := findNamed?_eq_some hf
    rw [keys id' id i' i hi' hi hk]

theorem insert?_eq_some {i : Ident} {id : IdentId} {u : IdentTable}
    (h : t.insert? i = some (id, u)) :
    id = ⟨t.size⟩ ∧ u = ⟨t.idents.push i⟩ ∧ ∀ id j, t.get? id = some j → j.key ≠ i.key := by
  unfold insert? at h
  split at h
  · cases h
  · rename_i hn
    cases h
    exact ⟨rfl, rfl, fun _ _ hj => findNamed?_eq_none hn hj⟩

theorem get?_push (t : IdentTable) (i : Ident) (id : IdentId) :
    IdentTable.get? ⟨t.idents.push i⟩ id = if id.index = t.size then some i else t.get? id := by
  unfold get? size
  rw [Array.getElem?_push]

theorem get?_modify (t : IdentTable) (id other : IdentId) (f : Ident → Ident) :
    (t.modify id f).get? other =
      if id.index = other.index then (t.get? other).map f else t.get? other := by
  unfold modify get?
  rw [Array.getElem?_modify]

end IdentTable

end FrontEnd
