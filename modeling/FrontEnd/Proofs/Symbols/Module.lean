import FrontEnd.Symbols.Module

/-!
What the operations of the module table do.
-/

namespace FrontEnd

@[ext] theorem ModuleId.ext {a b : ModuleId} (h : a.index = b.index) : a = b := by
  cases a; cases b; exact congrArg _ h

namespace ModuleTable

variable {t : ModuleTable}

theorem lt_of_get?_eq_some {id : ModuleId} {m : Module} (h : t.get? id = some m) :
    id.index < t.size := by
  obtain ⟨hi, _⟩ := Array.getElem?_eq_some_iff.1 h
  exact hi

@[simp] theorem size_add (path folder name : String) :
    (t.add path folder name).2.size = t.size + 1 := by
  simp [add, size]

theorem get?_add (path folder name : String) (id : ModuleId) :
    (t.add path folder name).2.get? id =
      if id.index = t.size then some ⟨path, folder, name, []⟩ else t.get? id := by
  unfold add get? size
  rw [Array.getElem?_push]

theorem modules_begin (id : ModuleId) : (t.begin id).modules = t.modules := by
  unfold begin
  split <;> rfl

theorem size_begin (id : ModuleId) : (t.begin id).size = t.size := by
  rw [size, modules_begin, size]

theorem get?_begin (id other : ModuleId) : (t.begin id).get? other = t.get? other := by
  rw [get?, modules_begin, get?]

theorem mem_unfinished_begin {id other : ModuleId} (h : other ∈ (t.begin id).unfinished) :
    other = id ∨ other ∈ t.unfinished := by
  unfold begin at h
  split at h
  · exact .inr h
  · exact List.mem_cons.1 h

theorem mem_unfinished_begin_self (id : ModuleId) : id ∈ (t.begin id).unfinished := by
  unfold begin
  split
  · rename_i already
    simpa [isUnfinished] using already
  · exact List.mem_cons_self

theorem unfinished_begin {id : ModuleId} (h : id ∉ t.unfinished) :
    (t.begin id).unfinished = id :: t.unfinished := by
  unfold begin isUnfinished
  rw [if_neg (by simpa using h)]

theorem size_addImport (importer imported : ModuleId) :
    (t.addImport importer imported).size = t.size := by
  unfold addImport
  split
  · rfl
  · exact Array.size_modify

theorem unfinished_addImport (importer imported : ModuleId) :
    (t.addImport importer imported).unfinished = t.unfinished := by
  unfold addImport
  split <;> rfl

/-- Recording an import changes nothing but the imports of the importer. -/
theorem get?_of_addImport {importer imported id : ModuleId} {m : Module}
    (h : (t.addImport importer imported).get? id = some m) :
    ∃ n, t.get? id = some n ∧ (m = n ∨ m = { n with imports := n.imports ++ [imported] }) := by
  unfold addImport at h
  split at h
  · exact ⟨m, h, .inl rfl⟩
  · rw [get?, Array.getElem?_modify] at h
    split at h
    · obtain ⟨n, hn, rfl⟩ := Option.map_eq_some_iff.1 h
      exact ⟨n, hn, .inr rfl⟩
    · exact ⟨m, h, .inl rfl⟩

/-- Modules keep their paths. -/
theorem path_addImport (importer imported id : ModuleId) :
    (t.addImport importer imported).path id = t.path id := by
  have same : ((t.addImport importer imported).get? id).map (·.path) = (t.get? id).map (·.path) := by
    unfold addImport
    split
    · rfl
    · rw [get?, Array.getElem?_modify, get?]
      split
      · rw [Option.map_map]
        rfl
      · rfl
  rw [path, same, path]

theorem path_of_get? {id : ModuleId} {m : Module} (h : t.get? id = some m) : t.path id = m.path := by
  rw [path, h]
  rfl

theorem get?_addImport (importer imported : ModuleId) {id : ModuleId} {m : Module}
    (h : t.get? id = some m) :
    (t.addImport importer imported).get? id = some m ∨
      (t.addImport importer imported).get? id =
        some { m with imports := m.imports ++ [imported] } := by
  unfold addImport
  split
  · exact .inl h
  · rw [get?, Array.getElem?_modify]
    split
    · right
      rw [show t.modules[id.index]? = some m from h]
      rfl
    · exact .inl h

/-- Of the modules with the parts of `path`, the last one is found. -/
theorem findByPath?_eq_some {path : String} {id : ModuleId} (h : t.findByPath? path = some id) :
    (∃ m, t.get? id = some m ∧ Path.sameParts m.path path = true) ∧
      ∀ other n, t.get? other = some n → Path.sameParts n.path path = true →
        other.index ≤ id.index := by
  unfold findByPath? at h
  obtain ⟨i, hi, rfl⟩ := Option.map_eq_some_iff.1 h
  obtain ⟨found, before, after, split_, none⟩ := List.find?_eq_some_iff_append.1 hi
  refine ⟨?_, fun other n hn same => Nat.le_of_not_lt fun hlt => ?_⟩
  · split at found
    · rename_i m hm
      exact ⟨m, hm, found⟩
    · cases found
  · -- What comes behind `i` in the reversed range is less than `i`.
    have known := lt_of_get?_eq_some hn
    have mem : other.index ∈ (List.range t.size).reverse :=
      List.mem_reverse.2 (List.mem_range.2 known)
    have sorted : (List.range t.size).reverse.Pairwise (· > ·) :=
      List.pairwise_reverse.2 List.pairwise_lt_range
    rw [split_] at mem sorted
    rcases List.mem_append.1 mem with mem | mem
    · have none := none _ mem
      rw [show t.modules[other.index]? = some n from hn] at none
      simp [same] at none
    · rcases List.mem_cons.1 mem with he | mem
      · exact Nat.ne_of_gt hlt he
      · have behind := (List.pairwise_cons.1 (List.pairwise_append.1 sorted).2.1).1 _ mem
        exact Nat.lt_asymm hlt behind

theorem findByPath?_eq_none {path : String} (h : t.findByPath? path = none) {id : ModuleId}
    {m : Module} (hm : t.get? id = some m) : Path.sameParts m.path path = false := by
  unfold findByPath? at h
  have known := List.mem_reverse.2 (List.mem_range.2 (lt_of_get?_eq_some hm))
  have none := List.find?_eq_none.1 (Option.map_eq_none_iff.1 h) _ known
  rw [show t.modules[id.index]? = some m from hm] at none
  simpa using none

/-! ### Who imports whom -/

/-- The module `importer` imports the module `imported` itself. -/
def Imports (t : ModuleTable) (importer imported : ModuleId) : Prop :=
  t.imports importer imported = true

theorem imports_iff {importer imported : ModuleId} :
    t.Imports importer imported ↔ ∃ m, t.get? importer = some m ∧ imported ∈ m.imports := by
  unfold Imports imports importsOf
  cases t.get? importer <;> simp

theorem get?_addImport_of_ne {importer id : ModuleId} (h : id ≠ importer) (imported : ModuleId) :
    (t.addImport importer imported).get? id = t.get? id := by
  unfold addImport
  split
  · rfl
  · rw [get?, Array.getElem?_modify, if_neg fun he => h (ModuleId.ext he.symm)]
    rfl

/-- The importer has the import afterwards, whether it had it before or not. -/
theorem get?_addImport_self {importer : ModuleId} (imported : ModuleId) {m : Module}
    (h : t.get? importer = some m) :
    ∃ imports, (t.addImport importer imported).get? importer = some { m with imports } ∧
      ∀ e, e ∈ imports ↔ e ∈ m.imports ∨ e = imported := by
  unfold addImport
  split
  · rename_i already
    obtain ⟨n, hn, hi⟩ := imports_iff.1 already
    cases h.symm.trans hn
    refine ⟨m.imports, h, fun e => ⟨.inl, fun he => he.elim id ?_⟩⟩
    rintro rfl
    exact hi
  · refine ⟨m.imports ++ [imported], ?_, fun e => by rw [List.mem_append, List.mem_singleton]⟩
    rw [get?, Array.getElem?_modify, if_pos rfl, show t.modules[importer.index]? = some m from h]
    rfl

theorem imports_addImport {importer imported a b : ModuleId}
    (h : (t.addImport importer imported).Imports a b) :
    t.Imports a b ∨ a = importer ∧ b = imported := by
  obtain ⟨m, hm, hb⟩ := imports_iff.1 h
  by_cases ha : a = importer
  · subst ha
    obtain ⟨n, hn, _⟩ := get?_of_addImport hm
    obtain ⟨imports, hi, all⟩ := get?_addImport_self imported hn
    cases hm.symm.trans hi
    exact ((all b).1 hb).imp (fun hb => imports_iff.2 ⟨n, hn, hb⟩) fun he => ⟨rfl, he⟩
  · rw [get?_addImport_of_ne ha imported] at hm
    exact .inl (imports_iff.2 ⟨m, hm, hb⟩)

end ModuleTable

end FrontEnd
