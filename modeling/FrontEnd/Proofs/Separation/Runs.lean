import FrontEnd.Proofs.Separation.Course
import FrontEnd.Proofs.Separation.Function

/-!
Two compilations in which some files are the same. The modules of these files import modules of the
same files, the same declarations stand in them, and those that a module imports come before it in
either compilation, whatever else is read in between.
-/

namespace FrontEnd

open Session Relation

/-! ### Words behind the imports -/

namespace Action

variable {load? load?' : Option (Path → Action ModuleId)} {setup setup' : Setup}
  {run run' : List Session} {s s' t t' : Session} {stream : Stream}

theorem stream_of_importItem {rest : Shorter stream}
    (h : (importItem load? stream).PassesIn setup run s rest t) :
    ∃ past, importLiteral? stream = some past ∧ rest.stream = past.stream := by
  unfold importItem at h
  split at h
  · exact absurd h not_passes_fail
  · rename_i literal s₁ h₁ known
    obtain ⟨_, _, _, h⟩ := passes_bind (passes_get.1 h)
    obtain ⟨_, _, _, h⟩ := passes_bind h
    obtain ⟨rfl, _⟩ := passes_pure h
    exact ⟨_, known, rfl⟩

theorem importItem_alike {rest rest' : Shorter stream}
    (h : (importItem load? stream).PassesIn setup run s rest t)
    (h' : (importItem load?' stream).PassesIn setup' run' s' rest' t') :
    rest.stream = rest'.stream := by
  obtain ⟨past, known, he⟩ := stream_of_importItem h
  obtain ⟨past', known', he'⟩ := stream_of_importItem h'
  cases known.symm.trans known'
  exact he.trans he'.symm

theorem separator_alike {closing : Symbol} {rest rest' : Kept stream}
    (h : (separator closing stream).PassesIn setup run s rest t)
    (h' : (separator closing stream).PassesIn setup' run' s' rest' t') : rest = rest' := by
  unfold separator at h h'
  split at h <;> rename_i ends
  · rw [if_pos ends] at h'
    obtain ⟨rfl, _⟩ := passes_pure h
    obtain ⟨rfl, _⟩ := passes_pure h'
    rfl
  · rw [if_neg ends] at h'
    obtain ⟨past, known, h⟩ := passes_eat_bind h
    obtain ⟨past', known', h'⟩ := passes_eat_bind h'
    obtain ⟨rfl, _⟩ := passes_pure h
    obtain ⟨rfl, _⟩ := passes_pure h'
    cases known.symm.trans known'
    rfl

theorem importItems_alike (stream : Stream) {s s' t t' : Session} {rest rest' : Kept stream}
    (h : (importItems load? stream).PassesIn setup run s rest t)
    (h' : (importItems load?' stream).PassesIn setup' run' s' rest' t') :
    rest.stream = rest'.stream := by
  rw [importItems] at h h'
  split at h <;> rename_i ends
  · rw [if_pos ends] at h'
    obtain ⟨rfl, _⟩ := passes_pure h
    obtain ⟨rfl, _⟩ := passes_pure h'
    rfl
  · rw [if_neg ends] at h'
    obtain ⟨⟨⟨⟩, s₁, h₁⟩, _, item, h⟩ := passes_bind h
    obtain ⟨⟨⟨⟩, _, _⟩, _, item', h'⟩ := passes_bind h'
    obtain rfl := importItem_alike item item'
    obtain ⟨⟨⟨⟩, s₂, h₂⟩, _, parted, h⟩ := passes_bind h
    obtain ⟨_, _, parted', h'⟩ := passes_bind h'
    obtain rfl := separator_alike parted parted'
    have hlt := (h₂.behind h₁).2
    obtain ⟨more, _, items, h⟩ := passes_bind h
    obtain ⟨more', _, items', h'⟩ := passes_bind h'
    obtain ⟨rfl, _⟩ := passes_pure h
    obtain ⟨rfl, _⟩ := passes_pure h'
    exact importItems_alike s₂ items items'
termination_by stream.size

theorem importClause_alike {rest rest' : Shorter stream}
    (h : (importClause load? stream).PassesIn setup run s rest t)
    (h' : (importClause load?' stream).PassesIn setup' run' s' rest' t') :
    rest.stream = rest'.stream := by
  unfold importClause at h h'
  obtain ⟨past, known, h⟩ := passes_eat_bind h
  obtain ⟨_, known', h'⟩ := passes_eat_bind h'
  cases known.symm.trans known'
  obtain ⟨⟨⟩, s₁, h₁⟩ := past
  dsimp only at h h'
  cases paren : s₁.skip? .openParen with
  | none =>
    rw [paren] at h h'
    obtain ⟨_, _, item, h⟩ := passes_bind h
    obtain ⟨_, _, item', h'⟩ := passes_bind h'
    have same := importItem_alike item item'
    obtain ⟨rfl, _⟩ := passes_pure h
    obtain ⟨rfl, _⟩ := passes_pure h'
    exact same
  | some opened =>
    rw [paren] at h h'
    obtain ⟨⟨⟨⟩, s₃, h₃⟩, _, items, h⟩ := passes_bind h
    obtain ⟨⟨⟨⟩, _, _⟩, _, items', h'⟩ := passes_bind h'
    obtain rfl := importItems_alike _ items items'
    obtain ⟨_, known, h⟩ := passes_eat_bind h
    obtain ⟨_, known', h'⟩ := passes_eat_bind h'
    cases known.symm.trans known'
    obtain ⟨rfl, _⟩ := passes_pure h
    obtain ⟨rfl, _⟩ := passes_pure h'
    rfl

/-- Where the imports of a file end does not depend on what they lead to. -/
theorem optionalImports_alike {rest rest' : Kept stream}
    (h : (optionalImports load? stream).PassesIn setup run s rest t)
    (h' : (optionalImports load?' stream).PassesIn setup' run' s' rest' t') :
    rest.stream = rest'.stream := by
  unfold optionalImports at h h'
  split at h <;> rename_i clause
  · rw [if_pos clause] at h'
    obtain ⟨⟨⟨⟩, s₁, h₁⟩, _, read, h⟩ := passes_bind h
    obtain ⟨⟨⟨⟩, _, _⟩, _, read', h'⟩ := passes_bind h'
    obtain rfl := importClause_alike read read'
    obtain ⟨_, known, h⟩ := passes_eat_bind h
    obtain ⟨_, known', h'⟩ := passes_eat_bind h'
    cases known.symm.trans known'
    obtain ⟨rfl, _⟩ := passes_pure h
    obtain ⟨rfl, _⟩ := passes_pure h'
    rfl
  · rw [if_neg clause] at h'
    obtain ⟨rfl, _⟩ := passes_pure h
    obtain ⟨rfl, _⟩ := passes_pure h'
    rfl

end Action

/-- The same words of a file are left behind its imports. -/
theorem Setup.BehindImports.eq {setup setup' : Setup} {path : String} {stream stream' : Stream}
    (h : setup.BehindImports path stream) (h' : setup'.BehindImports path stream')
    (words : setup.words? path = setup'.words? path) : stream = stream' := by
  obtain ⟨file, _, _, rest, _, known, read, rfl⟩ := h
  obtain ⟨file', _, _, rest', _, known', read', rfl⟩ := h'
  cases known.symm.trans (words.trans known')
  exact Action.optionalImports_alike read.passes read'.passes

/-! ### Runs -/

/-- The files that are read have different names. The predeclared names count if some file imports
them. -/
def ModuleTable.HasDistinctStems (t : ModuleTable) : Prop :=
  ∀ a b, ReflTransGen t.Imports .root a → ReflTransGen t.Imports .root b →
    Path.stem (t.path a) = Path.stem (t.path b) → a = b

/-- A compilation that succeeds, with its course, in which no two files have the same name. -/
structure Run where
  setup : Setup
  root : String
  final : Session
  phases : List Phase
  compiled : compile setup root = .ok final
  course : Course setup root phases final
  named : final.modules.HasDistinctStems

theorem Session.Change.grows_modules {s t : Session} (h : s.Change t) :
    s.modules.Grows t.modules := by
  cases h with
  | step _ step =>
    cases step with
    | openModule =>
      intro id m hm
      refine ⟨m.imports, ?_, List.Subset.refl _⟩
      rw [Session.openModule, ModuleTable.get?_begin, ModuleTable.get?_add,
        if_neg (Nat.ne_of_lt (ModuleTable.lt_of_get?_eq_some hm))]
      exact hm
    | addImport => exact ModuleTable.grows_addImport _ _
    | _ => exact .refl _
  | _ => exact .refl _

namespace Run

variable {r : Run} {p q : Phase} {g h : ModuleId}

theorem ends (r : Run) : (history r.setup r.root).getLast? = some r.final :=
  getLast?_history_of_compile r.compiled

theorem reached (r : Run) : r.final ∈ history r.setup r.root := List.mem_of_getLast? r.ends

theorem imported (r : Run) : WellImported r.setup r.root r.final.modules :=
  wellImported_of_compile r.compiled

theorem passed (hp : p ∈ r.phases) : p.IsPassed r.setup r.root := r.course.passed p hp

theorem first_mem (hp : p ∈ r.phases) : p.first ∈ history r.setup r.root :=
  have ⟨_, passes⟩ := (passed hp).passes
  passes.first_mem

theorem grows (hp : p ∈ r.phases) : p.first.Grows p.last :=
  have ⟨_, passes⟩ := (passed hp).passes
  passes.grows

theorem grows_final (hp : p ∈ r.phases) : p.first.Grows r.final :=
  (grows hp).trans (r.course.leads p hp).grows

/-- Imports are never lost. -/
theorem grows_modules (hp : p ∈ r.phases) : p.first.modules.Grows r.final.modules := by
  have changes := changes_of_mem_history (first_mem hp) r.ends
  generalize r.final = z at changes
  induction changes with
  | refl => exact .refl _
  | tail _ change ih =>
    intro id m hm
    obtain ⟨imports, hi, before⟩ := ih id m hm
    obtain ⟨imports', hi', before'⟩ := change.grows_modules id _ hi
    exact ⟨imports', hi', List.Subset.trans before before'⟩

/-- The module of the predeclared names imports nothing. -/
theorem predeclared (r : Run) : r.final.modules.get? .predeclared =
    some ⟨predeclaredPath, "", predeclaredPath, []⟩ :=
  (compiled_of_compile r.compiled).modules.kept .predeclared Nat.zero_lt_one

theorem not_imports_predeclared (r : Run) : ¬ r.final.modules.Imports .predeclared h := by
  intro hi
  obtain ⟨m, hm, hb⟩ := ModuleTable.imports_iff.1 hi
  cases hm.symm.trans r.predeclared
  cases hb

theorem lt_of_imports (hi : r.final.modules.Imports g h) :
    g.index < r.final.modules.size ∧ h.index < r.final.modules.size := by
  obtain ⟨m, hm, _⟩ := ModuleTable.imports_iff.1 hi
  exact ⟨ModuleTable.lt_of_get?_eq_some hm, (valid_of_mem_history r.reached).imported_lt hi⟩

/-- The files that are read are the root file and those that it imports, directly or through
others. -/
theorem reachable (hg : g.index < r.final.modules.size) (file : g ≠ .predeclared) :
    ReflTransGen r.final.modules.Imports .root g :=
  r.imported.reachable g _ file (Array.getElem?_eq_getElem hg)

theorem reachable_of_imports (hi : r.final.modules.Imports g h) :
    ReflTransGen r.final.modules.Imports .root h :=
  (reachable (lt_of_imports hi).1 fun he => r.not_imports_predeclared (he ▸ hi)).tail hi

theorem not_imports_root (hi : r.final.modules.Imports g .root) : False := by
  have file : g ≠ .predeclared := fun he => r.not_imports_predeclared (he ▸ hi)
  exact r.imported.acyclic .root (.tail' (reachable (lt_of_imports hi).1 file) hi)

theorem name_eq (hg : g.index < r.final.modules.size) :
    r.final.modules.name g = Path.stem (r.final.modules.path g) := by
  obtain ⟨m, hm⟩ : ∃ m, r.final.modules.get? g = some m := ⟨_, Array.getElem?_eq_getElem hg⟩
  rw [ModuleTable.name_of_get? hm, ModuleTable.path_of_get? hm,
    namedByFiles_of_mem_history r.reached g m hm]

/-- Imported modules are told apart by their names. -/
theorem eq_of_name (hg : ReflTransGen r.final.modules.Imports .root g)
    (hh : ReflTransGen r.final.modules.Imports .root h) (lt : g.index < r.final.modules.size)
    (lt' : h.index < r.final.modules.size)
    (name : r.final.modules.name g = r.final.modules.name h) : g = h := by
  rw [name_eq lt, name_eq lt'] at name
  exact r.named g h hg hh name

/-- Files are told apart by their paths. -/
theorem eq_of_path (hg : g.index < r.final.modules.size) (hh : h.index < r.final.modules.size)
    (file : g ≠ .predeclared) (file' : h ≠ .predeclared)
    (path : r.final.modules.path g = r.final.modules.path h) : g = h :=
  r.named g h (reachable hg file) (reachable hh file') (congrArg Path.stem path)

/-! ### Phases -/

/-- Of two entries of a list one comes before the other. -/
theorem of_pairwise {α : Type} {R : α → α → Prop} {l : List α} (h : l.Pairwise R) :
    ∀ x ∈ l, ∀ y ∈ l, x = y ∨ R x y ∨ R y x := by
  induction h with
  | nil => nofun
  | cons first _ ih =>
    intro x hx y hy
    rcases List.mem_cons.1 hx with rfl | later <;> rcases List.mem_cons.1 hy with rfl | later'
    · exact .inl rfl
    · exact .inr (.inl (first y later'))
    · exact .inr (.inr (first x later))
    · exact ih x later y later'

theorem exists_phase (r : Run) (hg : g.index < r.final.modules.size) (file : g ≠ .predeclared) :
    ∃ p ∈ r.phases, p.module = g := by
  rcases r.course.known g hg with he | hu | hp
  · exact absurd he file
  · rw [r.imported.finished] at hu
    cases hu
  · exact hp

theorem phase_eq (hp : p ∈ r.phases) (hq : q ∈ r.phases) (he : p.module = q.module) : p = q := by
  rcases of_pairwise r.course.different p hp q hq with same | apart | apart
  · exact same
  · exact absurd he apart
  · exact absurd he.symm apart

/-- Numbers are given away in one phase. -/
theorem phase_eq_of_number {size : Session → Nat} (mono : ∀ s t, s.Grows t → size s ≤ size t)
    (hp : p ∈ r.phases) (hq : q ∈ r.phases) {n : Nat} (first : size p.first ≤ n)
    (last : n < size p.last) (first' : size q.first ≤ n) (last' : n < size q.last) : p = q := by
  rcases of_pairwise r.course.ordered p hp q hq with he | leads | leads
  · exact he
  · have := mono _ _ leads.grows
    omega
  · have := mono _ _ leads.grows
    omega

/-- What a module imports through others has been read before. -/
theorem leads_of_below (hp : p ∈ r.phases) (hq : q ∈ r.phases)
    (below : TransGen r.final.modules.Imports p.module q.module) : q.last.Leads p.first := by
  have file (x : Phase) (hx : x ∈ r.phases) : x.module ≠ .predeclared :=
    (r.course.finished x hx).2.2
  generalize hm : p.module = m at below
  induction below using TransGen.head_induction_on generalizing p with
  | single hi =>
    subst hm
    rcases r.course.imports p hp _ hi with he | ⟨x, hx, he, leads⟩
    · exact absurd he (file q hq)
    · obtain rfl := phase_eq hx hq he
      exact leads
  | head hi more ih =>
    subst hm
    rcases r.course.imports p hp _ hi with rfl | ⟨x, hx, he, leads⟩
    · obtain ⟨_, hi, _⟩ := TransGen.head'_iff.1 more
      exact absurd hi r.not_imports_predeclared
    · exact ((ih hx he).trans (passed hx).leads).trans leads

end Run

end FrontEnd
