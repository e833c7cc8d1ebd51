import FrontEnd.Proofs.Separation.Appends
import FrontEnd.Proofs.Modules

/-!
The course of a compilation. It reads the declarations of one module after the other, each after
those of the modules that it imports; in between only modules, names and places change. So a phase
of the compilation belongs to each module, and what was there before a phase, or was added by it,
stays.
-/

namespace FrontEnd

open Session

/-- The session `s` comes before `t`, and nothing that it holds has changed. -/
structure Session.Leads (s t : Session) : Prop where
  grows : s.Grows t
  leaves : s.Leaves t

namespace Session.Leads

variable {s t u : Session}

theorem refl (s : Session) : s.Leads s := ⟨.refl s, .refl s⟩

theorem trans (h : s.Leads t) (h' : t.Leads u) : s.Leads u :=
  ⟨h.grows.trans h'.grows, h.leaves.trans h.grows h'.leaves⟩

end Session.Leads

/-! ### Between the phases -/

/-- Neither types, identifiers nor variables have changed. -/
structure Session.Idles (s t : Session) : Prop where
  types : t.types = s.types
  idents : t.idents = s.idents
  globals : t.globals = s.globals
  stack : t.blocks.stack = s.blocks.stack
  grows : s.Grows t

theorem Session.Idles.leads {s t : Session} (h : s.Idles t) : s.Leads t where
  grows := h.grows
  leaves := ⟨fun _ _ => by rw [h.types], fun _ _ => by rw [h.idents], fun _ _ => by rw [h.globals]⟩

/-- Only modules that are being read have got imports, and new modules are being read. -/
structure ModuleTable.Idles (t u : ModuleTable) : Prop where
  known : ∀ id : ModuleId, id.index < u.size → id.index < t.size ∨ id ∈ u.unfinished
  before : t.unfinished ⊆ u.unfinished
  only : ∀ id ∈ u.unfinished, id ∈ t.unfinished ∨ t.size ≤ id.index
  imports : ∀ a b, u.Imports a b → t.Imports a b ∨ a ∈ t.unfinished

namespace ModuleTable.Idles

variable {t : ModuleTable}

theorem refl (t : ModuleTable) : t.Idles t :=
  ⟨fun _ h => .inl h, List.Subset.refl _, fun _ h => .inl h, fun _ _ h => .inl h⟩

theorem addImport {importer : ModuleId} (reading : importer ∈ t.unfinished)
    (imported : ModuleId) : t.Idles (t.addImport importer imported) where
  known id h := .inl (t.size_addImport importer imported ▸ h)
  before := by rw [unfinished_addImport]; exact List.Subset.refl _
  only id h := by
    rw [unfinished_addImport] at h
    exact .inl h
  imports a b h := by
    rcases imports_addImport h with h | ⟨rfl, _⟩
    · exact .inl h
    · exact .inr reading

theorem openModule (path folder name : String) :
    t.Idles ((t.add path folder name).2.begin ⟨t.size⟩) where
  known id h := by
    rw [size_begin, size_add] at h
    rcases Nat.lt_or_eq_of_le (Nat.lt_succ_iff.1 h) with h | h
    · exact .inl h
    · obtain rfl : id = ⟨t.size⟩ := ModuleId.ext h
      exact .inr (mem_unfinished_begin_self _)
  before id h := by
    unfold begin
    split
    · exact h
    · exact List.mem_cons_of_mem _ h
  only id h := by
    rcases mem_unfinished_begin h with rfl | h
    · exact .inr (Nat.le_refl _)
    · exact .inl h
  imports a b h := by
    obtain ⟨m, hm, hb⟩ := imports_iff.1 h
    rw [get?_begin, get?_add] at hm
    split at hm
    · cases hm
      cases hb
    · exact .inl (imports_iff.2 ⟨m, hm, hb⟩)

end ModuleTable.Idles

/-! ### Phases -/

/-- What is left of the words of a file behind its imports. -/
def Setup.BehindImports (setup : Setup) (path : String) (stream : Stream) : Prop :=
  ∃ words load? s rest t, setup.words? path = some words ∧
    (Action.optionalImports load? words).Yields setup s rest t ∧ rest.stream = stream

/-- The declarations of a module are read from `first` to `last`. -/
structure Phase where
  module : ModuleId
  stream : Stream
  first : Session
  last : Session

/-- The phase is a part of a compilation. -/
structure Phase.IsPassed (p : Phase) (setup : Setup) (root : String) : Prop where
  passes : ∃ rest, (Action.declarations p.stream).PassesIn setup (history setup root) p.first rest
    p.last
  begun : p.first.Begun p.first
  module : p.first.blocks.module = p.module
  behind : setup.BehindImports (p.first.modules.path p.module) p.stream
  leads : p.first.Leads p.last

/-- What a compilation has read before the session `s`, in which no declaration is being read. -/
structure Course (setup : Setup) (root : String) (phases : List Phase) (s : Session) : Prop where
  outside : s.blocks.stack = []
  bound : s.Bound
  passed : ∀ p ∈ phases, p.IsPassed setup root
  ordered : phases.Pairwise fun p q => p.last.Leads q.first
  different : phases.Pairwise fun p q => p.module ≠ q.module
  start : (initial setup.settings).Leads s
  starts : ∀ p ∈ phases, (initial setup.settings).Leads p.first
  leads : ∀ p ∈ phases, p.last.Leads s
  /-- Each identifier has been added by the phase of its module. -/
  idents : ∀ id i, s.idents.get? id = some i →
    i.module = .predeclared ∧ id.index < (initial setup.settings).idents.size ∨
    ∃ p ∈ phases, i.module = p.module ∧ p.first.idents.size ≤ id.index ∧
      id.index < p.last.idents.size
  known : ∀ id : ModuleId, id.index < s.modules.size →
    id = .predeclared ∨ id ∈ s.modules.unfinished ∨ ∃ p ∈ phases, p.module = id
  finished : ∀ p ∈ phases, p.module ∉ s.modules.unfinished ∧
    p.module.index < s.modules.size ∧ p.module ≠ .predeclared
  imports : ∀ p ∈ phases, ∀ id, s.modules.Imports p.module id →
    id = .predeclared ∨ ∃ q ∈ phases, q.module = id ∧ q.last.Leads p.first

namespace Course

variable {setup : Setup} {root : String} {phases : List Phase} {s t u y z : Session}
  {stream : Stream}

theorem initial (setup : Setup) (root : String) :
    Course setup root [] (initial setup.settings) where
  outside := rfl
  bound id := initial_not_forward id none
  passed := nofun
  ordered := .nil
  different := .nil
  start := .refl _
  starts := nofun
  leads := nofun
  idents id i hi := by
    refine .inl ⟨?_, IdentTable.lt_of_get?_eq_some hi⟩
    have predeclared : ∀ i ∈ predeclaredIdents, i.module = .predeclared := by decide
    exact predeclared i (List.mem_of_getElem? (get?_initial hi))
  known id h := .inl (ModuleId.ext (Nat.lt_one_iff.1 h))
  finished := nofun
  imports := nofun

theorem idle (h : Course setup root phases s) (same : s.Idles t)
    (modules : s.modules.Idles t.modules) : Course setup root phases t where
  outside := same.stack.trans h.outside
  bound id := by
    rw [same.types]
    exact h.bound id
  passed := h.passed
  ordered := h.ordered
  different := h.different
  start := h.start.trans same.leads
  starts := h.starts
  leads p hp := (h.leads p hp).trans same.leads
  idents id i hi := by
    rw [same.idents] at hi
    exact h.idents id i hi
  known id hi := by
    rcases modules.known id hi with hi | hi
    · exact (h.known id hi).imp_right fun hu => hu.imp_left fun hu => modules.before hu
    · exact .inr (.inl hi)
  finished p hp := by
    obtain ⟨read, lt, file⟩ := h.finished p hp
    refine ⟨fun hu => ?_, Nat.lt_of_lt_of_le lt same.grows.modules_size, file⟩
    rcases modules.only _ hu with hu | hu
    · exact read hu
    · exact Nat.not_lt_of_le hu lt
  imports p hp id hi :=
    h.imports p hp id ((modules.imports _ _ hi).resolve_right (h.finished p hp).1)

/-- Nothing has been declared yet in a file that has just been opened. -/
theorem enterFile (h : Course setup root phases s) (stream : Stream) (path : String) :
    Course setup root phases
      (Session.enterFile { s with names := s.names.addWords stream } path) := by
  have names : s.Step ∅ { s with names := s.names.addWords stream } := .addNames
  have place : Session.Step ∅ { s with names := s.names.addWords stream }
      (Session.enterFile { s with names := s.names.addWords stream } path) := .place
  exact h.idle ⟨rfl, rfl, rfl, rfl, names.grows.trans place.grows⟩ (.refl _)

/-- A module that is being read has no identifiers before its declarations. -/
theorem fresh (h : Course setup root phases s) {module : ModuleId}
    (reading : module ∈ s.modules.unfinished) (file : module ≠ .predeclared) (id : IdentId)
    (i : Ident) (hi : s.idents.get? id = some i) : i.module ≠ module := by
  rintro rfl
  rcases h.idents id i hi with ⟨he, _⟩ | ⟨p, hp, he, _⟩
  · exact file he
  · exact (h.finished p hp).1 (he ▸ reading)

/-- The forward types have their identifiers when a module is finished. -/
theorem bound_of_finish {id : ModuleId}
    (change : s.Change { s with modules := s.modules.finish id })
    (reading : id ∈ s.modules.unfinished) : s.Bound := by
  have finished : id ∉ ({ s with modules := s.modules.finish id } : Session).modules.unfinished :=
    fun hm => of_decide_eq_true (List.mem_filter.1 hm).2 rfl
  generalize { s with modules := s.modules.finish id } = t at change finished
  cases change with
  | step bound => exact bound
  | _ => exact absurd reading finished

/-- The declarations of the module that is being read have not begun yet. -/
theorem begun (h : Course setup root phases s) (valid : s.Valid ∅)
    (reading : s.blocks.module ∈ s.modules.unfinished) (file : s.blocks.module ≠ .predeclared) :
    s.Begun s where
  valid := valid
  bound := h.bound
  fresh := h.fresh reading file
  grows := .refl s
  kinds _ _ := rfl
  module := rfl
  outside := h.outside

/-- The phase of the module that is being read, and its end. -/
theorem phase (last : (history setup root).getLast? = some z) (h : Course setup root phases s)
    (sound : s.modules.Sound) (valid : s.Valid ∅) {module : ModuleId} {rest : Kept stream}
    (here : s.blocks.module = module) (reading : module ∈ s.modules.unfinished)
    (file : module ≠ .predeclared)
    (behind : setup.BehindImports (s.modules.path module) stream)
    (read : (Action.declarations stream).PassesIn setup (history setup root) s rest t)
    (change : t.Change { t with modules := t.modules.finish module }) :
    Course setup root (phases ++ [⟨module, stream, s, t⟩])
        { t with modules := t.modules.finish module } ∧
      t.blocks.module = s.blocks.module ∧ t.modules = s.modules := by
  subst here
  have begun := h.begun valid reading file
  have appends := Action.appends_declarations last stream begun read
  have leads : s.Leads t := ⟨read.grows, appends.leaves begun.fresh⟩
  have finishes : t.Leads { t with modules := t.modules.finish s.blocks.module } :=
    ⟨t.grows_finish _, fun _ _ => rfl, fun _ _ => rfl, fun _ _ => rfl⟩
  have modules := appends.modules
  have bound : t.Bound := bound_of_finish change (modules ▸ reading)
  refine ⟨?_, appends.module, modules⟩
  have mem {p : Phase} (hp : p ∈ phases ++ [⟨s.blocks.module, stream, s, t⟩]) :
      p ∈ phases ∨ p = ⟨s.blocks.module, stream, s, t⟩ :=
    (List.mem_append.1 hp).imp_right List.mem_singleton.1
  have new : (⟨s.blocks.module, stream, s, t⟩ : Phase) ∈
      phases ++ [⟨s.blocks.module, stream, s, t⟩] :=
    List.mem_append_right _ (List.mem_singleton_self _)
  have left (id : ModuleId) : id ∈ (t.modules.finish s.blocks.module).unfinished ↔
      id ∈ s.modules.unfinished ∧ id ≠ s.blocks.module := by
    show id ∈ t.modules.unfinished.filter _ ↔ _
    rw [modules, List.mem_filter, decide_eq_true_iff]
  have size : (t.modules.finish s.blocks.module).size = s.modules.size :=
    show t.modules.size = s.modules.size from congrArg ModuleTable.size modules
  exact
    { outside := appends.outside
      bound
      passed := fun p hp => by
        rcases mem hp with hp | rfl
        · exact h.passed p hp
        · exact ⟨⟨rest, read⟩, begun, rfl, behind, leads⟩
      ordered := List.pairwise_append.2 ⟨h.ordered, List.pairwise_singleton _ _, fun p hp q hq =>
        List.mem_singleton.1 hq ▸ h.leads p hp⟩
      different := List.pairwise_append.2 ⟨h.different, List.pairwise_singleton _ _,
        fun p hp q hq => by
          cases List.mem_singleton.1 hq
          exact fun he => (h.finished p hp).1 (he ▸ reading)⟩
      start := (h.start.trans leads).trans finishes
      starts := fun p hp => by
        rcases mem hp with hp | rfl
        · exact h.starts p hp
        · exact h.start
      leads := fun p hp => by
        rcases mem hp with hp | rfl
        · exact ((h.leads p hp).trans leads).trans finishes
        · exact finishes
      idents := fun id i hi => by
        replace hi : t.idents.get? id = some i := hi
        by_cases old : id.index < s.idents.size
        · rw [leads.leaves.idents id old] at hi
          exact (h.idents id i hi).imp_right fun ⟨p, hp, he⟩ => ⟨p, List.mem_append_left _ hp, he⟩
        · have added := appends.idents.of_mem_drop i
            (IdentTable.mem_drop_of_get? (Nat.le_of_not_lt old) hi)
          exact .inr ⟨_, new, added, Nat.le_of_not_lt old, IdentTable.lt_of_get?_eq_some hi⟩
      known := fun id hi => by
        rcases h.known id (size ▸ hi) with he | hu | ⟨p, hp, he⟩
        · exact .inl he
        · by_cases he : id = s.blocks.module
          · exact .inr (.inr ⟨_, new, he.symm⟩)
          · exact .inr (.inl ((left id).2 ⟨hu, he⟩))
        · exact .inr (.inr ⟨p, List.mem_append_left _ hp, he⟩)
      finished := fun p hp => by
        rcases mem hp with hp | rfl
        · obtain ⟨read, lt, file⟩ := h.finished p hp
          exact ⟨fun hu => read ((left _).1 hu).1, size ▸ lt, file⟩
        · exact ⟨fun hu => ((left _).1 hu).2 rfl, size ▸ valid.unfinished _ reading, file⟩
      imports := fun p hp id hi => by
        replace hi : t.modules.Imports p.module id := hi
        rw [modules] at hi
        rcases mem hp with hp | rfl
        · exact (h.imports p hp id hi).imp_right fun ⟨q, hq, he⟩ =>
            ⟨q, List.mem_append_left _ hq, he⟩
        · rcases h.known id (valid.imported_lt hi) with he | hu | ⟨q, hq, he⟩
          · exact .inl he
          · exact absurd hu (sound.finished _ _ hi)
          · exact .inr ⟨q, List.mem_append_left _ hq, he, h.leads q hq⟩ }

end Course

/-! ### Whole compilations -/

/-- The course goes on in the module in which it was. -/
structure Session.Resumes (setup : Setup) (root : String) (s t : Session) : Prop where
  course : ∃ phases, Course setup root phases t
  module : t.blocks.module = s.blocks.module
  unfinished : t.modules.unfinished = s.modules.unfinished

/-- The course goes on behind the file that is read. -/
def ResumesBehind (setup : Setup) (root : String) (load : Path → Action ModuleId) : Prop :=
  ∀ path phases s id t, Course setup root phases s →
    (load path).PassesIn setup (history setup root) s id t → s.Resumes setup root t

namespace Session.Resumes

variable {setup : Setup} {root : String} {phases : List Phase} {s t u : Session}

theorem refl (h : Course setup root phases s) : s.Resumes setup root s :=
  ⟨⟨phases, h⟩, rfl, rfl⟩

theorem trans (h : s.Resumes setup root t) (h' : t.Resumes setup root u) : s.Resumes setup root u :=
  ⟨h'.course, h'.module.trans h.module, h'.unfinished.trans h.unfinished⟩

end Session.Resumes

namespace Action

variable {setup : Setup} {root : String} {phases : List Phase} {s t z : Session} {stream : Stream}

section Imports

variable {load? : Option (Path → Action ModuleId)}
  (hl : ∀ load ∈ load?, ResumesBehind setup root load)

include hl

theorem resumes_importedModule {literal : String} {span : Span} {imported : ModuleId}
    (course : Course setup root phases s)
    (h : (importedModule load? literal span).PassesIn setup (history setup root) s imported t) :
    s.Resumes setup root t := by
  unfold importedModule at h
  simp only [fail_bind] at h
  rw [passes_get] at h
  split at h
  · split at h
    · exact absurd h not_passes_fail
    · obtain ⟨_, rfl⟩ := passes_pure h
      exact .refl course
  · unfold loadImport at h
    split at h
    · rw [passes_read] at h
      exact absurd h not_passes_fail
    · rename_i load
      rw [passes_get] at h
      exact hl load rfl _ _ _ _ _ course (passes_mapError h)

theorem resumes_importItem {rest : Shorter stream} (course : Course setup root phases s)
    (reading : s.blocks.module ∈ s.modules.unfinished)
    (h : (importItem load? stream).PassesIn setup (history setup root) s rest t) :
    s.Resumes setup root t := by
  unfold importItem at h
  split at h
  · exact absurd h not_passes_fail
  · rw [passes_get] at h
    obtain ⟨imported, u, read, h⟩ := passes_bind h
    obtain ⟨_, w, added, h⟩ := passes_bind h
    obtain ⟨_, rfl⟩ := passes_pure h
    have resumes := resumes_importedModule hl course read
    obtain ⟨phases, course⟩ := resumes.course
    have grows := added.grows
    cases added.yields
    rw [← resumes.unfinished] at reading
    refine resumes.trans ⟨⟨phases, course.idle ⟨rfl, rfl, rfl, rfl, grows⟩ ?_⟩, rfl, ?_⟩
    · exact .addImport reading imported
    · exact ModuleTable.unfinished_addImport _ _

theorem resumes_importItems (stream : Stream) {phases : List Phase} {s t : Session}
    {rest : Kept stream} (course : Course setup root phases s)
    (reading : s.blocks.module ∈ s.modules.unfinished)
    (h : (importItems load? stream).PassesIn setup (history setup root) s rest t) :
    s.Resumes setup root t := by
  rw [importItems] at h
  split at h
  · obtain ⟨_, rfl⟩ := passes_pure h
    exact .refl course
  obtain ⟨⟨⟨⟩, s₁, h₁⟩, u, read, h⟩ := passes_bind h
  obtain ⟨⟨⟨⟩, s₂, h₂⟩, h⟩ := passes_separator_bind h
  have hlt := (h₂.behind h₁).2
  obtain ⟨_, w, more, h⟩ := passes_bind h
  obtain ⟨_, rfl⟩ := passes_pure h
  have resumes := resumes_importItem hl course reading read
  obtain ⟨phases, course⟩ := resumes.course
  rw [← resumes.module, ← resumes.unfinished] at reading
  exact resumes.trans (resumes_importItems s₂ course reading more)
termination_by stream.size

theorem resumes_optionalImports {rest : Kept stream} (course : Course setup root phases s)
    (reading : s.blocks.module ∈ s.modules.unfinished)
    (h : (optionalImports load? stream).PassesIn setup (history setup root) s rest t) :
    s.Resumes setup root t := by
  unfold optionalImports at h
  split at h
  · obtain ⟨⟨⟨⟩, s₁, h₁⟩, u, read, h⟩ := passes_bind h
    obtain ⟨_, _, h⟩ := passes_eat_bind h
    obtain ⟨_, rfl⟩ := passes_pure h
    unfold importClause at read
    obtain ⟨⟨⟨⟩, s₂, h₂⟩, _, h⟩ := passes_eat_bind read
    dsimp only at h
    split at h
    · obtain ⟨_, w, item, h⟩ := passes_bind h
      obtain ⟨_, rfl⟩ := passes_pure h
      exact resumes_importItem hl course reading item
    · obtain ⟨⟨⟨⟩, s₃, h₃⟩, w, items, h⟩ := passes_bind h
      obtain ⟨_, _, h⟩ := passes_eat_bind h
      obtain ⟨_, rfl⟩ := passes_pure h
      exact resumes_importItems hl _ course reading items
  · obtain ⟨_, rfl⟩ := passes_pure h
    exact .refl course

theorem resumes_moduleBody (last : (history setup root).getLast? = some z) {path : String}
    {id : ModuleId} (course : Course setup root phases s) (words : setup.words? path = some stream)
    (h : (moduleBody load? path stream).PassesIn setup (history setup root) s id t) :
    (∃ phases, Course setup root phases t) ∧ t.modules.unfinished = s.modules.unfinished := by
  unfold moduleBody at h
  obtain ⟨id', u, opened, h⟩ := passes_bind h
  obtain ⟨imports, v, imported, h⟩ := passes_bind h
  obtain ⟨rest, w, declared, h⟩ := passes_bind h
  obtain ⟨_, x, ended, h⟩ := passes_bind h
  obtain ⟨_, y, finished, h⟩ := passes_bind h
  obtain ⟨_, rfl⟩ := passes_pure h
  obtain ⟨_, rfl⟩ := yields_ofExcept.1 ended.yields
  have valid := opened.valid
  have new : (⟨s.modules.size⟩ : ModuleId) ∉ s.modules.unfinished := fun hu =>
    Nat.lt_irrefl _ (valid.unfinished _ hu)
  have hu : id' = ⟨s.modules.size⟩ ∧ u = s.openModule path := by
    cases opened.yields
    exact ⟨rfl, rfl⟩
  obtain ⟨rfl, rfl⟩ := hu
  have opens : Course setup root phases (s.openModule path) :=
    course.idle ⟨rfl, rfl, rfl, rfl, opened.grows⟩ (.openModule _ _ _)
  have unfinished : (s.openModule path).modules.unfinished =
      ⟨s.modules.size⟩ :: s.modules.unfinished :=
    ModuleTable.unfinished_begin new
  have resumes := resumes_optionalImports hl opens
    (unfinished ▸ List.mem_cons_self) imported
  obtain ⟨before, course⟩ := resumes.course
  have unfinished := resumes.unfinished.trans unfinished
  have file : (⟨s.modules.size⟩ : ModuleId) ≠ .predeclared := fun he =>
    Nat.ne_of_gt (sound_of_mem_history opened.first_mem).nonempty (congrArg ModuleId.index he)
  have behind : setup.BehindImports (v.modules.path ⟨s.modules.size⟩) imports.stream := by
    have new : (s.openModule path).modules.get? ⟨s.modules.size⟩ =
        some ⟨path, Path.folder path, Path.stem path, []⟩ := by
      rw [Session.openModule, ModuleTable.get?_begin, ModuleTable.get?_add, if_pos rfl]
    obtain ⟨_, found⟩ := imported.grows.modules _ _ new
    rw [ModuleTable.path_of_get? found]
    exact ⟨stream, load?, _, imports, v, words, imported.yields, rfl⟩
  have change : x.Change { x with modules := x.modules.finish ⟨s.modules.size⟩ } := by
    cases finished.yields
    exact (List.isChain_cons_cons.1 (isChain_part finished.within)).1
  obtain ⟨course, module, modules⟩ := course.phase last (sound_of_mem_history declared.first_mem)
    declared.valid resumes.module (unfinished ▸ List.mem_cons_self) file behind declared change
  cases finished.yields
  refine ⟨⟨_, course⟩, ?_⟩
  show x.modules.unfinished.filter _ = _
  rw [modules, unfinished, List.filter_cons_of_neg (by simp)]
  exact List.filter_eq_self.2 fun other hm => decide_eq_true fun he => new (he ▸ hm)

theorem resumesBehind_moduleFile (last : (history setup root).getLast? = some z) :
    ResumesBehind setup root (moduleFile load?) := by
  intro path phases s id t course h
  obtain ⟨stream, w, words, read, rfl⟩ := passes_moduleFile h
  obtain ⟨⟨phases, course⟩, unfinished⟩ :=
    resumes_moduleBody hl last (course.enterFile stream path.toText) words read
  have leaves : w.Idles (w.leaveFile (Session.frame { s with names := s.names.addWords stream })) :=
    ⟨rfl, rfl, rfl, rfl, grows_leaveFile _⟩
  exact ⟨⟨phases, course.idle leaves (.refl _)⟩, rfl, unfinished⟩

end Imports

theorem resumesBehind_readModule (last : (history setup root).getLast? = some z) (levels : Nat) :
    ResumesBehind setup root (readModule levels) := by
  induction levels with
  | zero => exact resumesBehind_moduleFile nofun last
  | succ levels ih =>
    refine resumesBehind_moduleFile (fun load hl => ?_) last
    cases hl
    exact ih

theorem course_program
    (h : (program root).PassesIn setup (history setup root) (.initial setup.settings) () t)
    (last : (history setup root).getLast? = some z) : ∃ phases, Course setup root phases t := by
  unfold program at h
  obtain ⟨_, u, reserved, h⟩ := passes_bind h
  rw [passes_read] at h
  obtain ⟨id, v, read, h⟩ := passes_bind h
  have grows := reserved.grows
  have reserves : Course setup root [] u := by
    cases reserved.yields
    exact (Course.initial setup root).idle ⟨rfl, rfl, rfl, rfl, grows⟩ (.refl _)
  obtain ⟨⟨phases, course⟩, _⟩ := resumesBehind_readModule last _ _ _ _ _ _ reserves read
  split at h
  · obtain ⟨_, _, failed, _⟩ := passes_bind h
    exact absurd failed.yields not_yields_failInternal
  obtain ⟨_, w, checked, links⟩ := passes_bind h
  obtain rfl := yields_checkForwards checked.yields
  obtain ⟨_, x, linked, checks⟩ := passes_bind links
  have grows := linked.grows
  obtain ⟨code, rfl⟩ := yields_linkPrototypes linked.yields
  rw [passes_get] at checks
  split at checks
  · cases checks.yields
  · obtain ⟨_, rfl⟩ := passes_pure checks
    exact ⟨phases, course.idle ⟨rfl, rfl, rfl, rfl, grows⟩ (.refl _)⟩

end Action

/-- Each compilation that succeeds has its course. -/
theorem course_of_compile {setup : Setup} {root : String} {z : Session}
    (h : compile setup root = .ok z) : ∃ phases, Course setup root phases z :=
  Action.course_program (passes_of_compile h) (getLast?_history_of_compile h)

end FrontEnd
