import FrontEnd.Proofs.Modules
import FrontEnd.Proofs.Separation.Course
import FrontEnd.Proofs.Source.Collapse

/-!
Which module an import stands for. It is the module of the path that the components of the importing
file's folder and those of the literal collapse to, whether that module is there already or its file
has to be read. So two chains of imports come to one module just when they lead to the same
components.
-/

namespace FrontEnd

open Session

variable {setup : Setup} {root : String} {s t z : Session}

namespace ModuleTable

/-- A module keeps its path. -/
theorem IsAt.changes {id : ModuleId} {path : Path} (h : s.modules.IsAt id path)
    (hc : Relation.ReflTransGen Change s t) : t.modules.IsAt id path := by
  obtain ⟨m, hm, hp⟩ := h
  obtain ⟨imports, hi⟩ := (grows_of_changes hc).modules id m hm
  exact ⟨_, hi, hp⟩

/-- A path that a module has in the end it has had since the module is there. -/
theorem isAt_of_changes {id : ModuleId} {path : Path} (hc : Relation.ReflTransGen Change s t)
    (known : id.index < s.modules.size) (h : t.modules.IsAt id path) : s.modules.IsAt id path := by
  have hm : s.modules.get? id = some s.modules.modules[id.index] := Array.getElem?_eq_getElem known
  obtain ⟨imports, hi⟩ := (grows_of_changes hc).modules id _ hm
  obtain ⟨m, later, hp⟩ := h
  cases later.symm.trans hi
  exact ⟨_, hm, hp⟩

theorem IsAt.path_eq {t : ModuleTable} {id : ModuleId} {path : Path} (h : t.IsAt id path) :
    t.path id = path.toText := by
  obtain ⟨m, hm, hp⟩ := h
  rw [path_of_get? hm, hp]

/-- The module is that of the file at a path, unless only the predeclared names have this path. -/
structure IsFileAt (t : ModuleTable) (id : ModuleId) (path : Path) : Prop where
  here : t.IsAt id path
  named : id = .predeclared → ¬ t.IsAt .root path

theorem IsFileAt.eq {t : ModuleTable} (ht : t.Sound) {id other : ModuleId} {path : Path}
    (h : t.IsFileAt id path) (ho : t.IsFileAt other path) : id = other := by
  obtain ⟨m, hm, hp⟩ := h.here
  obtain ⟨n, hn, hq⟩ := ho.here
  rcases ht.eq_of_path hm hn (hp.trans hq.symm) with he | ⟨rfl, rfl⟩ | ⟨rfl, rfl⟩
  · exact he
  · exact absurd ho.here (h.named rfl)
  · exact absurd h.here (ho.named rfl)

end ModuleTable

namespace Action

variable {id : ModuleId} {path : Path} {load? : Option (Path → Action ModuleId)}

theorem yields_openModule {path : String} (h : (openModule path).Yields setup s id t) :
    id = ⟨s.modules.size⟩ ∧ t = s.openModule path := by
  cases h
  exact ⟨rfl, rfl⟩

theorem isAt_openModule (path : Path) :
    (s.openModule path.toText).modules.IsAt ⟨s.modules.size⟩ path := by
  refine ⟨⟨path.toText, Path.folder path.toText, Path.stem path.toText, []⟩, ?_, rfl⟩
  rw [Session.openModule, ModuleTable.get?_begin, ModuleTable.get?_add, if_pos rfl]

theorem isAt_of_moduleBody {stream : Stream}
    (h : (moduleBody load? path.toText stream).PassesIn setup (history setup root) s id t) :
    id = ⟨s.modules.size⟩ ∧ t.modules.IsAt id path := by
  unfold moduleBody at h
  obtain ⟨new, u, opened, h⟩ := passes_bind h
  obtain ⟨imports, v, imported, h⟩ := passes_bind h
  obtain ⟨rest, w, declared, h⟩ := passes_bind h
  obtain ⟨_, x, ended, h⟩ := passes_bind h
  obtain ⟨_, y, finished, h⟩ := passes_bind h
  obtain ⟨rfl, rfl⟩ := passes_pure h
  obtain ⟨rfl, rfl⟩ := yields_openModule opened.yields
  refine ⟨rfl, ?_⟩
  have reads := ((imported.changes.trans declared.changes).trans ended.changes).trans finished.changes
  exact (isAt_openModule path).changes reads

/-- A file that is read becomes a module of its own. -/
theorem isAt_of_moduleFile (h : (moduleFile load? path).PassesIn setup (history setup root) s id t) :
    id = ⟨s.modules.size⟩ ∧ t.modules.IsAt id path := by
  obtain ⟨stream, u, -, read, rfl⟩ := passes_moduleFile h
  obtain ⟨rfl, here⟩ := isAt_of_moduleBody read
  exact ⟨rfl, here⟩

theorem isAt_of_readModule {levels : Nat}
    (h : (readModule levels path).PassesIn setup (history setup root) s id t) :
    id = ⟨s.modules.size⟩ ∧ t.modules.IsAt id path := by
  cases levels with
  | zero => exact isAt_of_moduleFile h
  | succ levels => exact isAt_of_moduleFile h

/-- An import in a file stands for the module of the path of its literal. -/
theorem isFileAt_of_importedModule {levels : Nat} {literal : String} {span : Span}
    (file : s.blocks.module ≠ .predeclared)
    (h : (importedModule (loader? levels) literal span).PassesIn setup (history setup root) s id t)
    (last : (history setup root).getLast? = some z) :
    z.modules.IsFileAt id (Path.ofImport (s.modules.folder s.blocks.module) literal) := by
  have valid := h.valid
  have leads := changes_of_mem_history h.last_mem last
  have module := valid.module
  have first : 0 < s.blocks.module.index :=
    Nat.pos_of_ne_zero fun he => file (ModuleId.ext he)
  unfold importedModule at h
  simp only [fail_bind] at h
  rw [passes_get] at h
  split at h
  · split at h
    · exact absurd h not_passes_fail
    rename_i found _
    obtain ⟨rfl, rfl⟩ := passes_pure h
    have here := isAt_of_findByPath? valid ⟨_, rfl⟩ found
    refine ⟨here.changes leads, ?_⟩
    intro predeclared there
    -- The root would have been found instead, since of two modules the later one is.
    obtain ⟨m, hm, hp⟩ := ModuleTable.isAt_of_changes leads (Nat.lt_of_le_of_lt first module) there
    have later := (ModuleTable.findByPath?_eq_some found).2 .root m hm
      (hp ▸ Path.sameParts_self _)
    rw [predeclared] at later
    exact absurd later (by decide)
  · unfold loadImport at h
    split at h
    · rw [passes_read] at h
      exact absurd h not_passes_fail
    · rename_i load known
      rw [passes_get] at h
      cases levels with
      | zero => cases known
      | succ levels =>
        cases known
        obtain ⟨rfl, here⟩ := isAt_of_readModule (passes_mapError h)
        refine ⟨here.changes leads, fun he => ?_⟩
        have none : s.modules.size = 0 := congrArg ModuleId.index he
        omega

end Action

/-! ### References and chains -/

/-- In the compilation of a root file the import of a literal in the file of a module stands for the
module `id`. -/
inductive Refers (setup : Setup) (root : String) : ModuleId → String → ModuleId → Prop
  | asked {levels : Nat} {span : Span} {literal : String} {s t : Session} {id : ModuleId}
    (file : s.blocks.module ≠ .predeclared)
    (found : (Action.importedModule (Action.loader? levels) literal span).PassesIn setup
      (history setup root) s id t) : Refers setup root s.blocks.module literal id

/-- Imports lead from the module `first` by one literal after the other, none of them rooted, to the
module `id`. -/
inductive ImportChain (setup : Setup) (root : String) : ModuleId → List String → ModuleId → Prop
  | last {importer id : ModuleId} {literal : String} (unrooted : Path.isRooted literal = false)
    (refers : Refers setup root importer literal id) : ImportChain setup root importer [literal] id
  | next {importer imported id : ModuleId} {literal : String} {literals : List String}
    (unrooted : Path.isRooted literal = false) (refers : Refers setup root importer literal imported)
    (rest : ImportChain setup root imported literals id) :
    ImportChain setup root importer (literal :: literals) id

/-- Literals lead from the components of one file to those of another: each is put behind the
components of the folder, and the list collapses. -/
inductive Path.Leads : List String → List String → List String → Prop
  | here (parts : List String) : Leads parts [] parts
  | next {start parts last : List String} {literal : String} {literals : List String}
    (collapses : Collapses (start.dropLast ++ components literal) parts)
    (rest : Leads parts literals last) : Leads start (literal :: literals) last

theorem Path.leads_nil {start last : List String} : Leads start [] last ↔ last = start :=
  ⟨fun h => by cases h; rfl, fun h => h ▸ .here start⟩

theorem Path.leads_cons {start last : List String} {literal : String} {literals : List String} :
    Leads start (literal :: literals) last ↔
      ∃ parts, Collapses (start.dropLast ++ components literal) parts ∧ Leads parts literals last :=
  ⟨fun h => by cases h with | next collapses rest => exact ⟨_, collapses, rest⟩,
    fun ⟨_, collapses, rest⟩ => .next collapses rest⟩

/-- The path of an import has the components that the importing file and the literal lead to. -/
theorem Refers.leads {importer id : ModuleId} {literal : String}
    (h : Refers setup root importer literal id) (unrooted : Path.isRooted literal = false)
    (last : (history setup root).getLast? = some z) :
    ∃ p : Path, p.Proper ∧ z.modules.IsFileAt id p ∧
      ∀ parts, Path.Collapses ((Path.components (z.modules.path importer)).dropLast ++
        Path.components literal) parts ↔ parts = Path.components p.toText := by
  cases h with
  | @asked _ _ _ s _ _ file found =>
    have valid := found.valid
    obtain ⟨m, hm⟩ : ∃ m, s.modules.get? s.blocks.module = some m :=
      ⟨_, Array.getElem?_eq_getElem valid.module⟩
    have module := valid.modules _ m hm
    obtain ⟨imports, later⟩ :=
      (grows_of_changes (changes_of_mem_history found.first_mem last)).modules _ m hm
    have folder : s.modules.folder s.blocks.module = Path.folder m.path := by
      rw [ModuleTable.folder, hm]
      exact module.folder
    refine ⟨_, Path.proper_normalize _, Action.isFileAt_of_importedModule file found last,
      fun parts => ?_⟩
    rw [ModuleTable.path_of_get? later, folder]
    exact (Path.lists_import module.canonical unrooted).collapses_iff

theorem ImportChain.leads {first id : ModuleId} {literals : List String}
    (h : ImportChain setup root first literals id)
    (last : (history setup root).getLast? = some z) :
    ∃ p : Path, p.Proper ∧ z.modules.IsFileAt id p ∧
      ∀ parts, Path.Leads (Path.components (z.modules.path first)) literals parts ↔
        parts = Path.components p.toText := by
  induction h with
  | last unrooted refers =>
    obtain ⟨p, proper, here, reads⟩ := refers.leads unrooted last
    refine ⟨p, proper, here, fun parts => ?_⟩
    rw [Path.leads_cons]
    simp only [Path.leads_nil, reads, exists_eq_left]
  | next unrooted refers rest ih =>
    obtain ⟨p, proper, here, reads⟩ := refers.leads unrooted last
    obtain ⟨q, proper', here', reads'⟩ := ih
    refine ⟨q, proper', here', fun parts => ?_⟩
    rw [Path.leads_cons]
    simp only [reads, exists_eq_left]
    rw [← here.here.path_eq]
    exact reads' parts

/-- Two chains of imports come to one module just when their literals lead to the same components. -/
theorem ImportChain.eq_iff {first first' id id' : ModuleId} {literals literals' : List String}
    (h : ImportChain setup root first literals id) (h' : ImportChain setup root first' literals' id')
    (last : (history setup root).getLast? = some z) :
    id = id' ↔ ∃ parts, Path.Leads (Path.components (z.modules.path first)) literals parts ∧
      Path.Leads (Path.components (z.modules.path first')) literals' parts := by
  obtain ⟨p, proper, here, reads⟩ := h.leads last
  obtain ⟨q, proper', here', reads'⟩ := h'.leads last
  simp only [reads, reads', exists_eq_left]
  constructor
  · rintro rfl
    rw [← here.here.path_eq, ← here'.here.path_eq]
  · intro same
    obtain rfl := Path.eq_of_components proper proper' same
    exact here.eq (sound_of_mem_history (List.mem_of_getLast? last)) here'

/-! ### Every import of a program is such a reference -/

/-- The module refers to others by these literals. -/
def RefersBy (setup : Setup) (root : String) (importer : ModuleId) (literals : List String) : Prop :=
  ∀ literal ∈ literals, ∃ id, Refers setup root importer literal id

/-- Every module of `t` that is not one of `s` refers to others by the literals in its file. -/
def Session.Asks (setup : Setup) (root : String) (s t : Session) : Prop :=
  ∀ id m stream, s.modules.size ≤ id.index → t.modules.get? id = some m →
    setup.words? m.path = some stream → RefersBy setup root id stream.importLiterals

theorem Session.Asks.of_size (h : s.modules.size = t.modules.size) : s.Asks setup root t :=
  fun _ _ _ new hm => absurd (ModuleTable.lt_of_get?_eq_some hm) (Nat.not_lt_of_le (h ▸ new))

theorem Session.Asks.trans {u : Session} (h : s.Asks setup root t) (h' : t.Asks setup root u)
    (g : t.Grows u) : s.Asks setup root u := by
  intro id m stream new hm words
  by_cases old : id.index < t.modules.size
  · obtain ⟨imports, later⟩ := g.modules id _ (Array.getElem?_eq_getElem old)
    cases hm.symm.trans later
    exact h id _ stream new (Array.getElem?_eq_getElem old) words
  · exact h' id m stream (Nat.le_of_not_lt old) hm words

namespace Action

variable {levels : Nat} {stream : Stream} {id : ModuleId} {path : Path} {phases : List Phase}

theorem groupLiterals_of_separator {rest : Kept stream}
    (h : (separator .closeParen stream).Yields setup s rest t) :
    Stream.groupLiterals stream.ahead = Stream.groupLiterals rest.stream.ahead := by
  unfold separator at h
  split at h
  · obtain ⟨rfl, -⟩ := yields_pure.1 h
    rfl
  · obtain ⟨past, _, eaten, done⟩ := yields_bind.1 h
    obtain ⟨skipped, rfl⟩ := yields_eat.1 eaten
    obtain ⟨rfl, -⟩ := yields_pure.1 done
    obtain ⟨word, ahead, symbol⟩ := Stream.ahead_of_skip? skipped
    rw [ahead, Stream.groupLiterals_semicolon _ symbol]
    rfl

/-- All modules that are read below refer to others by the literals in their files. -/
def AsksBelow (setup : Setup) (root : String) (load? : Option (Path → Action ModuleId)) : Prop :=
  ∀ load ∈ load?, ∀ path phases s id t, Course setup root phases s →
    (load path).PassesIn setup (history setup root) s id t → s.Asks setup root t

theorem resumesBehind_loader? (last : (history setup root).getLast? = some z) (levels : Nat) :
    ∀ load ∈ loader? levels, ResumesBehind setup root load := by
  cases levels with
  | zero => exact fun _ hl => absurd hl (Option.not_mem_none _)
  | succ levels =>
    rintro load ⟨⟩
    exact resumesBehind_readModule last levels

section Imports

variable (last : (history setup root).getLast? = some z)
  (hl : AsksBelow setup root (loader? levels))

include hl

theorem asks_importedModule {literal : String} {span : Span} (course : Course setup root phases s)
    (h : (importedModule (loader? levels) literal span).PassesIn setup (history setup root) s id t) :
    s.Asks setup root t := by
  unfold importedModule at h
  simp only [fail_bind] at h
  rw [passes_get] at h
  split at h
  · split at h
    · exact absurd h not_passes_fail
    · obtain ⟨_, rfl⟩ := passes_pure h
      exact .of_size rfl
  · unfold loadImport at h
    split at h
    · rw [passes_read] at h
      exact absurd h not_passes_fail
    · rename_i load known
      rw [passes_get] at h
      exact hl load known _ _ _ _ _ course (passes_mapError h)

theorem asks_importItem {rest : Shorter stream} (course : Course setup root phases s)
    (reading : s.blocks.module ∈ s.modules.unfinished)
    (h : (importItem (loader? levels) stream).PassesIn setup (history setup root) s rest t) :
    ∃ word literal, stream.ahead = word :: rest.stream.ahead ∧ word.kind = .text literal ∧
      RefersBy setup root s.blocks.module [literal] ∧ s.Asks setup root t := by
  have file : s.blocks.module ≠ .predeclared := fun he =>
    (sound_of_mem_history h.first_mem).idle (he ▸ reading)
  unfold importItem at h
  split at h
  · exact absurd h not_passes_fail
  · rename_i literal s₁ h₁ hi
    obtain ⟨word, ahead, kind⟩ := ahead_of_importLiteral? hi
    rw [passes_get] at h
    obtain ⟨imported, u, read, h⟩ := passes_bind h
    obtain ⟨_, w, added, h⟩ := passes_bind h
    obtain ⟨rfl, rfl⟩ := passes_pure h
    refine ⟨word, literal, ahead, kind, fun other ho => ?_, ?_⟩
    · rw [List.mem_singleton.1 ho]
      exact ⟨imported, .asked file read⟩
    · have size : u.modules.size = t.modules.size := by
        cases added.yields
        exact (ModuleTable.size_addImport _ _).symm
      exact (asks_importedModule hl course read).trans (.of_size size) added.grows

include last

theorem asks_importItems (stream : Stream) {phases : List Phase} {s t : Session}
    {rest : Kept stream} (course : Course setup root phases s)
    (reading : s.blocks.module ∈ s.modules.unfinished)
    (h : (importItems (loader? levels) stream).PassesIn setup (history setup root) s rest t) :
    ∃ literals, Stream.groupLiterals stream.ahead =
        literals ++ Stream.groupLiterals rest.stream.ahead ∧
      RefersBy setup root s.blocks.module literals ∧ s.Asks setup root t := by
  rw [importItems] at h
  split at h
  · obtain ⟨rfl, rfl⟩ := passes_pure h
    exact ⟨[], rfl, fun _ none => absurd none List.not_mem_nil, .of_size rfl⟩
  obtain ⟨⟨⟨⟩, s₁, h₁⟩, u, read, h⟩ := passes_bind h
  obtain ⟨⟨⟨⟩, s₂, h₂⟩, v, separated, behind⟩ := passes_bind h
  obtain rfl := yields_separator separated.yields
  have hlt := (h₂.behind h₁).2
  obtain ⟨others, w, more, done⟩ := passes_bind behind
  obtain ⟨rfl, rfl⟩ := passes_pure done
  obtain ⟨word, literal, ahead, kind, first, asks⟩ := asks_importItem hl course reading read
  have resumes := resumes_importItem (resumesBehind_loader? last levels) course reading read
  obtain ⟨phases, course⟩ := resumes.course
  rw [← resumes.module, ← resumes.unfinished] at reading
  obtain ⟨literals, inner, refers, asks'⟩ := asks_importItems s₂ course reading more
  refine ⟨literal :: literals, ?_, fun other ho => ?_, asks.trans asks' more.grows⟩
  · rw [ahead, Stream.groupLiterals_text _ kind, groupLiterals_of_separator separated.yields, inner]
    rfl
  · rcases List.mem_cons.1 ho with rfl | ho
    · exact first _ (List.mem_singleton_self _)
    · exact resumes.module ▸ refers other ho
termination_by stream.size

theorem asks_importClause {rest : Shorter stream} (course : Course setup root phases s)
    (reading : s.blocks.module ∈ s.modules.unfinished)
    (h : (importClause (loader? levels) stream).PassesIn setup (history setup root) s rest t) :
    RefersBy setup root s.blocks.module stream.importLiterals ∧ s.Asks setup root t := by
  unfold importClause at h
  obtain ⟨⟨⟨⟩, s₁, h₁⟩, skipped, h⟩ := passes_eat_bind h
  obtain ⟨first, ahead, importWord⟩ := Stream.ahead_of_skip? skipped
  dsimp only at h
  split at h
  · obtain ⟨item, u, read, h⟩ := passes_bind h
    obtain ⟨rfl, rfl⟩ := passes_pure h
    obtain ⟨word, literal, ahead', kind, refers⟩ := asks_importItem hl course reading read
    rw [Stream.importLiterals_single _ (ahead.trans (congrArg _ ahead')) importWord kind]
    exact refers
  · rename_i paren hp
    obtain ⟨second, ahead', openParen⟩ := Stream.ahead_of_skip? hp
    obtain ⟨items, u, read, h⟩ := passes_bind h
    obtain ⟨closed, closes, h⟩ := passes_eat_bind h
    obtain ⟨rfl, rfl⟩ := passes_pure h
    obtain ⟨literals, inner, refers⟩ := asks_importItems last hl _ course reading read
    obtain ⟨close, closing, closeParen⟩ := Stream.ahead_of_skip? closes
    have closing : items.stream.ahead = close :: _ := closing
    rw [closing, Stream.groupLiterals_closeParen _ closeParen, List.append_nil] at inner
    obtain rfl : Stream.groupLiterals paren.stream.ahead = literals := inner
    rw [Stream.importLiterals_group _ (ahead.trans (congrArg _ ahead')) importWord openParen]
    exact refers

theorem asks_optionalImports {rest : Kept stream} (course : Course setup root phases s)
    (reading : s.blocks.module ∈ s.modules.unfinished)
    (h : (optionalImports (loader? levels) stream).PassesIn setup (history setup root) s rest t) :
    RefersBy setup root s.blocks.module stream.importLiterals ∧ s.Asks setup root t := by
  unfold optionalImports at h
  split at h
  · obtain ⟨clause, u, read, h⟩ := passes_bind h
    obtain ⟨_, _, h⟩ := passes_eat_bind h
    obtain ⟨rfl, rfl⟩ := passes_pure h
    exact asks_importClause last hl course reading read
  · rename_i other
    obtain ⟨rfl, rfl⟩ := passes_pure h
    rw [Stream.importLiterals_of_not_isAt (Bool.eq_false_iff.2 other)]
    exact ⟨fun _ none => absurd none List.not_mem_nil, .of_size rfl⟩

theorem asks_moduleBody (course : Course setup root phases s)
    (words : setup.words? path.toText = some stream)
    (h : (moduleBody (loader? levels) path.toText stream).PassesIn setup (history setup root) s id t) :
    s.Asks setup root t := by
  have here := (isAt_of_moduleBody h).2
  have valid := h.valid
  unfold moduleBody at h
  obtain ⟨new, u, opened, h⟩ := passes_bind h
  obtain ⟨imports, v, imported, h⟩ := passes_bind h
  obtain ⟨rest, w, declared, h⟩ := passes_bind h
  obtain ⟨_, x, ended, h⟩ := passes_bind h
  obtain ⟨_, y, finished, h⟩ := passes_bind h
  obtain ⟨rfl, rfl⟩ := passes_pure h
  obtain ⟨_, rfl⟩ := yields_ofExcept.1 ended.yields
  obtain ⟨rfl, rfl⟩ := yields_openModule opened.yields
  have course : Course setup root phases (s.openModule path.toText) :=
    course.idle ⟨rfl, rfl, rfl, rfl, opened.grows⟩ (.openModule _ _ _)
  have reading : (⟨s.modules.size⟩ : ModuleId) ∈ (s.openModule path.toText).modules.unfinished :=
    ModuleTable.mem_unfinished_begin_self _
  obtain ⟨refers, asks⟩ := asks_optionalImports last hl course reading imported
  have resumes := resumes_optionalImports (resumesBehind_loader? last levels) course reading imported
  obtain ⟨phases, course⟩ := resumes.course
  -- The declarations behind the imports leave the table of modules as it is.
  have file : v.blocks.module ≠ .predeclared := fun he =>
    Nat.ne_of_gt (Nat.lt_of_le_of_lt (Nat.zero_le _) valid.module)
      (congrArg ModuleId.index (resumes.module.symm.trans he))
  have begun := course.begun declared.valid (resumes.module ▸ resumes.unfinished ▸ reading) file
  have declares : x.modules = v.modules := (appends_declarations last _ begun declared).modules
  have size : v.modules.size = t.modules.size := by
    cases finished.yields
    exact (congrArg ModuleTable.size declares).symm
  have below := asks.trans (.of_size size) (declared.grows.trans finished.grows)
  intro other m words' new hm read
  by_cases own : other.index = s.modules.size
  · obtain rfl : other = ⟨s.modules.size⟩ := ModuleId.ext own
    rw [← ModuleTable.path_of_get? hm, here.path_eq, words] at read
    cases read
    exact refers
  · exact below other m words' (by rw [size_openModule]; omega) hm read

theorem asks_moduleFile (course : Course setup root phases s)
    (h : (moduleFile (loader? levels) path).PassesIn setup (history setup root) s id t) :
    s.Asks setup root t := by
  obtain ⟨stream, u, words, read, rfl⟩ := passes_moduleFile h
  have asks := asks_moduleBody last hl (course.enterFile stream path.toText) words read
  exact asks

end Imports

theorem asks_readModule (last : (history setup root).getLast? = some z) (levels : Nat)
    {path : Path} {phases : List Phase} {s t : Session} {id : ModuleId}
    (course : Course setup root phases s)
    (h : (readModule levels path).PassesIn setup (history setup root) s id t) :
    s.Asks setup root t := by
  induction levels generalizing path phases s id t with
  | zero =>
    have h : (moduleFile (loader? 0) path).PassesIn setup (history setup root) s id t := h
    refine asks_moduleFile last ?_ course h
    rintro load ⟨⟩
  | succ levels ih =>
    have h : (moduleFile (loader? (levels + 1)) path).PassesIn setup (history setup root) s id t := h
    refine asks_moduleFile last ?_ course h
    rintro load ⟨⟩ path phases s id t course read
    exact ih course read

end Action

/-- In a program that compiles every literal of every import clause has been found to stand for a
module. -/
theorem refersBy_of_compile (h : compile setup root = .ok z) {id : ModuleId} {m : Module}
    {stream : Stream} (file : id ≠ .predeclared) (hm : z.modules.get? id = some m)
    (words : setup.words? m.path = some stream) : RefersBy setup root id stream.importLiterals := by
  have last := getLast?_history_of_compile h
  have read := passes_of_compile h
  unfold Action.program at read
  obtain ⟨_, s, reserved, read⟩ := Action.passes_bind read
  rw [Action.passes_read] at read
  obtain ⟨first, t, asked, read⟩ := Action.passes_bind read
  have course : Course setup root [] s := by
    have grows := reserved.grows
    cases reserved.yields
    exact (Course.initial setup root).idle ⟨rfl, rfl, rfl, rfl, grows⟩ (.refl _)
  have asks := Action.asks_readModule last _ course asked
  have only : s.modules.size = 1 := by
    cases reserved.yields
    rfl
  split at read
  · obtain ⟨_, _, failed, _⟩ := Action.passes_bind read
    exact absurd failed.yields Action.not_yields_failInternal
  obtain ⟨_, u, checked, links⟩ := Action.passes_bind read
  obtain rfl := Action.yields_checkForwards checked.yields
  obtain ⟨_, v, linked, checks⟩ := Action.passes_bind links
  obtain ⟨code, rfl⟩ := Action.yields_linkPrototypes linked.yields
  rw [Action.passes_get] at checks
  split at checks
  · cases checks.yields
  · obtain ⟨_, rfl⟩ := Action.passes_pure checks
    refine asks id m stream ?_ hm words
    rw [only]
    exact Nat.pos_of_ne_zero fun he => file (ModuleId.ext he)

/-- Normalising a path comes to the one list that its components collapse to, in which no `.` stands
and `..` only at the front of an unrooted path, and changes nothing when it is done again. An import
whose literal is not rooted asks for the components of the file's folder with those of the literal
behind them. So two chains of imports come to one module just when their literals lead to the same
components; and in a program that compiles every import of every file is a step of such chains. -/
theorem history_importChains (setup : Setup) (root : String) :
    (∀ text, let collapsed := (Path.normalize text).toText
      Path.Collapses (Path.components text) (Path.components collapsed) ∧
      (∀ parts, Path.Collapses (Path.components text) parts → parts = Path.components collapsed) ∧
      (∃ parts, Path.components collapsed = Path.listed (Path.isRooted collapsed) parts ∧
        Path.IsCollapsed (Path.isRooted collapsed) parts) ∧
      Path.normalize collapsed = Path.normalize text) ∧
    (∀ text literal, Path.IsCanonical text → Path.isRooted literal = false →
      Path.ofImport (Path.folder text) literal = Path.normalize
        (Path.ofComponents ((Path.components text).dropLast ++ Path.components literal))) ∧
    (∀ z, (history setup root).getLast? = some z →
      ∀ first first' literals literals' id id', ImportChain setup root first literals id →
        ImportChain setup root first' literals' id' →
        (id = id' ↔ ∃ parts, Path.Leads (Path.components (z.modules.path first)) literals parts ∧
          Path.Leads (Path.components (z.modules.path first')) literals' parts)) ∧
    (∀ z, compile setup root = .ok z → ∀ id m stream, id ≠ .predeclared →
      z.modules.get? id = some m → setup.words? m.path = some stream →
      ∀ literal ∈ stream.importLiterals, ∃ imported, Refers setup root id literal imported) := by
  refine ⟨fun text => ⟨?_, fun parts => ?_, ?_, Path.normalize_normalize text⟩, ?_, ?_, ?_⟩
  · exact (Path.lists_components text).collapses_iff.2 rfl
  · exact (Path.lists_components text).collapses_iff.1
  · exact Path.isCollapsed_normalize text
  · exact fun text literal canonical unrooted => Path.ofImport_folder canonical unrooted
  · exact fun z last first first' literals literals' id id' h h' => h.eq_iff h' last
  · exact fun z h id m stream file hm words => refersBy_of_compile h file hm words

/-- The root imports the file `b.um`, and a file in a folder that imports it too. -/
def sharedProgram : Setup where
  settings := .standard
  sources := ⟨fun path => .ok <|
    if path = "main.um" then "import (\"lib/a.um\"; \"b.um\")\nfn main() \x7b\x7d\n"
    else if path = "lib/a.um" then "import \"../b.um\"\n"
    else "const x* = 1\n"⟩
  hosts := ⟨[]⟩

/-- Both ways lead from the root to the one module of `b.um`. -/
theorem sharedProgram_importChains : ∃ z id, compile sharedProgram "main.um" = .ok z ∧
    ImportChain sharedProgram "main.um" .root ["b.um"] id ∧
    ImportChain sharedProgram "main.um" .root ["lib/a.um", "../b.um"] id := by
  obtain ⟨normal, -, shares, refers⟩ := history_importChains sharedProgram "main.um"
  have collapses (text : String) {whole parts : List String} (written : Path.components text = whole)
      (left : Path.components (Path.normalize text).toText = parts) : Path.Collapses whole parts :=
    written ▸ left ▸ (normal text).1
  have compiles : (compile sharedProgram "main.um").toOption.any (fun z =>
      z.modules.modules.toList.map (·.path) = [predeclaredPath, "main.um", "lib/a.um", "b.um"]) =
        true := by
    decide +kernel
  cases h : compile sharedProgram "main.um" with
  | error d =>
    rw [h] at compiles
    cases compiles
  | ok z =>
    rw [h] at compiles
    have last := getLast?_history_of_compile h
    have path (i : Nat) : (z.modules.get? ⟨i⟩).map (·.path) =
        [predeclaredPath, "main.um", "lib/a.um", "b.um"][i]? := by
      rw [← of_decide_eq_true compiles, List.getElem?_map, Array.getElem?_toList]
      rfl
    have start : z.modules.path .root = "main.um" := congrArg (·.getD "") (path 1)
    have asks {importer : ModuleId} {file : String} {literals : List String}
        (named : importer ≠ .predeclared) (here : (z.modules.get? importer).map (·.path) = some file)
        (written : (sharedProgram.words? file).map (·.importLiterals) = some literals) :
        RefersBy sharedProgram "main.um" importer literals := by
      obtain ⟨m, hm, rfl⟩ := Option.map_eq_some_iff.1 here
      obtain ⟨stream, words, rfl⟩ := Option.map_eq_some_iff.1 written
      exact refers z h importer m stream named hm words
    have first : RefersBy sharedProgram "main.um" .root ["lib/a.um", "b.um"] :=
      asks (by decide) (path 1) (by decide +kernel)
    obtain ⟨a, between⟩ := first "lib/a.um" (by decide)
    obtain ⟨b, direct⟩ := first "b.um" (by decide)
    -- The module between is the one of its file, and imports `b.um` from its own folder.
    obtain ⟨p, proper, ⟨⟨m, hm, here⟩, -⟩, reads⟩ := between.leads (by decide +kernel) last
    rw [start] at reads
    have same := (reads _).1 (collapses "lib/a.um" (by decide +kernel) rfl)
    obtain rfl := Path.eq_of_components (Path.proper_normalize _) proper same
    have there : (z.modules.get? a).map (·.path) = some "lib/a.um" := by
      rw [hm, Option.map_some, here]
      decide +kernel
    have named : a ≠ .predeclared := by
      rintro rfl
      exact absurd ((path 0).symm.trans there) (by decide)
    have second : RefersBy sharedProgram "main.um" a ["../b.um"] :=
      asks named there (by decide +kernel)
    obtain ⟨b', detour⟩ := second "../b.um" (by decide)
    have one : ImportChain sharedProgram "main.um" .root ["b.um"] b :=
      .last (by decide +kernel) direct
    have other : ImportChain sharedProgram "main.um" .root ["lib/a.um", "../b.um"] b' :=
      .next (by decide +kernel) between (.last (by decide +kernel) detour)
    obtain rfl : b = b' := by
      refine (shares z last _ _ _ _ _ _ one other).2 ⟨["b.um"], ?_, ?_⟩
      · rw [start]
        exact .next (collapses "b.um" (by decide +kernel) (by decide +kernel)) (.here _)
      · rw [start]
        refine .next (collapses "lib/a.um" (by decide +kernel) rfl) ?_
        exact .next (collapses "lib/../b.um" (by decide +kernel) (by decide +kernel)) (.here _)
    exact ⟨z, b, rfl, one, other⟩

end FrontEnd
