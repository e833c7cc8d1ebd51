import FrontEnd.Proofs.Function
import FrontEnd.Proofs.ImportGraph
import FrontEnd.Proofs.Token.Lexeme
import FrontEnd.Import

/-!
Imports and modules. Reading a file lays its functions out behind those before, and adds its module
behind the modules before, with those that it imports below it; the importing file goes on where it
was.
-/

namespace FrontEnd

namespace Session

variable {setup : Setup} {s t u : Session} {literals more : List String}

/-- A file can be opened if no module has its path. The root, which is opened first, can have that of
the predeclared names. -/
structure CanOpen (s : Session) (path : Path) : Prop where
  canonical : Path.IsCanonical path.toText
  fresh : 1 < s.modules.size → ∀ id m, s.modules.get? id = some m → m.path ≠ path.toText

/-- The module of a file has been read since `s`. -/
structure HasRead (setup : Setup) (s : Session) (path : Path) (id : ModuleId) (t : Session) : Prop where
  arranged : t.Arranged setup.settings
  module : t.blocks.module = s.blocks.module
  obtains : s.modules.Obtains setup path id t.modules

/-- The module of an import has been read, and is not being read any more. -/
structure HasFound (setup : Setup) (s : Session) (path : Path) (id : ModuleId) (t : Session) :
    Prop extends s.HasRead setup path id t where
  finished : id ∉ t.modules.unfinished
  named : id = .predeclared → ∀ other m, t.modules.get? other = some m →
    m.path = t.modules.path id → other = id

/-- The module that is being read has imported the files of `literals` since `s`. -/
structure HasImported (setup : Setup) (s : Session) (literals : List String) (t : Session) :
    Prop where
  arranged : t.Arranged setup.settings
  module : t.blocks.module = s.blocks.module
  gathers : s.modules.Gathers setup s.blocks.module literals t.modules

/-- The module of the file being read is not finished. -/
structure IsReading (settings : Settings) (s : Session) : Prop where
  arranged : s.Arranged settings
  unfinished : s.blocks.module ∈ s.modules.unfinished

theorem HasImported.trans (h : s.HasImported setup literals t) (h' : t.HasImported setup more u) :
    s.HasImported setup (literals ++ more) u where
  arranged := h'.arranged
  module := h'.module.trans h.module
  gathers := h.gathers.trans (h.module ▸ h'.gathers)

theorem HasImported.isReading (h : s.HasImported setup literals t)
    (hr : s.IsReading setup.settings) : t.IsReading setup.settings where
  arranged := h.arranged
  unfinished := by
    rw [h.module, h.gathers.read.unfinished]
    exact hr.unfinished

theorem HasImported.nil (hs : s.Arranged setup.settings) (h : s.Valid ∅) : s.HasImported setup [] s :=
  ⟨hs, rfl, .refl h.module⟩

end Session

namespace Action

open Session

variable {setup : Setup} {s : Session} {stream : Stream} {load? : Option (Path → Action ModuleId)}

/-- What reading a file as a module does to a session. -/
def Loads (setup : Setup) (load : Path → Action ModuleId) : Prop :=
  ∀ (path : Path) (s : Session), s.Ready ∅ → s.Arranged setup.settings → s.CanOpen path →
    (load path).Meets setup Set.univ ∅
      (fun id t => id = ⟨s.modules.size⟩ ∧ s.HasRead setup path id t) s

/-! ### Imports -/

theorem meets_mapError {α : Type} {f : Diagnostic → Diagnostic} {action : Action α}
    {Q : α → Session → Prop} (h : action.Meets setup Set.univ ∅ Q s)
    (hf : ∀ d : Diagnostic, d.IsProper → (f d).IsProper) :
    (mapError f action).Meets setup Set.univ ∅ Q s :=
  ensures_handle.2 (Ensures.mono h (fun _ _ => id) (fun d _ he => ⟨hf d he.1, he.2⟩) fun _ _ => id)

theorem meets_loadImport {path : Path} {span : Span} (hl : ∀ load ∈ load?, Loads setup load)
    (h : s.Ready ∅) (hs : s.Arranged setup.settings) (hp : s.CanOpen path) :
    (loadImport load? path span).Meets setup Set.univ ∅
      (fun id t => id = ⟨s.modules.size⟩ ∧ s.HasRead setup path id t) s := by
  unfold loadImport
  split
  · rw [meets_read]
    exact meets_fail rfl
  · rename_i load
    rw [meets_get]
    refine meets_mapError (hl load rfl path s h hs hp) fun d hd => ?_
    split
    · exact hd
    · exact hd

/-- A module that is found has the path that was looked for. -/
theorem isAt_of_findByPath? {path : Path} {id : ModuleId} (h : s.Valid ∅)
    (hp : Path.IsCanonical path.toText) (hf : s.modules.findByPath? path.toText = some id) :
    s.modules.IsAt id path := by
  obtain ⟨⟨m, hm, same⟩, _⟩ := ModuleTable.findByPath?_eq_some hf
  exact ⟨m, hm, Path.eq_of_sameParts (h.modules id m hm).canonical hp same⟩

theorem hasFound_of_findByPath? {path : Path} {id : ModuleId} (h : s.Valid ∅)
    (hs : s.Arranged setup.settings) (hp : Path.IsCanonical path.toText)
    (hf : s.modules.findByPath? path.toText = some id) (finished : id ∉ s.modules.unfinished) :
    s.HasFound setup path id s := by
  have here := isAt_of_findByPath? h hp hf
  refine ⟨⟨hs, rfl, .refl here⟩, finished, fun he other n hn same => ?_⟩
  -- Behind the predeclared names there is no other module with their path.
  obtain ⟨m, hm, hpath⟩ := here
  rw [ModuleTable.path, hm] at same
  have first := (ModuleTable.findByPath?_eq_some hf).2 other n hn
    (same.trans hpath ▸ Path.sameParts_self path.toText)
  subst he
  exact ModuleId.ext (Nat.le_zero.1 first)

theorem canOpen_of_findByPath? {path : Path} (hp : Path.IsCanonical path.toText)
    (hf : s.modules.findByPath? path.toText = none) : s.CanOpen path := by
  refine ⟨hp, fun _ id m hm he => ?_⟩
  have none := ModuleTable.findByPath?_eq_none hf hm
  rw [he, Path.sameParts_self] at none
  cases none

theorem meets_importedModule {literal : String} {span : Span}
    (hl : ∀ load ∈ load?, Loads setup load) (h : s.Ready ∅) (hs : s.Arranged setup.settings) :
    (importedModule load? literal span).Meets setup Set.univ ∅ (s.HasFound setup
      (Path.ofImport (s.modules.folder s.blocks.module) literal)) s := by
  have hp : Path.IsCanonical (Path.ofImport (s.modules.folder s.blocks.module) literal).toText :=
    ⟨_, rfl⟩
  unfold importedModule
  rw [meets_get]
  dsimp only
  split
  · rename_i found hf
    simp only [fail_bind]
    split
    · exact meets_fail rfl
    · rename_i finished
      have finished : found ∉ s.modules.unfinished := by
        simpa [ModuleTable.isUnfinished] using finished
      exact meets_pure h (hasFound_of_findByPath? h.toValid hs hp hf finished)
  · rename_i hf
    refine (meets_loadImport hl h hs (canOpen_of_findByPath? hp hf)).imp fun id t _ _ hr => ?_
    obtain ⟨rfl, hr⟩ := hr
    refine ⟨hr, fun hm => ?_, fun he => ?_⟩
    · rw [hr.obtains.read.unfinished] at hm
      exact Nat.lt_irrefl _ (h.unfinished _ hm)
    · have none : s.modules.size = 0 := congrArg ModuleId.index he
      exact absurd (none ▸ h.module) (Nat.not_lt_zero _)

theorem meets_addImport {literal : String} {t : Session} {imported : ModuleId}
    (h : s.Valid ∅) (ht : t.Ready ∅) (hr : s.IsReading setup.settings)
    (hf : s.HasFound setup (Path.ofImport (s.modules.folder s.blocks.module) literal) imported t) :
    (modify fun u => { u with modules := u.modules.addImport s.blocks.module imported } :
      Action PUnit).Meets setup Set.univ ∅ (fun _ u => s.HasImported setup [literal] u) t := by
  obtain ⟨m, hm⟩ : ∃ m, s.modules.get? s.blocks.module = some m :=
    ⟨_, Array.getElem?_eq_getElem h.module⟩
  have known : imported.index < t.modules.size := by
    obtain ⟨n, hn, _⟩ := hf.obtains.here
    exact ModuleTable.lt_of_get?_eq_some hn
  have reading : s.blocks.module ∈ t.modules.unfinished := by
    rw [hf.obtains.read.unfinished]
    exact hr.unfinished
  have obtains := hf.obtains
  rw [ModuleTable.folder, hm] at obtains
  exact meets_write ht (.addImport known reading hf.finished hf.named) (keeps_univ _ _)
    ⟨hf.arranged.same (grows_addImport s.blocks.module imported) rfl rfl rfl rfl, hf.module,
      obtains.gathers hm⟩

theorem ahead_of_importLiteral? {past : Past stream String} (h : importLiteral? stream = some past) :
    ∃ word, stream.ahead = word :: past.stream.ahead ∧ word.kind = .text past.value := by
  unfold importLiteral? at h
  split at h
  · rename_i literal hk
    cases h
    unfold Stream.kind at hk
    split at hk
    · rename_i word rest ha
      exact ⟨word, ha.trans (congrArg _ (Stream.ahead_advance ha).symm), hk⟩
    · cases hk
  · cases h

theorem meets_importItem (hl : ∀ load ∈ load?, Loads setup load) (h : s.Ready ∅)
    (hr : s.IsReading setup.settings) :
    (importItem load? stream).Meets setup Set.univ ∅ (fun rest t => ∃ word literal,
      stream.ahead = word :: rest.stream.ahead ∧ word.kind = .text literal ∧
        s.HasImported setup [literal] t) s := by
  unfold importItem
  split
  · exact meets_fail rfl
  · rename_i literal s₁ h₁ hi
    obtain ⟨word, ahead, kind⟩ := ahead_of_importLiteral? hi
    rw [meets_get]
    refine (meets_importedModule hl h hr.arranged).bind fun id t ht _ hf => ?_
    refine (meets_addImport h.toValid ht hr hf).bind fun _ u hu _ hi => ?_
    exact meets_pure hu ⟨word, literal, ahead, kind, hi⟩

/-- What stands between two literals of a group is no literal itself. -/
theorem meets_importSeparator {α : Type} {f : Kept stream → Action α} {Q : α → Session → Prop}
    (hf : ∀ rest, Stream.groupLiterals stream.ahead = Stream.groupLiterals rest.stream.ahead →
      (f rest).Meets setup Set.univ ∅ Q s) :
    (separator .closeParen stream >>= f).Meets setup Set.univ ∅ Q s := by
  unfold separator
  split
  · exact hf _ rfl
  · rw [bind_assoc]
    refine meets_skip fun rest hs => hf rest.rest ?_
    obtain ⟨word, ahead, symbol⟩ := Stream.ahead_of_skip? hs
    rw [ahead, Stream.groupLiterals_semicolon _ symbol]
    rfl

theorem meets_importItems (hl : ∀ load ∈ load?, Loads setup load) (stream : Stream) (s : Session)
    (h : s.Ready ∅) (hr : s.IsReading setup.settings) :
    (importItems load? stream).Meets setup Set.univ ∅ (fun rest t => ∃ literals,
      Stream.groupLiterals stream.ahead = literals ++ Stream.groupLiterals rest.stream.ahead ∧
        s.HasImported setup literals t) s := by
  rw [importItems]
  split
  · exact meets_pure h ⟨[], rfl, .nil hr.arranged h.toValid⟩
  apply (meets_importItem hl h hr).bind
  rintro ⟨⟨⟩, s₁, h₁⟩ t ht _ ⟨word, literal, ahead, kind, first⟩
  -- Behind the first literal stands a separator at most, and then the other literals.
  refine meets_importSeparator fun rest between => ?_
  obtain ⟨⟨⟩, s₂, h₂⟩ := rest
  have h₂ := h₂.behind h₁
  have hlt := h₂.2
  apply (meets_importItems hl s₂ t ht (first.isReading hr)).bind
  rintro rest u hu _ ⟨literals, others, imported⟩
  refine meets_pure hu ⟨literal :: literals, ?_, first.trans imported⟩
  rw [ahead, Stream.groupLiterals_text _ kind, between, others]
  rfl
termination_by stream.size

theorem meets_importClause (hl : ∀ load ∈ load?, Loads setup load) (h : s.Ready ∅)
    (hr : s.IsReading setup.settings) :
    (importClause load? stream).Meets setup Set.univ ∅
      (fun _ t => s.HasImported setup stream.importLiterals t) s := by
  unfold importClause
  refine meets_skip fun rest hs => ?_
  obtain ⟨⟨⟩, s₁, h₁⟩ := rest
  obtain ⟨first, ahead, importWord⟩ := Stream.ahead_of_skip? hs
  dsimp only
  split
  · refine (meets_importItem hl h hr).bind fun rest t ht _ hi => ?_
    obtain ⟨word, literal, ahead', kind, imported⟩ := hi
    refine meets_pure ht ?_
    rw [Stream.importLiterals_single _ (ahead.trans (congrArg _ ahead')) importWord kind]
    exact imported
  · rename_i paren hp
    obtain ⟨second, ahead', openParen⟩ := Stream.ahead_of_skip? hp
    refine (meets_importItems hl _ s h hr).bind fun rest t ht _ hi => ?_
    obtain ⟨literals, inner, imported⟩ := hi
    refine meets_skip fun _ hc => meets_pure ht ?_
    obtain ⟨last, closing, closeParen⟩ := Stream.ahead_of_skip? hc
    have closing : rest.stream.ahead = last :: _ := closing
    rw [closing, Stream.groupLiterals_closeParen _ closeParen, List.append_nil] at inner
    obtain rfl : Stream.groupLiterals paren.stream.ahead = literals := inner
    rw [Stream.importLiterals_group _ (ahead.trans (congrArg _ ahead')) importWord openParen]
    exact imported

theorem meets_optionalImports (hl : ∀ load ∈ load?, Loads setup load) (h : s.Ready ∅)
    (hr : s.IsReading setup.settings) :
    (optionalImports load? stream).Meets setup Set.univ ∅
      (fun _ t => s.HasImported setup stream.importLiterals t) s := by
  unfold optionalImports
  split
  · refine (meets_importClause hl h hr).bind fun _ t ht _ hi => ?_
    exact meets_eat fun _ => meets_pure ht hi
  · rename_i other
    rw [Stream.importLiterals_of_not_isAt (Bool.eq_false_iff.2 other)]
    exact meets_pure h (.nil hr.arranged h.toValid)

/-! ### Modules -/

theorem meets_openModule {path : Path} (h : s.Ready ∅) (hp : s.CanOpen path) :
    (openModule path.toText).Meets setup Set.univ ∅
      (fun id t => id = ⟨s.modules.size⟩ ∧ t = s.openModule path.toText) s :=
  meets_write h (.openModule hp.canonical hp.fresh) (keeps_univ _ _) ⟨rfl, rfl⟩

theorem meets_finish {id : ModuleId} (h : s.Ready ∅) :
    (modify fun t => { t with modules := t.modules.finish id } : Action PUnit).Meets setup Set.univ
      ∅ (fun _ t => t = { s with modules := s.modules.finish id }) s :=
  meets_write h .finish (keeps_univ _ _) rfl

/-- The module that has just been opened is being read. -/
theorem isReading_openModule (path : String) (hs : s.Arranged setup.settings) :
    (s.openModule path).IsReading setup.settings where
  arranged := hs.same (grows_openModule path) rfl rfl rfl rfl
  unfinished := ModuleTable.mem_unfinished_begin_self _

theorem meets_moduleBody {path : Path} (hl : ∀ load ∈ load?, Loads setup load) (h : s.Ready ∅)
    (hs : s.Arranged setup.settings) (hp : s.CanOpen path) (hk : s.Knows stream)
    (words : setup.words? path.toText = some stream) :
    (moduleBody load? path.toText stream).Meets setup Set.univ ∅
      (fun id t => id = ⟨s.modules.size⟩ ∧ t.Arranged setup.settings ∧
        s.modules.Obtains setup path id t.modules) s := by
  unfold moduleBody
  apply (meets_openModule h hp).bind
  rintro id t ht e ⟨rfl, rfl⟩
  apply (meets_optionalImports hl ht (isReading_openModule _ hs)).bind
  rintro ⟨⟨⟩, s₁, h₁⟩ u hu e' hi
  have hk := ((hk.within h₁).evolves e).evolves e'
  have declared := meets_declarations s₁ u hu hi.arranged.toSettled hk
  refine (declared.recall (Set.subset_univ _)).bind ?_
  rintro rest v hv _ ⟨e'', arranges⟩
  refine meets_atEnd ?_
  refine (meets_finish hv).bind fun _ w hw _ hf => meets_pure hw ⟨rfl, ?_, ?_⟩
  · rw [hf]
    exact (arranges.arranged hi.arranged).same (grows_finish _) rfl rfl rfl rfl
  · -- The declarations of the module leave the table of modules as it was.
    have modules : v.modules = u.modules := (e''.keeps.files fun hm => hm rfl).2.1
    rw [hf, modules]
    exact hi.gathers.obtains words h.unfinished

/-! ### Files -/

theorem meets_openFile {path : String} (h : s.Ready ∅) (hs : s.Arranged setup.settings) :
    (openFile path).Meets setup Set.univ ∅ (fun stream t => t.Arranged setup.settings ∧
      t.Knows stream ∧ setup.words? path = some stream ∧ t.modules = s.modules ∧
      t.blocks.module = s.blocks.module) s := by
  unfold openFile
  rw [meets_read]
  split
  · exact meets_throw (of_decide_eq_false rfl)
  · rename_i text read
    split
    · rename_i fault hf
      have category := Stream.category_of_scan hf
      refine meets_throw ?_
      show fault.cause.category ≠ .internal
      rw [category]
      nofun
    · rename_i stream hw
      have step : s.Step ∅ { s with names := s.names.addWords stream } := .addNames
      have arranged : Session.Arranged setup.settings { s with names := s.names.addWords stream } :=
        hs.same step.grows rfl rfl rfl rfl
      have known : Session.Knows { s with names := s.names.addWords stream } stream := by
        intro token ht name hn
        exact NameTable.mem_addAll_self h.names (List.mem_filterMap.2 ⟨token, ht, hn⟩)
      have words : setup.words? path = some stream := by
        rw [Setup.words?, read]
        dsimp only
        rw [hw]
        rfl
      exact meets_write h step (keeps_univ _ _) ⟨arranged, known, words, rfl, rfl⟩

/-- An action inside another file. -/
theorem meets_inFile {α : Type} {path : String} {action : Action α} {Q : α → Session → Prop}
    (h : s.Ready ∅)
    (ha : (s.enterFile path).Ready ∅ → s.Evolves Set.univ (s.enterFile path) →
      action.Meets setup Set.univ ∅ (fun v t => Q v (t.leaveFile s.frame)) (s.enterFile path)) :
    (inFile path action).Meets setup Set.univ ∅ Q s := by
  have step : s.Step ∅ (s.enterFile path) := .place
  have evolves : s.Evolves Set.univ (s.enterFile path) := ⟨step.grows, keeps_univ _ _, step.fixes⟩
  have change : Changes setup Set.univ s (s.enterFile path) :=
    .of_size (.step h.bound step) (keeps_univ _ _) rfl
  have leaves (t : Session) (e : (s.enterFile path).Evolves Set.univ t) :
      Changes setup Set.univ t (t.leaveFile s.frame) := by
    have known := Nat.lt_of_lt_of_le h.module e.grows.modules_size
    exact .of_size (.leaveFile known) (keeps_univ _ _) rfl
  refine ⟨change, ensures_andFinally.2 ?_⟩
  refine Ensures.mono (ha (step.ready h) evolves) (fun _ _ => id) (fun d t ht => ?_)
    fun v t ht => ?_
  · have left := leaves t ht.2
    exact ⟨left, ht.1, evolves.trans (ht.2.trans left.evolves)⟩
  · obtain ⟨⟨ready, e, _⟩, hQ⟩ := ht
    have left := leaves t e
    have ready : (t.leaveFile s.frame).Ready ∅ :=
      { ready with toValid := left.change.valid ready.toValid }
    exact ⟨left, ⟨ready, evolves.trans (e.trans left.evolves), nofun⟩, hQ⟩

theorem loads_moduleFile (hl : ∀ load ∈ load?, Loads setup load) :
    Loads setup (moduleFile load?) := by
  intro path s h hs hp
  unfold moduleFile
  apply (meets_openFile h hs).bind
  rintro stream t ht e ⟨hs, hk, words, modules, module⟩
  refine meets_inFile ht fun ht' e' => ?_
  have arranged : (t.enterFile path.toText).Arranged setup.settings := hs.same e'.grows rfl rfl rfl rfl
  have hp : (t.enterFile path.toText).CanOpen path := ⟨hp.canonical, by
    show 1 < t.modules.size → _
    rw [modules]
    exact modules ▸ hp.fresh⟩
  apply (meets_moduleBody hl ht' arranged hp (hk.evolves e') words).imp
  rintro id u hu e'' ⟨new, hs, obtains⟩
  have obtains : t.modules.Obtains setup path id u.modules := obtains
  refine ⟨?_, hs.same (grows_leaveFile _) rfl rfl rfl rfl, module, modules ▸ obtains⟩
  rw [new]
  exact congrArg (fun m => ModuleId.mk (ModuleTable.size m)) modules

/-- Imports are read alike at every depth. -/
theorem loads_readModule (levels : Nat) : Loads setup (readModule levels) := by
  induction levels with
  | zero => exact loads_moduleFile nofun
  | succ levels ih =>
    apply loads_moduleFile
    rintro load ⟨⟩
    exact ih

end Action

end FrontEnd
