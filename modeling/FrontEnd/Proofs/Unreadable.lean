import FrontEnd.Proofs.History
import FrontEnd.Proofs.NoFile
import FrontEnd.Source.Files

/-!
Files that cannot be read. The import that asked for such a file says so; but so does, in its place,
each import that leads to it, since the import below it has put the fault into the file that was asked
for. In the end the fault stands at the import of the root file with which the chain begins.
-/

namespace FrontEnd

open Relation

namespace Stream

/-- The words up to a closing parenthesis that are literals. -/
def groupWords (words : List Token) : List Token :=
  (words.takeWhile (·.kind.symbol? ≠ some .closeParen)).filter (·.kind.text?.isSome)

/-- The words of the import clause with which a file begins that are literals. -/
def importWords (s : Stream) : List Token :=
  match s.ahead with
  | word :: next :: rest =>
    if word.kind.symbol? = some .importWord then
      if next.kind.symbol? = some .openParen then groupWords rest
      else [next].filter (·.kind.text?.isSome)
    else []
  | _ => []

theorem mem_groupLiterals {words : List Token} {word : Token} {literal : String}
    (h : word ∈ groupWords words) (kind : word.kind = .text literal) :
    literal ∈ groupLiterals words :=
  List.mem_filterMap.2 ⟨word, (List.mem_filter.1 h).1, by rw [kind]; rfl⟩

theorem mem_importLiterals {s : Stream} {word : Token} {literal : String}
    (h : word ∈ s.importWords) (kind : word.kind = .text literal) :
    literal ∈ s.importLiterals := by
  unfold importWords at h
  unfold importLiterals
  generalize s.ahead = ahead at h ⊢
  rcases ahead with _ | ⟨first, _ | ⟨next, rest⟩⟩
  · cases h
  · cases h
  dsimp only at h ⊢
  split at h
  · rename_i clause
    rw [if_pos clause]
    split at h
    · rename_i group
      rw [if_pos group]
      exact mem_groupLiterals h kind
    · rename_i single
      rw [if_neg single]
      obtain rfl := List.mem_singleton.1 (List.mem_filter.1 h).1
      rw [kind]
      exact List.mem_singleton_self literal
  · cases h

end Stream

/-- The file at one path imports the file at the other. -/
def Setup.FileImports (setup : Setup) (path next : Path) : Prop :=
  ∃ stream, setup.words? path.toText = some stream ∧ ∃ literal ∈ stream.importLiterals,
    next = Path.ofImport (Path.folder path.toText) literal

/-- Where the fault of a file that cannot be read stands, if it is reached from `path`: at that file
if it is the one at `path` itself, and otherwise at the import in the file at `path` that leads to
it. -/
inductive BlamedAt (setup : Setup) (path : Path) : Diagnostic → Prop
  | file {message : String} (unreadable : setup.sources.read path.toText = .error message) :
    BlamedAt setup path (.ofFile path.toText (.unreadable message))
  | import {stream : Stream} {word : Token} {literal message : String} {missing : Path}
    (words : setup.words? path.toText = some stream) (mem : word ∈ stream.importWords)
    (kind : word.kind = .text literal)
    (chain : ReflTransGen setup.FileImports (Path.ofImport (Path.folder path.toText) literal) missing)
    (unreadable : setup.sources.read missing.toText = .error message) :
    BlamedAt setup path ((⟨.unreadable message, word.span⟩ : Fault).inFile path.toText)

/-- Whoever is blamed, the fault is that of a file which the file at `path` asks for. -/
theorem BlamedAt.exists_missing {setup : Setup} {path : Path} {d : Diagnostic}
    (h : BlamedAt setup path d) : d.scope = path.toText ∧ ∃ missing message,
      ReflTransGen setup.FileImports path missing ∧
        setup.sources.read missing.toText = .error message ∧ d.cause = .unreadable message := by
  cases h with
  | file unreadable => exact ⟨rfl, path, _, .refl, unreadable, rfl⟩
  | «import» words mem kind chain unreadable =>
    have first : setup.FileImports path (Path.ofImport (Path.folder path.toText) _) :=
      ⟨_, words, _, Stream.mem_importLiterals mem kind, rfl⟩
    exact ⟨rfl, _, _, chain.head first, unreadable, rfl⟩

namespace Action

open Session

variable {α β : Type} {setup : Setup} {s t : Session} {d : Diagnostic} {path : Path}
  {load? : Option (Path → Action ModuleId)} {stream : Stream}

/-- The step fails because a file cannot be read. -/
def FailsOnFile (action : Action α) (setup : Setup) (s : Session) (d : Diagnostic) : Prop :=
  (∃ t, action.run setup s = .error d t) ∧ d.category = .file

theorem ReadsNoFile.not_failsOnFile {action : Action α} (h : action.ReadsNoFile) :
    ¬ action.FailsOnFile setup s d := by
  rintro ⟨⟨t, hr⟩, file⟩
  exact h setup s d t hr file

theorem failsOnFile_bind {action : Action α} {f : α → Action β}
    (h : (action >>= f).FailsOnFile setup s d) : action.FailsOnFile setup s d ∨
      ∃ v t, action.Yields setup s v t ∧ (f v).FailsOnFile setup t d := by
  obtain ⟨⟨t, hr⟩, file⟩ := h
  rw [run_bind] at hr
  cases ha : action.run setup s with
  | ok v u =>
    rw [ha] at hr
    exact .inr ⟨v, u, ha, ⟨t, hr⟩, file⟩
  | error e u =>
    rw [ha] at hr
    cases hr
    exact .inl ⟨⟨_, ha⟩, file⟩

/-- What is behind a step that reads no file fails, if the whole does because of a file. -/
theorem ReadsNoFile.of_bind {action : Action α} {f : α → Action β} (hn : action.ReadsNoFile)
    (h : (action >>= f).FailsOnFile setup s d) :
    ∃ v t, action.Yields setup s v t ∧ (f v).FailsOnFile setup t d :=
  (failsOnFile_bind h).resolve_left hn.not_failsOnFile

theorem FailsOnFile.of_fail {cause : Cause} {span : Span}
    (h : (fail cause span : Action α).FailsOnFile setup s d) : cause.category = .file := by
  obtain ⟨⟨t, hr⟩, file⟩ := h
  cases hr
  exact file

/-! ### Imports -/

/-- A step that reads a file and its imports blames the file or one of its imports. -/
def Blames (setup : Setup) (load : Path → Action ModuleId) : Prop :=
  ∀ (path : Path) (s : Session) (d : Diagnostic), s.Ready ∅ → s.Arranged setup.settings →
    s.CanOpen path → (load path).FailsOnFile setup s d → BlamedAt setup path d

/-- The fault of a file that is asked for by an import. The import takes the blame from the file. -/
theorem failsOnFile_loadImport {span : Span} (hb : ∀ load ∈ load?, Blames setup load)
    (h : s.Ready ∅) (hs : s.Arranged setup.settings) (hp : s.CanOpen path)
    (hf : (loadImport load? path span).FailsOnFile setup s d) : ∃ missing message,
      ReflTransGen setup.FileImports path missing ∧
        setup.sources.read missing.toText = .error message ∧
        d = (⟨.unreadable message, span⟩ : Fault).inFile s.place.file := by
  unfold loadImport at hf
  split at hf
  · obtain ⟨_, _, _, hf⟩ := readsNoFile_read.of_bind hf
    exact nomatch FailsOnFile.of_fail hf
  · rename_i load
    obtain ⟨⟨t, hr⟩, file⟩ := hf
    rw [run_get, run_mapError] at hr
    cases hl : (load path).run setup s with
    | ok id u => rw [hl] at hr; cases hr
    | error e u =>
      rw [hl] at hr
      cases hr
      by_cases own : e.category = .file
      · obtain ⟨scope, missing, message, chain, unreadable, cause⟩ :=
          (hb load rfl path s e h hs hp ⟨⟨_, hl⟩, own⟩).exists_missing
        refine ⟨missing, message, chain, unreadable, ?_⟩
        rw [if_pos (by simp [own, scope]), cause]
      · rw [if_neg (by simp [own])] at file
        exact absurd file own

theorem failsOnFile_importedModule {literal : String} {span : Span}
    (hb : ∀ load ∈ load?, Blames setup load) (h : s.Ready ∅) (hs : s.Arranged setup.settings)
    (hf : (importedModule load? literal span).FailsOnFile setup s d) : ∃ missing message,
      ReflTransGen setup.FileImports
        (Path.ofImport (s.modules.folder s.blocks.module) literal) missing ∧
        setup.sources.read missing.toText = .error message ∧
        d = (⟨.unreadable message, span⟩ : Fault).inFile s.place.file := by
  unfold importedModule at hf
  obtain ⟨v, u, hy, hf⟩ := readsNoFile_get.of_bind hf
  cases hy
  dsimp only at hf
  split at hf
  · rw [fail_bind] at hf
    split at hf
    · exact nomatch FailsOnFile.of_fail hf
    · exact absurd hf (readsNoFile_pure _).not_failsOnFile
  · rename_i new
    exact failsOnFile_loadImport hb h hs (canOpen_of_findByPath? ⟨_, rfl⟩ new) hf

theorem failsOnFile_importItem (hb : ∀ load ∈ load?, Blames setup load) (h : s.Ready ∅)
    (hs : s.Arranged setup.settings) (hf : (importItem load? stream).FailsOnFile setup s d) :
    ∃ word rest literal missing message, stream.ahead = word :: rest ∧ word.kind = .text literal ∧
      ReflTransGen setup.FileImports
        (Path.ofImport (s.modules.folder s.blocks.module) literal) missing ∧
      setup.sources.read missing.toText = .error message ∧
      d = (⟨.unreadable message, word.span⟩ : Fault).inFile s.place.file := by
  unfold importItem at hf
  split at hf
  · cases FailsOnFile.of_fail hf
  · rename_i literal s₁ h₁ hi
    obtain ⟨word, ahead, kind⟩ := ahead_of_importLiteral? hi
    have span : stream.span = word.span := by
      unfold Stream.span
      rw [ahead]
    obtain ⟨v, u, hy, hf⟩ := readsNoFile_get.of_bind hf
    cases hy
    rcases failsOnFile_bind hf with hf | ⟨imported, t, _, hf⟩
    · obtain ⟨missing, message, chain, unreadable, blamed⟩ :=
        failsOnFile_importedModule hb h hs hf
      exact ⟨word, _, literal, missing, message, ahead, kind, chain, unreadable, span ▸ blamed⟩
    · obtain ⟨_, _, _, hf⟩ := (readsNoFile_modify _).of_bind hf
      exact absurd hf (readsNoFile_pure _).not_failsOnFile

/-! ### The file being read -/

/-- A successful import comes back to the file that asks for it. -/
def Returns (setup : Setup) (load : Path → Action ModuleId) : Prop :=
  ∀ path s id t, (load path).Yields setup s id t → t.place = s.place

theorem Yields.of_mapError {f : Diagnostic → Diagnostic} {action : Action α} {v : α}
    (h : (mapError f action).Yields setup s v t) : action.Yields setup s v t := by
  unfold Yields at h ⊢
  rw [run_mapError] at h
  cases hr : action.run setup s with
  | ok w u => rw [hr] at h; exact h
  | error e u => rw [hr] at h; cases h

theorem place_of_importedModule {literal : String} {span : Span} {id : ModuleId}
    (hr : ∀ load ∈ load?, Returns setup load)
    (hy : (importedModule load? literal span).Yields setup s id t) : t.place = s.place := by
  unfold importedModule at hy
  rw [yields_get] at hy
  dsimp only at hy
  split at hy
  · rw [fail_bind] at hy
    split at hy
    · exact absurd hy not_yields_fail
    · rw [(yields_pure.1 hy).2]
  · unfold loadImport at hy
    split at hy
    · rw [yields_read] at hy
      exact absurd hy not_yields_fail
    · rw [yields_get] at hy
      exact hr _ rfl _ s id t hy.of_mapError

theorem place_of_importItem {rest : Shorter stream} (hr : ∀ load ∈ load?, Returns setup load)
    (hy : (importItem load? stream).Yields setup s rest t) : t.place = s.place := by
  unfold importItem at hy
  split at hy
  · exact absurd hy not_yields_fail
  · rw [yields_get] at hy
    obtain ⟨imported, u, found, hy⟩ := yields_bind.1 hy
    obtain ⟨_, w, changed, hy⟩ := yields_bind.1 hy
    cases changed
    rw [(yields_pure.1 hy).2]
    exact (place_of_importedModule hr found : u.place = s.place)

/-- The import clause of the file at `path` is being read. -/
structure InImportsOf (setup : Setup) (path : Path) (s : Session) : Prop where
  ready : s.Ready ∅
  reading : s.IsReading setup.settings
  file : s.place.file = path.toText
  folder : s.modules.folder s.blocks.module = Path.folder path.toText

theorem InImportsOf.importItem {rest : Shorter stream} (h : InImportsOf setup path s)
    (hl : ∀ load ∈ load?, Loads setup load) (hr : ∀ load ∈ load?, Returns setup load)
    (hy : (importItem load? stream).Yields setup s rest t) : InImportsOf setup path t := by
  obtain ⟨leads, _, _, _, _, imported⟩ := (meets_importItem hl h.ready h.reading).of_run_ok hy
  refine ⟨leads.ready, imported.isReading h.reading, ?_, ?_⟩
  · rw [place_of_importItem hr hy]
    exact h.file
  · obtain ⟨m, imports, before, after, _⟩ := imported.gathers.added
    rw [imported.module, ← h.folder, ModuleTable.folder, ModuleTable.folder, before, after]
    rfl

/-- One of the literals `words` in the file at `path` gets the blame. -/
def BlamesWord (setup : Setup) (path : Path) (words : List Token) (d : Diagnostic) : Prop :=
  ∃ word ∈ words, ∃ literal missing message, word.kind = .text literal ∧
    ReflTransGen setup.FileImports (Path.ofImport (Path.folder path.toText) literal) missing ∧
    setup.sources.read missing.toText = .error message ∧
    d = (⟨.unreadable message, word.span⟩ : Fault).inFile path.toText

theorem BlamesWord.mono {words more : List Token} (h : BlamesWord setup path words d)
    (hw : words ⊆ more) : BlamesWord setup path more d := by
  obtain ⟨word, mem, blamed⟩ := h
  exact ⟨word, hw mem, blamed⟩

variable (hl : ∀ load ∈ load?, Loads setup load) (hr : ∀ load ∈ load?, Returns setup load)
  (hb : ∀ load ∈ load?, Blames setup load)

include hb in
theorem blamesWord_importItem (h : InImportsOf setup path s)
    (hf : (importItem load? stream).FailsOnFile setup s d) :
    ∃ word rest, stream.ahead = word :: rest ∧ word.kind.text?.isSome ∧
      BlamesWord setup path [word] d := by
  obtain ⟨word, rest, literal, missing, message, ahead, kind, chain, unreadable, blamed⟩ :=
    failsOnFile_importItem hb h.ready h.reading.arranged hf
  rw [h.folder] at chain
  rw [h.file] at blamed
  exact ⟨word, rest, ahead, by rw [kind]; rfl, word, List.mem_singleton_self word, literal, missing,
    message, kind, chain, unreadable, blamed⟩

/-- The words that stand in front of the rest of a group are not lost. -/
theorem groupWords_cons {word : Token} {rest : List Token} (h : word.kind.text?.isSome) :
    Stream.groupWords (word :: rest) = word :: Stream.groupWords rest := by
  have other : word.kind.symbol? ≠ some .closeParen := by
    intro he
    cases hk : word.kind <;> rw [hk] at h he <;> cases he
    cases h
  simp [Stream.groupWords, other, h]

theorem groupWords_semicolon {word : Token} {rest : List Token}
    (h : word.kind.symbol? = some .semicolon) :
    Stream.groupWords (word :: rest) = Stream.groupWords rest := by
  have none : word.kind.text? = none := by
    cases hk : word.kind <;> rw [hk] at h <;> cases h
    rfl
  simp [Stream.groupWords, h, none]

/-- A separator takes no literal away. -/
theorem groupWords_separator {rest : Kept stream}
    (hy : (separator .closeParen stream).Yields setup s rest t) : t = s ∧
      Stream.groupWords rest.stream.ahead = Stream.groupWords stream.ahead := by
  unfold separator at hy
  split at hy
  · obtain ⟨rfl, rfl⟩ := yields_pure.1 hy
    exact ⟨rfl, rfl⟩
  · obtain ⟨passed, u, eaten, hy⟩ := yields_bind.1 hy
    obtain ⟨rfl, rfl⟩ := yields_pure.1 hy
    unfold eat at eaten
    split at eaten
    · rename_i skipped
      obtain ⟨rfl, rfl⟩ := yields_pure.1 eaten
      obtain ⟨word, ahead, semicolon⟩ := Stream.ahead_of_skip? skipped
      rw [ahead, groupWords_semicolon semicolon]
      exact ⟨rfl, rfl⟩
    · exact absurd eaten not_yields_fail

include hl hr hb in
theorem blamesWord_importItems (stream : Stream) (s : Session) (h : InImportsOf setup path s)
    (hf : (importItems load? stream).FailsOnFile setup s d) :
    BlamesWord setup path (Stream.groupWords stream.ahead) d := by
  rw [importItems] at hf
  split at hf
  · exact absurd hf (readsNoFile_pure _).not_failsOnFile
  rcases failsOnFile_bind hf with hf | ⟨⟨⟨⟩, s₁, h₁⟩, t, item, hf⟩
  · obtain ⟨word, rest, ahead, text, blamed⟩ := blamesWord_importItem hb h hf
    rw [ahead, groupWords_cons text]
    exact blamed.mono (by simp)
  · obtain ⟨⟨⟨⟩, s₂, h₂⟩, u, separated, behind⟩ := readsNoFile_separator.of_bind hf
    obtain ⟨rfl, same⟩ := groupWords_separator separated
    have hlt := (h₂.behind h₁).2
    rcases failsOnFile_bind behind with hf | ⟨_, _, _, hf⟩
    · have blamed := blamesWord_importItems s₂ u (h.importItem hl hr item) hf
      obtain ⟨_, word, literal, ahead, kind, _⟩ :=
        (meets_importItem hl h.ready h.reading).of_run_ok item
      rw [ahead, groupWords_cons (by rw [kind]; rfl), ← same]
      exact blamed.mono (List.subset_cons_self _ _)
    · exact absurd hf (readsNoFile_pure _).not_failsOnFile
termination_by stream.size

include hl hr hb in
theorem blamesWord_optionalImports (h : InImportsOf setup path s)
    (hf : (optionalImports load? stream).FailsOnFile setup s d) :
    BlamesWord setup path stream.importWords d := by
  unfold optionalImports at hf
  split at hf
  swap
  · exact absurd hf (readsNoFile_pure _).not_failsOnFile
  rcases failsOnFile_bind hf with hf | ⟨_, _, _, hf⟩
  swap
  · obtain ⟨_, _, _, hf⟩ := readsNoFile_eat.of_bind hf
    exact absurd hf (readsNoFile_pure _).not_failsOnFile
  unfold importClause at hf
  obtain ⟨⟨⟨⟩, s₁, h₁⟩, u, eaten, clause⟩ := readsNoFile_eat.of_bind hf
  obtain ⟨skipped, rfl⟩ := yields_eat.1 eaten
  obtain ⟨first, ahead, importWord⟩ := Stream.ahead_of_skip? skipped
  replace hf := clause
  clear clause
  dsimp only at hf ahead
  split at hf
  · rename_i single
    rcases failsOnFile_bind hf with hf | ⟨_, _, _, hf⟩
    · obtain ⟨word, rest, ahead', text, blamed⟩ := blamesWord_importItem hb h hf
      have other : word.kind.symbol? ≠ some .openParen := by
        intro he
        cases hk : word.kind <;> rw [hk] at text he <;> cases he
        cases text
      refine blamed.mono ?_
      unfold Stream.importWords
      rw [ahead, ahead']
      simp [importWord, other, text]
    · exact absurd hf (readsNoFile_pure _).not_failsOnFile
  · rename_i paren hp
    obtain ⟨second, ahead', openParen⟩ := Stream.ahead_of_skip? hp
    rcases failsOnFile_bind hf with hf | ⟨_, _, _, hf⟩
    · have blamed := blamesWord_importItems hl hr hb _ u h hf
      refine blamed.mono ?_
      unfold Stream.importWords
      rw [ahead, ahead']
      simp [importWord, openParen, Past.after]
    · obtain ⟨_, _, _, hf⟩ := readsNoFile_eat.of_bind hf
      exact absurd hf (readsNoFile_pure _).not_failsOnFile

/-! ### Files -/

theorem failsOnFile_openFile {path : String} (hf : (openFile path).FailsOnFile setup s d) :
    ∃ message, setup.sources.read path = .error message ∧
      d = .ofFile path (.unreadable message) := by
  unfold openFile at hf
  obtain ⟨_, _, hy, hf⟩ := readsNoFile_read.of_bind hf
  cases hy
  obtain ⟨⟨t, hr⟩, file⟩ := hf
  split at hr
  · rename_i message unreadable
    cases hr
    exact ⟨message, unreadable, rfl⟩
  · split at hr
    · rename_i fault hs
      cases hr
      cases (Stream.category_of_scan hs).symm.trans file
    · cases hr

theorem FailsOnFile.of_inFile {file : String} {action : Action α}
    (h : (inFile file action).FailsOnFile setup s d) :
    action.FailsOnFile setup (s.enterFile file) d := by
  obtain ⟨⟨t, hr⟩, own⟩ := h
  change (andFinally (·.leaveFile s.frame) action).run setup (s.enterFile file) = _ at hr
  rw [run_andFinally] at hr
  cases ha : action.run setup (s.enterFile file) with
  | ok v u => rw [ha] at hr; cases hr
  | error e u =>
    rw [ha] at hr
    cases hr
    exact ⟨⟨_, ha⟩, own⟩

theorem place_of_inFile {file : String} {action : Action α} {v : α}
    (hy : (inFile file action).Yields setup s v t) : t.place = s.place := by
  change (andFinally (·.leaveFile s.frame) action).run setup (s.enterFile file) = _ at hy
  rw [run_andFinally] at hy
  cases ha : action.run setup (s.enterFile file) with
  | ok w u =>
    rw [ha] at hy
    cases hy
    rfl
  | error e u => rw [ha] at hy; cases hy

theorem place_of_openFile {path : String} {stream : Stream}
    (hy : (openFile path).Yields setup s stream t) : t.place = s.place := by
  unfold openFile at hy
  rw [yields_read] at hy
  split at hy
  · cases hy
  · split at hy
    · cases hy
    · cases hy
      rfl

theorem returns_moduleFile : Returns setup (moduleFile load?) := by
  intro path s id t hy
  obtain ⟨stream, u, opened, hy⟩ := yields_bind.1 hy
  rw [place_of_inFile hy, place_of_openFile opened]

/-- The module of a file has just been opened, and its imports come next. -/
theorem inImportsOf_openModule (h : s.Ready ∅) (hs : s.Arranged setup.settings)
    (hp : s.CanOpen path) (file : s.place.file = path.toText) :
    InImportsOf setup path (s.openModule path.toText) where
  ready :=
    have opened : (openModule path.toText).Meets setup Set.univ ∅ _ s := meets_openModule h hp
    opened.2.1.ready
  reading := isReading_openModule path.toText hs
  file := file
  folder := by
    unfold Session.openModule
    dsimp only
    rw [ModuleTable.folder, ModuleTable.get?_begin, ModuleTable.get?_add]
    exact congrArg (fun m? => (Option.map Module.folder m?).getD "") (if_pos rfl)

include hl hr hb in
theorem blamesWord_moduleBody (h : s.Ready ∅) (hs : s.Arranged setup.settings)
    (hp : s.CanOpen path) (file : s.place.file = path.toText)
    (hf : (moduleBody load? path.toText stream).FailsOnFile setup s d) :
    BlamesWord setup path stream.importWords d := by
  unfold moduleBody at hf
  obtain ⟨id, t, opened, hf⟩ := (readsNoFile_modifyGet _ : (openModule _).ReadsNoFile).of_bind hf
  cases opened
  rcases failsOnFile_bind hf with hf | ⟨_, _, _, hf⟩
  · exact blamesWord_optionalImports hl hr hb (inImportsOf_openModule h hs hp file) hf
  -- Behind the imports no file is read.
  · obtain ⟨_, _, _, hf⟩ := (readsNoFile_declarations _).of_bind hf
    obtain ⟨_, _, _, hf⟩ := readsNoFile_atEnd.of_bind hf
    obtain ⟨_, _, _, hf⟩ := (readsNoFile_modify _).of_bind hf
    exact absurd hf (readsNoFile_pure _).not_failsOnFile

include hl hr hb in
theorem blames_moduleFile : Blames setup (moduleFile load?) := by
  intro path s d h hs hp hf
  unfold moduleFile at hf
  rcases failsOnFile_bind hf with hf | ⟨stream, t, opened, hf⟩
  · obtain ⟨message, unreadable, rfl⟩ := failsOnFile_openFile hf
    exact .file unreadable
  obtain ⟨leads, hs, knows, words, modules, module⟩ := (meets_openFile h hs).of_run_ok opened
  have entered : Session.Step ∅ t (t.enterFile path.toText) := .place
  have opens : (t.enterFile path.toText).CanOpen path := ⟨hp.canonical, by
    show 1 < t.modules.size → _
    rw [modules]
    exact modules ▸ hp.fresh⟩
  obtain ⟨word, mem, literal, missing, message, kind, chain, unreadable, rfl⟩ :=
    blamesWord_moduleBody hl hr hb (entered.ready leads.ready)
      (hs.same entered.grows rfl rfl rfl rfl) opens rfl hf.of_inFile
  exact .import words mem kind chain unreadable

theorem returns_readModule (levels : Nat) : Returns setup (readModule levels) := by
  cases levels <;> exact returns_moduleFile

/-- At every depth the blame is passed on to the import that is closer to the root. -/
theorem blames_readModule (levels : Nat) : Blames setup (readModule levels) := by
  induction levels with
  | zero => exact blames_moduleFile nofun nofun nofun
  | succ levels ih =>
    refine blames_moduleFile ?_ ?_ ?_ <;> rintro load ⟨⟩
    · exact loads_readModule levels
    · exact returns_readModule levels
    · exact ih

theorem readsNoFile_linkCall {slot : Nat} {name : String} {size : Int64} :
    (linkCall slot name size).ReadsNoFile := by
  unfold linkCall
  grind

theorem readsNoFile_linkPrototype {ident : Ident} {slot : Nat} :
    (linkPrototype ident slot).ReadsNoFile := by
  unfold linkPrototype
  refine readsNoFile_bind readsNoFile_get fun s => ?_
  dsimp only
  split
  · exact readsNoFile_failInternal
  refine readsNoFile_bind readsNoFile_read fun setup => ?_
  split
  · exact readsNoFile_throw nofun
  rw [throw_bind]
  split
  · exact readsNoFile_throw nofun
  · exact readsNoFile_linkCall

theorem readsNoFile_linkPrototypes : linkPrototypes.ReadsNoFile := by
  refine readsNoFile_bind readsNoFile_get fun s => readsNoFile_forM fun ident => ?_
  split
  · exact readsNoFile_linkPrototype
  · exact readsNoFile_pure _

/-- What follows when all modules have been read. -/
theorem readsNoFile_linked {path : Path} {entry : String} : (do
    checkForwards
    linkPrototypes
    if !(← get).code.entryDefined then throw (.ofFile path.toText (.entryUndefined entry)) :
      Action Unit).ReadsNoFile := by
  refine readsNoFile_bind readsNoFile_checkForwards fun _ =>
    readsNoFile_bind readsNoFile_linkPrototypes fun _ => readsNoFile_bind readsNoFile_get fun s => ?_
  split
  · exact readsNoFile_throw nofun
  · exact readsNoFile_pure _

theorem blamedAt_program {root : String}
    (hf : (program root).FailsOnFile setup (.initial setup.settings) d) :
    BlamedAt setup (Path.normalize root) d := by
  unfold program at hf
  have initial := initial_ready setup.settings
  have stub : (emit .nop).Meets setup _ ∅ _ (.initial setup.settings) :=
    meets_append initial (.of_nil rfl rfl) (by nofun)
  obtain ⟨_, t, emitted, hf⟩ := readsNoFile_emit.of_bind hf
  obtain ⟨leads, -, he⟩ := stub.of_run_ok emitted
  obtain ⟨_, _, ⟨⟩, hf⟩ := readsNoFile_read.of_bind hf
  have opens : t.CanOpen (Path.normalize root) := by
    refine ⟨⟨root, rfl⟩, fun more => ?_⟩
    rw [he] at more
    exact absurd more (Nat.lt_irrefl 1)
  rcases failsOnFile_bind hf with hf | ⟨id, u, _, hf⟩
  · refine blames_readModule _ _ t d leads.ready ?_ opens hf
    rw [he]
    exact initial_arranged setup.settings
  -- Behind the modules no file is read.
  · refine absurd hf (ReadsNoFile.not_failsOnFile ?_)
    dsimp only
    split
    · exact readsNoFile_bind readsNoFile_failInternal fun _ => readsNoFile_linked
    · exact readsNoFile_linked

end Action

/-- A file in memory that cannot be read is named by the message. -/
theorem Files.message_of_sources {files : Files} {path message : String}
    (h : files.sources.read path = .error message) : message = "Can't open file " ++ path := by
  unfold Files.sources at h
  dsimp only at h
  split at h
  · cases h
  · cases h
    rfl

/-- If a program is refused because a file cannot be read, then the root file leads to that file
through its imports, and the fault stands in the root file: at the import with which the way to the
missing file begins. With sources in memory the message names the missing file. -/
theorem compile_unreadable {setup : Setup} {root : String} {d : Diagnostic}
    (h : compile setup root = .error d) (file : d.category = .file) :
    BlamedAt setup (Path.normalize root) d ∧
      ∀ files : Files, setup.sources = files.sources → ∃ missing : Path,
        ReflTransGen setup.FileImports (Path.normalize root) missing ∧
        d.cause = .unreadable ("Can't open file " ++ missing.toText) := by
  have blamed : BlamedAt setup (Path.normalize root) d := by
    unfold compile at h
    split at h
    · cases h
    · rename_i hr
      cases h
      exact Action.blamedAt_program ⟨⟨_, hr⟩, file⟩
  refine ⟨blamed, fun files inMemory => ?_⟩
  obtain ⟨_, missing, message, chain, unreadable, cause⟩ := blamed.exists_missing
  rw [inMemory] at unreadable
  exact ⟨missing, chain, Files.message_of_sources unreadable ▸ cause⟩

/-- The root imports a file that imports a missing one. -/
def incompleteProgram : Setup where
  settings := .standard
  sources := (Files.ofList
    [("main.um", "import \"a.um\"\n\nfn main() \x7b\x7d\n"),
     ("a.um", "import \"missing.um\"\n")]).sources
  hosts := ⟨[]⟩

/-- The import in the root is blamed, though the file that it asks for can be read. -/
theorem incompleteProgram_unreadable : ∃ d, compile incompleteProgram "main.um" = .error d ∧
    d.category = .file ∧ BlamedAt incompleteProgram (Path.normalize "main.um") d ∧
    d = ⟨⟨.unreadable "Can't open file missing.um", ⟨⟨0, 7⟩, ⟨0, 13⟩⟩⟩, "main.um"⟩ := by
  have reports : (match compile incompleteProgram "main.um" with
      | .ok _ => none
      | .error d => some d) =
        some ⟨⟨.unreadable "Can't open file missing.um", ⟨⟨0, 7⟩, ⟨0, 13⟩⟩⟩, "main.um"⟩ := by
    decide +kernel
  cases h : compile incompleteProgram "main.um" with
  | ok t => rw [h] at reports; cases reports
  | error d =>
    rw [h] at reports
    cases reports
    exact ⟨_, rfl, rfl, (compile_unreadable h rfl).1, rfl⟩

end FrontEnd
