import FrontEnd.Proofs.Calls.Runs
import FrontEnd.Proofs.ImportChains

/-!
The depth of imports. While the words of a file are read, there are as many modules in progress as
imports are deep, and so the levels that are left say how much deeper they may become.
-/

namespace FrontEnd

open Relation

namespace Session

variable {s t u : Session}

/-- The modules in progress are those that there were, at the same depth of imports. -/
structure Restores (s t : Session) : Prop where
  importDepth : t.importDepth = s.importDepth
  unfinished : t.modules.unfinished = s.modules.unfinished
  size : s.modules.size ≤ t.modules.size

/-- The modules in progress are in the table of modules. -/
def Lists (s : Session) : Prop := ∀ id ∈ s.modules.unfinished, id.index < s.modules.size

namespace Restores

theorem refl (s : Session) : s.Restores s := ⟨rfl, rfl, Nat.le_refl _⟩

theorem trans (h : s.Restores t) (h' : t.Restores u) : s.Restores u where
  importDepth := h'.importDepth.trans h.importDepth
  unfinished := h'.unfinished.trans h.unfinished
  size := h.size.trans h'.size

theorem of_modules (modules : t.modules = s.modules) (depth : t.importDepth = s.importDepth) :
    s.Restores t :=
  ⟨depth, by rw [modules], by rw [modules]⟩

theorem lists (h : s.Restores t) (lists : s.Lists) : t.Lists := by
  intro id hid
  rw [h.unfinished] at hid
  exact Nat.lt_of_lt_of_le (lists id hid) h.size

end Restores

/-- There are as many modules in progress as imports are deep. -/
structure Balanced (s : Session) : Prop where
  lists : s.Lists
  depth : s.importDepth = s.modules.unfinished.length

theorem Balanced.restores (h : s.Balanced) (restores : s.Restores t) : t.Balanced where
  lists := restores.lists h.lists
  depth := by rw [restores.importDepth, restores.unfinished, h.depth]

theorem Lists.unfinished_openModule (lists : s.Lists) (path : String) :
    (s.openModule path).modules.unfinished = ⟨s.modules.size⟩ :: s.modules.unfinished :=
  ModuleTable.unfinished_begin fun known => Nat.lt_irrefl _ (lists _ known)

theorem modules_size_openModule (path : String) :
    (s.openModule path).modules.size = s.modules.size + 1 :=
  (ModuleTable.size_begin _).trans (ModuleTable.size_add _ _ _)

theorem Lists.openModule (lists : s.Lists) (path : String) : (s.openModule path).Lists := by
  intro id hid
  rw [lists.unfinished_openModule] at hid
  rw [modules_size_openModule]
  rcases List.mem_cons.1 hid with rfl | known
  · exact Nat.lt_succ_self _
  · exact Nat.lt_succ_of_lt (lists id known)

/-- The module of a file that has just been entered is in progress. -/
theorem Balanced.openModule (h : s.Balanced) (names : NameTable) (path : String) :
    ((Session.enterFile { s with names } path).openModule path).Balanced where
  lists := Lists.openModule (s := Session.enterFile { s with names } path) h.lists path
  depth := by
    have lists : (Session.enterFile { s with names } path).Lists := h.lists
    rw [lists.unfinished_openModule]
    exact congrArg (· + 1) h.depth

/-- With the end of its file a module is in progress no more. -/
theorem Lists.restores_finish (lists : s.Lists) (path : String)
    (read : (s.openModule path).Restores t) :
    s.modules.unfinished = (t.modules.finish ⟨s.modules.size⟩).unfinished := by
  show _ = t.modules.unfinished.filter _
  rw [read.unfinished, lists.unfinished_openModule, List.filter_cons, if_neg (by simp)]
  refine (List.filter_eq_self.2 fun id known => ?_).symm
  have old := lists id known
  simp only [ne_eq, decide_eq_true_eq]
  rintro rfl
  exact Nat.lt_irrefl _ old

end Session

namespace Action

open Session

variable {setup : Setup} {s t : Session} {stream : Stream} {levels : Nat}
  {load? : Option (Path → Action ModuleId)} {id : ModuleId}

/-! ### Readers -/

theorem Task.reading_of_reflTransGen {r : Reading} {c : Task}
    (h : ReflTransGen (Task.Calls setup) (.reading r) c) : ∃ d, c = .reading d := by
  induction h with
  | refl => exact ⟨r, rfl⟩
  | tail _ h ih =>
    obtain ⟨d, rfl⟩ := ih
    cases h.reads with
    | reading => exact ⟨_, rfl⟩

/-- Readers leave the modules as they are. -/
theorem Reading.restores (r : Reading) : ∀ t ∈ r.sessions setup, r.session.Restores t := by
  have chain := Task.isChain_steps setup (.reading r)
  refine chain.induction r.session.Restores _ ?_ fun _ => .refl _
  rintro t u ⟨d, reached, own, -⟩ restores
  obtain ⟨c, rfl⟩ := Task.reading_of_reflTransGen reached
  have spares : t.Spares c.owner? u := own
  exact restores.trans (.of_modules spares.modules spares.importDepth)

theorem restores_declarations {rest : Kept stream}
    (h : (declarations stream).Yields setup s rest t) : s.Restores t :=
  Reading.restores ⟨.declarations, stream, s⟩ t (List.mem_of_getLast? h.getLast?)

/-! ### Imports -/

/-- A file that has been read has left no module in progress. -/
def Restores (setup : Setup) (load? : Option (Path → Action ModuleId)) : Prop :=
  ∀ load ∈ load?, ∀ path s id t, s.Lists → (load path).Yields setup s id t → s.Restores t

theorem restores_importedModule {literal : String} {span : Span} (hl : Restores setup load?)
    (lists : s.Lists) (h : (importedModule load? literal span).Yields setup s id t) :
    s.Restores t := by
  unfold importedModule at h
  simp only [fail_bind] at h
  rw [yields_get] at h
  split at h
  · split at h
    · exact absurd h not_yields_fail
    · obtain ⟨-, rfl⟩ := yields_pure.1 h
      exact .refl _
  · unfold loadImport at h
    split at h
    · rw [yields_read] at h
      exact absurd h not_yields_fail
    · rename_i load
      rw [yields_get] at h
      exact hl load rfl _ _ _ _ lists (passes_mapError h.passes).yields

theorem restores_importItem {past : Shorter stream} (hl : Restores setup load?) (lists : s.Lists)
    (h : (importItem load? stream).Yields setup s past t) : s.Restores t := by
  unfold importItem at h
  split at h
  · exact absurd h not_yields_fail
  rw [yields_get] at h
  obtain ⟨imported, u, found, h⟩ := yields_bind.1 h
  obtain ⟨_, v, added, h⟩ := yields_bind.1 h
  obtain ⟨-, rfl⟩ := yields_pure.1 h
  cases added
  have kept := ModuleTable.unfinished_addImport (t := u.modules) s.blocks.module imported
  have size := u.modules.size_addImport s.blocks.module imported
  exact (restores_importedModule hl lists found).trans ⟨rfl, kept, Nat.le_of_eq size.symm⟩

theorem restores_importItems (hl : Restores setup load?) (stream : Stream) {s : Session}
    {rest : Kept stream} (lists : s.Lists)
    (h : (importItems load? stream).Yields setup s rest t) : s.Restores t := by
  rw [importItems] at h
  split at h
  · obtain ⟨-, rfl⟩ := yields_pure.1 h
    exact .refl _
  obtain ⟨first, u, read, h⟩ := yields_bind.1 h
  obtain ⟨between, v, separated, h⟩ := yields_bind.1 h
  obtain ⟨last, w, more, h⟩ := yields_bind.1 h
  obtain ⟨-, rfl⟩ := yields_pure.1 h
  obtain rfl := yields_separator separated
  have shorter := (between.le.behind first.lt).2
  have item := restores_importItem hl lists read
  exact item.trans (restores_importItems hl between.stream (item.lists lists) more)
termination_by stream.size

theorem restores_importClause {past : Shorter stream} (hl : Restores setup load?) (lists : s.Lists)
    (h : (importClause load? stream).Yields setup s past t) : s.Restores t := by
  unfold importClause at h
  obtain ⟨⟨⟨⟩, s₁, h₁⟩, u, eaten, next⟩ := yields_bind.1 h
  obtain ⟨-, rfl⟩ := yields_eat.1 eaten
  dsimp only at next
  split at next
  · obtain ⟨single, v, read, done⟩ := yields_bind.1 next
    obtain ⟨-, rfl⟩ := yields_pure.1 done
    exact restores_importItem hl lists read
  · obtain ⟨rest, v, read, next⟩ := yields_bind.1 next
    obtain ⟨last, w, closed, done⟩ := yields_bind.1 next
    obtain ⟨-, rfl⟩ := yields_pure.1 done
    obtain ⟨-, rfl⟩ := yields_eat.1 closed
    exact restores_importItems hl _ lists read

theorem restores_optionalImports {rest : Kept stream} (hl : Restores setup load?) (lists : s.Lists)
    (h : (optionalImports load? stream).Yields setup s rest t) : s.Restores t := by
  unfold optionalImports at h
  split at h
  · obtain ⟨clause, u, read, h⟩ := yields_bind.1 h
    obtain ⟨last, v, eaten, h⟩ := yields_bind.1 h
    obtain ⟨-, rfl⟩ := yields_pure.1 h
    obtain ⟨-, rfl⟩ := yields_eat.1 eaten
    exact restores_importClause hl lists read
  · obtain ⟨-, rfl⟩ := yields_pure.1 h
    exact .refl _

theorem restores_moduleFile {path : Path} (hl : Restores setup load?) (lists : s.Lists)
    (h : (moduleFile load? path).Yields setup s id t) : s.Restores t := by
  obtain ⟨stream, u, -, body, rfl⟩ := passes_moduleFile h.passes
  have h := body.yields
  unfold moduleBody at h
  obtain ⟨new, v, opened, h⟩ := yields_bind.1 h
  obtain ⟨imports, w, imported, h⟩ := yields_bind.1 h
  obtain ⟨rest, x, declared, h⟩ := yields_bind.1 h
  obtain ⟨_, y, ended, h⟩ := yields_bind.1 h
  obtain ⟨_, z, finished, h⟩ := yields_bind.1 h
  obtain ⟨rfl, rfl⟩ := yields_pure.1 h
  obtain ⟨-, rfl⟩ := yields_ofExcept.1 ended
  obtain ⟨rfl, rfl⟩ := yields_openModule opened
  cases finished
  have entered :
      (Session.enterFile { s with names := s.names.addWords stream } path.toText).Lists := lists
  have read := (restores_optionalImports hl (entered.openModule _) imported).trans
    (restores_declarations declared)
  refine ⟨?_, (entered.restores_finish _ read).symm, ?_⟩
  · exact (congrArg (· - 1) read.importDepth).trans (Nat.add_sub_cancel _ _)
  · have size := read.size
    rw [modules_size_openModule] at size
    exact Nat.le_of_succ_le size

theorem restores_loader? (levels : Nat) : Restores setup (loader? levels) := by
  induction levels with
  | zero => exact fun _ hl => absurd hl (Option.not_mem_none _)
  | succ levels ih =>
    rintro _ ⟨⟩ path s id t lists h
    rw [readModule_eq] at h
    exact restores_moduleFile ih lists h

/-! ### Tasks -/

/-- The levels that a task may open and the imports that are open around it make up `most`. -/
def Task.Fits (most : Nat) : Task → Prop
  | .program _ s => s.importDepth = 0 ∧ s.Balanced
  | .file levels _ s => s.importDepth + levels + 1 = most ∧ s.Balanced
  | .imports _ levels _ s => s.importDepth + levels = most ∧ s.Balanced
  | .reading r => r.session.importDepth ≤ most ∧ r.session.Balanced

theorem Task.Calls.fits {c d : Task} (h : Task.Calls setup c d)
    (fits : c.Fits (max 1 setup.settings.maxImportDepth)) :
    d.Fits (max 1 setup.settings.maxImportDepth) := by
  obtain ⟨reads, within⟩ := h
  cases reads with
  | root reserved =>
    cases reserved
    obtain ⟨start, balanced⟩ := fits
    refine ⟨?_, balanced.lists, balanced.depth⟩
    show Session.importDepth _ + _ + 1 = _
    rw [start]
    omega
  | @clause levels path s _ _ stream _ opened begun =>
    obtain ⟨depth, balanced⟩ := fits
    obtain ⟨_, _, _, rfl⟩ := yields_openFile opened
    obtain ⟨-, rfl⟩ := yields_openModule begun
    refine ⟨?_, balanced.openModule _ _⟩
    show s.importDepth + 1 + levels = _
    omega
  | @declarations levels path s _ _ v stream _ rest opened begun imported =>
    obtain ⟨depth, balanced⟩ := fits
    obtain ⟨_, _, _, rfl⟩ := yields_openFile opened
    obtain ⟨-, rfl⟩ := yields_openModule begun
    have balanced := balanced.openModule (s.names.addWords stream) path.toText
    have restores := restores_optionalImports (restores_loader? levels) balanced.lists imported
    refine ⟨?_, balanced.restores restores⟩
    show v.importDepth ≤ _
    rw [restores.importDepth]
    show s.importDepth + 1 ≤ _
    omega
  | single | group | firstItem => exact fits
  | @nextItems levels stream s t u first rest given read between =>
    obtain ⟨depth, balanced⟩ := fits
    obtain rfl := yields_separator between
    have restores := restores_importItem (restores_loader? levels) balanced.lists read
    exact ⟨(congrArg (· + levels) restores.importDepth).trans depth, balanced.restores restores⟩
  | file => exact fits
  | @reading r c _ =>
    obtain ⟨depth, balanced⟩ := fits
    have started : c.session ∈ r.sessions setup := within.subset List.mem_cons_self
    have restores := r.restores c.session started
    exact ⟨restores.importDepth.trans_le depth, balanced.restores restores⟩

theorem Task.Reached.fits {c : Task} {root : String} (h : c.Reached setup root) :
    c.Fits (max 1 setup.settings.maxImportDepth) := by
  induction h with
  | refl => exact ⟨rfl, nofun, rfl⟩
  | tail _ h ih => exact h.fits ih

/-! ### Between the files of imports -/

end Action

end FrontEnd
