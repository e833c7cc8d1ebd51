import FrontEnd.Proofs.Structures

/-!
Steps that succeed as a part of a compilation. The sessions that such a step goes through stand
together in the history of the compilation; so each of them is valid, and what has become of its
types at the end of the step, or of the compilation, is known without a look at the step.
-/

namespace FrontEnd

open Session

namespace Action

variable {α β : Type} {setup : Setup} {root : String} {s t : Session} {v : α}

section Parts

variable {run : List Session}

theorem passes_eatName_bind {stream : Stream} {f : Past stream String → Action α}
    (h : (eatName stream >>= f).PassesIn setup run s v t) :
    ∃ past, stream.name? = some past ∧ (f past).PassesIn setup run s v t := by
  obtain ⟨past, u, eaten, next⟩ := passes_bind h
  have eaten := eaten.yields
  unfold eatName at eaten
  split at eaten
  · rename_i named
    obtain ⟨rfl, rfl⟩ := yields_pure.1 eaten
    exact ⟨_, named, next⟩
  · exact absurd eaten not_yields_fail

theorem passes_ofExcept_bind {e : Except Fault β} {f : β → Action α}
    (h : (ofExcept e >>= f).PassesIn setup run s v t) :
    ∃ value, e = .ok value ∧ (f value).PassesIn setup run s v t := by
  obtain ⟨value, u, read, next⟩ := passes_bind h
  obtain ⟨known, rfl⟩ := yields_ofExcept.1 read.yields
  exact ⟨value, known, next⟩

end Parts

/-! ### The sessions on the way -/

/-- Changes lead from each session of a part of a compilation to the next. -/
theorem isChain_part {part : List Session} (h : part <:+: history setup root) :
    part.IsChain Change := by
  obtain ⟨before, behind, split⟩ := h
  have chain := isChain_history setup root
  rw [← split] at chain
  exact (List.isChain_append.1 (List.isChain_append.1 chain).1).2.1

namespace PassesIn

variable {action : Action α}

theorem first_mem (h : action.PassesIn setup (history setup root) s v t) : s ∈ history setup root :=
  h.within.subset List.mem_cons_self

theorem last_mem (h : action.PassesIn setup (history setup root) s v t) : t ∈ history setup root :=
  h.within.subset (List.mem_of_getLast? h.yields.getLast?)

theorem changes (h : action.PassesIn setup (history setup root) s v t) :
    Relation.ReflTransGen Change s t := by
  refine List.relationReflTransGen_of_exists_isChain_cons _ (isChain_part h.within) ?_
  exact Option.some_inj.1 ((List.getLast?_eq_some_getLast _).symm.trans h.yields.getLast?)

end PassesIn

end Action

namespace Session

variable {s t : Session}

theorem grows_of_changes (h : Relation.ReflTransGen Change s t) : s.Grows t := by
  induction h with
  | refl => exact .refl s
  | tail _ change ih => exact ih.trans change.grows

theorem fixes_of_changes (h : Relation.ReflTransGen Change s t) : s.Fixes t := by
  induction h with
  | refl => exact .refl s
  | tail _ change ih => exact ih.trans change.fixes

end Session

namespace Action.PassesIn

variable {α : Type} {setup : Setup} {root : String} {s t : Session} {v : α} {action : Action α}

theorem grows (h : action.PassesIn setup (history setup root) s v t) :
    s.Grows t :=
  grows_of_changes h.changes

theorem fixes (h : action.PassesIn setup (history setup root) s v t) :
    s.Fixes t :=
  fixes_of_changes h.changes

theorem valid (h : action.PassesIn setup (history setup root) s v t) :
    s.Valid ∅ :=
  valid_of_mem_history h.first_mem

theorem valid_last (h : action.PassesIn setup (history setup root) s v t) : t.Valid ∅ :=
  valid_of_mem_history h.last_mem

end Action.PassesIn

variable {setup : Setup} {root : String} {s t z : Session}

/-- Every session of a compilation leads to the one that is left behind. -/
theorem changes_of_mem_history (h : s ∈ history setup root)
    (last : (history setup root).getLast? = some z) : Relation.ReflTransGen Change s z := by
  obtain ⟨before, behind, split⟩ := List.append_of_mem h
  have chain := isChain_history setup root
  rw [split] at chain last
  refine List.relationReflTransGen_of_exists_isChain_cons _ (List.isChain_append.1 chain).2.1 ?_
  rw [List.getLast?_append_of_ne_nil _ (List.cons_ne_nil s behind)] at last
  exact Option.some_inj.1 ((List.getLast?_eq_some_getLast _).symm.trans last)

/-- A program that compiles has been read as a whole. -/
theorem passes_of_compile (h : compile setup root = .ok z) :
    (Action.program root).PassesIn setup (history setup root) (.initial setup.settings) () z := by
  refine ⟨?_, List.infix_refl _⟩
  unfold compile at h
  split at h
  · rename_i hr
    cases h
    exact hr
  · cases h

/-! ### Files -/

namespace Action

variable {path : Path} {stream : Stream} {load? : Option (Path → Action ModuleId)} {id : ModuleId}
  {run : List Session}

theorem yields_openFile {path : String} {stream : Stream}
    (h : (openFile path).Yields setup s stream t) : ∃ text, setup.sources.read path = .ok text ∧
      Stream.ofText text = .ok stream ∧ t = { s with names := s.names.addWords stream } := by
  unfold openFile at h
  rw [yields_read] at h
  split at h
  · cases h
  · rename_i text known
    split at h
    · cases h
    · rename_i words
      obtain ⟨_, _, ⟨⟩, h⟩ := yields_bind.1 h
      obtain ⟨rfl, rfl⟩ := yields_pure.1 h
      exact ⟨text, known, words, rfl⟩

/-- A file is read as a module between entering it and leaving it. -/
theorem passes_moduleFile (h : (moduleFile load? path).PassesIn setup run s id t) :
    ∃ stream u, setup.words? path.toText = some stream ∧
      (moduleBody load? path.toText stream).PassesIn setup run
        (Session.enterFile { s with names := s.names.addWords stream } path.toText) id u ∧
      t = u.leaveFile (Session.frame { s with names := s.names.addWords stream }) := by
  unfold moduleFile at h
  obtain ⟨stream, v, opened, h⟩ := passes_bind h
  obtain ⟨text, known, words, rfl⟩ := yields_openFile opened.yields
  unfold inFile at h
  rw [passes_get] at h
  obtain ⟨_, w, entered, h⟩ := passes_bind h
  obtain ⟨u, read, rfl⟩ := passes_andFinally h
  cases entered.yields
  refine ⟨stream, u, ?_, read, rfl⟩
  unfold Setup.words?
  rw [known]
  dsimp only
  rw [words]
  rfl

end Action

end FrontEnd
