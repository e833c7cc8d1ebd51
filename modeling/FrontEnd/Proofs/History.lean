import FrontEnd.Proofs.Program
import FrontEnd.Proofs.Session.Initial

/-!
The sessions that a compilation goes through. Each is valid, and each follows from the one before by
one change.
-/

namespace FrontEnd

open Session

variable {setup : Setup} {root : String} {s t : Session}

/-- The sessions of a compilation, the one it starts with first. -/
def history (setup : Setup) (root : String) : List Session :=
  .initial setup.settings :: (Action.program root).trace setup (.initial setup.settings)

theorem initial_arranged (settings : Settings) :
    Session.Arranged settings
      { initial settings with code := (initial settings).code.emit .nop } := by
  have functions : (initial settings).idents.functions = [] := by
    show List.filter _ predeclaredIdents.toArray.toList = []
    decide
  have segments : Code.Segments ((initial settings).code.emit .nop)
      (initial settings).idents.functions 1 1 id := by
    rw [functions]
    exact Code.segments_nil _ 1 id
  refine ⟨⟨rfl, Nat.zero_lt_one, ⟨id, segments⟩, ?_, fun _ => rfl, nofun⟩, ⟨id, segments, ?_⟩⟩
  · rw [functions]
    nofun
  · rw [functions]
    nofun

theorem meets_compile (setup : Setup) (root : String) :
    (Action.program root).Meets setup Set.univ ∅ (fun _ t =>
      Action.Compiled setup root (.initial setup.settings) t) (.initial setup.settings) :=
  Action.meets_program (initial_ready setup.settings) rfl (initial_arranged setup.settings)

theorem isChain_changes (setup : Setup) (root : String) :
    (history setup root).IsChain (Action.Changes setup Set.univ) :=
  (meets_compile setup root).isChain

theorem isChain_history (setup : Setup) (root : String) :
    (history setup root).IsChain Session.Change :=
  (isChain_changes setup root).imp fun _ _ h => h.change

/-- Each session of a compilation leads to all later ones. -/
theorem pairwise_history (setup : Setup) (root : String) :
    (history setup root).Pairwise (Relation.ReflTransGen Change) :=
  ((isChain_history setup root).imp fun _ _ => .single).pairwise

theorem changes_of_le {n m : Nat} (hs : (history setup root)[n]? = some s)
    (ht : (history setup root)[m]? = some t) (le : n ≤ m) : Relation.ReflTransGen Change s t := by
  obtain ⟨hn, rfl⟩ := List.getElem?_eq_some_iff.1 hs
  obtain ⟨hm, rfl⟩ := List.getElem?_eq_some_iff.1 ht
  rcases Nat.lt_or_eq_of_le le with earlier | rfl
  · exact List.pairwise_iff_getElem.1 (pairwise_history setup root) n m hn hm earlier
  · exact .refl

/-- What holds at the start and is kept by every change holds throughout a compilation. -/
theorem history_induction {P : Session → Prop} (start : P (.initial setup.settings))
    (step : ∀ s t, s.Valid ∅ → Action.Changes setup Set.univ s t → P s → P t) :
    ∀ s ∈ history setup root, s.Valid ∅ ∧ P s :=
  (isChain_changes setup root).induction (fun s => s.Valid ∅ ∧ P s) _
    (fun s t h hs => ⟨h.change.valid hs.1, step s t hs.1 h hs.2⟩)
    fun _ => ⟨(initial_ready setup.settings).toValid, start⟩

theorem valid_of_mem_history (h : s ∈ history setup root) : s.Valid ∅ :=
  (history_induction (P := fun _ => True) trivial (fun _ _ _ _ _ => trivial) s h).1

/-- What a compilation leaves behind is the last session that it went through. -/
theorem getLast?_history_of_compile (h : compile setup root = .ok s) :
    (history setup root).getLast? = some s := by
  unfold compile at h
  split at h
  · rename_i hr
    cases h
    rw [history, Action.getLast?_trace, hr]
  · cases h

theorem leads_of_compile (h : compile setup root = .ok s) :
    Action.Leads Set.univ ∅ (.initial setup.settings) s ∧
      Action.Compiled setup root (.initial setup.settings) s := by
  unfold compile at h
  split at h
  · rename_i hr
    cases h
    exact (meets_compile setup root).of_run_ok hr
  · cases h

theorem compiled_of_compile (h : compile setup root = .ok s) :
    Action.Compiled setup root (.initial setup.settings) s :=
  (leads_of_compile h).2

theorem isProper_of_compile {d : Diagnostic} (h : compile setup root = .error d) : d.IsProper := by
  unfold compile at h
  split at h
  · cases h
  · rename_i hr
    cases h
    exact ((meets_compile setup root).of_run_error hr).1

end FrontEnd
