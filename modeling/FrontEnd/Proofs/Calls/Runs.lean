import FrontEnd.Proofs.Calls.Tasks

/-!
The calls of a compilation as a whole. They end, since each goes on with fewer levels of imports or
behind more words, and every step of a compilation is made by a task that is reached by them.
-/

namespace FrontEnd

namespace Action

open Relation

variable {setup : Setup} {c d : Task}

namespace Task

/-! ### An end of the calls -/

/-- How many levels of files a task can still open, where a file stands between two levels. -/
def level (setup : Setup) : Task → Nat
  | program .. => 2 * setup.settings.maxImportDepth + 2
  | file levels .. => 2 * levels + 1
  | imports _ levels .. => 2 * levels
  | reading _ => 0

/-- The words that a task starts from; programs and files start from none. -/
def stream? : Task → Option Stream
  | program .. | file .. => none
  | imports _ _ stream _ => some stream
  | reading r => some r.stream

/-- Of two tasks that start from the same word the one that calls the other has the higher rank. -/
def rank : Task → Nat
  | program .. | file .. => 0
  | imports .items .. => 1
  | imports .. => 0
  | reading r => r.nonterminal.rank

/-- The task `d` has fewer levels of files than `c` below it, or it starts behind a word where `c`
starts, or it is of a lower rank. -/
def Leaves (setup : Setup) (c d : Task) : Prop :=
  d.level setup < c.level setup ∨ d.level setup = c.level setup ∧
    ∃ s ∈ c.stream?, ∃ t ∈ d.stream?, t.Behind s ∨ t.Within s ∧ d.rank < c.rank

theorem Reads.leaves (h : Reads setup c d) : c.Leaves setup d := by
  cases h with
  | root =>
    refine .inl ?_
    show 2 * (setup.settings.maxImportDepth - 1) + 1 < 2 * setup.settings.maxImportDepth + 2
    omega
  | clause => exact .inl (Nat.lt_succ_self _)
  | declarations => exact .inl (Nat.succ_pos _)
  | @single _ stream _ first => exact .inr ⟨rfl, stream, rfl, _, rfl, .inl first.lt⟩
  | @group _ stream _ first paren =>
    exact .inr ⟨rfl, stream, rfl, _, rfl, .inl (paren.lt.trans first.lt)⟩
  | @firstItem _ stream =>
    exact .inr ⟨rfl, stream, rfl, stream, rfl, .inr ⟨.refl stream, Nat.zero_lt_one⟩⟩
  | @nextItems _ stream _ _ _ first rest =>
    exact .inr ⟨rfl, stream, rfl, _, rfl, .inl (rest.le.behind first.lt)⟩
  | file => exact .inl (Nat.lt_succ_self _)
  | @reading r c h => exact .inr ⟨rfl, r.stream, rfl, c.stream, rfl, h.leaves⟩

theorem Leaves.trans {e : Task} (h : c.Leaves setup d) (h' : d.Leaves setup e) :
    c.Leaves setup e := by
  rcases h with fewer | ⟨same, s, hs, t, ht, passed⟩ <;>
    rcases h' with fewer' | ⟨same', t', ht', u, hu, passed'⟩
  · exact .inl (fewer'.trans fewer)
  · exact .inl (same' ▸ fewer)
  · exact .inl (same ▸ fewer')
  · obtain rfl : t = t' := Option.some_inj.1 (ht.symm.trans ht')
    refine .inr ⟨same'.trans same, s, hs, u, hu, ?_⟩
    rcases passed with behind | ⟨within, lower⟩ <;> rcases passed' with behind' | ⟨within', lower'⟩
    · exact .inl (behind'.trans behind)
    · exact .inl (within'.behind behind)
    · exact .inl (behind'.of_within within)
    · exact .inr ⟨within'.trans within, lower'.trans lower⟩

/-- The levels that are left, the words that are left, and the rank. -/
def measure (setup : Setup) (c : Task) : Nat ×ₗ Nat ×ₗ Nat :=
  toLex (c.level setup, toLex ((c.stream?.map Stream.size).getD 0, c.rank))

theorem Leaves.measure_lt (h : c.Leaves setup d) : d.measure setup < c.measure setup := by
  rcases h with fewer | ⟨same, s, hs, t, ht, passed⟩
  · exact Prod.Lex.left _ _ fewer
  · unfold measure
    rw [same, Option.mem_def.1 hs, Option.mem_def.1 ht]
    refine Prod.Lex.right _ ?_
    rcases passed with behind | ⟨within, lower⟩
    · exact Prod.Lex.left _ _ behind.2
    · rcases Nat.lt_or_eq_of_le within.2 with shorter | same
      · exact Prod.Lex.left _ _ shorter
      · show toLex (t.size, _) < toLex (s.size, _)
        rw [same]
        exact Prod.Lex.right _ lower

/-- No task calls others without end. -/
theorem wellFounded_reads (setup : Setup) : WellFounded fun d c => Reads setup c d :=
  Subrelation.wf (fun h => h.leaves.measure_lt) (InvImage.wf (measure setup) wellFounded_lt)

/-! ### Who makes a step -/

/-- The step from `s` to `t` is one that the task `d` makes itself, where `c` reaches `d`. -/
def Steps (setup : Setup) (c : Task) (s t : Session) : Prop :=
  ∃ d, ReflTransGen (Calls setup) c d ∧ d.Own s t ∧ [s, t] <:+: d.sessions setup

/-- Every step of a task is made by a task that it reaches. -/
theorem isChain_steps (setup : Setup) (c : Task) :
    (c.sessions setup).IsChain (Steps setup c) := by
  induction c using (wellFounded_reads setup).induction with
  | _ c ih =>
    have makes : c.Makes setup (c.sessions setup) fun s t => c.Own s t ∨ Steps setup c s t := by
      refine ⟨fun _ _ => .inl, fun d reads within => (ih d reads).imp fun s t h => .inr ?_⟩
      obtain ⟨e, reached, own, step⟩ := h
      exact ⟨e, reached.head ⟨reads, within⟩, own, step⟩
    have chain := makes.isChain (List.infix_refl _)
    rw [List.isChain_iff_forall_rel_of_append_cons_cons] at chain ⊢
    intro s t before behind split
    rcases chain split with own | steps
    · exact ⟨c, .refl, own, before, behind, by rw [split]; simp⟩
    · exact steps

theorem within_of_reflTransGen (h : ReflTransGen (Calls setup) c d) :
    d.sessions setup <:+: c.sessions setup := by
  induction h with
  | refl => exact List.infix_refl _
  | tail _ h ih => exact h.within.trans ih

end Task

/-- The task is at work at some time of the compilation. -/
def Task.Reached (setup : Setup) (root : String) (c : Task) : Prop :=
  ReflTransGen (Task.Calls setup) (.program root (.initial setup.settings)) c

variable {root : String}

theorem Task.sessions_program (setup : Setup) (root : String) :
    (program root (.initial setup.settings)).sessions setup = history setup root := rfl

theorem Task.Reached.within (h : c.Reached setup root) :
    c.sessions setup <:+: history setup root := by
  rw [← sessions_program]
  exact within_of_reflTransGen h

/-- The task starts with the session at position `n` of the compilation. -/
def Task.StartsAt (setup : Setup) (root : String) (n : Nat) (c : Task) : Prop :=
  c.sessions setup <+: (history setup root).drop n

theorem Task.StartsAt.getElem? {n i : Nat} {s : Session} (h : c.StartsAt setup root n)
    (known : (c.sessions setup)[i]? = some s) : (history setup root)[n + i]? = some s := by
  obtain ⟨behind, split⟩ := h
  rw [← List.getElem?_drop, ← split, List.getElem?_append_left]
  · exact known
  · exact (List.getElem?_eq_some_iff.1 known).1

theorem Task.Reached.startsAt (h : c.Reached setup root) : ∃ n, c.StartsAt setup root n := by
  obtain ⟨before, behind, split⟩ := h.within
  exact ⟨before.length, behind, by rw [← split, List.append_assoc, List.drop_left]⟩

end Action

end FrontEnd
