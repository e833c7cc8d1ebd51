import FrontEnd.Proofs.History
import Mathlib.Logic.ExistsUnique

/-!
How code changes once it has been emitted. Only an instruction that was reserved is ever replaced,
by a jump, and a jump is never replaced.
-/

namespace FrontEnd

namespace Session

/-- The instruction at `a` is reserved for the entry function or for a prototype. -/
def Reserves (s : Session) (a : Nat) : Prop :=
  a = 0 ∨ ∃ id i, s.idents.get? id = some i ∧ i.reserved? = some a

/-- What a change does to the instruction at `a`. -/
inductive Touches (a : Nat) (s t : Session) : Prop
  | same (kept : t.code.instructions[a]? = s.code.instructions[a]?)
  | emit {i : Instruction} (free : s.code.instructions[a]? = none)
      (emitted : t.code.instructions[a]? = some i) (straight : ∀ target, i ≠ .goto target)
  | jump {target : Nat} (reserved : s.code.instructions[a]? = some .nop) (owned : s.Reserves a)
      (patched : t.code.instructions[a]? = some (.goto target))

variable {U : Set TypeId} {s t : Session}

theorem Step.touches (h : s.Step U t) (a : Nat) : s.Touches a t := by
  cases h with
  | emit valid straight =>
    by_cases ha : a = s.code.size
    · refine .emit ?_ ?_ straight
      · rw [ha]
        exact Array.getElem?_eq_none (Nat.le_refl _)
      · show (s.code.emit _).instructions[a]? = _
        rw [Code.getElem?_emit, if_pos ha]
    · apply Touches.same
      show (s.code.emit _).instructions[a]? = _
      rw [Code.getElem?_emit, if_neg ha]
  | @patch address target code defined reserved owned patched =>
    obtain ⟨bound, he⟩ := patch?_eq_some patched
    have get : code.instructions[a]? =
        if address = a then some (.goto target) else s.code.instructions[a]? := by
      rw [he]
      show (s.code.instructions.setIfInBounds address (.goto target))[a]? = _
      have hb : address < s.code.instructions.size := bound
      rw [Array.getElem?_setIfInBounds, if_pos hb]
    by_cases ha : address = a
    · subst ha
      rw [if_pos rfl] at get
      exact .jump reserved owned get
    · apply Touches.same
      show code.instructions[a]? = _
      rw [get, if_neg ha]
  | _ => exact .same rfl

theorem Change.touches (h : s.Change t) (a : Nat) : s.Touches a t := by
  cases h with
  | step _ step => exact step.touches a
  | _ => exact .same rfl

/-- The code has become longer at most. An instruction is still there, or it was reserved and has
become a jump. -/
structure Amends (s t : Session) : Prop where
  size : s.code.size ≤ t.code.size
  keeps : ∀ (a : Nat) i, s.code.instructions[a]? = some i → t.code.instructions[a]? = some i ∨
    i = .nop ∧ s.Reserves a ∧ ∃ target, t.code.instructions[a]? = some (.goto target)

theorem Change.amends (h : s.Change t) : s.Amends t := by
  refine ⟨h.grows.code, fun a i hi => ?_⟩
  cases h.touches a with
  | same kept => exact .inl (kept.trans hi)
  | emit free =>
    rw [free] at hi
    cases hi
  | jump reserved owned patched =>
    rw [reserved] at hi
    cases hi
    exact .inr ⟨rfl, owned, _, patched⟩

/-- An instruction that is not reserved stays for good. -/
theorem retains_of_changes (h : Relation.ReflTransGen Change s t) : s.code.Retains t.code := by
  induction h with
  | refl => exact fun _ _ hi _ => hi
  | tail _ change ih =>
    refine ih.trans fun a i hi other => ?_
    rcases change.amends.keeps a i hi with kept | ⟨nop, _⟩
    · exact kept
    · exact absurd nop other

end Session

/-! ### Runs -/

/-- The instruction at `a` is another one in session `n + 1` of a run than in session `n`. -/
def Rewritten (a : Nat) (run : List Session) (n : Nat) : Prop :=
  ∃ s t i, run[n]? = some s ∧ run[n + 1]? = some t ∧ s.code.instructions[a]? = some i ∧
    t.code.instructions[a]? ≠ some i

variable {a n target : Nat} {s t : Session} {run : List Session}

theorem rewritten_zero :
    Rewritten a (s :: t :: run) 0 ↔ ∃ i, s.code.instructions[a]? = some i ∧
      t.code.instructions[a]? ≠ some i := by
  constructor
  · rintro ⟨_, _, i, ⟨⟩, ⟨⟩, hi, hn⟩
    exact ⟨i, hi, hn⟩
  · rintro ⟨i, hi, hn⟩
    exact ⟨s, t, i, rfl, rfl, hi, hn⟩

theorem rewritten_succ : Rewritten a (s :: run) (n + 1) ↔ Rewritten a run n := Iff.rfl

/-- A jump is final. -/
theorem not_rewritten_of_goto (chain : (s :: run).IsChain Session.Change)
    (jump : s.code.instructions[a]? = some (.goto target)) : ¬ Rewritten a (s :: run) n := by
  induction run generalizing s n with
  | nil =>
    rintro ⟨_, _, _, _, ht, _⟩
    cases ht
  | cons t run ih =>
    obtain ⟨change, chain⟩ := List.isChain_cons_cons.1 chain
    have kept : t.code.instructions[a]? = some (.goto target) := by
      rcases change.amends.keeps a _ jump with kept | ⟨nop, _⟩
      · exact kept
      · cases nop
    cases n with
    | zero =>
      rw [rewritten_zero]
      rintro ⟨i, hi, hn⟩
      rw [jump] at hi
      exact hn (hi ▸ kept)
    | succ n => exact ih chain kept

/-- A run that ends with a jump where it does not start with one rewrites that instruction exactly
once. -/
theorem existsUnique_rewritten (chain : (s :: run).IsChain Session.Change)
    (start : ∀ target, s.code.instructions[a]? ≠ some (.goto target))
    (last : (s :: run).getLast? = some t)
    (stop : t.code.instructions[a]? = some (.goto target)) : ∃! n, Rewritten a (s :: run) n := by
  induction run generalizing s with
  | nil =>
    cases last
    exact absurd stop (start target)
  | cons u run ih =>
    obtain ⟨change, chain⟩ := List.isChain_cons_cons.1 chain
    rw [List.getLast?_cons_cons] at last
    -- Unless the first change makes the jump, it is made later, and only then.
    have later (hz : ¬ Rewritten a (s :: u :: run) 0)
        (next : ∀ target, u.code.instructions[a]? ≠ some (.goto target)) :
        ∃! n, Rewritten a (s :: u :: run) n := by
      obtain ⟨n, hn, unique⟩ := ih chain next last
      refine ⟨n + 1, rewritten_succ.2 hn, fun m hm => ?_⟩
      cases m with
      | zero => exact absurd hm hz
      | succ m => exact congrArg (· + 1) (unique m (rewritten_succ.1 hm))
    cases change.touches a with
    | same kept =>
      refine later ?_ fun target => kept ▸ start target
      rw [rewritten_zero]
      rintro ⟨i, hi, hn⟩
      exact hn (kept.trans hi)
    | emit free emitted straight =>
      refine later ?_ fun target => ?_
      · rw [rewritten_zero]
        rintro ⟨i, hi, _⟩
        rw [free] at hi
        cases hi
      · rw [emitted]
        exact fun he => straight target (Option.some_inj.1 he)
    | jump reserved _ patched =>
      refine ⟨0, ?_, fun m hm => ?_⟩
      · show Rewritten a (s :: u :: run) 0
        rw [rewritten_zero]
        refine ⟨.nop, reserved, fun he => ?_⟩
        rw [patched] at he
        cases he
      · cases m with
        | zero => rfl
        | succ m => exact absurd (rewritten_succ.1 hm) (not_rewritten_of_goto chain patched)

end FrontEnd
