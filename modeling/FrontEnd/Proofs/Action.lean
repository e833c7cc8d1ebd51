import FrontEnd.Action
import Mathlib.Data.List.Chain
import Mathlib.Logic.Relation

/-!
Reasoning about steps. `Ensures` says which sessions a step may write, how it may fail and where it
may end; it goes through a composite step from one part to the next.
-/

namespace FrontEnd.Action

variable {α β : Type}

theorem map_same (action : Action α) : id <$> action = action := by
  induction action with
  | done value => rfl
  | failed d => rfl
  | look f ih => exact congrArg look (funext fun setup => funext fun s => ih setup s)
  | write s action ih => exact congrArg (write s) ih

theorem bind_bind {γ : Type} (action : Action α) (f : α → Action β) (g : β → Action γ) :
    action >>= f >>= g = action >>= fun v => f v >>= g := by
  induction action with
  | done value => rfl
  | failed d => rfl
  | look h ih => exact congrArg look (funext fun setup => funext fun s => ih setup s)
  | write s action ih => exact congrArg (write s) ih

instance : LawfulMonad Action :=
  .mk' Action map_same (fun _ _ => rfl) bind_bind

/-- Nothing follows a failure. -/
theorem fail_bind (cause : Cause) (span : Span) (f : α → Action β) :
    (fail cause span >>= f) = fail cause span := rfl

theorem run_bind (action : Action α) (f : α → Action β) (setup : Setup) (s : Session) :
    (action >>= f).run setup s =
      match action.run setup s with
      | .ok value t => (f value).run setup t
      | .error d t => .error d t := by
  induction action generalizing s with
  | done value => rfl
  | failed d => rfl
  | look g ih => exact ih setup s s
  | write t action ih => exact ih t

/-- Each session that is written is related by `R` to the one before it, a failure satisfies `E`,
and a value satisfies `Q`, each with the session that is left behind. -/
def Ensures (action : Action α) (setup : Setup) (R : Session → Session → Prop)
    (E : Diagnostic → Session → Prop) (Q : α → Session → Prop) (s : Session) : Prop :=
  match action with
  | done value => Q value s
  | failed d => E d s
  | look f => (f setup s).Ensures setup R E Q s
  | write t action => R s t ∧ action.Ensures setup R E Q t

section Rules

variable {setup : Setup} {R R' : Session → Session → Prop} {E E' : Diagnostic → Session → Prop}
  {Q Q' : α → Session → Prop} {s : Session}

theorem ensures_bind {action : Action α} {f : α → Action β} {Q : β → Session → Prop} :
    (action >>= f).Ensures setup R E Q s ↔
      action.Ensures setup R E (fun value t => (f value).Ensures setup R E Q t) s := by
  induction action generalizing s with
  | done value => rfl
  | failed d => rfl
  | look g ih => exact ih setup s
  | write t action ih => exact and_congr Iff.rfl ih

theorem ensures_get {f : Session → Action α} :
    (get >>= f).Ensures setup R E Q s ↔ (f s).Ensures setup R E Q s := Iff.rfl

theorem Ensures.mono {action : Action α} (h : action.Ensures setup R E Q s)
    (hR : ∀ t u, R t u → R' t u) (hE : ∀ d t, E d t → E' d t) (hQ : ∀ v t, Q v t → Q' v t) :
    action.Ensures setup R' E' Q' s := by
  induction action generalizing s with
  | done value => exact hQ _ _ h
  | failed d => exact hE _ _ h
  | look g ih => exact ih setup s h
  | write t action ih => exact ⟨hR _ _ h.1, ih h.2⟩

/-- What every change preserves also relates the first session to the last one. -/
theorem Ensures.along {action : Action α} (P : Session → Session → Prop)
    (refl : ∀ t, P t t) (trans : ∀ {t u v}, P t u → P u v → P t v) (hR : ∀ t u, R t u → P t u)
    (h : action.Ensures setup R E Q s) :
    action.Ensures setup R (fun d t => E d t ∧ P s t) (fun v t => Q v t ∧ P s t) s := by
  induction action generalizing s with
  | done value => exact ⟨h, refl s⟩
  | failed d => exact ⟨h, refl s⟩
  | look g ih => exact ih setup s h
  | write t action ih =>
    refine ⟨h.1, (ih h.2).mono (fun _ _ => id) ?_ ?_⟩
    · exact fun d u hu => ⟨hu.1, trans (hR s t h.1) hu.2⟩
    · exact fun v u hu => ⟨hu.1, trans (hR s t h.1) hu.2⟩

theorem ensures_handle {action : Action α} {next : Diagnostic → Action α} :
    (action.handle next).Ensures setup R E Q s ↔
      action.Ensures setup R (fun d t => (next d).Ensures setup R E Q t) Q s := by
  induction action generalizing s with
  | done value => rfl
  | failed d => rfl
  | look g ih => exact ih setup s
  | write t action ih => exact and_congr Iff.rfl ih

theorem ensures_andFinally {action : Action α} {f : Session → Session} :
    (action.andFinally f).Ensures setup R E Q s ↔
      action.Ensures setup R (fun d t => R t (f t) ∧ E d (f t))
        (fun v t => R t (f t) ∧ Q v (f t)) s := by
  induction action generalizing s with
  | done value => rfl
  | failed d => rfl
  | look g ih => exact ih setup s
  | write t action ih => exact and_congr Iff.rfl ih

/-! ### What follows for a run -/

theorem Ensures.isChain {action : Action α} (h : action.Ensures setup R E Q s) :
    (s :: action.trace setup s).IsChain R := by
  induction action generalizing s with
  | done value => exact .singleton s
  | failed d => exact .singleton s
  | look g ih => exact ih setup s h
  | write t action ih => exact .cons_cons h.1 (ih h.2)

theorem Ensures.of_run_ok {action : Action α} {v : α} {t : Session}
    (h : action.Ensures setup R E Q s) (hr : action.run setup s = .ok v t) : Q v t := by
  induction action generalizing s with
  | done value => cases hr; exact h
  | failed d => cases hr
  | look g ih => exact ih setup s h hr
  | write u action ih => exact ih h.2 hr

theorem Ensures.of_run_error {action : Action α} {d : Diagnostic} {t : Session}
    (h : action.Ensures setup R E Q s) (hr : action.run setup s = .error d t) : E d t := by
  induction action generalizing s with
  | done value => cases hr
  | failed d => cases hr; exact h
  | look g ih => exact ih setup s h hr
  | write u action ih => exact ih h.2 hr

end Rules

/-- The session left behind is the one written last. -/
theorem getLast?_trace {action : Action α} {setup : Setup} {s : Session} :
    (s :: action.trace setup s).getLast? =
      match action.run setup s with
      | .ok _ t => some t
      | .error _ t => some t := by
  induction action generalizing s with
  | done value => rfl
  | failed d => rfl
  | look g ih => exact ih setup s
  | write u action ih => rw [trace, List.getLast?_cons_cons]; exact ih

/-! ### Parts of an action -/

theorem trace_bind (action : Action α) (f : α → Action β) (setup : Setup) (s : Session) :
    (action >>= f).trace setup s = action.trace setup s ++
      match action.run setup s with
      | .ok value t => (f value).trace setup t
      | .error _ _ => [] := by
  induction action generalizing s with
  | done value => rfl
  | failed d => rfl
  | look g ih => exact ih setup s s
  | write t action ih => exact congrArg (t :: ·) (ih t)

theorem trace_mapError (f : Diagnostic → Diagnostic) (action : Action α) (setup : Setup)
    (s : Session) : (mapError f action).trace setup s = action.trace setup s := by
  induction action generalizing s with
  | done value => rfl
  | failed d => rfl
  | look g ih => exact ih setup s s
  | write t action ih => exact congrArg (t :: ·) (ih t)

theorem trace_andFinally (f : Session → Session) (action : Action α) (setup : Setup)
    (s : Session) :
    (andFinally f action).trace setup s = action.trace setup s ++
      match action.run setup s with
      | .ok _ t => [f t]
      | .error _ t => [f t] := by
  induction action generalizing s with
  | done value => rfl
  | failed d => rfl
  | look g ih => exact ih setup s s
  | write t action ih => exact congrArg (t :: ·) (ih t)

theorem run_mapError (f : Diagnostic → Diagnostic) (action : Action α) (setup : Setup)
    (s : Session) :
    (mapError f action).run setup s =
      match action.run setup s with
      | .ok value t => .ok value t
      | .error d t => .error (f d) t := by
  induction action generalizing s with
  | done value => rfl
  | failed d => rfl
  | look g ih => exact ih setup s s
  | write t action ih => exact ih t

theorem run_andFinally (f : Session → Session) (action : Action α) (setup : Setup) (s : Session) :
    (andFinally f action).run setup s =
      match action.run setup s with
      | .ok value t => .ok value (f t)
      | .error d t => .error d (f t) := by
  induction action generalizing s with
  | done value => rfl
  | failed d => rfl
  | look g ih => exact ih setup s s
  | write t action ih => exact ih t

/-- Running an action from a session comes to running `part` from `t`. -/
inductive Reaches (setup : Setup) (part : Action β) (t : Session) :
    {α : Type} → Action α → Session → Prop
  | here : Reaches setup part t part t
  | first {α γ : Type} {action : Action α} {f : α → Action γ} {s : Session}
      (h : Reaches setup part t action s) : Reaches setup part t (action >>= f) s
  | next {α γ : Type} {action : Action α} {f : α → Action γ} {s u : Session} {v : α}
      (run : action.run setup s = .ok v u) (h : Reaches setup part t (f v) u) :
      Reaches setup part t (action >>= f) s
  /-- Only what is wrong with a file itself is said in another way by those who wanted to read it. -/
  | handled {α : Type} {action : Action α} {f : Diagnostic → Diagnostic} {s : Session}
      (keeps : ∀ d, d.category ≠ .file → f d = d) (h : Reaches setup part t action s) :
      Reaches setup part t (mapError f action) s
  | inside {α : Type} {action : Action α} {f : Session → Session} {s : Session}
      (h : Reaches setup part t action s) : Reaches setup part t (andFinally f action) s

/-- Where a part fails, the whole fails in the same way. -/
theorem Reaches.fails {setup : Setup} {part : Action β} {t u : Session} {d : Diagnostic}
    {action : Action α} {s : Session} (h : Reaches setup part t action s)
    (hr : part.run setup t = .error d u) (hd : d.category ≠ .file) :
    ∃ v, action.run setup s = .error d v := by
  induction h with
  | here => exact ⟨u, hr⟩
  | first _ ih =>
    obtain ⟨v, hv⟩ := ih
    exact ⟨v, by rw [run_bind, hv]⟩
  | next run _ ih =>
    obtain ⟨v, hv⟩ := ih
    exact ⟨v, by rw [run_bind, run]; exact hv⟩
  | handled keeps _ ih =>
    obtain ⟨v, hv⟩ := ih
    refine ⟨v, ?_⟩
    rw [run_mapError, hv]
    exact congrArg (EStateM.Result.error · v) (keeps d hd)
  | inside _ ih =>
    obtain ⟨v, hv⟩ := ih
    exact ⟨_, by rw [run_andFinally, hv]⟩

/-- A part runs from a session that has been written on the way. -/
theorem Reaches.mem {setup : Setup} {part : Action β} {t : Session} {action : Action α} {s : Session}
    (h : Reaches setup part t action s) : t ∈ s :: action.trace setup s := by
  induction h with
  | here => exact List.mem_cons_self
  | @first _ _ action f s _ ih =>
    rw [trace_bind, ← List.cons_append]
    exact List.mem_append_left _ ih
  | @next _ _ action f s u v run _ ih =>
    rw [trace_bind, ← List.cons_append, run]
    rcases List.mem_cons.1 ih with rfl | ih
    · refine List.mem_append_left _ (List.mem_of_getLast? ?_)
      rw [getLast?_trace, run]
    · exact List.mem_append_right _ ih
  | handled _ _ ih =>
    rw [trace_mapError]
    exact ih
  | inside _ ih =>
    rw [trace_andFinally, ← List.cons_append]
    exact List.mem_append_left _ ih

end FrontEnd.Action
