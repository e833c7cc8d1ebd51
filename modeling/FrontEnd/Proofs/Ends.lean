import FrontEnd.Proofs.Writes

/-!
Where a step ends that is a part of a longer run. Both ends are spoken of: that of a step that
succeeds, and the session that a failure leaves behind.
-/

namespace FrontEnd.Action

variable {α β : Type} {setup : Setup} {run : List Session} {s t : Session}

/-- As a part of `run`, the step leads from `s` to a session that satisfies `E` if it fails, and to a
value and a session that satisfy `Q` if it succeeds. -/
def Ends (action : Action α) (setup : Setup) (run : List Session) (E : Session → Prop)
    (Q : α → Session → Prop) (s : Session) : Prop :=
  s :: action.trace setup s <:+: run →
    match action.run setup s with
    | .ok v t => Q v t
    | .error _ t => E t

section Rules

variable {E E' : Session → Prop} {P Q : α → Session → Prop} {action : Action α}

theorem ends_pure {v : α} (h : Q v s) : (pure v : Action α).Ends setup run E Q s := fun _ => h

theorem ends_throw {d : Diagnostic} (h : E s) : (throw d : Action α).Ends setup run E Q s :=
  fun _ => h

theorem ends_failAt {fault : Fault} (h : E s) : (failAt fault : Action α).Ends setup run E Q s :=
  fun _ => h

theorem ends_fail {cause : Cause} {span : Span} (h : E s) :
    (fail cause span : Action α).Ends setup run E Q s := fun _ => h

theorem ends_failInternal {cause : InternalCause} (h : E s) :
    (failInternal cause : Action α).Ends setup run E Q s := fun _ => h

theorem ends_get {f : Session → Action α} :
    (get >>= f).Ends setup run E Q s ↔ (f s).Ends setup run E Q s := Iff.rfl

theorem ends_read {f : Setup → Action α} :
    (read >>= f).Ends setup run E Q s ↔ (f setup).Ends setup run E Q s := Iff.rfl

/-- A session that has been written belongs to the run. -/
theorem ends_write (h : action.Ends setup run E Q t) : (write t action).Ends setup run E Q s :=
  fun within => h ((List.suffix_cons s _).isInfix.trans within)

theorem ends_modify {f : Session → Session} {g : Unit → Action α}
    (h : (g ()).Ends setup run E Q (f s)) : (modify f >>= g).Ends setup run E Q s :=
  ends_write h

theorem ends_modifyGet {f : Session → β × Session} {g : β → Action α}
    (h : (g (f s).1).Ends setup run E Q (f s).2) : (modifyGet f >>= g).Ends setup run E Q s :=
  ends_write h

theorem Ends.mono (h : action.Ends setup run E P s) (hE : ∀ t, E t → E' t)
    (hQ : ∀ v t, P v t → Q v t) : action.Ends setup run E' Q s := by
  intro within
  have ended := h within
  generalize action.run setup s = result at ended ⊢
  cases result with
  | ok v t => exact hQ v t ended
  | error d t => exact hE t ended

theorem Ends.failing (h : action.Ends setup run E Q s) (hE : ∀ t, E t → E' t) :
    action.Ends setup run E' Q s :=
  h.mono hE fun _ _ => id

theorem Ends.bind {f : α → Action β} {Q : β → Session → Prop} (h : action.Ends setup run E P s)
    (hf : ∀ v t, action.PassesIn setup run s v t → P v t → (f v).Ends setup run E Q t) :
    (action >>= f).Ends setup run E Q s := by
  intro within
  rw [run_bind]
  cases hr : action.run setup s with
  | ok v t =>
    have yields : action.Yields setup s v t := hr
    obtain ⟨before, behind⟩ := yields.parts within
    have first := h before
    rw [hr] at first
    exact hf v t ⟨yields, before⟩ first behind
  | error d t =>
    rw [trace_bind, hr, List.append_nil] at within
    have first := h within
    rw [hr] at first
    exact first

/-- What is known of a step as a part of its own run. -/
theorem Ends.of_run (h : action.Ends setup (s :: action.trace setup s) E Q s) :
    match action.run setup s with
    | .ok v t => Q v t
    | .error _ t => E t :=
  h (List.infix_refl _)

/-- What is known of a step that succeeds. -/
theorem Ends.of_passes {v : α} (h : action.Ends setup run E Q s)
    (passes : action.PassesIn setup run s v t) : Q v t := by
  have ended := h passes.within
  have result : action.run setup s = .ok v t := passes.yields
  rw [result] at ended
  exact ended

/-- Nothing has to be known of a step that fails. -/
theorem ends_of_passes (h : ∀ v t, action.PassesIn setup run s v t → Q v t) :
    action.Ends setup run (fun _ => True) Q s := by
  intro within
  cases result : action.run setup s with
  | ok v t => exact h v t ⟨result, within⟩
  | error d t => trivial

/-- What a step writes wherever it starts. -/
theorem Writes.ends {R : Session → Session → Prop} {T : Session → Session → Prop}
    (h : action.Writes setup R P s) (refl : ∀ t, T t t)
    (trans : ∀ {t u v}, T t u → T u v → T t v) (hR : ∀ t u, R t u → T t u)
    (hE : ∀ t, T s t → E t) (hQ : ∀ v t, P v t → T s t → Q v t) :
    action.Ends setup run E Q s := by
  intro _
  have related := h.related refl trans hR
  generalize action.run setup s = result at related ⊢
  cases result with
  | ok v t => exact hQ v t related.2 related.1
  | error d t => exact hE t related

theorem ends_mapError {f : Diagnostic → Diagnostic} (h : action.Ends setup run E Q s) :
    (mapError f action).Ends setup run E Q s := by
  intro within
  rw [trace_mapError] at within
  have ended := h within
  rw [run_mapError]
  generalize action.run setup s = result at ended ⊢
  cases result with
  | ok v t => exact ended
  | error d t => exact ended

theorem ends_andFinally {f : Session → Session}
    (h : action.Ends setup run (fun t => E (f t)) (fun v t => Q v (f t)) s) :
    (andFinally f action).Ends setup run E Q s := by
  intro within
  rw [trace_andFinally] at within
  have ended := h ((List.prefix_append _ _).isInfix.trans within)
  rw [run_andFinally]
  generalize action.run setup s = result at ended ⊢
  cases result with
  | ok v t => exact ended
  | error d t => exact ended

end Rules

end FrontEnd.Action
