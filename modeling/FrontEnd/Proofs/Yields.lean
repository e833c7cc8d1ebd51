import FrontEnd.Proofs.Action

/-!
Steps that succeed. What a composite step yields is what its parts yield one after the other, and the
sessions that the parts go through stand one behind the other in the run of the whole.
-/

namespace FrontEnd.Action

variable {α β : Type} {setup : Setup} {s t : Session} {v : α}

/-- The step succeeds with the value `v` and leaves the session `t` behind. -/
def Yields (action : Action α) (setup : Setup) (s : Session) (v : α) (t : Session) : Prop :=
  action.run setup s = .ok v t

theorem yields_pure {w : α} : (pure w : Action α).Yields setup s v t ↔ v = w ∧ t = s := by
  constructor
  · rintro ⟨⟩
    exact ⟨rfl, rfl⟩
  · rintro ⟨rfl, rfl⟩
    rfl

theorem yields_bind {action : Action α} {f : α → Action β} {w : β} :
    (action >>= f).Yields setup s w t ↔
      ∃ v u, action.Yields setup s v u ∧ (f v).Yields setup u w t := by
  unfold Yields
  rw [run_bind]
  cases action.run setup s with
  | ok v u =>
    constructor
    · intro h
      exact ⟨v, u, rfl, h⟩
    · rintro ⟨_, _, ⟨⟩, h⟩
      exact h
  | error d u =>
    constructor
    · rintro ⟨⟩
    · rintro ⟨_, _, ⟨⟩, _⟩

theorem run_get {f : Session → Action α} :
    (get >>= f).run setup s = (f s).run setup s := rfl

theorem yields_get {f : Session → Action α} :
    (get >>= f).Yields setup s v t ↔ (f s).Yields setup s v t := Iff.rfl

theorem yields_read {f : Setup → Action α} :
    (read >>= f).Yields setup s v t ↔ (f setup).Yields setup s v t := Iff.rfl

theorem not_yields_fail {cause : Cause} {span : Span} :
    ¬ (fail cause span : Action α).Yields setup s v t := by
  rintro ⟨⟩

theorem not_yields_failAt {fault : Fault} : ¬ (failAt fault : Action α).Yields setup s v t := by
  rintro ⟨⟩

theorem not_yields_failInternal {cause : InternalCause} :
    ¬ (failInternal cause : Action α).Yields setup s v t := by
  rintro ⟨⟩

/-- What a step yields is known besides what it ensures. -/
theorem Ensures.and_yields {action : Action α} {R : Session → Session → Prop}
    {E : Diagnostic → Session → Prop} {P Q : α → Session → Prop}
    (h : action.Ensures setup R E Q s) (hP : ∀ v t, action.Yields setup s v t → P v t) :
    action.Ensures setup R E (fun v t => Q v t ∧ P v t) s := by
  induction action generalizing s with
  | done value => exact ⟨h, hP value s rfl⟩
  | failed d => exact h
  | look g ih => exact ih setup s h hP
  | write t action ih => exact ⟨h.1, ih h.2 hP⟩

/-- A failure of the first part is one of the whole. -/
theorem run_bind_error {action : Action α} {f : α → Action β} {d : Diagnostic}
    (h : action.run setup s = .error d t) : (action >>= f).run setup s = .error d t := by
  rw [run_bind, h]

theorem Yields.run_bind {action : Action α} {f : α → Action β} (h : action.Yields setup s v t) :
    (action >>= f).run setup s = (f v).run setup t := by
  rw [Action.run_bind, show action.run setup s = .ok v t from h]

/-! ### Parts of a run -/

section Parts

variable {run : List Session}

/-- The step succeeds with the value `v` as a part of a run, and leads from the session `s` to `t`. -/
structure PassesIn (action : Action α) (setup : Setup) (run : List Session) (s : Session) (v : α)
    (t : Session) : Prop where
  yields : action.Yields setup s v t
  within : s :: action.trace setup s <:+: run

/-- A step that succeeds is a part of its own run. -/
theorem Yields.passes {action : Action α} (h : action.Yields setup s v t) :
    action.PassesIn setup (s :: action.trace setup s) s v t :=
  ⟨h, List.infix_refl _⟩

theorem Yields.getLast? {action : Action α} (h : action.Yields setup s v t) :
    (s :: action.trace setup s).getLast? = some t := by
  rw [getLast?_trace, show action.run setup s = .ok v t from h]

/-- The two parts of a step that goes on are parts of its run. -/
theorem Yields.parts {action : Action α} {f : α → Action β} (h : action.Yields setup s v t)
    (within : s :: (action >>= f).trace setup s <:+: run) :
    s :: action.trace setup s <:+: run ∧ t :: (f v).trace setup t <:+: run := by
  rw [trace_bind, show action.run setup s = .ok v t from h] at within
  constructor
  · exact (List.prefix_append (s :: action.trace setup s) _).isInfix.trans within
  · obtain ⟨before, last⟩ := List.getLast?_eq_some_iff.1 h.getLast?
    rw [← List.cons_append, last, List.append_assoc, List.singleton_append] at within
    exact (List.suffix_append before _).isInfix.trans within

theorem passes_bind {action : Action α} {f : α → Action β} {w : β}
    (h : (action >>= f).PassesIn setup run s w t) :
    ∃ v u, action.PassesIn setup run s v u ∧ (f v).PassesIn setup run u w t := by
  obtain ⟨v, u, first, second⟩ := yields_bind.1 h.yields
  obtain ⟨before, behind⟩ := first.parts h.within
  exact ⟨v, u, ⟨first, before⟩, ⟨second, behind⟩⟩

theorem passes_pure {w : α} (h : (pure w : Action α).PassesIn setup run s v t) : v = w ∧ t = s :=
  yields_pure.1 h.yields

theorem passes_get {f : Session → Action α} :
    (get >>= f).PassesIn setup run s v t ↔ (f s).PassesIn setup run s v t :=
  ⟨fun h => ⟨h.yields, h.within⟩, fun h => ⟨h.yields, h.within⟩⟩

theorem passes_read {f : Setup → Action α} :
    (read >>= f).PassesIn setup run s v t ↔ (f setup).PassesIn setup run s v t :=
  ⟨fun h => ⟨h.yields, h.within⟩, fun h => ⟨h.yields, h.within⟩⟩

theorem not_passes_fail {cause : Cause} {span : Span} :
    ¬ (fail cause span : Action α).PassesIn setup run s v t :=
  fun h => not_yields_fail h.yields

theorem passes_mapError {f : Diagnostic → Diagnostic} {action : Action α}
    (h : (mapError f action).PassesIn setup run s v t) : action.PassesIn setup run s v t := by
  refine ⟨?_, trace_mapError f action setup s ▸ h.within⟩
  have yields := h.yields
  unfold Yields at yields ⊢
  rw [run_mapError] at yields
  cases hr : action.run setup s with
  | ok w u =>
    rw [hr] at yields
    exact yields
  | error d u =>
    rw [hr] at yields
    cases yields

theorem passes_andFinally {f : Session → Session} {action : Action α}
    (h : (andFinally f action).PassesIn setup run s v t) :
    ∃ u, action.PassesIn setup run s v u ∧ t = f u := by
  have yields := h.yields
  have within := h.within
  unfold Yields at yields
  rw [run_andFinally] at yields
  rw [trace_andFinally, ← List.cons_append] at within
  cases hr : action.run setup s with
  | ok w u =>
    rw [hr] at yields
    cases yields
    exact ⟨u, ⟨hr, (List.prefix_append _ _).isInfix.trans within⟩, rfl⟩
  | error d u =>
    rw [hr] at yields
    cases yields

end Parts

end FrontEnd.Action
