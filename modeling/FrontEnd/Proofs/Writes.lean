import FrontEnd.Proofs.Expression.Written

/-!
Which sessions a step writes, whatever session it starts from. Nothing is asked of a step that
fails, so that what is shown holds of its failures too.
-/

namespace FrontEnd.Action

variable {α β : Type} {setup : Setup} {R R' : Session → Session → Prop} {s : Session}
  {stream : Stream}

/-- Each session that is written is related by `R` to the one before it. A value satisfies `Q` with
the session that is left behind. -/
def Writes (action : Action α) (setup : Setup) (R : Session → Session → Prop)
    (Q : α → Session → Prop) (s : Session) : Prop :=
  action.Ensures setup R (fun _ _ => True) Q s

section Rules

variable {P Q : α → Session → Prop}

theorem writes_bind {action : Action α} {f : α → Action β} {Q : β → Session → Prop} :
    (action >>= f).Writes setup R Q s ↔
      action.Writes setup R (fun v t => (f v).Writes setup R Q t) s :=
  ensures_bind

theorem writes_get {f : Session → Action α} :
    (get >>= f).Writes setup R Q s ↔ (f s).Writes setup R Q s := Iff.rfl

theorem writes_read {f : Setup → Action α} :
    (read >>= f).Writes setup R Q s ↔ (f setup).Writes setup R Q s := Iff.rfl

theorem writes_fail {cause : Cause} {span : Span} :
    (fail cause span : Action α).Writes setup R Q s := trivial

theorem writes_failAt {fault : Fault} : (failAt fault : Action α).Writes setup R Q s := trivial

theorem writes_failInternal {cause : InternalCause} :
    (failInternal cause : Action α).Writes setup R Q s := trivial

theorem Writes.mono {action : Action α} (h : action.Writes setup R P s)
    (hR : ∀ t u, R t u → R' t u) (hQ : ∀ v t, P v t → Q v t) : action.Writes setup R' Q s :=
  Ensures.mono h hR (fun _ _ => id) hQ

theorem Writes.imp {action : Action α} (h : action.Writes setup R P s)
    (hQ : ∀ v t, P v t → Q v t) : action.Writes setup R Q s :=
  h.mono (fun _ _ => id) hQ

theorem Writes.bind {action : Action α} {f : α → Action β} {Q : β → Session → Prop}
    (h : action.Writes setup R P s) (hf : ∀ v t, P v t → (f v).Writes setup R Q t) :
    (action >>= f).Writes setup R Q s :=
  writes_bind.2 (h.imp hf)

/-- What is preserved by every change relates the first session to the one that is left behind. -/
theorem Writes.along {action : Action α} (h : action.Writes setup R P s)
    {T : Session → Session → Prop} (refl : ∀ t, T t t)
    (trans : ∀ {t u v}, T t u → T u v → T t v) (hR : ∀ t u, R t u → T t u) :
    action.Writes setup R (fun v t => P v t ∧ T s t) s :=
  (Ensures.along T refl trans hR h).mono (fun _ _ => id) (fun _ _ _ => trivial) fun _ _ => id

/-- A failure leaves such a session behind, too. -/
theorem Writes.related {action : Action α} (h : action.Writes setup R P s)
    {T : Session → Session → Prop} (refl : ∀ t, T t t)
    (trans : ∀ {t u v}, T t u → T u v → T t v) (hR : ∀ t u, R t u → T t u) :
    match action.run setup s with
    | .ok v t => T s t ∧ P v t
    | .error _ t => T s t := by
  have along := Ensures.along T refl trans hR h
  split
  · rename_i hr
    exact ⟨(along.of_run_ok hr).2, (along.of_run_ok hr).1⟩
  · rename_i hr
    exact (along.of_run_error hr).2

end Rules

/-! ### Reading -/

section Reading

variable {Q : α → Session → Prop}

theorem writes_ofExcept {e : Except Fault β} {f : β → Action α}
    (hf : ∀ v, e = .ok v → (f v).Writes setup R Q s) : (ofExcept e >>= f).Writes setup R Q s := by
  cases e with
  | ok v => exact hf v rfl
  | error fault => exact writes_failAt

theorem writes_eat {wanted : Symbol} {f : Shorter stream → Action α}
    (hf : ∀ rest, stream.skip? wanted = some rest → (f rest).Writes setup R Q s) :
    (eat wanted stream >>= f).Writes setup R Q s := by
  unfold eat
  split
  · rename_i rest found
    exact hf rest found
  · exact writes_fail

theorem writes_eatName {f : Past stream String → Action α}
    (hf : ∀ past, stream.name? = some past → (f past).Writes setup R Q s) :
    (eatName stream >>= f).Writes setup R Q s := by
  unfold eatName
  split
  · rename_i past found
    exact hf past found
  · exact writes_fail

theorem writes_separator {closing : Symbol} {f : Kept stream → Action α}
    (hf : ∀ rest : Kept stream, Stream.PassesTerm [] stream rest.stream → (f rest).Writes setup R Q s) :
    (separator closing stream >>= f).Writes setup R Q s := by
  unfold separator
  split
  · exact hf _ (.refl [] stream)
  · rw [bind_assoc]
    exact writes_eat fun rest found => hf rest.rest (Stream.passesTerm_of_skip? found rfl rfl)

theorem writes_found {id? : Option IdentId} {cause : Cause} {span : Span}
    {f : IdentId × Ident → Action α} (hf : ∀ x, (f x).Writes setup R Q s) :
    (found id? cause span >>= f).Writes setup R Q s := by
  unfold found
  split
  · exact writes_fail
  · rw [bind_assoc, writes_get]
    split
    · exact hf _
    · exact writes_fail

/-- A reference that stands for something is whole. -/
theorem writes_resolve {r : Reference} {f : IdentId × Ident → Action α}
    (hf : ∀ x, r.IsWhole → (f x).Writes setup R Q s) : (resolve r >>= f).Writes setup R Q s := by
  unfold resolve
  rw [bind_assoc, writes_get]
  cases r with
  | plain name span => exact writes_found fun x => hf x trivial
  | member file span member =>
    dsimp only
    split
    · exact writes_fail
    · simp only [fail_bind]
      split
      · exact writes_fail
      · simp only [bind_assoc]
        refine writes_ofExcept fun v found => ?_
        refine writes_found fun x => ?_
        split
        · exact writes_fail
        · exact hf x ⟨v, found⟩

theorem writes_reference {f : Past stream (IdentId × Ident) → Action α}
    (hf : ∀ past : Past stream (IdentId × Ident),
      Stream.PassesTerm Symbol.separators stream past.stream → (f past).Writes setup R Q s) :
    (reference stream >>= f).Writes setup R Q s := by
  unfold reference
  rw [bind_assoc, writes_get]
  split
  · rename_i r s' h hr
    rw [bind_assoc]
    refine writes_resolve fun x whole => hf ⟨x, s', h⟩ ?_
    obtain ⟨words, written, shown⟩ := Reference.writtenAs_of_read? hr whole
    exact ⟨words, shown, written.enclose, written.isReturn_eq_false⟩
  · exact writes_fail

theorem writes_typeReference {f : Past stream Ident → Action α}
    (hf : ∀ past : Past stream Ident, Stream.PassesTerm Symbol.separators stream past.stream →
      (f past).Writes setup R Q s) : (typeReference stream >>= f).Writes setup R Q s := by
  unfold typeReference
  rw [bind_assoc]
  refine writes_reference fun past passed => ?_
  obtain ⟨⟨_, ident⟩, s', h⟩ := past
  dsimp only
  split
  · exact writes_fail
  · exact hf ⟨ident, s', h⟩ passed

theorem writes_checkCompatible {target source : TypeId} {span : Span} {f : Unit → Action α}
    (hf : (f ()).Writes setup R Q s) :
    (checkCompatible target source span >>= f).Writes setup R Q s := by
  unfold checkCompatible
  rw [bind_assoc, writes_get]
  split
  · exact writes_fail
  · exact hf

end Reading

/-! ### Identifiers -/

theorem writes_newIdent {name : String} {kind : IdentKind} {type : TypeId} {span : Span}
    {f : Ident → Action α} {Q : α → Session → Prop} :
    (newIdent name kind type span >>= f).Writes setup R Q s ↔
      (f (s.ident name kind false type .none span)).Writes setup R Q s := Iff.rfl

/-- A new identifier is the only change that its declaration makes. -/
theorem writes_declare {i : Ident} (hR : ∀ idents, R s { s with idents }) :
    (declare i).Writes setup R (fun _ t => ∃ idents, t = { s with idents }) s := by
  unfold declare
  simp only [fail_bind]
  split
  · exact writes_fail
  · rw [writes_get]
    split
    · rename_i id idents _
      exact ⟨hR idents, idents, rfl⟩
    · exact writes_fail

/-- Declaring a type changes identifiers and types. -/
theorem writes_declareType {name : String} {exported : Bool} {type : TypeId} {span : Span}
    (fresh : ∀ idents, R s { s with idents })
    (known : ∀ forward idents, s.types.isForward type = false →
      s.types.isForward forward = true →
      R s { s with types := s.types.complete forward type, idents }) :
    (declareType name exported type span).Writes setup R
      (fun _ t => ∃ types idents, t = { s with types, idents }) s := by
  unfold declareType
  rw [writes_get]
  split
  · rename_i id forward found
    split at found
    · cases found
    · rename_i solid
      have pending : s.types.isForward forward = true := by
        obtain ⟨_, _, found⟩ := Option.bind_eq_some_iff.1 found
        obtain ⟨i, _, found⟩ := Option.bind_eq_some_iff.1 found
        split at found
        · rename_i h
          cases found
          exact (Bool.and_eq_true_iff.1 h).2
        · cases found
      exact ⟨known forward _ (by simpa using solid) pending, _, _, rfl⟩
  · refine (writes_declare fresh).imp fun _ t => ?_
    rintro ⟨idents, rfl⟩
    exact ⟨_, idents, rfl⟩

end FrontEnd.Action
