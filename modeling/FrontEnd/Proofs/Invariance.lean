import FrontEnd.Proofs.Ends
import FrontEnd.Proofs.TypeExpression.Writes

/-!
What every reader of the front end keeps. A relation between the session before a step and the one
behind it is kept by the readers if the elementary changes keep it; for steps that fail there is a
second relation. This module has the readers of expressions and of the parts of signatures.
-/

namespace FrontEnd

/-- The words that were read are closed in themselves. -/
def Rest.Moved {s : Stream} {α : Type} (r : Rest s α) : Prop := Stream.Passes [] s r.stream

/-- The words that were read are closed in themselves. -/
def Past.Moved {s : Stream} {α : Type} (p : Past s α) : Prop := Stream.Passes [] s p.stream

namespace Action

/-- `P` relates the session before an elementary change to the one behind it, and can be composed;
`E` relates a session to what a failure leaves behind. -/
structure Invariance (setup : Setup) (run : List Session) (E P : Session → Session → Prop) :
    Prop where
  refl (s : Session) : P s s
  trans {s t u : Session} (h : P s t) (h' : P t u) : P s u
  failsHere (s : Session) : E s s
  failsBehind {s t u : Session} (h : P s t) (h' : E t u) : E s u
  code (s : Session) (code : Code) : P s { s with code }
  idents (s : Session) (idents : IdentTable) : P s { s with idents }
  newType (s : Session) {kind : TypeKind} (plain : kind.isStructure = false) :
    P s { s with types := (s.types.add kind).2 }
  complete (s : Session) {forward type : TypeId} (idents : IdentTable)
    (pending : s.types.isForward forward = true) (solid : s.types.isForward type = false) :
    P s { s with types := s.types.complete forward type, idents }

variable {α β : Type} {setup : Setup} {run : List Session} {E P : Session → Session → Prop}
  {s : Session} {stream : Stream}

namespace Invariance

/-- The step keeps the relations, and its value satisfies `Q`. -/
def Conserves (_ : Invariance setup run E P) (action : Action α) (Q : α → Prop) (s : Session) :
    Prop :=
  action.Ends setup run (E s) (fun v t => P s t ∧ Q v) s

variable (c : Invariance setup run E P)

include c

theorem error_of (s : Session) {t : Session} (h : P s t) : E s t :=
  c.failsBehind h (c.failsHere t)

section Rules

variable {Q : α → Prop} {R : β → Prop} {action : Action α} {f : α → Action β}

theorem pure {v : α} (h : Q v) : c.Conserves (pure v) Q s := ends_pure ⟨c.refl s, h⟩

theorem fail {cause : Cause} {span : Span} : c.Conserves (fail cause span) Q s :=
  ends_fail (c.failsHere s)

theorem failAt {fault : Fault} : c.Conserves (failAt fault) Q s := ends_failAt (c.failsHere s)

theorem failInternal {cause : InternalCause} : c.Conserves (failInternal cause) Q s :=
  ends_failInternal (c.failsHere s)

theorem throw {d : Diagnostic} : c.Conserves (throw d) Q s := ends_throw (c.failsHere s)

theorem get {f : Session → Action α} : c.Conserves (get >>= f) Q s ↔ c.Conserves (f s) Q s :=
  ends_get

theorem read {f : Setup → Action α} :
    c.Conserves (read >>= f) Q s ↔ c.Conserves (f setup) Q s :=
  ends_read

theorem imp {Q' : α → Prop} (h : c.Conserves action Q s) (hQ : ∀ v, Q v → Q' v) :
    c.Conserves action Q' s :=
  Ends.mono h (fun _ => id) fun v _ hv => ⟨hv.1, hQ v hv.2⟩

theorem after {t : Session} (h : P s t)
    (h' : action.Ends setup run (E t) (fun v u => P t u ∧ Q v) t) :
    action.Ends setup run (E s) (fun v u => P s u ∧ Q v) t :=
  h'.mono (fun _ he => c.failsBehind h he) fun _ _ hv => ⟨c.trans h hv.1, hv.2⟩

theorem bind (h : c.Conserves action Q s)
    (hf : ∀ v t, action.PassesIn setup run s v t → Q v → c.Conserves (f v) R t) :
    c.Conserves (action >>= f) R s :=
  Ends.bind h fun v t passes hv => c.after hv.1 (hf v t passes hv.2)

/-- A single change. -/
theorem write {t : Session} (h : P s t) (h' : c.Conserves action Q t) :
    c.Conserves (Action.write t action) Q s :=
  ends_write (c.after h h')

theorem modify {f : Session → Session} {g : Unit → Action α} (h : P s (f s))
    (h' : c.Conserves (g ()) Q (f s)) : c.Conserves (modify f >>= g) Q s :=
  ends_modify (c.after h h')

theorem writes {T : Session → Session → Prop} (h : action.Writes setup T (fun v _ => Q v) s)
    (hT : ∀ t u, T t u → P t u) : c.Conserves action Q s :=
  h.ends c.refl c.trans hT (fun _ => c.error_of s) fun _ _ hv ht => ⟨ht, hv⟩

/-- A step that writes nothing. -/
theorem reads (h : action.Writes setup (fun _ _ => False) (fun v _ => Q v) s) :
    c.Conserves action Q s :=
  c.writes h fun _ _ => False.elim

end Rules

/-! ### Reading -/

theorem eat (wanted : Symbol) (stream : Stream) :
    c.Conserves (eat wanted stream) (fun rest => stream.skip? wanted = some rest) s := by
  refine c.reads ?_
  rw [← bind_pure (Action.eat wanted stream)]
  exact writes_eat fun _ found => found

theorem eatName (stream : Stream) :
    c.Conserves (eatName stream) (fun past => stream.name? = some past) s := by
  refine c.reads ?_
  rw [← bind_pure (Action.eatName stream)]
  exact writes_eatName fun _ found => found

theorem separator (closing : Symbol) (stream : Stream) :
    c.Conserves (separator closing stream) Rest.Moved s := by
  refine c.reads ?_
  rw [← bind_pure (Action.separator closing stream)]
  exact writes_separator fun _ passed => passed.passes

theorem ofExcept (e : Except Fault α) : c.Conserves (ofExcept e) (fun v => e = .ok v) s := by
  refine c.reads ?_
  rw [← bind_pure (Action.ofExcept e)]
  exact writes_ofExcept fun _ found => found

theorem reference (stream : Stream) : c.Conserves (reference stream) Past.Moved s := by
  refine c.reads ?_
  rw [← bind_pure (Action.reference stream)]
  exact writes_reference fun _ passed => passed.passes.inside

theorem checkCompatible (target source : TypeId) (span : Span) :
    c.Conserves (checkCompatible target source span) (fun _ => True) s := by
  refine c.reads ?_
  rw [← bind_pure (Action.checkCompatible target source span)]
  exact writes_checkCompatible trivial

/-! ### Expressions -/

theorem evaluationStep {mode : Mode} {t : Session} (h : s.EvaluationStep mode t) : P s t := by
  cases h with
  | text capacity => exact c.newType s rfl
  | emit => exact c.code s _

theorem expression (mode : Mode) (stream : Stream) :
    c.Conserves (expression mode stream) Rest.Moved s :=
  c.writes ((writes_expression mode stream).imp fun _ _ passed => passed.passes.inside)
    fun _ _ => c.evaluationStep

theorem constantExpression (stream : Stream) :
    c.Conserves (constantExpression stream) Rest.Moved s :=
  c.writes ((writes_constantExpression stream).imp fun _ _ passed => passed.passes.inside)
    fun _ _ => c.evaluationStep

theorem emit (i : Instruction) : c.Conserves (emit i) (fun _ => True) s :=
  c.writes (T := P) ⟨c.code s _, trivial⟩ fun _ _ => id

theorem addType {kind : TypeKind} (plain : kind.isStructure = false) :
    c.Conserves (addType kind) (fun _ => True) s :=
  c.writes (T := P) ⟨c.newType s plain, trivial⟩ fun _ _ => id

/-! ### Lengths -/

theorem length (negative : Cause) (stream : Stream) :
    c.Conserves (length negative stream) (fun _ => True) s := by
  unfold Action.length
  refine c.bind (c.constantExpression stream) fun rest t _ _ => ?_
  simp only [fail_bind]
  rw [c.get]
  split
  · exact c.fail
  · split
    · split
      · exact c.pure trivial
      · exact c.fail
    · exact c.fail

theorem textType (stream : Stream) : c.Conserves (textType stream) (fun _ => True) s := by
  unfold Action.textType
  refine c.bind (c.eat _ _) fun first t _ _ => ?_
  dsimp only
  split
  · refine c.bind (c.length _ _) fun rest u _ _ => ?_
    refine c.bind (c.eat _ _) fun last v _ _ => ?_
    exact c.bind (c.addType rfl) fun _ _ _ _ => c.pure trivial
  · rw [c.read]
    split
    · exact c.bind (c.addType rfl) fun _ _ _ _ => c.pure trivial
    · exact c.fail

theorem arrayLength (stream : Stream) : c.Conserves (arrayLength stream) (fun _ => True) s := by
  unfold Action.arrayLength
  split
  · exact c.pure trivial
  · exact c.length _ stream

/-! ### Identifiers -/

theorem newIdent (name : String) (kind : IdentKind) (type : TypeId) (span : Span) :
    c.Conserves (newIdent name kind type span) (fun _ => True) s :=
  c.get.2 (c.pure trivial)

theorem declare (i : Ident) : c.Conserves (declare i) (fun _ => True) s :=
  c.writes (T := fun t u => ∃ idents, u = { t with idents })
    ((writes_declare fun idents => ⟨idents, rfl⟩).imp fun _ _ _ => trivial) (by
      rintro t _ ⟨idents, rfl⟩
      exact c.idents t idents)

theorem declareType (name : String) (exported : Bool) (type : TypeId) (span : Span) :
    c.Conserves (declareType name exported type span) (fun _ => True) s :=
  c.writes ((writes_declareType (c.idents s)
    fun _ idents solid pending => c.complete s idents pending solid).imp fun _ _ _ => trivial)
    fun _ _ => id

/-! ### Parts of signatures -/

section Signatures

/-- The type expressions behind the current word keep the relations. -/
def TypesBehind (c : Invariance setup run E P) (stream : Stream) : Prop :=
  ∀ (m : Stream) (s : Session), m.Behind stream → c.Conserves (typeExpression m) Past.Moved s

omit c in
theorem TypesBehind.within {c : Invariance setup run E P} {m : Stream} (h : c.TypesBehind stream)
    (hm : m.Within stream) : c.TypesBehind m :=
  fun m' s behind => h m' s (behind.of_within hm)

theorem typedNames (ht : c.TypesBehind stream) (capacity : Nat) :
    c.Conserves (typedNames capacity stream) Past.Moved s := by
  rw [Action.typedNames]
  refine c.bind (c.ofExcept _) fun names t _ listed => ?_
  refine c.bind (c.eat .colon names.stream) fun first u _ colon => ?_
  refine c.bind (ht first.stream u (first.lt.trans names.lt)) fun past v _ moved => c.pure ?_
  exact (DeclaredName.passesTerm_readList listed).passes.trans
    ((Stream.passes_of_skip? colon rfl).trans moved)

theorem defaultValue (names : Nat) (type : TypeId) (defaults : Nat) (stream : Stream) :
    c.Conserves (defaultValue names type defaults stream) Rest.Moved s := by
  unfold Action.defaultValue
  simp only [fail_bind]
  split
  · rename_i s₁ h₁ sign
    split
    · exact c.fail
    · refine c.bind (c.constantExpression s₁) fun rest t _ moved => ?_
      obtain ⟨⟨value, source⟩, s₂, h₂⟩ := rest
      rw [c.get]
      split
      · exact c.fail
      · refine c.bind (c.checkCompatible _ _ _) fun _ u _ _ => c.pure ?_
        exact (Stream.passes_of_skip? sign rfl).trans moved
  · split
    · exact c.fail
    · exact c.pure (Stream.Passes.refl [] stream)

theorem addParameter (type : TypeId) (default? : Option Constant) (signature : Signature)
    (parameter : DeclaredName) :
    c.Conserves (addParameter type default? signature parameter) (fun _ => True) s := by
  unfold Action.addParameter
  simp only [fail_bind]
  split
  · exact c.fail
  · rw [c.get]
    split
    · exact c.pure trivial
    · exact c.fail

theorem addParameters (type : TypeId) (default? : Option Constant) (signature : Signature)
    (parameters : List DeclaredName) :
    c.Conserves (parameters.foldlM (Action.addParameter type default?) signature)
      (fun _ => True) s := by
  induction parameters generalizing s signature with
  | nil => exact c.pure trivial
  | cons parameter parameters ih =>
    exact c.bind (c.addParameter type default? signature parameter) fun _ _ _ _ => ih _

theorem addResult (signature : Signature) (type : TypeId) (span : Span) :
    c.Conserves (addResult signature type span) (fun _ => True) s := by
  unfold Action.addResult
  rw [c.get]
  split
  · exact c.pure trivial
  · refine c.bind (c.addType rfl) fun pointer t _ _ => ?_
    rw [c.get]
    split
    · exact c.pure trivial
    · exact c.fail

theorem parameterGroups {stream : Stream} (ht : c.TypesBehind stream) (start : Signature)
    (defaults : Nat) (s : Session) :
    c.Conserves (parameterGroups start defaults stream) Past.Moved s := by
  rw [Action.parameterGroups]
  refine c.bind (c.typedNames ht maxParameters) fun past t _ moved => ?_
  refine c.bind (c.defaultValue _ _ _ past.stream) fun rest u _ value => ?_
  refine c.bind (c.addParameters _ _ _ _) fun extended v _ _ => ?_
  have group := Stream.Passes.trans moved value
  dsimp only
  split
  · rename_i comma found
    have shorter : comma.stream.Behind stream := comma.lt.trans (rest.le.behind past.lt)
    have smaller := shorter.2
    refine c.bind (parameterGroups (ht.within shorter.within) extended _ v) ?_
    exact fun last w _ more => c.pure (group.trans ((Stream.passes_of_skip? found rfl).trans more))
  · exact c.pure group
termination_by stream.size

theorem optionalParameters (ht : c.TypesBehind stream) (start : Signature) :
    c.Conserves (optionalParameters start stream) Rest.Moved s := by
  rw [Action.optionalParameters]
  split
  · exact c.bind (c.parameterGroups ht start 0 s) fun past t _ moved => c.pure moved
  · exact c.pure (Stream.Passes.refl [] stream)

theorem signature (ht : c.TypesBehind stream) (start : Signature) :
    c.Conserves (signature start stream) Past.Moved s := by
  rw [Action.signature]
  refine c.bind (c.eat _ _) fun first t _ opened => ?_
  refine c.bind (c.optionalParameters (ht.within first.lt.within) start) fun rest u _ inside => ?_
  refine c.bind (c.eat _ _) fun last v _ closed => ?_
  have between := Stream.passes_brackets [] rfl opened (t := rest.stream) inside closed
  dsimp only
  split
  · rename_i colon found
    have behind : colon.stream.Behind stream :=
      colon.lt.trans (last.lt.trans (rest.le.behind first.lt))
    refine c.bind (ht colon.stream v behind) fun past w _ moved => ?_
    refine c.bind (c.addResult _ _ _) fun _ x _ _ => c.pure ?_
    exact between.trans ((Stream.passes_of_skip? found rfl).trans moved)
  · exact c.bind (c.addResult _ _ _) fun _ w _ _ => c.pure between

end Signatures

end Invariance

end Action

end FrontEnd
