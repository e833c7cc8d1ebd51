import FrontEnd.Proofs.Calls.Readings
import FrontEnd.Proofs.TypeExpression.Writes

/-!
Which reader makes a step. What a reader writes it writes itself, or another reader that it calls
does. The steps that are its own change no module, and no structure but the one whose fields are
being read.
-/

namespace FrontEnd

namespace Session

variable {s t u : Session}

/-- The modules stay as they are, and so do all structures, but perhaps the type `except?`. -/
structure Spares (except? : Option TypeId) (s t : Session) : Prop where
  structures : ∀ id, some id ≠ except? → (s.types.kind id).isStructure = true →
    t.types.kind id = s.types.kind id
  modules : t.modules = s.modules
  importDepth : t.importDepth = s.importDepth

namespace Spares

variable {except? : Option TypeId}

theorem of_types (types : t.types = s.types) (modules : t.modules = s.modules)
    (importDepth : t.importDepth = s.importDepth) : s.Spares except? t :=
  ⟨fun _ _ _ => by rw [types], modules, importDepth⟩

theorem addType (s : Session) (kind : TypeKind) :
    s.Spares except? { s with types := (s.types.add kind).2 } :=
  ⟨fun _ _ hs => TypeTable.kind_add_of_ne _ (Nat.ne_of_lt (TypeTable.index_lt_of_isStructure hs)),
    rfl, rfl⟩

/-- A forward type is no structure before it is completed. -/
theorem complete (s : Session) {forward : TypeId} (type : TypeId) (idents : IdentTable)
    (pending : s.types.isForward forward = true) :
    s.Spares except? { s with types := s.types.complete forward type, idents } := by
  refine ⟨fun id _ hs => ?_, rfl, rfl⟩
  rw [TypeTable.kind_complete type id (TypeTable.index_lt_of_isForward pending), if_neg]
  rintro rfl
  rw [TypeTable.isForward_eq, TypeKind.isForward_of_isStructure hs] at pending
  cases pending

theorem bind (s : Session) (forward : TypeId) (ident : IdentId) :
    s.Spares except? { s with types := s.types.bind forward ident } := by
  refine ⟨fun id _ hs => ?_, rfl, rfl⟩
  by_cases pending : s.types.isForward forward = true
  · rw [TypeTable.kind_bind ident id pending, if_neg]
    rintro rfl
    rw [TypeTable.isForward_eq, TypeKind.isForward_of_isStructure hs] at pending
    cases pending
  · rw [TypeTable.bind, if_neg pending]

theorem addField (s : Session) {owner type : TypeId} {name : String} {offset : Int64}
    {types : TypeTable} (added : s.types.addField owner name type = some (offset, types)) :
    s.Spares (some owner) { s with types } :=
  ⟨fun id other _ => by
    rw [(TypeTable.addField_eq_some added).2.2, if_neg fun he => other (congrArg some he)],
    rfl, rfl⟩

end Spares

end Session

namespace Action

open Session

variable {α β : Type} {setup : Setup} {run : List Session} {R T : Session → Session → Prop}
  {s t : Session} {stream : Stream}

/-- Each step that is made as a part of `run` is one of `R`. -/
def StepsIn (action : Action α) (setup : Setup) (run : List Session) (R : Session → Session → Prop)
    (s : Session) : Prop :=
  s :: action.trace setup s <:+: run → (s :: action.trace setup s).IsChain R

section Rules

variable {action : Action α} {f : α → Action β}

theorem steps_of_trace_eq_nil (h : action.trace setup s = []) : action.StepsIn setup run R s := by
  intro _
  rw [h]
  exact .singleton s

theorem steps_pure {v : α} : (pure v : Action α).StepsIn setup run R s := steps_of_trace_eq_nil rfl

theorem steps_throw {d : Diagnostic} : (throw d : Action α).StepsIn setup run R s :=
  steps_of_trace_eq_nil rfl

theorem steps_fail {cause : Cause} {span : Span} :
    (fail cause span : Action α).StepsIn setup run R s := steps_of_trace_eq_nil rfl

theorem steps_failInternal {cause : InternalCause} :
    (failInternal cause : Action α).StepsIn setup run R s := steps_of_trace_eq_nil rfl

theorem steps_get {f : Session → Action α} :
    (get >>= f).StepsIn setup run R s ↔ (f s).StepsIn setup run R s := Iff.rfl

theorem steps_read {f : Setup → Action α} :
    (read >>= f).StepsIn setup run R s ↔ (f setup).StepsIn setup run R s := Iff.rfl

theorem steps_write (h : R s t) (h' : action.StepsIn setup run R t) :
    (write t action).StepsIn setup run R s := fun within =>
  .cons_cons h (h' ((List.suffix_cons s _).isInfix.trans within))

theorem steps_modify {f : Session → Session} {g : Unit → Action α} (h : R s (f s))
    (h' : (g ()).StepsIn setup run R (f s)) : (modify f >>= g).StepsIn setup run R s :=
  steps_write h h'

theorem steps_bind (h : action.StepsIn setup run R s)
    (hf : ∀ v t, action.Yields setup s v t → (f v).StepsIn setup run R t) :
    (action >>= f).StepsIn setup run R s := by
  intro within
  cases result : action.run setup s with
  | ok v t =>
    have yields : action.Yields setup s v t := result
    obtain ⟨first, behind⟩ := yields.parts within
    obtain ⟨before, last⟩ := List.getLast?_eq_some_iff.1 yields.getLast?
    have ended := h first
    rw [trace_bind, result, ← List.cons_append, last, List.append_assoc, List.singleton_append]
    rw [last] at ended
    exact List.isChain_split.2 ⟨ended, hf v t yields behind⟩
  | error d t =>
    rw [trace_bind, result, List.append_nil] at within ⊢
    exact h within

theorem Writes.steps {Q : α → Session → Prop} (h : action.Writes setup T Q s)
    (hT : ∀ t u, T t u → R t u) : action.StepsIn setup run R s :=
  fun _ => h.isChain.imp hT

theorem steps_mapError {f : Diagnostic → Diagnostic} (h : action.StepsIn setup run R s) :
    (mapError f action).StepsIn setup run R s := by
  unfold StepsIn
  rw [trace_mapError]
  exact h

/-- What follows a step in either case is one more step. -/
theorem steps_andFinally {f : Session → Session} (h : action.StepsIn setup run R s)
    (hf : ∀ t, (s :: action.trace setup s).getLast? = some t → R t (f t)) :
    (andFinally f action).StepsIn setup run R s := by
  intro within
  rw [trace_andFinally, ← List.cons_append] at within ⊢
  have ended := h ((List.prefix_append _ _).isInfix.trans within)
  have last : (s :: action.trace setup s).getLast? = _ := getLast?_trace
  have more (t : Session) (ht : (s :: action.trace setup s).getLast? = some t) :
      (s :: action.trace setup s ++ [f t]).IsChain R := by
    refine ended.append (.singleton _) fun x hx y hy => ?_
    cases hy
    obtain rfl : t = x := Option.some_inj.1 (ht.symm.trans hx)
    exact hf t ht
  cases result : action.run setup s with
  | ok v t =>
    rw [result] at last
    exact more t last
  | error d t =>
    rw [result] at last
    exact more t last

/-! Reading -/

theorem steps_ofExcept {e : Except Fault β} {f : β → Action α}
    (hf : ∀ v, e = .ok v → (f v).StepsIn setup run R s) :
    (ofExcept e >>= f).StepsIn setup run R s := by
  cases e with
  | ok v => exact hf v rfl
  | error fault => exact steps_of_trace_eq_nil rfl

theorem steps_eat {wanted : Symbol} {f : Shorter stream → Action α}
    (hf : ∀ rest, stream.skip? wanted = some rest → (f rest).StepsIn setup run R s) :
    (eat wanted stream >>= f).StepsIn setup run R s := by
  unfold eat
  split
  · rename_i rest found
    exact hf rest found
  · exact steps_fail

theorem steps_eatName {f : Past stream String → Action α}
    (hf : ∀ past, stream.name? = some past → (f past).StepsIn setup run R s) :
    (eatName stream >>= f).StepsIn setup run R s := by
  unfold eatName
  split
  · rename_i past found
    exact hf past found
  · exact steps_fail

theorem trace_eat (wanted : Symbol) (stream : Stream) : (eat wanted stream).trace setup s = [] := by
  unfold eat
  split <;> rfl

theorem trace_separator (closing : Symbol) (stream : Stream) :
    (separator closing stream).trace setup s = [] := by
  unfold separator
  split
  · rfl
  · rw [trace_bind, trace_eat]
    cases (eat .semicolon stream).run setup s <;> rfl

theorem steps_separator (closing : Symbol) (stream : Stream) :
    (separator closing stream).StepsIn setup run R s :=
  steps_of_trace_eq_nil (trace_separator closing stream)

end Rules

/-! ### Readers -/

/-- The structure whose fields a reader reads. -/
def Reading.owner? (r : Reading) : Option TypeId :=
  match r.nonterminal with
  | .structFields owner | .interfaceMethods owner => some owner
  | .interfaceType => some ⟨r.session.types.size⟩
  | _ => none

/-- The sessions that a reader goes through. -/
def Reading.sessions (r : Reading) (setup : Setup) : List Session :=
  r.session :: r.nonterminal.trace setup r.stream r.session

/-- The steps of `R` are those that the reader `r` makes itself and those of the readers that it
calls as parts of `run`. -/
structure Reading.Makes (r : Reading) (setup : Setup) (run : List Session)
    (R : Session → Session → Prop) : Prop where
  own : ∀ t u, t.Spares r.owner? u → R t u
  calls : ∀ c, Reading.Calls setup r c → c.sessions setup <:+: run → (c.sessions setup).IsChain R

namespace Reading.Makes

variable {r : Reading} (h : r.Makes setup run R)

include h

theorem types {t u : Session} (types : u.types = t.types) (modules : u.modules = t.modules)
    (importDepth : u.importDepth = t.importDepth) : R t u :=
  h.own t u (.of_types types modules importDepth)

theorem addType (kind : TypeKind) : (addType kind).StepsIn setup run R s :=
  steps_write (h.own _ _ (.addType s kind)) steps_pure

theorem emit (i : Instruction) : (emit i).StepsIn setup run R s :=
  steps_write (h.types rfl rfl rfl) steps_pure

theorem declare (i : Ident) : (declare i).StepsIn setup run R s :=
  (writes_declare fun idents =>
    show s.Spares r.owner? { s with idents } from .of_types rfl rfl rfl).steps h.own

theorem declareType (name : String) (exported : Bool) (type : TypeId) (span : Span) :
    (declareType name exported type span).StepsIn setup run R s :=
  (writes_declareType
    (fun idents => show s.Spares r.owner? { s with idents } from .of_types rfl rfl rfl)
    fun _ idents _ pending => .complete s type idents pending).steps h.own

theorem allocate (name : String) (type : TypeId) (span : Span) :
    (allocate name type span).StepsIn setup run R s := by
  unfold Action.allocate
  rw [steps_get]
  split
  · exact steps_write (h.types rfl rfl rfl) steps_pure
  · split
    · exact steps_write (h.types rfl rfl rfl) steps_pure
    · exact steps_fail

theorem declareVariable (name : String) (exported : Bool) (type : TypeId) (span : Span) :
    (declareVariable name exported type span).StepsIn setup run R s := by
  unfold Action.declareVariable
  refine steps_bind (h.allocate name type span) fun payload t _ => ?_
  exact steps_get.2 (steps_bind (h.declare _) fun _ _ _ => steps_pure)

theorem setGlobal (slot : Nat) (value : Constant) :
    (setGlobal slot value).StepsIn setup run R s := by
  unfold Action.setGlobal
  rw [steps_get]
  split
  · exact steps_write (h.types rfl rfl rfl) steps_pure
  · exact steps_failInternal

end Reading.Makes

end Action

end FrontEnd
