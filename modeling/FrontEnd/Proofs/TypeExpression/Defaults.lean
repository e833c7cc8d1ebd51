import FrontEnd.Proofs.Expression.Rendering
import FrontEnd.Proofs.TypeExpression.Extends

/-!
The default values of a signature. They belong to the last of the parameters that a program writes,
and their number is the length of that run. The hidden parameter for a structured result comes behind
them and has no default value, so the run does not reach to the end of such a signature.
-/

namespace FrontEnd

/-- The length of the longest run of parameters with default values at the end of a list. -/
def trailingDefaults (parameters : List Parameter) : Nat :=
  (parameters.reverse.takeWhile (·.default?.isSome)).length

theorem trailingDefaults_concat (parameters : List Parameter) (p : Parameter) :
    trailingDefaults (parameters ++ [p]) =
      if p.default?.isSome then trailingDefaults parameters + 1 else 0 := by
  rw [trailingDefaults, List.reverse_concat, List.takeWhile_cons]
  split
  · exact List.length_cons
  · exact List.length_nil

theorem trailingDefaults_of_none {parameters : List Parameter}
    (h : ∀ p ∈ parameters, p.default? = none) : trailingDefaults parameters = 0 := by
  rcases List.eq_nil_or_concat parameters with rfl | ⟨others, p, rfl⟩
  · rfl
  · rw [List.concat_eq_append] at h ⊢
    rw [trailingDefaults_concat, h p List.mem_concat_self]
    rfl

namespace Signature

/-- The result is stored through a hidden parameter. -/
def hidesResult (t : TypeTable) (s : Signature) : Bool :=
  s.results.any t.isStructured

/-- The parameters without the hidden one. -/
def declared (t : TypeTable) (s : Signature) : List Parameter :=
  if s.hidesResult t then s.parameters.dropLast else s.parameters

/-- The default values of a signature belong to the last of its declared parameters. -/
structure CountsDefaults (t : TypeTable) (s : Signature) : Prop where
  counted : s.defaults = trailingDefaults (s.declared t)
  hidden : s.hidesResult t = true → ∃ p, s.parameters = s.declared t ++ [p] ∧
    p.name = resultName ∧ p.default? = none

theorem CountsDefaults.of_hidden {t : TypeTable} {s : Signature} {parameters : List Parameter}
    {p : Parameter} (hides : s.hidesResult t = true) (split : s.parameters = parameters ++ [p])
    (name : p.name = resultName) (default : p.default? = none)
    (counted : s.defaults = trailingDefaults parameters) : s.CountsDefaults t := by
  have declared : s.declared t = parameters := by
    rw [Signature.declared, if_pos hides, split, List.dropLast_concat]
  exact ⟨by rw [declared, counted], fun _ => ⟨p, by rw [declared, split], name, default⟩⟩

theorem CountsDefaults.of_plain {t : TypeTable} {s : Signature} (plain : s.hidesResult t = false)
    (counted : s.defaults = trailingDefaults s.parameters) : s.CountsDefaults t := by
  refine ⟨?_, fun hides => absurd (plain.symm.trans hides) nofun⟩
  rw [Signature.declared, plain]
  exact counted

/-- All parameters have the counted default values at their end, unless the hidden one is there. -/
theorem CountsDefaults.eq_trailingDefaults_iff {t : TypeTable} {s : Signature}
    (h : s.CountsDefaults t) :
    s.defaults = trailingDefaults s.parameters ↔ s.hidesResult t = false ∨ s.defaults = 0 := by
  cases hides : s.hidesResult t with
  | true =>
    obtain ⟨p, split, _, none⟩ := h.hidden hides
    rw [split, trailingDefaults_concat, none]
    simp
  | false =>
    have counted := h.counted
    rw [declared, hides] at counted
    simpa using counted

/-- What may stand before the parameters that a program writes: nothing, the object itself in a
method of an interface, or a receiver. -/
inductive Begins (setup : Setup) : Signature → Prop
  | empty : Begins setup .empty
  | method {s t : Session} {start : Signature} (h : Action.methodSignature.Yields setup s start t) :
      Begins setup start
  | receiver {stream : Stream} {s t : Session} {past : Past stream (TypeId × Signature)}
      (h : (Action.receiver stream).Yields setup s past t) : Begins setup past.value.2

end Signature

namespace TypeTable

theorem trailingDefaults_addParameters {t : TypeTable} {type : TypeId} {default? : Option Constant}
    {names : List DeclaredName} {s s' : Signature}
    (added : names.foldlM (fun s n => t.addParameter? s n.name type default?) s = some s') :
    trailingDefaults s'.parameters =
      if default?.isSome then trailingDefaults s.parameters + names.length
      else if names = [] then trailingDefaults s.parameters else 0 := by
  induction names generalizing s with
  | nil =>
    cases added
    simp
  | cons n names ih =>
    rw [List.foldlM_cons] at added
    obtain ⟨next, first, more⟩ := Option.bind_eq_some_iff.1 added
    obtain ⟨total, rfl⟩ := addParameter?_eq_some first
    rw [ih more, trailingDefaults_concat]
    cases default? with
    | none => simp
    | some value =>
      simp
      omega

theorem default?_addParameter? {t : TypeTable} {s s' : Signature} {name : String} {type : TypeId}
    (h : ∀ p ∈ s.parameters, p.default? = none)
    (added : t.addParameter? s name type none = some s') :
    ∀ p ∈ s'.parameters, p.default? = none := by
  obtain ⟨total, rfl⟩ := addParameter?_eq_some added
  intro p hp
  rcases List.mem_append.1 hp with hp | hp
  · exact h p hp
  · rw [List.mem_singleton.1 hp]

theorem default?_getD_addParameter? {t : TypeTable} {s : Signature} (name : String) (type : TypeId)
    (h : ∀ p ∈ s.parameters, p.default? = none) :
    ∀ p ∈ ((t.addParameter? s name type none).getD s).parameters, p.default? = none := by
  cases added : t.addParameter? s name type none with
  | none => exact h
  | some s' => exact default?_addParameter? h added

end TypeTable

namespace Action

variable {setup : Setup} {run : List Session} {s t : Session} {stream : Stream}

/-- Only a single parameter has a default value, and only such a one comes behind another. -/
theorem passes_defaultValue {names defaults : Nat} {type : TypeId}
    {rest : Rest stream (Option Constant)}
    (h : (defaultValue names type defaults stream).PassesIn setup run s rest t) :
    rest.value.isSome = true ∧ names = 1 ∨ rest.value = none ∧ defaults = 0 := by
  unfold defaultValue at h
  simp only [fail_bind] at h
  split at h
  · split at h
    · exact absurd h not_passes_fail
    rename_i single
    refine .inl ⟨?_, by simpa using single⟩
    obtain ⟨_, u, _, h⟩ := passes_bind h
    rw [passes_get] at h
    split at h
    · exact absurd h not_passes_fail
    obtain ⟨_, w, _, h⟩ := passes_bind h
    obtain ⟨rfl, _⟩ := passes_pure h
    rfl
  · split at h
    · exact absurd h not_passes_fail
    rename_i first
    obtain ⟨rfl, _⟩ := passes_pure h
    exact .inr ⟨rfl, by simpa using first⟩

/-- The default values read so far are at the end of the parameters read so far. -/
theorem counts_parameterGroups {start : Signature} {defaults : Nat} (stream : Stream)
    {s t : Session} {past : Past stream (Signature × Nat)}
    (hs : trailingDefaults start.parameters = defaults)
    (h : (parameterGroups start defaults stream).PassesIn setup run s past t) :
    trailingDefaults past.value.1.parameters = past.value.2 := by
  rw [parameterGroups] at h
  obtain ⟨⟨⟨names, type⟩, s₁, h₁⟩, u, _, h⟩ := passes_bind h
  obtain ⟨⟨default?, s₂, h₂⟩, w, defaulted, h⟩ := passes_bind h
  obtain ⟨extended, added, h⟩ := passes_addParameters_bind h
  have counted : trailingDefaults extended.parameters =
      if default?.isSome then defaults + 1 else defaults := by
    rw [TypeTable.trailingDefaults_addParameters added, hs]
    rcases passes_defaultValue defaulted with ⟨given, single⟩ | ⟨missing, first⟩
    · rw [if_pos given, if_pos given, single]
    · obtain rfl : default? = none := missing
      simp [first]
  dsimp only at h
  split at h
  · rename_i comma _
    obtain ⟨_, s₃, h₃⟩ := comma
    have hlt := ((h₃.of_within h₂).trans h₁).2
    obtain ⟨_, y, more, h⟩ := passes_bind h
    obtain ⟨rfl, _⟩ := passes_pure h
    exact counts_parameterGroups s₃ counted more
  · obtain ⟨rfl, _⟩ := passes_pure h
    exact counted
termination_by stream.size

theorem counts_optionalParameters {start : Signature} {rest : Rest stream (Signature × Nat)}
    (hs : trailingDefaults start.parameters = 0)
    (h : (optionalParameters start stream).PassesIn setup run s rest t) :
    trailingDefaults rest.value.1.parameters = rest.value.2 := by
  rw [optionalParameters] at h
  split at h
  · obtain ⟨_, u, read, h⟩ := passes_bind h
    obtain ⟨rfl, _⟩ := passes_pure h
    exact counts_parameterGroups stream hs read
  · obtain ⟨rfl, _⟩ := passes_pure h
    exact hs

/-- The pointer to a structured result is one type more; the result stays what it is. -/
theorem isStructured_of_addType {kind : TypeKind} {type new : TypeId}
    (h : (addType kind).Yields setup s new t) (structured : s.types.isStructured type = true) :
    t.types.isStructured type = true := by
  obtain ⟨rfl, rfl⟩ := yields_addType h
  have known : type.index < s.types.size := TypeTable.index_lt_of_kind_ne fun hk => by
    rw [TypeTable.isStructured, hk] at structured
    cases structured
  rw [TypeTable.isStructured_congr (congrArg _ (TypeTable.kind_add_of_ne kind known.ne)), structured]

theorem counts_addResult {signature complete : Signature} {type : TypeId} {span : Span}
    (hs : trailingDefaults signature.parameters = signature.defaults)
    (h : (addResult signature type span).PassesIn setup run s complete t) :
    complete.CountsDefaults t.types := by
  unfold addResult at h
  rw [passes_get] at h
  split at h
  · rename_i plain
    obtain ⟨rfl, rfl⟩ := passes_pure h
    exact .of_plain (by simpa [Signature.hidesResult] using plain) hs.symm
  rename_i structured
  obtain ⟨pointer, u, pointed, h⟩ := passes_bind h
  rw [passes_get] at h
  split at h
  · rename_i added
    obtain ⟨rfl, rfl⟩ := passes_pure h
    obtain ⟨total, rfl⟩ := TypeTable.addParameter?_eq_some added
    have structured := isStructured_of_addType pointed.yields (by simpa using structured)
    exact .of_hidden (by simpa [Signature.hidesResult] using structured) rfl rfl rfl hs.symm
  · exact absurd h not_passes_fail

theorem counts_signature {start : Signature} {past : Past stream Signature}
    (hs : trailingDefaults start.parameters = 0)
    (h : (signature start stream).PassesIn setup run s past t) :
    past.value.CountsDefaults t.types := by
  rw [signature] at h
  obtain ⟨⟨⟨⟩, s₁, h₁⟩, _, h⟩ := passes_eat_bind h
  obtain ⟨⟨⟨listed, defaults⟩, s₂, h₂⟩, u, read, h⟩ := passes_bind h
  obtain ⟨⟨⟨⟩, s₃, h₃⟩, _, h⟩ := passes_eat_bind h
  have listed := counts_optionalParameters hs read
  dsimp only at h
  split at h
  · obtain ⟨⟨result, s₅, h₅⟩, w, _, h⟩ := passes_bind h
    obtain ⟨complete, x, added, h⟩ := passes_bind h
    obtain ⟨rfl, rfl⟩ := passes_pure h
    exact counts_addResult listed added
  · obtain ⟨complete, x, added, h⟩ := passes_bind h
    obtain ⟨rfl, rfl⟩ := passes_pure h
    exact counts_addResult listed added

/-- Neither the object itself nor a receiver has a default value. -/
theorem default?_of_begins {start : Signature} (h : start.Begins setup) :
    ∀ p ∈ start.parameters, p.default? = none := by
  have none : ∀ p ∈ Signature.empty.parameters, p.default? = none := nofun
  cases h with
  | empty => exact none
  | method h =>
    unfold methodSignature at h
    rw [yields_get] at h
    obtain ⟨rfl, _⟩ := yields_pure.1 h
    exact TypeTable.default?_getD_addParameter? _ _ none
  | receiver h =>
    have h := h.passes
    unfold receiver at h
    obtain ⟨⟨⟨⟩, s₁, h₁⟩, _, h⟩ := passes_eat_bind h
    obtain ⟨⟨name, s₂, h₂⟩, _, h⟩ := passes_eatName_bind h
    obtain ⟨⟨⟨⟩, s₃, h₃⟩, _, h⟩ := passes_eat_bind h
    obtain ⟨⟨type, s₄, h₄⟩, u, _, h⟩ := passes_bind h
    dsimp only at h
    rw [passes_get] at h
    split at h
    · exact absurd h not_passes_fail
    · obtain ⟨⟨⟨⟩, s₅, h₅⟩, _, h⟩ := passes_eat_bind h
      obtain ⟨rfl, _⟩ := passes_pure h
      refine TypeTable.default?_getD_addParameter? name type ?_
      exact none

/-- A signature counts the default values at the end of its declared parameters. That is the end of
all its parameters, unless there are default values before the hidden parameter for the result. -/
theorem defaults_signature {start : Signature} {past : Past stream Signature}
    (begins : start.Begins setup) (h : (signature start stream).Yields setup s past t) :
    past.value.CountsDefaults t.types ∧
      (past.value.defaults = trailingDefaults past.value.parameters ↔
        past.value.hidesResult t.types = false ∨ past.value.defaults = 0) := by
  have plain := trailingDefaults_of_none (default?_of_begins begins)
  have counts := counts_signature plain h.passes
  exact ⟨counts, counts.eq_trailingDefaults_iff⟩

/-- The value of a step that succeeds, and the session that it leaves behind. -/
def outcome? {α : Type} (action : Action α) (setup : Setup) (s : Session) : Option (α × Session) :=
  match action.run setup s with
  | .ok value t => some (value, t)
  | .error .. => none

theorem yields_of_outcome? {α : Type} {action : Action α} {p : α × Session}
    (h : p ∈ action.outcome? setup s) : action.Yields setup s p.1 p.2 := by
  unfold outcome? at h
  split at h
  · rename_i value t result
    cases h
    exact result
  · cases h

end Action

/-- The words `(x: int = 1): str`. -/
def hiddenResultStream : Stream where
  ahead := [.symbol .openParen, .ident "x", .symbol .colon, .ident "int", .symbol .assign, .int 1,
    .symbol .closeParen, .symbol .colon, .symbol .strWord].map .first
  finish := ⟨.origin, .origin⟩
  index := 0

theorem hiddenResult_defaults : ∃ past t,
    Signature.Begins namesakeProgram .empty ∧
      (Action.signature .empty hiddenResultStream).Yields namesakeProgram
        (.initial .standard) past t ∧
      past.value.CountsDefaults t.types ∧
      (past.value.defaults = trailingDefaults past.value.parameters ↔
        past.value.hidesResult t.types = false ∨ past.value.defaults = 0) := by
  have checked : ∃ p ∈ (Action.signature .empty hiddenResultStream).outcome? namesakeProgram
      (.initial .standard), p.1.value.defaults = 1 := by decide +kernel
  obtain ⟨⟨past, t⟩, read, _⟩ := checked
  have read := Action.yields_of_outcome? read
  exact ⟨past, t, .empty, read, Action.defaults_signature .empty read⟩

/-- There is one default value, but the hidden parameter is the last. -/
theorem hiddenResult_trailing : ∃ past t,
    (Action.signature .empty hiddenResultStream).Yields namesakeProgram
        (.initial .standard) past t ∧
      past.value.defaults = 1 ∧ trailingDefaults past.value.parameters = 0 := by
  have checked : ∃ p ∈ (Action.signature .empty hiddenResultStream).outcome? namesakeProgram
      (.initial .standard), p.1.value.defaults = 1 ∧ trailingDefaults p.1.value.parameters = 0 := by
    decide +kernel
  obtain ⟨⟨past, t⟩, read, counted, trailing⟩ := checked
  exact ⟨past, t, Action.yields_of_outcome? read, counted, trailing⟩

end FrontEnd
