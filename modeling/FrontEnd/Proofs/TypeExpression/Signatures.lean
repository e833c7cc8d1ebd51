import FrontEnd.Proofs.TypeExpression.Defaults
import FrontEnd.Proofs.TypeExpression.Offsets
import FrontEnd.Proofs.TypeExpression.Writes
import FrontEnd.Proofs.Expression.Folding

/-!
The parameters of a signature. They are those that stand in front of it, the names of all its groups
in the order of the words, and a pointer for a structured result; each lies where those before it
end.
-/

namespace FrontEnd

/-- Names with a common type between commas, and the default value behind them. -/
structure ParameterGroup where
  names : List String
  type : TypeId
  default? : Option Constant

/-- A parameter without its place. -/
def Parameter.item (p : Parameter) : String × TypeId × Option Constant :=
  (p.name, p.type, p.default?)

/-- The parameters that a group declares, in their order. -/
def ParameterGroup.items (g : ParameterGroup) : List (String × TypeId × Option Constant) :=
  g.names.map fun name => (name, g.type, g.default?)

/-! ### What is read -/

section Reading

variable (setup : Setup) (root : String)

/-- In a compilation, the words up to `rest` are read as a type expression that stands for `type`. A
comma or the sign `=` belongs to it only inside of brackets. -/
structure ReadsType (stream : Stream) (s : Session) (type : TypeId) (rest : Stream) (t : Session) :
    Prop where
  read : ∃ past : Past stream TypeId,
    (Action.typeExpression stream).PassesIn setup (history setup root) s past t ∧
      past.value = type ∧ past.stream = rest
  words : Stream.Passes Symbol.separators stream rest

/-- Behind the type of a group stands nothing, or the sign `=` and an expression. The value of the
expression is not structured; it is a real if the parameter is one, and of a type that can be
assigned to the parameter. -/
inductive ReadsDefault (type : TypeId) :
    Stream → Session → Option Constant → Stream → Session → Prop
  | missing {stream : Stream} {s : Session} (behind : stream.skip? .assign = none) :
      ReadsDefault type stream s none stream s
  | given {stream rest : Stream} {s t : Session} {sign : Shorter stream} {tree : Expression}
      {source : TypeId} {value default : Constant} (behind : stream.skip? .assign = some sign)
      (stands : tree.Stands s.isModule sign.stream rest)
      (folds : (tree.evaluate .constant).Yields setup s ⟨source, some value⟩ t)
      (plain : t.types.isStructured source = false)
      (becomes : (if t.types.isReal type then value.toReal? else some value) = some default)
      (compatible : t.types.compatible type (t.types.widenConstant type value source).2 = true) :
      ReadsDefault type stream s (some default) rest t

/-- The words of a group are names, a colon, a type and perhaps a default value. -/
inductive ReadsGroup : Stream → Session → ParameterGroup → Stream → Session → Prop
  | group {stream listed typed rest : Stream} {s t u : Session} {names : List String}
      {words : List Token} {colon : Shorter listed} {type : TypeId} {default? : Option Constant}
      (named : NamesWrittenAs names words) (shown : stream.Shows words listed)
      (behind : listed.skip? .colon = some colon)
      (types : ReadsType setup root colon.stream s type typed t)
      (defaults : ReadsDefault setup type typed t default? rest u) :
      ReadsGroup stream s ⟨names, type, default?⟩ rest u

/-- Groups between commas. -/
inductive ReadsGroups : Stream → Session → List ParameterGroup → Stream → Session → Prop
  | last {stream rest : Stream} {s t : Session} {group : ParameterGroup}
      (only : ReadsGroup setup root stream s group rest t) (ends : rest.skip? .comma = none) :
      ReadsGroups stream s [group] rest t
  | cons {stream middle rest : Stream} {s t u : Session} {group : ParameterGroup}
      {groups : List ParameterGroup} {comma : Shorter middle}
      (first : ReadsGroup setup root stream s group middle t)
      (behind : middle.skip? .comma = some comma)
      (others : ReadsGroups comma.stream t groups rest u) :
      ReadsGroups stream s (group :: groups) rest u

/-- What stands between the parentheses: nothing that begins with a name, or groups. -/
inductive ReadsParameters : Stream → Session → List ParameterGroup → Stream → Session → Prop
  | none {stream : Stream} {s : Session} (unnamed : stream.ident? = none) :
      ReadsParameters stream s [] stream s
  | some {stream rest : Stream} {s t : Session} {groups : List ParameterGroup}
      (reads : ReadsGroups setup root stream s groups rest t) :
      ReadsParameters stream s groups rest t

/-- Without a colon behind it a signature has the result type `void`. -/
inductive ReadsResult : Stream → Session → TypeId → Stream → Session → Prop
  | none {stream : Stream} {s : Session} (behind : stream.skip? .colon = none) :
      ReadsResult stream s .void stream s
  | some {stream rest : Stream} {s t : Session} {colon : Shorter stream} {type : TypeId}
      (behind : stream.skip? .colon = some colon)
      (types : ReadsType setup root colon.stream s type rest t) :
      ReadsResult stream s type rest t

/-- The words of a signature are its groups in parentheses and perhaps a result type. -/
inductive ReadsSignature :
    Stream → Session → List ParameterGroup → TypeId → Stream → Session → Prop
  | signature {stream inside rest : Stream} {s t u : Session} {groups : List ParameterGroup}
      {result : TypeId} {first : Shorter stream} {last : Shorter inside}
      (opens : stream.skip? .openParen = some first)
      (parameters : ReadsParameters setup root first.stream s groups inside t)
      (closes : inside.skip? .closeParen = some last)
      (results : ReadsResult setup root last.stream t result rest u) :
      ReadsSignature stream s groups result rest u

/-- The words of a receiver are a name and the type of a pointer to something structured. -/
inductive ReadsReceiver :
    Stream → Session → String → TypeId → TypeId → Stream → Session → Prop
  | receiver {stream typed : Stream} {s t : Session} {first : Shorter stream}
      {name : Past first.stream String} {colon : Shorter name.stream} {type base : TypeId}
      {last : Shorter typed} (opens : stream.skip? .openParen = some first)
      (named : first.stream.name? = some name) (behind : name.stream.skip? .colon = some colon)
      (types : ReadsType setup root colon.stream s type typed t)
      (points : t.types.kind type = .pointer base)
      (structured : t.types.isStructured base = true)
      (closes : typed.skip? .closeParen = some last) :
      ReadsReceiver stream s name.value type base last.stream t

end Reading

/-! ### What becomes of it -/

/-- A structured result adds a pointer to it to the parameters. -/
inductive HidesResult (t : TypeTable) (result : TypeId) :
    List (String × TypeId × Option Constant) → Prop
  | plain (plain : t.isStructured result = false) : HidesResult t result []
  | hidden {pointer : TypeId} (structured : t.isStructured result = true)
      (points : t.kind pointer = .pointer result) :
      HidesResult t result [(resultName, pointer, none)]

namespace Signature

/-- These are the parameters of a signature, each of which lies behind the bytes of those before
it. -/
structure LaysOut (t : TypeTable) (items : List (String × TypeId × Option Constant))
    (c : Signature) : Prop where
  items : c.parameters.map Parameter.item = items
  sized : ∀ p ∈ c.parameters, ∃ n, t.size? p.type = some n
  offset : ∀ (k : Nat) p, c.parameters[k]? = some p →
    p.offset.toInt = ((c.parameters.take k).map fun q => t.bytes q.type).sum
  total : c.parametersSize.toInt = (c.parameters.map fun p => t.bytes p.type).sum

/-- A parameter is added behind the others if its end is a word. Where it is not, the parameter is
refused. Nothing else is changed. -/
inductive Adds (s : Session) (c : Signature) (name : String) (type : TypeId)
    (default? : Option Constant) (span : Span) : EStateM.Result Diagnostic Session Signature → Prop
  | fits {n total : Int64} (takes : s.types.size? type = some n)
      (ends : total.toInt = c.parametersSize.toInt + n.toInt) :
      Adds s c name type default? span
        (.ok { c with
          parameters := c.parameters ++ [⟨name, type, c.parametersSize, default?⟩]
          parametersSize := total } s)
  | refused {d : Diagnostic} (cause : d.cause = .parametersTooLarge) (place : d.span = span)
      (overflows : ∀ n, s.types.size? type = some n →
        ¬ Word.Fits (c.parametersSize.toInt + n.toInt)) :
      Adds s c name type default? span (.error d s)

/-- A signature whose words begin with `stream` has been read behind some first parameters. -/
def Completes (setup : Setup) (root : String)
    (opening : List (String × TypeId × Option Constant)) (stream : Stream) (s : Session)
    (rest : Stream) (t : Session) (c : Signature) : Prop :=
  ∃ groups result hidden u, ReadsSignature setup root stream s groups result rest u ∧
    HidesResult t.types result hidden ∧ c.results = [result] ∧
    c.LaysOut t.types (opening ++ groups.flatMap ParameterGroup.items ++ hidden)

end Signature

namespace TypeTable

variable {t : TypeTable} {type : TypeId} {default? : Option Constant}

/-- Variables in a row end behind all their bytes. -/
theorem toInt_ends? {first last : Int64} {types : List TypeId}
    (h : t.ends? first types = some last) :
    last.toInt = first.toInt + (types.map t.bytes).sum := by
  induction types generalizing first with
  | nil =>
    cases h
    exact (Int.add_zero _).symm
  | cons id types ih =>
    rw [ends?, List.foldlM_cons] at h
    obtain ⟨next, step, more⟩ := Option.bind_eq_some_iff.1 h
    obtain ⟨size, takes, fits⟩ := Option.bind_eq_some_iff.1 step
    rw [ih more, Word.add?_eq_some_iff.1 fits, List.map_cons, List.sum_cons, bytes_eq takes,
      Int.add_assoc]

/-- Only types with sizes lie in a row. -/
theorem size?_of_ends? {first last : Int64} {types : List TypeId}
    (h : t.ends? first types = some last) : ∀ id ∈ types, ∃ n, t.size? id = some n := by
  induction types generalizing first with
  | nil => nofun
  | cons id types ih =>
    rw [ends?, List.foldlM_cons] at h
    obtain ⟨next, step, more⟩ := Option.bind_eq_some_iff.1 h
    obtain ⟨size, takes, _⟩ := Option.bind_eq_some_iff.1 step
    rintro other (_ | ⟨_, later⟩)
    · exact ⟨size, takes⟩
    · exact ih more other later

theorem kind_of_pointerBase? {id base : TypeId} (h : t.pointerBase? id = some base) :
    t.kind id = .pointer base := by
  unfold pointerBase? at h
  split at h
  · rename_i points
    cases h
    exact points
  · cases h

theorem items_addParameter? {c c' : Signature} {name : String}
    (added : t.addParameter? c name type default? = some c') :
    c'.parameters.map Parameter.item =
      c.parameters.map Parameter.item ++ [(name, type, default?)] := by
  obtain ⟨total, rfl⟩ := addParameter?_eq_some added
  exact List.map_append

theorem items_addParameters {c c' : Signature} {names : List DeclaredName}
    (added : names.foldlM (fun c d => t.addParameter? c d.name type default?) c = some c') :
    c'.parameters.map Parameter.item = c.parameters.map Parameter.item ++
      ParameterGroup.items ⟨names.map (·.name), type, default?⟩ := by
  induction names generalizing c with
  | nil =>
    cases added
    exact (List.append_nil _).symm
  | cons d names ih =>
    rw [List.foldlM_cons] at added
    obtain ⟨next, first, more⟩ := Option.bind_eq_some_iff.1 added
    rw [ih more, items_addParameter? first, List.append_assoc]
    rfl

end TypeTable

/-- What lies one behind the other lies behind the bytes of those before it. -/
theorem Signature.Offsets.laysOut {c : Signature} {t : TypeTable} (h : c.Offsets t) :
    c.LaysOut t (c.parameters.map Parameter.item) where
  items := rfl
  sized p hp := TypeTable.size?_of_ends? h.total p.type (List.mem_map_of_mem hp)
  offset k p hp := by
    rw [TypeTable.toInt_ends? (h.offset k p hp), List.map_map]
    exact Int.zero_add _
  total := by
    rw [TypeTable.toInt_ends? h.total, List.map_map]
    exact Int.zero_add _

namespace DeclaredName

/-- Names without export marks are words between commas. -/
theorem writtenAs_of_readList {capacity : Nat} {stream : Stream}
    {past : Past stream (List DeclaredName)} (h : readList capacity stream = .ok past)
    (plain : ∀ d ∈ past.value, d.exported = false) :
    ∃ words, NamesWrittenAs (past.value.map (·.name)) words ∧ stream.Shows words past.stream := by
  induction capacity generalizing stream with
  | zero =>
    obtain ⟨first, here, ⟨only, stops⟩ | ⟨_, _, _, _, ⟨⟩, _⟩⟩ := readList_cases h
    rw [only] at plain ⊢
    rw [stops]
    exact ⟨_, .single _ _, shows_read here (plain _ List.mem_cons_self)⟩
  | succ capacity ih =>
    obtain ⟨first, here, ⟨only, stops⟩ | ⟨room, comma, more, found, ⟨⟩, others, all, stops⟩⟩ :=
      readList_cases h
    · rw [only] at plain ⊢
      rw [stops]
      exact ⟨_, .single _ _, shows_read here (plain _ List.mem_cons_self)⟩
    · rw [all] at plain ⊢
      rw [stops]
      obtain ⟨words, written, shown⟩ := ih others fun d hd => plain d (List.mem_cons_of_mem _ hd)
      have name := shows_read here (plain _ List.mem_cons_self)
      obtain ⟨span, separated⟩ := Stream.shows_of_skip? found
      exact ⟨_, .cons _ _ span written, name.trans (separated.trans shown)⟩

end DeclaredName

namespace Action

variable {setup : Setup} {root : String} {s t : Session} {stream : Stream}

theorem reads_type {past : Past stream TypeId}
    (h : (typeExpression stream).PassesIn setup (history setup root) s past t) :
    ReadsType setup root stream s past.value past.stream t :=
  ⟨⟨past, h, rfl, rfl⟩, (Ensures.of_run_ok (defines_typeExpression stream s) h.yields).passes⟩

/-- Where a real is expected, a number is given as a real. -/
theorem becomes_widenConstant {type source : TypeId} {value : Constant}
    (kind : value.HasKind (t.types.kind source))
    (compatible : t.types.compatible type (t.types.widenConstant type value source).2 = true) :
    (if t.types.isReal type then value.toReal? else some value) =
      some (t.types.widenConstant type value source).1 := by
  unfold TypeTable.widenConstant TypeTable.widens at compatible ⊢
  cases real : t.types.isReal type with
  | false => rfl
  | true =>
    cases integer : t.types.isInteger source with
    | true =>
      obtain ⟨n, rfl⟩ := (TypeTable.hasKind_integer integer).1 kind
      rfl
    | false =>
      rw [real, integer] at compatible
      have kind := TypeTable.hasKind_of_compatible compatible kind
      obtain ⟨x, rfl⟩ := (TypeTable.hasKind_real real).1 kind
      rfl

theorem reads_defaultValue {names defaults : Nat} {type : TypeId}
    {rest : Rest stream (Option Constant)}
    (h : (defaultValue names type defaults stream).PassesIn setup (history setup root) s rest t) :
    ReadsDefault setup type stream s rest.value rest.stream t := by
  have valid := h.valid
  unfold defaultValue at h
  simp only [fail_bind] at h
  split at h
  · rename_i s₁ h₁ sign
    split at h
    · exact absurd h not_passes_fail
    obtain ⟨read, u, folded, h⟩ := passes_bind h
    obtain ⟨folds, behind⟩ := yields_constantExpression.1 folded.yields
    obtain ⟨⟨value, source⟩, s₂, h₂⟩ := read
    cases behind
    rw [passes_get] at h
    split at h
    · exact absurd h not_passes_fail
    rename_i structured
    have plain : u.types.isStructured source = false := Bool.eq_false_iff.2 structured
    obtain ⟨_, w, checked, h⟩ := passes_bind h
    obtain ⟨compatible, rfl⟩ := yields_checkCompatible.1 checked.yields
    obtain ⟨rfl, rfl⟩ := passes_pure h
    have kind := (evaluates_of_yields valid.grounded folds).fits.constant value rfl
    have whole := Ensures.of_run_ok (writes_evaluate (s.treeAt s₁)) folds
    exact .given sign (Expression.stands_read s.isModule s₁ whole) folds plain
      (becomes_widenConstant kind compatible) compatible
  · rename_i missing
    split at h
    · exact absurd h not_passes_fail
    obtain ⟨rfl, rfl⟩ := passes_pure h
    exact .missing missing

/-- A parameter has no export mark. -/
theorem plain_of_addParameters {run : List Session} {type : TypeId} {default? : Option Constant}
    {start complete : Signature} {names : List DeclaredName}
    (h : (names.foldlM (addParameter type default?) start).PassesIn setup run s complete t) :
    ∀ d ∈ names, d.exported = false := by
  induction names generalizing start s with
  | nil => nofun
  | cons d names ih =>
    rw [List.foldlM_cons] at h
    obtain ⟨next, u, first, more⟩ := passes_bind h
    rintro other (_ | ⟨_, later⟩)
    · unfold addParameter at first
      simp only [fail_bind] at first
      split at first
      · exact absurd first not_passes_fail
      · rename_i plain
        simpa using plain
    · exact ih more other later

theorem reads_group {capacity : Nat} {default? : Option Constant} {rest : Stream} {u : Session}
    {past : Past stream (List DeclaredName × TypeId)}
    (h : (typedNames capacity stream).PassesIn setup (history setup root) s past t)
    (plain : ∀ d ∈ past.value.1, d.exported = false)
    (defaults : ReadsDefault setup past.value.2 past.stream t default? rest u) :
    ReadsGroup setup root stream s ⟨past.value.1.map (·.name), past.value.2, default?⟩ rest u := by
  rw [typedNames] at h
  obtain ⟨names, listed, h⟩ := passes_ofExcept_bind h
  obtain ⟨colon, behind, h⟩ := passes_eat_bind h
  obtain ⟨typed, u, read, h⟩ := passes_bind h
  obtain ⟨rfl, rfl⟩ := passes_pure h
  obtain ⟨words, written, shown⟩ := DeclaredName.writtenAs_of_readList listed plain
  exact .group written shown behind (reads_type read) defaults

/-- Groups of parameters are read one after the other, and their names are added in this order. -/
theorem reads_parameterGroups {start : Signature} {defaults : Nat} (stream : Stream)
    {s t : Session} {past : Past stream (Signature × Nat)}
    (h : (parameterGroups start defaults stream).PassesIn setup (history setup root) s past t) :
    ∃ groups, ReadsGroups setup root stream s groups past.stream t ∧
      past.value.1.parameters.map Parameter.item =
        start.parameters.map Parameter.item ++ groups.flatMap ParameterGroup.items := by
  rw [parameterGroups] at h
  obtain ⟨⟨⟨names, type⟩, s₁, h₁⟩, u, read, h⟩ := passes_bind h
  obtain ⟨⟨default?, s₂, h₂⟩, w, defaulted, h⟩ := passes_bind h
  obtain ⟨_, _, adding, _⟩ := passes_bind h
  have plain := plain_of_addParameters adding
  obtain ⟨extended, added, h⟩ := passes_addParameters_bind h
  have items := TypeTable.items_addParameters added
  have group := reads_group read plain (reads_defaultValue defaulted)
  dsimp only at h
  split at h
  · rename_i comma found
    obtain ⟨_, s₃, h₃⟩ := comma
    have hlt := ((h₃.of_within h₂).trans h₁).2
    obtain ⟨_, y, more, h⟩ := passes_bind h
    obtain ⟨rfl, rfl⟩ := passes_pure h
    obtain ⟨groups, reads, listed⟩ := reads_parameterGroups s₃ more
    refine ⟨_ :: groups, .cons group found reads, ?_⟩
    rw [List.flatMap_cons, ← List.append_assoc, ← items]
    exact listed
  · rename_i ends
    obtain ⟨rfl, rfl⟩ := passes_pure h
    refine ⟨[_], .last group ends, ?_⟩
    rw [List.flatMap_singleton]
    exact items
termination_by stream.size

theorem reads_optionalParameters {start : Signature} {rest : Rest stream (Signature × Nat)}
    (h : (optionalParameters start stream).PassesIn setup (history setup root) s rest t) :
    ∃ groups, ReadsParameters setup root stream s groups rest.stream t ∧
      rest.value.1.parameters.map Parameter.item =
        start.parameters.map Parameter.item ++ groups.flatMap ParameterGroup.items := by
  rw [optionalParameters] at h
  split at h
  · obtain ⟨_, u, read, h⟩ := passes_bind h
    obtain ⟨rfl, rfl⟩ := passes_pure h
    obtain ⟨groups, reads, items⟩ := reads_parameterGroups stream read
    exact ⟨groups, .some reads, items⟩
  · rename_i unnamed
    obtain ⟨rfl, rfl⟩ := passes_pure h
    exact ⟨[], .none (Option.not_isSome_iff_eq_none.1 unnamed), (List.append_nil _).symm⟩

/-- The pointer for a structured result is the last parameter. -/
theorem hides_addResult {listed complete : Signature} {type : TypeId} {span : Span}
    (h : (addResult listed type span).PassesIn setup (history setup root) s complete t) :
    complete.results = [type] ∧ ∃ hidden, HidesResult t.types type hidden ∧
      complete.parameters.map Parameter.item = listed.parameters.map Parameter.item ++ hidden := by
  unfold addResult at h
  rw [passes_get] at h
  split at h
  · rename_i plain
    obtain ⟨rfl, rfl⟩ := passes_pure h
    exact ⟨rfl, [], .plain (by simpa using plain), (List.append_nil _).symm⟩
  rename_i structured
  obtain ⟨pointer, u, pointed, h⟩ := passes_bind h
  rw [passes_get] at h
  split at h
  · rename_i added
    obtain ⟨rfl, rfl⟩ := passes_pure h
    have structured := isStructured_of_addType pointed.yields (by simpa using structured)
    obtain ⟨rfl, rfl⟩ := yields_addType pointed.yields
    have items := TypeTable.items_addParameter? added
    obtain ⟨total, rfl⟩ := TypeTable.addParameter?_eq_some added
    exact ⟨rfl, _, .hidden structured (s.types.kind_add_self _), items⟩
  · exact absurd h not_passes_fail

/-- Behind the parameters in front of it, a signature has those that its words say. -/
theorem completes_signature {start : Signature} {past : Past stream Signature}
    (offsets : start.Offsets s.types)
    (h : (signature start stream).PassesIn setup (history setup root) s past t) :
    past.value.Completes setup root (start.parameters.map Parameter.item) stream s past.stream
      t := by
  have laid := (offsets_signature offsets h).laysOut
  rw [signature] at h
  obtain ⟨first, opens, h⟩ := passes_eat_bind h
  obtain ⟨⟨⟨listed, defaults⟩, s₂, h₂⟩, u, read, h⟩ := passes_bind h
  obtain ⟨last, closes, h⟩ := passes_eat_bind h
  obtain ⟨groups, parameters, items⟩ := reads_optionalParameters read
  dsimp only at h
  split at h
  · rename_i colon behind
    obtain ⟨⟨result, s₅, h₅⟩, w, typed, h⟩ := passes_bind h
    obtain ⟨complete, x, added, h⟩ := passes_bind h
    obtain ⟨rfl, rfl⟩ := passes_pure h
    obtain ⟨results, hidden, hides, all⟩ := hides_addResult added
    have words := ReadsSignature.signature opens parameters closes (.some behind (reads_type typed))
    refine ⟨groups, result, hidden, w, words, hides, results, ?_⟩
    rw [← items, ← all]
    exact laid
  · rename_i behind
    obtain ⟨complete, x, added, h⟩ := passes_bind h
    obtain ⟨rfl, rfl⟩ := passes_pure h
    obtain ⟨results, hidden, hides, all⟩ := hides_addResult added
    have words := ReadsSignature.signature opens parameters closes (.none behind)
    refine ⟨groups, .void, hidden, u, words, hides, results, ?_⟩
    rw [← items, ← all]
    exact laid

/-! ### What stands in front -/

/-- A pointer fits into a signature without parameters. -/
theorem addParameter?_pointer {type base : TypeId} {c : Signature} (hs : s ∈ history setup root)
    (points : s.types.kind type = .pointer base) (room : c.parametersSize = 0) (name : String) :
    ∃ c', s.types.addParameter? c name type none = some c' := by
  have takes : s.types.size? type = some pointerSize := by
    rw [(laidOut_of_mem_history hs).founded.size?_eq, TypeTable.sizeFrom, points]
  have fits : Word.add? 0 pointerSize = some pointerSize := by decide
  unfold TypeTable.addParameter?
  simp only [Option.bind_eq_bind, takes, room, fits, Option.bind_some]
  exact ⟨_, rfl⟩

/-- A pointer in front is the first parameter. -/
theorem items_pointer {type base : TypeId} {c : Signature} (hs : s ∈ history setup root)
    (points : s.types.kind type = .pointer base) (none : c.parameters = [])
    (room : c.parametersSize = 0) (name : String) :
    ((s.types.addParameter? c name type .none).getD c).parameters.map Parameter.item =
      [(name, type, .none)] := by
  obtain ⟨c', added⟩ := addParameter?_pointer hs points room name
  rw [added, Option.getD_some, TypeTable.items_addParameter? added, none]
  rfl

/-- A method of an interface begins with the object itself. -/
theorem opens_method {start : Signature} (hs : s ∈ history setup root)
    (h : methodSignature.Yields setup s start t) :
    t = s ∧ start.Offsets s.types ∧
      start.parameters.map Parameter.item = [(selfName, .anyPointer, none)] := by
  unfold methodSignature at h
  rw [yields_get] at h
  obtain ⟨rfl, rfl⟩ := yields_pure.1 h
  obtain ⟨solid, points⟩ := anyPointer_solid (valid_of_mem_history hs)
  exact ⟨rfl, .addParameter?_getD (.of_nil rfl rfl) selfName solid.usable.has,
    items_pointer hs points rfl rfl selfName⟩

theorem reads_receiver {past : Past stream (TypeId × Signature)}
    (h : (receiver stream).PassesIn setup (history setup root) s past t) :
    ∃ name type, ReadsReceiver setup root stream s name type past.value.1 past.stream t ∧
      past.value.2.parameters.map Parameter.item = [(name, type, none)] := by
  unfold receiver at h
  obtain ⟨first, opens, h⟩ := passes_eat_bind h
  obtain ⟨name, named, h⟩ := passes_eatName_bind h
  obtain ⟨colon, behind, h⟩ := passes_eat_bind h
  obtain ⟨⟨type, s₄, h₄⟩, u, read, h⟩ := passes_bind h
  dsimp only at h
  rw [passes_get] at h
  split at h
  · exact absurd h not_passes_fail
  rename_i base found
  obtain ⟨last, closes, h⟩ := passes_eat_bind h
  obtain ⟨rfl, rfl⟩ := passes_pure h
  obtain ⟨points, structured⟩ := Option.filter_eq_some_iff.1 found
  have points := TypeTable.kind_of_pointerBase? points
  have words : ReadsReceiver setup root stream s name.value type base last.stream t :=
    .receiver opens named behind (reads_type read) points structured closes
  exact ⟨name.value, type, words, items_pointer read.last_mem points rfl rfl name.value⟩

/-! ### Room for parameters -/

theorem run_addParameter? (s : Session) (c : Signature) (name : String) (type : TypeId)
    (default? : Option Constant) (span : Span) :
    c.Adds s name type default? span
      (Action.run (match s.types.addParameter? c name type default? with
        | some extended => pure extended
        | none => fail .parametersTooLarge span) setup s) := by
  unfold TypeTable.addParameter?
  cases takes : s.types.size? type with
  | none => exact .refused rfl rfl (by simp [takes])
  | some n =>
    simp only [Option.bind_eq_bind, Option.bind_some]
    cases ends : Word.add? c.parametersSize n with
    | none =>
      refine .refused rfl rfl fun size same => ?_
      obtain rfl : n = size := Option.some_inj.1 (takes.symm.trans same)
      exact Word.add?_eq_none_iff.1 ends
    | some total => exact .fits takes (Word.add?_eq_some_iff.1 ends)

theorem run_addParameter (s : Session) (c : Signature) (type : TypeId) (default? : Option Constant)
    {d : DeclaredName} (plain : d.exported = false) :
    c.Adds s d.name type default? d.span ((addParameter type default? c d).run setup s) := by
  unfold addParameter
  simp only [fail_bind]
  rw [if_neg (by rw [plain]; exact Bool.false_ne_true), run_get]
  exact run_addParameter? s c d.name type default? d.span

/-- The pointer to a structured result is a new type. -/
theorem run_addResult (s : Session) (c : Signature) {type : TypeId}
    (structured : s.types.isStructured type = true) (span : Span) :
    { c with results := [type] }.Adds { s with types := (s.types.add (.pointer type)).2 }
      resultName ⟨s.types.size⟩ none span ((addResult c type span).run setup s) := by
  have pointed : (addType (.pointer type)).Yields setup s ⟨s.types.size⟩
      { s with types := (s.types.add (.pointer type)).2 } := rfl
  unfold addResult
  rw [run_get, if_neg (by rw [structured]; exact Bool.false_ne_true), pointed.run_bind, run_get]
  exact run_addParameter? _ { c with results := [type] } resultName ⟨s.types.size⟩ none span

/-! ### The parameters of a signature -/

/-- The parameters of a signature are the receiver or the object itself, if there is one, then the
names of all groups in the order of their words, then a pointer to the result if that is structured.
Each lies where those before it end, a signature has one result, and a default value is what its
expression gives. A parameter for which there is no room is refused, and its signature stays as it
was. -/
theorem signature_parameters {start : Signature} {past : Past stream Signature}
    (h : (signature start stream).PassesIn setup (history setup root) s past t) :
    (start = .empty → past.value.Completes setup root [] stream s past.stream t) ∧
    (methodSignature.Yields setup s start s →
      past.value.Completes setup root [(selfName, .anyPointer, none)] stream s past.stream t) ∧
    (∀ (before : Session) (front : Stream) (received : Past front (TypeId × Signature)),
      (receiver front).PassesIn setup (history setup root) before received s →
      start = received.value.2 → ∃ name type,
        ReadsReceiver setup root front before name type received.value.1 received.stream s ∧
        past.value.Completes setup root [(name, type, none)] stream s past.stream t) ∧
    (∀ (u : Session) (c : Signature) (type : TypeId) (default? : Option Constant)
      (d : DeclaredName), d.exported = false →
      c.Adds u d.name type default? d.span ((addParameter type default? c d).run setup u)) ∧
    (∀ (u : Session) (c : Signature) (type : TypeId) (span : Span),
      u.types.isStructured type = true →
      { c with results := [type] }.Adds { u with types := (u.types.add (.pointer type)).2 }
        resultName ⟨u.types.size⟩ none span ((addResult c type span).run setup u)) := by
  refine ⟨fun none => ?_, fun method => ?_, fun before front received read same => ?_,
    fun u c type default? _ plain => run_addParameter u c type default? plain,
    fun u c _ span structured => run_addResult u c structured span⟩
  · subst none
    exact completes_signature (.of_nil rfl rfl) h
  · obtain ⟨_, offsets, items⟩ := opens_method h.first_mem method
    rw [← items]
    exact completes_signature offsets h
  · subst same
    obtain ⟨name, type, words, items⟩ := reads_receiver read
    refine ⟨name, type, words, ?_⟩
    rw [← items]
    exact completes_signature (offsets_receiver read) h

end Action

/-- The words `(x, y: int, z: real = 1)`. -/
def groupsStream : Stream where
  ahead := [.symbol .openParen, .ident "x", .symbol .comma, .ident "y", .symbol .colon,
    .ident "int", .symbol .comma, .ident "z", .symbol .colon, .ident "real", .symbol .assign,
    .int 1, .symbol .closeParen].map .first
  finish := ⟨.origin, .origin⟩
  index := 0

theorem groupsStream_parameters : ∃ start past t,
    Action.methodSignature.Yields namesakeProgram (.initial .standard) start (.initial .standard) ∧
      (Action.signature start groupsStream).PassesIn namesakeProgram
        (history namesakeProgram "main.um") (.initial .standard) past t ∧
      past.value.parameters.map (·.name) = [selfName, "x", "y", "z"] ∧
      past.value.Completes namesakeProgram "main.um" [(selfName, .anyPointer, none)] groupsStream
        (.initial .standard) past.stream t := by
  have begins : ∃ p ∈ Action.methodSignature.outcome? namesakeProgram (.initial .standard),
      ∃ q ∈ (Action.signature p.1 groupsStream).outcome? namesakeProgram (.initial .standard),
        q.1.value.parameters.map (·.name) = [selfName, "x", "y", "z"] ∧
        ((Action.signature p.1 groupsStream).trace namesakeProgram (.initial .standard)).isEmpty =
          true := by
    decide +kernel
  obtain ⟨⟨start, u⟩, method, ⟨past, t⟩, read, names, written⟩ := begins
  have method := Action.yields_of_outcome? method
  obtain rfl : u = .initial .standard := by
    unfold Action.methodSignature at method
    rw [Action.yields_get] at method
    exact (Action.yields_pure.1 method).2
  have passes : (Action.signature start groupsStream).PassesIn namesakeProgram
      (history namesakeProgram "main.um") (.initial .standard) past t := by
    refine ⟨Action.yields_of_outcome? read, ?_⟩
    rw [List.isEmpty_iff.1 written]
    exact (List.prefix_append [_] _).isInfix
  exact ⟨start, past, t, method, passes, names,
    (Action.signature_parameters passes).2.1 method⟩

end FrontEnd
