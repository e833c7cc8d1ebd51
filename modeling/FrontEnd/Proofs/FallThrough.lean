import FrontEnd.Proofs.Returns
import FrontEnd.Proofs.Statement.Proceeds
import FrontEnd.Proofs.Storage

/-!
Where the body of a function is left. Its code is carried out one instruction after the other until
it returns, and behind its statements there is always a return. Control comes to that one unless a
return statement is among the words of the body; so a function of any type can come to its end without
a value, although each of its return statements has one.
-/

namespace FrontEnd

/-! ### Control -/

namespace Code

/-- Control that starts at the address `first` comes to another one: it goes on behind all
instructions before. -/
inductive Reaches (c : Code) (first : Nat) : Nat → Prop
  | start : Reaches c first first
  | next {x : Nat} {i : Instruction} (reached : Reaches c first x)
      (here : c.instructions[x]? = some i) (goesOn : i.goesOn = true) : Reaches c first (x + 1)

variable {c : Code} {first x y : Nat} {code : List Instruction} {last : Instruction}

theorem Reaches.goesOn (h : c.Reaches first y) (hx : first ≤ x) (hy : x < y) :
    ∃ i, c.instructions[x]? = some i ∧ i.goesOn = true := by
  induction h with
  | start => omega
  | @next y i _ here goesOn ih =>
    rcases Nat.lt_or_eq_of_le (Nat.le_of_lt_succ hy) with before | rfl
    · exact ih before
    · exact ⟨i, here, goesOn⟩

/-- Control goes through code if it goes on behind each of its instructions. -/
theorem Holds.reaches_iff (h : c.Holds first (code ++ [last])) :
    c.Reaches first (first + code.length) ↔ ∀ i ∈ code, i.goesOn = true := by
  constructor
  · intro reached i hi
    obtain ⟨k, bound, rfl⟩ := List.mem_iff_getElem.1 hi
    obtain ⟨j, here, goesOn⟩ := reached.goesOn (Nat.le_add_right first k) (by omega)
    have there := h k code[k] (by rw [List.getElem?_append_left bound, List.getElem?_eq_getElem])
    cases there.symm.trans here
    exact goesOn
  · intro goesOn
    -- Along the code, up to any of its instructions.
    suffices step : ∀ k ≤ code.length, c.Reaches first (first + k) from step _ (Nat.le_refl _)
    intro k hk
    induction k with
    | zero => exact .start
    | succ k ih =>
      have here := h k code[k] (by rw [List.getElem?_append_left hk, List.getElem?_eq_getElem])
      exact .next (ih (Nat.le_of_succ_le hk)) here (goesOn _ (List.getElem_mem hk))

/-- Plain code with a return behind it is the code of a body. -/
theorem Holds.body {size : Int64} (h : c.Holds first (code ++ [.leave size]))
    (plain : ∀ i ∈ code, i.isPlain = true) : c.Body first (first + code.length + 1) where
  nonempty := by omega
  plain a ha ha' := by
    obtain ⟨k, rfl⟩ := Nat.exists_eq_add_of_le ha
    have bound : k < (code ++ [Instruction.leave size]).length := by
      rw [List.length_append, List.length_singleton]
      omega
    refine ⟨_, h k _ (List.getElem?_eq_getElem bound), ?_⟩
    exact List.forall_mem_append.2 ⟨plain, List.forall_mem_singleton.2 rfl⟩ _
      (List.getElem_mem bound)
  returns := ⟨size, h code.length _ List.getElem?_concat_length⟩

/-- Plain instructions stay where they are. -/
theorem Holds.retains {d : Code} (h : c.Holds first code) (plain : ∀ i ∈ code, i.isPlain = true)
    (retains : c.Retains d) : d.Holds first code := by
  intro k i hi
  refine retains _ i (h k i hi) ?_
  rintro rfl
  cases plain _ (List.mem_of_getElem? hi)

end Code

/-! ### Words and code -/

/-- The word ends a return statement that has no value. -/
def Token.EndsReturn (t : Token) : Prop :=
  t.kind = .symbol .semicolon ∨ t.kind = .symbol .closeCurly

/-- No `return` among the words ends at once. Behind the words stand those of `behind`. -/
def Token.HaveValues (words behind : List Token) : Prop :=
  ∀ before span more, words = before ++ ⟨.symbol .returnWord, span⟩ :: more →
    ∀ next ∈ (more ++ behind).head?, ¬ next.EndsReturn

namespace Signature

/-- The code is that of statements in a function with this signature: plain instructions, with a
return just where the words have one. -/
structure Renders (c : Signature) (words behind : List Token) (code : List Instruction) : Prop where
  plain : ∀ i ∈ code, i.isPlain = true
  returns : (∀ i ∈ code, i.goesOn = true) ↔ ∀ word ∈ words, word.isReturn = false
  values : c.result?.getD .void ≠ .void → Token.HaveValues words behind

variable {c : Signature} {words more behind : List Token} {code rest : List Instruction}

theorem Renders.of_proceeds (proceeds : ∀ i ∈ code, i.Proceeds)
    (other : ∀ word ∈ words, word.isReturn = false) : c.Renders words behind code where
  plain i hi := (proceeds i hi).1
  returns := ⟨fun _ => other, fun _ i hi => (proceeds i hi).2⟩
  values _ := by
    rintro before span more rfl
    exact absurd (other _ (List.mem_append_right _ List.mem_cons_self)) nofun

theorem Renders.append (h : c.Renders words (more ++ behind) code)
    (h' : c.Renders more behind rest) : c.Renders (words ++ more) behind (code ++ rest) where
  plain := List.forall_mem_append.2 ⟨h.plain, h'.plain⟩
  returns := by
    rw [List.forall_mem_append, List.forall_mem_append]
    exact and_congr h.returns h'.returns
  values hv := by
    intro before span others split
    rcases List.append_eq_append_iff.1 split with ⟨between, rfl, hm⟩ | ⟨between, rfl, hm⟩
    · exact h'.values hv between span others hm
    · cases between with
      | nil => exact h'.values hv [] span others hm.symm
      | cons word between =>
        obtain ⟨rfl, rest⟩ := List.cons.inj hm
        rw [show others = between ++ more from rest, List.append_assoc]
        exact h.values hv before span between rfl

/-- A return statement with a value, or without one in a function that returns nothing. -/
theorem Renders.returns_value {span : Span} {size : Int64} (proceeds : ∀ i ∈ code, i.Proceeds)
    (other : ∀ word ∈ words, word.isReturn = false)
    (value : c.result?.getD .void ≠ .void →
      ∀ next ∈ (words ++ behind).head?, ¬ next.EndsReturn) :
    c.Renders (⟨.symbol .returnWord, span⟩ :: words) behind (code ++ [.leave size]) where
  plain := List.forall_mem_append.2
    ⟨fun i hi => (proceeds i hi).1, List.forall_mem_singleton.2 rfl⟩
  returns := by
    constructor
    · intro goesOn
      cases goesOn _ (List.mem_append_right code List.mem_cons_self)
    · intro none
      cases none _ List.mem_cons_self
  values hv := by
    intro before span' more split
    cases before with
    | nil =>
      obtain ⟨_, rfl⟩ := List.cons.inj split
      exact value hv
    | cons word before =>
      obtain ⟨_, rfl⟩ := List.cons.inj split
      exact absurd (other _ (List.mem_append_right _ List.mem_cons_self)) nofun

end Signature

namespace Session

variable {c : Signature} {s t u : Session} {m n p : Stream}

/-- Statements have been read between `m` and `n` in a function with the signature `c`. -/
structure Renders (s : Session) (c : Signature) (m n : Stream) (t : Session) : Prop where
  scope : t.blocks.scope = s.blocks.scope
  text : ∃ words code, m.Shows words n ∧ s.code.Appends t.code code ∧
    c.Renders words n.ahead code

namespace Renders

theorem of_proceeds {words : List Token} (h : s.Proceeds t) (shown : m.Shows words n)
    (other : ∀ word ∈ words, word.isReturn = false) : s.Renders c m n t := by
  obtain ⟨scope, code, appends, proceeds⟩ := h
  exact ⟨scope, words, code, shown, appends, .of_proceeds proceeds other⟩

theorem refl (s : Session) (c : Signature) (m : Stream) : s.Renders c m m s :=
  .of_proceeds (.refl s) (.refl m) nofun

theorem trans (h : s.Renders c m n t) (h' : t.Renders c n p u) : s.Renders c m p u := by
  obtain ⟨scope, words, code, shown, appends, renders⟩ := h
  obtain ⟨scope', more, rest, shown', appends', renders'⟩ := h'
  rw [shown'.ahead] at renders
  exact ⟨scope'.trans scope, words ++ more, code ++ rest, shown.trans shown',
    appends.trans appends', renders.append renders'⟩

/-- A word other than `return` is passed. -/
theorem skip {wanted : Symbol} {rest : Shorter m} (h : m.skip? wanted = some rest)
    (other : Token.isReturn ⟨.symbol wanted, .origin⟩ = false) :
    s.Renders c m rest.stream s := by
  obtain ⟨span, shown⟩ := Stream.shows_of_skip? h
  exact .of_proceeds (.refl s) shown (List.forall_mem_singleton.2 other)

end Renders

end Session

namespace Action

open Session

variable {setup : Setup} {root : String} {c : Signature} {s t z : Session} {stream : Stream}

/-! ### Statements -/

/-- What goes on is read from words without a `return`. -/
theorem renders_item {item : (s : Stream) → Action (Shorter s)} (goesOn : GoesOn setup item)
    {past : Shorter stream}
    (h : (item stream).PassesIn setup (history setup root) s past t) :
    s.Renders c stream past.stream t := by
  obtain ⟨⟨words, shown, _, other⟩, proceeds⟩ := (goesOn stream s).proceeds_of_yields h.yields
  exact .of_proceeds proceeds shown other

/-- A return statement belongs to the function that is being read. -/
theorem signature_of_yields (encloses : s.Encloses c) {c' : Signature}
    (h : enclosingSignature.Yields setup s c' t) : c' = c := by
  obtain ⟨id, i, function, found, kind⟩ := encloses
  unfold enclosingSignature at h
  rw [yields_get, function] at h
  dsimp only at h
  rw [found, Option.bind_some, signature?_of_kind kind] at h
  exact (yields_pure.1 h).1

/-- Behind `return` stands a value, unless nothing is returned. -/
theorem renders_optionalValue {span : Span} {rest : Kept stream}
    (h : (optionalValue c span stream).PassesIn setup (history setup root) s rest t) :
    s.Proceeds t ∧ Stream.PassesTerm [] stream rest.stream ∧
      (c.result?.getD .void ≠ .void → endsReturn stream = false) := by
  unfold optionalValue at h
  simp only [fail_bind] at h
  split at h
  · split at h
    · obtain ⟨_, _, _, failed⟩ := passes_bind h
      exact absurd failed not_passes_fail
    · rename_i void
      obtain ⟨rfl, rfl⟩ := passes_pure h
      exact ⟨.refl _, .refl [] _, fun value => absurd value void⟩
  · rename_i goesOn
    split at h
    · exact absurd h not_passes_fail
    · obtain ⟨term, proceeds⟩ := (proceeds_returnedValue c _ stream).proceeds_of_yields h.yields
      exact ⟨proceeds, term, fun _ => Bool.eq_false_iff.2 goesOn⟩

theorem not_endsReturn {next : Token} {more : List Token} (h : endsReturn stream = false)
    (ahead : stream.ahead = next :: more) : ¬ next.EndsReturn := by
  have kind : stream.kind = next.kind := Stream.kind_of_ahead ahead
  unfold endsReturn Stream.isAt at h
  rw [kind] at h
  rintro (he | he) <;> rw [he] at h <;> cases h

theorem renders_returnStatement (encloses : s.Encloses c) {past : Shorter stream}
    (h : (returnStatement stream).PassesIn setup (history setup root) s past t) :
    s.Renders c stream past.stream t := by
  unfold returnStatement at h
  obtain ⟨⟨⟨⟩, s₁, h₁⟩, word, h⟩ := passes_eat_bind h
  obtain ⟨c', _, enclosing, h⟩ := passes_bind h
  obtain ⟨rest, u, valued, h⟩ := passes_bind h
  obtain ⟨_, v, emitted, h⟩ := passes_bind h
  obtain ⟨rfl, rfl⟩ := passes_pure h
  obtain rfl := signature_of_yields encloses enclosing.yields
  obtain rfl := yields_enclosingSignature enclosing.yields
  obtain ⟨⟨scope, code, appends, proceeds⟩, ⟨words, shown, _, other⟩, value⟩ :=
    renders_optionalValue valued
  obtain ⟨span, returns⟩ := Stream.shows_of_skip? word
  cases emitted.yields
  refine ⟨scope, _, _, returns.trans shown, appends.trans (Code.appends_emit u.code _), ?_⟩
  refine .returns_value proceeds other fun hv next hm => ?_
  have hm : next ∈ (words ++ rest.stream.ahead).head? := hm
  rw [← shown.ahead] at hm
  obtain ⟨more, ahead⟩ := List.head?_eq_some_iff.1 hm
  exact not_endsReturn (value hv) ahead

mutual

theorem renders_statement (stream : Stream) {s t : Session} {rest : Kept stream}
    (encloses : s.Encloses c)
    (h : (statement stream).PassesIn setup (history setup root) s rest t) :
    s.Renders c stream rest.stream t := by
  rw [statement] at h
  split at h
  · obtain ⟨rfl, rfl⟩ := passes_pure h
    exact .refl ..
  · obtain ⟨rfl, rfl⟩ := passes_pure h
    exact .refl ..
  · obtain ⟨past, rfl, read⟩ := passes_kept_rest h
    exact renders_item goesOn_typeDeclaration read
  · obtain ⟨past, rfl, read⟩ := passes_kept_rest h
    exact renders_item goesOn_constantDeclaration read
  · obtain ⟨past, rfl, read⟩ := passes_kept_rest h
    exact renders_item goesOn_variableDeclaration read
  · exact absurd h not_passes_fail
  · obtain ⟨past, rfl, read⟩ := passes_kept_rest h
    exact renders_block stream encloses read
  · obtain ⟨past, rfl, read⟩ := passes_kept_rest h
    exact renders_returnStatement encloses read
  · split at h
    · obtain ⟨past, rfl, read⟩ := passes_kept_rest h
      exact renders_item goesOn_shortDeclaration read
    · obtain ⟨past, rfl, read⟩ := passes_kept_rest h
      exact renders_item goesOn_assignment read
  · exact absurd h not_passes_fail
termination_by 4 * stream.size + 2

theorem renders_statements (stream : Stream) {s t : Session} {rest : Kept stream}
    (encloses : s.Encloses c)
    (h : (statements stream).PassesIn setup (history setup root) s rest t) :
    s.Renders c stream rest.stream t := by
  rw [statements] at h
  obtain ⟨⟨⟨⟩, s₁, h₁⟩, u, read, h⟩ := passes_bind h
  have first := renders_statement stream encloses read
  have encloses := encloses.grows read.grows first.scope
  dsimp only at h first
  split at h
  · obtain ⟨rfl, rfl⟩ := passes_pure h
    exact first
  · rename_i semicolon found
    have between : u.Renders c s₁ semicolon.stream u := .skip found rfl
    obtain ⟨_, s₂, h₂⟩ := semicolon
    have hlt := (h₂.of_within h₁).2
    obtain ⟨_, v, more, h⟩ := passes_bind h
    obtain ⟨rfl, rfl⟩ := passes_pure h
    exact (first.trans between).trans (renders_statements s₂ encloses more)
termination_by 4 * stream.size + 3

theorem renders_blockBody (stream : Stream) {s t : Session} {past : Shorter stream}
    (encloses : s.Encloses c)
    (h : (blockBody stream).PassesIn setup (history setup root) s past t) :
    s.Renders c stream past.stream t := by
  rw [blockBody] at h
  obtain ⟨⟨⟨⟩, s₁, h₁⟩, opened, h⟩ := passes_eat_bind h
  have hlt := h₁.2
  obtain ⟨⟨⟨⟩, s₂, h₂⟩, u, read, h⟩ := passes_bind h
  obtain ⟨last, closed, h⟩ := passes_eat_bind h
  obtain ⟨rfl, rfl⟩ := passes_pure h
  have start : s.Renders c stream s₁ s := .skip opened rfl
  exact (start.trans (renders_statements s₁ encloses read)).trans (.skip closed rfl)
termination_by 4 * stream.size

theorem renders_block (stream : Stream) {s t : Session} {past : Shorter stream}
    (encloses : s.Encloses c)
    (h : (block stream).PassesIn setup (history setup root) s past t) :
    s.Renders c stream past.stream t := by
  rw [block] at h
  obtain ⟨⟨⟩, u, entered, h⟩ := passes_bind h
  obtain ⟨past, v, read, h⟩ := passes_bind h
  obtain ⟨⟨⟩, w, left, h⟩ := passes_bind h
  obtain ⟨rfl, rfl⟩ := passes_pure h
  cases entered.yields
  have inside : Session.Encloses { s with blocks := s.blocks.enter none } c := encloses
  obtain ⟨scope, text⟩ := renders_blockBody stream inside read
  cases left.yields
  exact ⟨scope_leave rfl scope, text⟩
termination_by 4 * stream.size + 1

end

/-- The last word of a body is a curly bracket. -/
theorem shows_blockBody {past : Shorter stream} (encloses : s.Encloses c)
    (h : (blockBody stream).PassesIn setup (history setup root) s past t) :
    ∃ words span, stream.Shows (words ++ [⟨.symbol .closeCurly, span⟩]) past.stream := by
  rw [blockBody] at h
  obtain ⟨⟨⟨⟩, s₁, h₁⟩, opened, h⟩ := passes_eat_bind h
  obtain ⟨⟨⟨⟩, s₂, h₂⟩, u, read, h⟩ := passes_bind h
  obtain ⟨last, closed, h⟩ := passes_eat_bind h
  obtain ⟨rfl, rfl⟩ := passes_pure h
  obtain ⟨_, words, _, inside, _⟩ := renders_statements s₁ encloses read
  obtain ⟨start, shown⟩ := Stream.shows_of_skip? opened
  obtain ⟨stop, shown'⟩ := Stream.shows_of_skip? closed
  exact ⟨_, stop, (shown.trans inside).trans shown'⟩

/-- The code of a body: that of its statements, and the return behind them. -/
theorem renders_functionBody {id : IdentId} {i : Ident} {past : Shorter stream}
    (found : s.idents.get? id = some i) (kind : s.types.kind i.type = .function c)
    (h : (functionBody id i c stream).PassesIn setup (history setup root) s past t) :
    ∃ words code, stream.Shows words past.stream ∧ c.Renders words past.stream.ahead code ∧
      t.code.Holds s.code.size (code ++ [.leave c.parametersSize]) ∧
      t.code.size = s.code.size + code.length + 1 ∧
      ∃ inside span, words = inside ++ [⟨.symbol .closeCurly, span⟩] := by
  unfold functionBody at h
  obtain ⟨⟨⟩, u, prepared, h⟩ := passes_bind h
  rw [passes_get] at h
  obtain ⟨⟨⟩, v, placed, h⟩ := passes_bind h
  obtain ⟨⟨⟩, w, entered, h⟩ := passes_bind h
  obtain ⟨past, x, read, h⟩ := passes_bind h
  obtain ⟨_, y, emitted, h⟩ := passes_bind h
  obtain ⟨⟨⟩, y', left, h⟩ := passes_bind h
  obtain ⟨⟨⟩, y'', back, h⟩ := passes_bind h
  obtain ⟨rfl, rfl⟩ := passes_pure h
  obtain ⟨code, same, rfl⟩ := yields_prepareEntry prepared.yields
  cases placed.yields
  cases entered.yields
  have inside : Session.Encloses { s with
      code, place := { s.place with function? := some i.name },
      blocks := s.blocks.enter (some id) } c := ⟨id, i, rfl, found, kind⟩
  obtain ⟨_, p, declared, read⟩ := passes_bind read
  obtain ⟨_, proceeds⟩ :=
    (proceeds_parameters c.parameters i.span).proceeds_of_yields declared.yields
  have inside := inside.grows declared.grows proceeds.scope
  have declares := Renders.of_proceeds (c := c) proceeds (.refl stream) nofun
  obtain ⟨_, words, more, shown, appends, renders⟩ :=
    declares.trans (renders_blockBody stream inside read)
  obtain ⟨before, span, closed⟩ := shows_blockBody inside read
  cases emitted.yields
  cases left.yields
  cases back.yields
  have whole := appends.trans (Code.appends_emit x.code (.leave c.parametersSize))
  refine ⟨words, more, shown, renders, ?_, ?_, before, span, shown.unique closed⟩
  · rw [← same]
    exact whole.holds
  · rw [← same, Nat.add_assoc]
    refine whole.size.trans ?_
    rw [List.length_append, List.length_singleton]

end Action

/-- The code from `first` to `stop` is that of a body with the words `words`, in a function with the
signature `c`. -/
structure Session.BodyOf (z : Session) (c : Signature) (words : List Token) (first stop : Nat) :
    Prop where
  body : z.code.Body first stop
  closing : z.code.instructions[stop - 1]? = some (.leave c.parametersSize)
  falls : z.code.Reaches first (stop - 1) ↔ ∀ word ∈ words, word.isReturn = false
  values : ∀ result, c.result? = some result → result ≠ .void → ∀ before span behind,
    words = before ++ ⟨.symbol .returnWord, span⟩ :: behind →
      ∃ next more, behind = next :: more ∧ ¬ next.EndsReturn

/-- In a program that compiles the body of each function is straight-line code with a return at its
end. Control comes to this return just if there is no return statement among the words of the body,
in whichever block and whatever the function returns. All return statements of a function that returns
something have a value. -/
theorem compile_fallsThrough {setup : Setup} {root : String} {z : Session}
    (h : compile setup root = .ok z) : ∀ id f first, z.idents.get? id = some f →
      f.payload = .function first none → ∃ c stream past s t words,
        z.types.kind f.type = .function c ∧
        (Action.functionBody id f c stream).PassesIn setup (history setup root) s past t ∧
        s.code.size = first ∧ stream.Shows words past.stream ∧
        z.BodyOf c words first t.code.size := by
  intro id f first found body
  obtain ⟨_, c, stream, past, s, t, found', kind, rfl, passes⟩ := functions_of_compile h found body
  obtain ⟨words, code, shown, renders, holds, stop, inside, span, closed⟩ :=
    Action.renders_functionBody found' kind passes
  have last := getLast?_history_of_compile h
  have grows := Session.grows_of_changes (changes_of_mem_history passes.first_mem last)
  have holds := holds.retains (List.forall_mem_append.2
    ⟨renders.plain, List.forall_mem_singleton.2 rfl⟩)
    (Session.retains_of_changes (changes_of_mem_history passes.last_mem last))
  refine ⟨c, stream, past, s, t, words, grows.signature kind, passes, rfl, shown, ?_⟩
  rw [stop]
  refine ⟨holds.body renders.plain, ?_, ?_, fun result returns value before span' behind split => ?_⟩
  · exact holds code.length _ List.getElem?_concat_length
  · rw [Nat.add_sub_cancel, holds.reaches_iff, renders.returns]
  · have values := renders.values (by rw [returns]; exact value) before span' behind split
    cases behind with
    | nil =>
      -- The last word is a bracket.
      rw [closed] at split
      cases (List.append_inj' split rfl).2
    | cons next more => exact ⟨next, more, rfl, values next rfl⟩

/-- A function with a return statement in a block of its body. -/
def innerReturnProgram : Setup where
  settings := .standard
  sources := ⟨fun _ => .ok "fn f(): int \x7b \x7b return 1 \x7d \x7d\nfn main() \x7b\x7d\n"⟩
  hosts := ⟨[]⟩

theorem innerReturnProgram_fallsThrough : ∃ z, compile innerReturnProgram "main.um" = .ok z ∧
    ∀ id f first, z.idents.get? id = some f → f.payload = .function first none →
      ∃ c stream past s t words, z.types.kind f.type = .function c ∧
        (Action.functionBody id f c stream).PassesIn innerReturnProgram
          (history innerReturnProgram "main.um") s past t ∧
        s.code.size = first ∧ stream.Shows words past.stream ∧
        z.BodyOf c words first t.code.size := by
  have compiles : (compile innerReturnProgram "main.um").isOk = true := by decide +kernel
  cases h : compile innerReturnProgram "main.um" with
  | ok z => exact ⟨z, rfl, compile_fallsThrough h⟩
  | error d =>
    rw [h] at compiles
    cases compiles

/-- A function that is to return an integer and has no return statement. -/
def unansweredProgram : Setup where
  settings := .standard
  sources := ⟨fun _ => .ok "fn f(): int \x7b\x7d\nfn main() \x7b\x7d\n"⟩
  hosts := ⟨[]⟩

/-- The code of the function starts behind two instructions. -/
def Ident.startsThird (i : Ident) : Bool :=
  i.payload matches .function 2 none

/-- The body of the function is a return alone, in front of the entry function: control comes to its
end at once, without an integer. -/
theorem unansweredProgram_fallsThrough : ∃ z, compile unansweredProgram "main.um" = .ok z ∧
    ∃ id f c id' g size, z.idents.get? id = some f ∧ f.payload = .function 1 none ∧
      z.types.kind f.type = .function c ∧ c.result? = some .int ∧
      z.idents.get? id' = some g ∧ g.payload = .function 2 none ∧
      z.code.instructions[1]? = some (.leave size) ∧ z.code.Reaches 1 1 := by
  have found : (compile unansweredProgram "main.um").toOption.any (fun z =>
      z.idents.toList.any z.startsInt && z.idents.toList.any (·.startsThird) &&
      z.code.instructions[1]?.any fun i => i.isPlain && !i.goesOn) = true := by
    decide +kernel
  cases h : compile unansweredProgram "main.um" with
  | error d =>
    rw [h] at found
    cases found
  | ok z =>
    rw [h] at found
    obtain ⟨both, leaves⟩ := Bool.and_eq_true_iff.1 found
    obtain ⟨first, second⟩ := Bool.and_eq_true_iff.1 both
    obtain ⟨f, hf, starts⟩ := List.any_eq_true.1 first
    obtain ⟨g, hg, follows⟩ := List.any_eq_true.1 second
    obtain ⟨id, hf⟩ := IdentTable.mem_toList.1 hf
    obtain ⟨id', hg⟩ := IdentTable.mem_toList.1 hg
    unfold Session.startsInt at starts
    split at starts
    case h_2 => cases starts
    rename_i c payload kind
    unfold Ident.startsThird at follows
    split at follows
    case h_2 => cases follows
    rename_i payload'
    obtain ⟨isSome, leaves⟩ := (Option.any_eq_true_iff_get _ _).1 leaves
    obtain ⟨plain, stops⟩ := Bool.and_eq_true_iff.1 leaves
    obtain ⟨size, leave⟩ := Instruction.eq_leave plain (Bool.eq_false_of_not_eq_true' stops)
    have here := (Option.some_get isSome).symm.trans (congrArg some leave)
    exact ⟨z, rfl, id, f, c, id', g, size, hf, payload, kind, of_decide_eq_true starts, hg, payload',
      here, .start⟩

end FrontEnd
