import FrontEnd.Proofs.Linked

/-!
What functions hand over when they return. The code of a body starts with an empty stack, and each
return finds on it what its function returns: nothing, or one value. A structured value has been
stored through the hidden parameter instead.
-/

namespace FrontEnd

namespace TypeTable

variable {t : TypeTable} {signature : Signature} {result type : TypeId}
  {code more before after : List Instruction} {size : Int64}
  {stack stack' stack'' : List Operand}

/-! ### The stack in a body -/

/-- What an instruction of a body makes of the stack. A return leaves nothing on it. -/
inductive Moves (t : TypeTable) : Instruction → List Operand → List Operand → Prop
  | acts {i : Instruction} {rest before after : List Operand} (acts : t.Acts rest i before after) :
      Moves t i before after
  | store {place : Storage} {target type : TypeId} {read? : Option Storage} {stack : List Operand}
      (compatible : t.compatible target type = true) :
      Moves t (.store target) (.value type read? :: .address place :: stack) stack
  /-- A pointer that has been read from a variable is an address as well. -/
  | storeThrough {place : Storage} {pointer target type : TypeId} {read? : Option Storage}
      {stack : List Operand} (points : t.kind pointer = .pointer target)
      (compatible : t.compatible target type = true) :
      Moves t (.store target) (.value type read? :: .value pointer (some place) :: stack) stack
  | storeSwapped {place : Storage} {type : TypeId} {read? : Option Storage} {stack : List Operand} :
      Moves t (.storeSwapped type) (.address place :: .value type read? :: stack) stack
  | leave {size : Int64} {stack : List Operand} : Moves t (.leave size) stack []

/-- What the code of statements makes of the stack. -/
inductive Steps (t : TypeTable) : List Instruction → List Operand → List Operand → Prop
  | nil (stack : List Operand) : Steps t [] stack stack
  | cons {i : Instruction} {code : List Instruction} {before after final : List Operand}
      (moves : t.Moves i before after) (steps : Steps t code after final) :
      Steps t (i :: code) before final

theorem Steps.append (h : t.Steps code stack stack') (h' : t.Steps more stack' stack'') :
    t.Steps (code ++ more) stack stack'' := by
  induction h with
  | nil => exact h'
  | cons moves _ ih => exact .cons moves (ih h')

theorem Moves.steps {i : Instruction} (h : t.Moves i stack stack') : t.Steps [i] stack stack' :=
  .cons h (.nil _)

theorem Runs.steps (h : t.Runs code stack stack') : t.Steps code stack stack' := by
  induction h with
  | nil => exact .nil _
  | cons acts _ ih => exact .cons (.acts acts) ih

/-- A structured value is stored through the hidden parameter. -/
theorem Supplies.steps_stored {parameter : Parameter} (h : t.Supplies result code)
    (hides : t.Hides signature parameter result) :
    t.Steps ([.localAddress parameter.offset, .load parameter.type] ++ code ++ [.store result])
      stack stack := by
  obtain ⟨type, pushes, compatible⟩ := h
  have address : t.Runs [.localAddress parameter.offset, .load parameter.type] stack
      (.value parameter.type (some (.local parameter.offset)) :: stack) :=
    .cons (.localAddress parameter.offset) (Acts.load _ _).runs
  obtain ⟨read?, value⟩ := pushes (.value parameter.type (some (.local parameter.offset)) :: stack)
  exact (address.append value).steps.append (Moves.storeThrough hides.pointer compatible).steps

theorem Hands.steps (h : t.Hands signature code) : ∃ stack, t.Steps code [] stack := by
  cases h with
  | nothing => exact ⟨[], .nil []⟩
  | value _ _ _ supplies =>
    obtain ⟨type, pushes, _⟩ := supplies
    obtain ⟨read?, runs⟩ := pushes []
    exact ⟨_, runs.steps⟩
  | stored _ hides supplies => exact ⟨[], supplies.steps_stored hides⟩

/-- Statements find the stack empty and leave it empty. -/
theorem Phrases.steps (h : t.Phrases signature code) : t.Steps code [] [] := by
  induction h with
  | nil => exact .nil []
  | @assign place target code rest supplies _ ih =>
    obtain ⟨type, pushes, compatible⟩ := supplies
    obtain ⟨read?, runs⟩ := pushes [.address place]
    have address : t.Runs [place.address] [] [.address place] := (Acts.address place).runs
    exact ((address.append runs).steps.append (Moves.store compatible).steps).append ih
  | @declare offset type code rest pushes _ ih =>
    obtain ⟨read?, runs⟩ := pushes []
    have stored : t.Steps [.localAddress offset, .storeSwapped type] [.value type read?] [] :=
      .cons (.acts (.localAddress offset)) Moves.storeSwapped.steps
    exact (runs.steps.append stored).append ih
  | returns hands _ ih =>
    obtain ⟨stack, steps⟩ := hands.steps
    exact (steps.append Moves.leave.steps).append ih

/-! ### Returns -/

/-- Code that pushes a value does not return. -/
theorem Pushes.not_mem_leave {type : TypeId} (h : t.Pushes code type) : .leave size ∉ code :=
  fun hm => h.evaluates hm

theorem Supplies.not_mem_leave {target : TypeId} (h : t.Supplies target code) :
    .leave size ∉ code := by
  obtain ⟨_, pushes, _⟩ := h
  exact pushes.not_mem_leave

theorem Hands.not_mem_leave (h : t.Hands signature code) : .leave size ∉ code := by
  intro hm
  cases h with
  | nothing => cases hm
  | value _ _ _ supplies => exact supplies.not_mem_leave hm
  | stored _ _ supplies =>
    simp only [List.mem_append, List.mem_cons, reduceCtorEq, List.not_mem_nil, or_false,
      false_or] at hm
    exact supplies.not_mem_leave hm

/-- An instruction that is missing in the first part of some code stands in the rest. -/
theorem split_of_not_mem {i : Instruction} (h : code ++ more = before ++ i :: after)
    (hi : i ∉ code) : ∃ between, before = code ++ between ∧ more = between ++ i :: after := by
  rcases List.append_eq_append_iff.1 h with ⟨between, hb, hm⟩ | ⟨between, hc, hm⟩
  · exact ⟨between, hb, hm⟩
  · cases between with
    | nil => exact ⟨[], by rw [hc, List.append_nil, List.append_nil], hm.symm⟩
    | cons j between =>
      obtain ⟨rfl, _⟩ := List.cons.inj hm
      exact absurd (hc ▸ List.mem_append_right before List.mem_cons_self) hi

/-- A return among statements is that of a return statement, behind which its value has been handed
over. -/
theorem Phrases.leave (h : t.Phrases signature code) (hc : code = before ++ .leave size :: after) :
    size = signature.parametersSize ∧ ∃ earlier hands, before = earlier ++ hands ∧
      t.Phrases signature earlier ∧ t.Hands signature hands := by
  induction h generalizing before with
  | nil =>
    have none := congrArg List.length hc
    rw [List.length_append, List.length_cons] at none
    cases none
  | @assign place target code rest supplies _ ih =>
    have absent : .leave size ∉ [place.address] ++ code ++ [.store target] := by
      simp only [List.mem_append, List.mem_singleton]
      rintro ((hm | hm) | hm)
      · cases place <;> cases hm
      · exact supplies.not_mem_leave hm
      · cases hm
    obtain ⟨between, rfl, behind⟩ := split_of_not_mem hc absent
    obtain ⟨same, earlier, hands, rfl, phrases, hands'⟩ := ih behind
    exact ⟨same, _, hands, (List.append_assoc ..).symm, .assign supplies phrases, hands'⟩
  | @declare offset type code rest pushes _ ih =>
    have absent : .leave size ∉ code ++ [.localAddress offset, .storeSwapped type] := by
      simp only [List.mem_append, List.mem_cons, reduceCtorEq, List.not_mem_nil, or_false]
      exact pushes.not_mem_leave
    obtain ⟨between, rfl, behind⟩ := split_of_not_mem hc absent
    obtain ⟨same, earlier, hands, rfl, phrases, hands'⟩ := ih behind
    exact ⟨same, _, hands, (List.append_assoc ..).symm, .declare pushes phrases, hands'⟩
  | @returns code rest hands _ ih =>
    rw [List.append_assoc] at hc
    obtain ⟨between, rfl, behind⟩ := split_of_not_mem hc hands.not_mem_leave
    cases between with
    | nil =>
      obtain ⟨same, _⟩ := List.cons.inj behind
      injection same with same
      exact ⟨same.symm, [], code, by rw [List.append_nil, List.nil_append], .nil, hands⟩
    | cons i between =>
      rw [List.singleton_append, List.cons_append, List.cons.injEq] at behind
      obtain ⟨rfl, behind⟩ := behind
      obtain ⟨same, earlier, hands', rfl, phrases, hands''⟩ := ih behind
      refine ⟨same, code ++ [.leave signature.parametersSize] ++ earlier, hands', ?_,
        .returns hands phrases, hands''⟩
      simp only [List.append_assoc, List.cons_append, List.nil_append]

/-- What the code between the statements before and the return does, by the type of the result. Where
it stores a value, it does so through the hidden parameter. -/
structure HandsOver (t : TypeTable) (signature : Signature) (result : TypeId)
    (code : List Instruction) : Prop where
  void : result = .void → code = []
  plain : result ≠ .void → t.isStructured result = false →
    (∀ i ∈ code, i.Evaluates) ∧ ∃ type read?, t.Steps code [] [.value type read?] ∧
      t.compatible result type = true
  structured : t.isStructured result = true → ∃ parameter value, t.Hides signature parameter result ∧
    code = [.localAddress parameter.offset, .load parameter.type] ++ value ++ [.store result] ∧
    (∀ i ∈ value, i.Evaluates) ∧ t.Steps code [] []

theorem Hands.handsOver (h : t.Hands signature code) (returns : signature.result? = some result)
    (void : t.isStructured .void = false) : t.HandsOver signature result code := by
  cases h with
  | nothing nothing =>
    cases returns.symm.trans nothing
    exact ⟨fun _ => rfl, fun hv => absurd rfl hv, fun hs => absurd (void.symm.trans hs) nofun⟩
  | value returns' value plain supplies =>
    cases returns.symm.trans returns'
    obtain ⟨type, pushes, compatible⟩ := supplies
    obtain ⟨read?, runs⟩ := pushes []
    exact ⟨fun hv => absurd hv value,
      fun _ _ => ⟨fun _ => runs.evaluates, type, read?, runs.steps, compatible⟩,
      fun hs => absurd (plain.symm.trans hs) nofun⟩
  | @stored _ parameter value returns' hides supplies =>
    cases returns.symm.trans returns'
    have structured := hides.structured
    obtain ⟨_, pushes, _⟩ := id supplies
    refine ⟨?_, fun _ plain => absurd (plain.symm.trans structured) nofun, fun _ => ⟨parameter, value,
      hides, rfl, fun _ => pushes.evaluates, supplies.steps_stored hides⟩⟩
    rintro rfl
    exact absurd (void.symm.trans structured) nofun

end TypeTable

namespace Session

variable {s : Session} {signature : Signature} {result : TypeId} {first stop : Nat}

/-- Every return in the body from `first` to `stop`: the stack was empty when the statement began, and
what the function returns has been handed over. The last return is that of the body itself. -/
def HandsOver (s : Session) (signature : Signature) (result : TypeId) (first stop : Nat) : Prop :=
  ∀ (x : Nat) size, first ≤ x → x < stop → s.code.instructions[x]? = some (.leave size) →
    size = signature.parametersSize ∧ ∃ earlier code, s.code.Holds first (earlier ++ code) ∧
      x = first + (earlier ++ code).length ∧ s.types.Steps earlier [] [] ∧
      ((x + 1 = stop ∧ code = []) ∨ s.types.HandsOver signature result code)

theorem handsOver_of_performs (h : s.types.Performs signature s.code first stop)
    (returns : signature.result? = some result) (void : s.types.isStructured .void = false) :
    s.HandsOver signature result first stop := by
  obtain ⟨code, phrases, holds, rfl⟩ := h
  intro x size hx hx' leaves
  obtain ⟨k, rfl⟩ := Nat.exists_eq_add_of_le hx
  by_cases hk : k = code.length
  · subst hk
    have last := holds code.length _ List.getElem?_concat_length
    rw [leaves] at last
    cases last
    refine ⟨rfl, code, [], fun j i hi => ?_, by rw [List.append_nil], phrases.steps, .inl ⟨rfl, rfl⟩⟩
    rw [List.append_nil] at hi
    exact holds j i (List.getElem?_append_left (List.getElem?_eq_some_iff.1 hi).1 ▸ hi)
  · have inside : k < code.length := by omega
    have here : code[k]? = some (.leave size) := by
      have there := holds k code[k] (by rw [List.getElem?_append_left inside, List.getElem?_eq_getElem])
      rw [leaves] at there
      rw [List.getElem?_eq_getElem inside, ← Option.some_inj.1 there]
    have split : code = code.take k ++ .leave size :: code.drop (k + 1) := by
      obtain ⟨bound, same⟩ := List.getElem?_eq_some_iff.1 here
      rw [← same, List.cons_getElem_drop_succ, List.take_append_drop]
    obtain ⟨same, earlier, hands, before, phrases', hands'⟩ := phrases.leave split
    refine ⟨same, earlier, hands, fun j i hi => holds j i ?_, ?_, phrases'.steps,
      .inr (hands'.handsOver returns void)⟩
    · rw [← before, List.getElem?_take] at hi
      split at hi
      · rw [List.getElem?_append_left (by omega)]
        exact hi
      · cases hi
    · rw [← before, List.length_take_of_le (Nat.le_of_lt inside)]

/-- The code of the function `f` from `first` to `stop` hands over what the function returns, a
structured result through the hidden parameter that its signature has. -/
def ReturnsFrom (s : Session) (f : Ident) (first stop : Nat) : Prop :=
  ∃ signature result, s.types.kind f.type = .function signature ∧
    signature.result? = some result ∧
    (s.types.isStructured result = true → ∃ parameter, s.types.Hides signature parameter result) ∧
    s.HandsOver signature result first stop

/-- If the function `f` returns a value that is not structured, its last parameter does not have the
name of a hidden one. -/
def KeepsName (s : Session) (f : Ident) : Prop :=
  ∀ signature ∈ s.types.signature? f.type, ∀ result ∈ signature.result?, result ≠ .void →
    s.types.ReservesName signature result

instance (f : Ident) : Decidable (s.KeepsName f) :=
  inferInstanceAs (Decidable (∀ signature ∈ s.types.signature? f.type, ∀ result ∈ signature.result?,
    result ≠ .void → s.types.ReservesName signature result))

theorem Performs.returnsFrom {f : Ident} (h : s.Performs f first stop) (hs : s.Valid ∅)
    (keeps : s.KeepsName f) : s.ReturnsFrom f first stop := by
  obtain ⟨signature, result, kind, returns, performs⟩ := h
  have void : s.types.isStructured .void = false := by
    have known : TypeId.void.index < TypeTable.initial.size := by decide
    obtain ⟨_, hk⟩ := hs.grounded.builtin known rfl
    rw [TypeTable.isStructured, hk]
  have reserves := keeps signature (Action.signature?_of_kind kind) result returns.listed
  exact ⟨signature, result, kind, returns.listed, returns.hidden,
    handsOver_of_performs (performs s (.refl s) reserves) returns.listed void⟩

end Session

/-- In a program that compiles, every return hands over what its function returns, unless the function
has given the name of the hidden parameter to one of its own. -/
theorem compile_returns {setup : Setup} {root : String} {s : Session}
    (h : compile setup root = .ok s) :
    ∃ ends stop, s.Fills ends stop ∧ ∀ id f, s.idents.get? id = some f → ∀ a,
      f.payload = .function a none → s.KeepsName f → s.ReturnsFrom f a (ends a) := by
  obtain ⟨u, arranged, _, g, linking⟩ := (compiled_of_compile h).read
  have valid : s.Valid ∅ := valid_of_mem_history
    (List.mem_of_getLast? (getLast?_history_of_compile h))
  obtain ⟨ends, answers⟩ := arranged.answers
  refine ⟨ends, _, linking.fills valid answers.segments, fun id f hf a ha keeps => ?_⟩
  have function : f ∈ u.idents.functions := by
    rw [← linking.idents]
    exact IdentTable.mem_functions.2 ⟨valid.kind_of_payload hf ha, id, hf⟩
  -- Linking changes reserved instructions only, and bodies have none.
  have performs : s.Performs f a (ends a) :=
    (answers.bodies f function a ha).retains g (g.fixes_same linking.types) fun x i hx hx' hi => by
      refine linking.retains x i hi ?_
      obtain ⟨j, hj, plain⟩ := (answers.segments.bodies f function a ha).plain x hx hx'
      rw [hi] at hj
      cases hj
      rintro rfl
      cases plain
  exact performs.returnsFrom valid keeps

/-- Functions that return a structured value, a real number and nothing. -/
def valuesProgram : Setup where
  settings := .standard
  sources := ⟨fun _ => .ok "type P = struct \x7b x: int \x7d\nvar p: P
fn structured(n: int): P \x7b return p \x7d
fn real(): real \x7b \x7b return 1 \x7d; return 2.0 \x7d\nfn main() \x7b return \x7d\n"⟩
  hosts := ⟨[]⟩

theorem valuesProgram_returns : ∃ s, compile valuesProgram "main.um" = .ok s ∧
    ∃ ends stop, s.Fills ends stop ∧ ∀ id f, s.idents.get? id = some f → ∀ a,
      f.payload = .function a none → s.ReturnsFrom f a (ends a) := by
  have keeps : (compile valuesProgram "main.um").toOption.any
      (fun s => decide (∀ f ∈ s.idents.toList, s.KeepsName f)) = true := by decide +kernel
  cases h : compile valuesProgram "main.um" with
  | ok s =>
    rw [h] at keeps
    have keeps : ∀ f ∈ s.idents.toList, s.KeepsName f := of_decide_eq_true keeps
    obtain ⟨ends, stop, fills, returns⟩ := compile_returns h
    exact ⟨s, rfl, ends, stop, fills, fun id f hf a ha =>
      returns id f hf a ha (keeps f (IdentTable.mem_toList.2 ⟨id, hf⟩))⟩
  | error d =>
    rw [h] at keeps
    cases keeps

/-! ### A parameter with the name of the hidden one -/

/-- A function that returns a number and has named its parameter like a hidden one. -/
def namedProgram : Setup where
  settings := .standard
  sources := ⟨fun _ => .ok "fn f(__result: int): int \x7b return 1 \x7d\nfn main() \x7b\x7d\n"⟩
  hosts := ⟨[]⟩

/-- The first function stores a number through an integer parameter. -/
def Code.storesThroughInt (c : Code) : Bool :=
  match c.instructions.toList with
  | _ :: .localAddress _ :: .load read :: .push _ :: .store stored :: .leave _ :: _ =>
    read = .int && stored = .int
  | _ => false

/-- The function starts behind the first instruction and returns an integer. -/
def Session.startsInt (s : Session) (f : Ident) : Bool :=
  match f.payload, s.types.kind f.type with
  | .function 1 none, .function signature => signature.result? = some .int
  | _, _ => false

namespace TypeTable

variable {t : TypeTable} {stack : List Operand}

/-- An integer is not an address, so nothing can be stored there. -/
theorem not_steps_store_int {offset : Int64} {value : Constant} (hk : t.kind .int = .builtin .int) :
    ¬ t.Steps [.localAddress offset, .load .int, .push value, .store .int] [] stack := by
  intro h
  cases h with | cons address h => ?_
  cases address with | acts address => ?_
  cases address
  cases h with | cons load h => ?_
  cases load with | acts load => ?_
  cases load
  cases h with | cons push h => ?_
  cases push with | acts push => ?_
  cases push
  cases h with | cons store h => ?_
  cases store with
  | acts store => cases store
  | storeThrough points =>
    rw [hk] at points
    cases points

end TypeTable

/-- Whatever its code looks like behind the store, the function hands no number over. -/
theorem not_handsOver_of_store {s : Session} {signature : Signature} {stop : Nat}
    {first : Instruction} {offset size : Int64} {value : Constant} {more : List Instruction}
    (hc : s.code.instructions.toList = first :: .localAddress offset :: .load .int :: .push value ::
      .store .int :: .leave size :: more)
    (hk : s.types.kind .int = .builtin .int) (body : s.code.Body 1 stop) :
    ¬ s.HandsOver signature .int 1 stop := by
  have entry (k : Nat) : s.code.instructions[k]? = (first :: .localAddress offset :: .load .int ::
      .push value :: .store .int :: .leave size :: more)[k]? := by
    rw [← Array.getElem?_toList, hc]
  -- The body ends behind a return, and the first one stands behind the store.
  have behind : 5 < stop := by
    by_contra early
    obtain ⟨_, last⟩ := body.returns
    have nonempty := body.nonempty
    obtain he | he | he | he : stop - 1 = 1 ∨ stop - 1 = 2 ∨ stop - 1 = 3 ∨ stop - 1 = 4 := by omega
    all_goals
      rw [he, entry] at last
      cases last
  intro hands
  obtain ⟨_, earlier, code, holds, length, steps, last⟩ := hands 5 size (by omega) behind (entry 5)
  have whole : earlier ++ code =
      [.localAddress offset, .load .int, .push value, .store .int] := by
    refine List.ext_getElem (by simp only [List.length_cons, List.length_nil]; omega) fun k hk hk' => ?_
    have here := holds k _ (List.getElem?_eq_getElem hk)
    rw [entry] at here
    obtain rfl | rfl | rfl | rfl : k = 0 ∨ k = 1 ∨ k = 2 ∨ k = 3 := by
      simp only [List.length_cons, List.length_nil] at hk'
      omega
    all_goals exact (Option.some_inj.1 here).symm
  have plain : s.types.isStructured .int = false := by rw [TypeTable.isStructured, hk]
  have run : ∃ stack, s.types.Steps (earlier ++ code) [] stack := by
    rcases last with ⟨_, rfl⟩ | hands
    · rw [List.append_nil]
      exact ⟨[], steps⟩
    · obtain ⟨_, _, _, value, _⟩ := hands.plain (by decide) plain
      exact ⟨_, steps.append value⟩
  rw [whole] at run
  obtain ⟨stack, run⟩ := run
  exact TypeTable.not_steps_store_int hk run

/-- The name of a parameter decides how a number is returned, against what its type asks for. -/
theorem namedProgram_returns : ¬ ∀ s, compile namedProgram "main.um" = .ok s →
    ∃ ends stop, s.Fills ends stop ∧ ∀ id f, s.idents.get? id = some f → ∀ a,
      f.payload = .function a none → s.ReturnsFrom f a (ends a) := by
  intro claim
  have stores : (compile namedProgram "main.um").toOption.any (fun s =>
      s.code.storesThroughInt && s.idents.toList.any s.startsInt) = true := by decide +kernel
  cases hs : compile namedProgram "main.um" with
  | error d =>
    rw [hs] at stores
    cases stores
  | ok s =>
    rw [hs] at stores
    obtain ⟨stores, starts⟩ := Bool.and_eq_true_iff.1 stores
    obtain ⟨f, hm, starts⟩ := List.any_eq_true.1 starts
    obtain ⟨id, hf⟩ := IdentTable.mem_toList.1 hm
    obtain ⟨ends, stop, fills, returns⟩ := claim s hs
    unfold Session.startsInt at starts
    split at starts
    case h_2 => cases starts
    rename_i payload kind
    obtain ⟨signature, result, kind', listed, _, hands⟩ := returns id f hf 1 payload
    cases kind.symm.trans kind'
    cases listed.symm.trans (of_decide_eq_true starts)
    unfold Code.storesThroughInt at stores
    split at stores
    case h_2 => cases stores
    rename_i code
    obtain ⟨read, stored⟩ := Bool.and_eq_true_iff.1 stores
    obtain rfl := of_decide_eq_true read
    obtain rfl := of_decide_eq_true stored
    have valid : s.Valid ∅ := valid_of_mem_history
      (List.mem_of_getLast? (getLast?_history_of_compile hs))
    have known : TypeId.int.index < TypeTable.initial.size := by decide
    obtain ⟨_, int⟩ := valid.grounded.builtin known rfl
    exact not_handsOver_of_store code int (fills.bodies id f hf 1 payload) hands

end FrontEnd
