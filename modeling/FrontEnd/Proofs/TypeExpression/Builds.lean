import FrontEnd.Proofs.Expression.Effect
import FrontEnd.Proofs.TypeExpression.Open
import FrontEnd.Proofs.TypeExpression.Tree

/-!
Steps that read a type and succeed. From the words that stand at the front of a stream it is known
which way such a step goes; it changes nothing but the types of a session.
-/

namespace FrontEnd

/-! ### Words at the front -/

namespace Stream

/-- At the front of `s` stand the words `words`; `rest` is the stream behind them. -/
structure Shows (s : Stream) (words : List Token) (rest : Stream) : Prop where
  ahead : s.ahead = words ++ rest.ahead
  rest : rest = advance^[words.length] s

variable {s rest : Stream} {words more : List Token} {word : TokenKind} {span : Span}

theorem shows_of_ahead {behind : List Token} (h : s.ahead = words ++ behind) :
    s.Shows words (advance^[words.length] s) :=
  ⟨by rw [ahead_iterate_advance h, h], rfl⟩

namespace Shows

theorem nil (h : s.Shows [] rest) : rest = s :=
  h.rest

theorem kind (h : s.Shows (⟨word, span⟩ :: words) rest) : s.kind = word :=
  kind_of_ahead h.ahead

theorem tail (h : s.Shows (⟨word, span⟩ :: words) rest) : s.advance.Shows words rest :=
  ⟨ahead_advance h.ahead, h.rest⟩

theorem append (h : s.Shows (words ++ more) rest) :
    ∃ m, s.Shows words m ∧ m.Shows more rest := by
  have split := h.ahead
  rw [List.append_assoc] at split
  have first := shows_of_ahead split
  refine ⟨_, first, ?_, ?_⟩
  · rw [ahead_iterate_advance split]
  · rw [h.rest, iterate_advance_append]

end Shows

theorem isAt_of_kind {symbol wanted : Symbol} (h : s.kind = .symbol symbol) :
    s.isAt wanted = decide (symbol = wanted) := by
  rw [isAt, h]
  exact decide_eq_decide.2 Option.some_inj

/-- What goes on with one of some symbols ends in front of another one. -/
theorem ends_of_kind {symbol : Symbol} {symbols : List Symbol} {goesOn? : Option Symbol}
    (h : s.kind = .symbol symbol) (other : symbol ∉ symbols)
    (known : ∀ wanted ∈ goesOn?, wanted ∈ symbols) :
    ∀ wanted ∈ goesOn?, s.isAt wanted = false := by
  intro wanted hw
  rw [isAt_of_kind h]
  refine decide_eq_false ?_
  rintro rfl
  exact other (known _ hw)

theorem skip?_of_kind {wanted : Symbol} (h : s.kind = .symbol wanted) (hw : wanted ≠ .endOfFile) :
    ∃ behind, s.skip? wanted = some ⟨(), s.advance, behind⟩ :=
  skip?_of_isAt (by rw [isAt_of_kind h]; exact decide_eq_true rfl) hw

theorem skip?_eq_none {wanted : Symbol} (h : s.isAt wanted = false) : s.skip? wanted = none := by
  cases hs : s.skip? wanted with
  | none => rfl
  | some rest => cases h.symm.trans (isAt_of_skip? hs).1

theorem ident?_of_kind {name : String} (h : s.kind = .ident name) : s.ident? = some name := by
  rw [ident?, h]
  rfl

theorem ident?_eq_none {symbol : Symbol} (h : s.kind = .symbol symbol) : s.ident? = none := by
  rw [ident?, h]
  rfl

theorem name?_eq_none {symbol : Symbol} (h : s.kind = .symbol symbol) : s.name? = none := by
  unfold name?
  split
  · rename_i found
    cases (ident?_eq_none h).symm.trans found
  · rfl

/-- An entry between curly brackets ends at `s`, and what follows begins at `next`. No semicolon is
needed behind the last entry. -/
inductive Separates (s : Stream) : Stream → Prop
  | closing (h : s.kind = .symbol .closeCurly) : Separates s s
  | semicolon (h : s.kind = .symbol .semicolon) : Separates s s.advance

theorem Separates.kind {next : Stream} (h : s.Separates next) :
    ∃ symbol, s.kind = .symbol symbol ∧ symbol ∉ [Symbol.dot, .openBracket, .colon] := by
  cases h with
  | closing h => exact ⟨_, h, by decide⟩
  | semicolon h => exact ⟨_, h, by decide⟩

end Stream

/-! ### Steps -/

namespace Action

variable {α β : Type} {setup : Setup} {s : Session} {U V O : Set TypeId} {t : TypeTable}
  {stream : Stream} {Q : α → TypeTable → Prop} {R : β → TypeTable → Prop}

/-- From the types `t` the step succeeds and leaves nothing behind but other types. These keep the
kinds of `t`, except for the structures in `O`. -/
def Builds (action : Action α) (setup : Setup) (s : Session) (U O : Set TypeId) (t : TypeTable)
    (Q : α → TypeTable → Prop) : Prop :=
  ∃ v u, action.Yields setup { s with types := t } v { s with types := u } ∧
    s.types.Opens U u ∧ t.Keeps O u ∧ Q v u

theorem builds_pure {v : α} (opens : s.types.Opens U t) (hQ : Q v t) :
    (pure v : Action α).Builds setup s U O t Q :=
  ⟨v, t, yields_pure.2 ⟨rfl, rfl⟩, opens, .refl O t, hQ⟩

theorem Builds.bind {action : Action α} {f : α → Action β} (h : action.Builds setup s U O t Q)
    (hf : ∀ v u, s.types.Opens U u → t.Keeps O u → Q v u → (f v).Builds setup s U O u R) :
    (action >>= f).Builds setup s U O t R := by
  obtain ⟨v, u, first, opens, keeps, hQ⟩ := h
  obtain ⟨w, x, second, opens', keeps', hR⟩ := hf v u opens keeps hQ
  exact ⟨w, x, yields_bind.2 ⟨v, _, first, second⟩, opens', keeps.trans keeps', hR⟩

/-- A part that leaves all kinds as they are. -/
theorem Builds.inner {action : Action α} {f : α → Action β} (h : action.Builds setup s U ∅ t Q)
    (hf : ∀ v u, s.types.Opens U u → t.Keeps ∅ u → Q v u → (f v).Builds setup s U O u R) :
    (action >>= f).Builds setup s U O t R := by
  obtain ⟨v, u, first, opens, keeps, hQ⟩ := h
  obtain ⟨w, x, second, opens', keeps', hR⟩ := hf v u opens keeps hQ
  exact ⟨w, x, yields_bind.2 ⟨v, _, first, second⟩, opens',
    (keeps.mono (Set.empty_subset O)).trans keeps', hR⟩

theorem Builds.imp {action : Action α} {P : α → TypeTable → Prop}
    (h : action.Builds setup s U O t P)
    (hPQ : ∀ v u, s.types.Opens U u → t.Keeps O u → P v u → Q v u) :
    action.Builds setup s U O t Q := by
  obtain ⟨v, u, yields, opens, keeps, hP⟩ := h
  exact ⟨v, u, yields, opens, keeps, hPQ v u opens keeps hP⟩

/-- A step that leaves the types as they are. -/
theorem Yields.builds {action : Action α} {v : α}
    (h : action.Yields setup { s with types := t } v { s with types := t })
    (opens : s.types.Opens U t) (hQ : Q v t) : action.Builds setup s U O t Q :=
  ⟨v, t, h, opens, .refl O t, hQ⟩

theorem builds_get {f : Session → Action α} :
    (get >>= f).Builds setup s U O t Q ↔ (f { s with types := t }).Builds setup s U O t Q :=
  Iff.rfl

theorem builds_read {f : Setup → Action α} :
    (read >>= f).Builds setup s U O t Q ↔ (f setup).Builds setup s U O t Q :=
  Iff.rfl

theorem builds_eat {wanted : Symbol} {f : Shorter stream → Action α}
    (h : stream.kind = .symbol wanted) (hw : wanted ≠ .endOfFile)
    (hf : ∀ behind, (f ⟨(), stream.advance, behind⟩).Builds setup s U O t Q) :
    (eat wanted stream >>= f).Builds setup s U O t Q := by
  obtain ⟨behind, skipped⟩ := Stream.skip?_of_kind h hw
  unfold eat
  rw [skipped]
  exact hf behind

theorem builds_separator {next : Stream} {f : Kept stream → Action α}
    (h : stream.Separates next)
    (hf : ∀ within, (f ⟨(), next, within⟩).Builds setup s U O t Q) :
    (separator .closeCurly stream >>= f).Builds setup s U O t Q := by
  unfold separator
  cases h with
  | closing h =>
    rw [Stream.isAt_of_kind h, decide_eq_true rfl, if_pos rfl]
    exact hf _
  | semicolon h =>
    rw [Stream.isAt_of_kind h, decide_eq_false (by decide), if_neg Bool.false_ne_true, bind_assoc]
    exact builds_eat h (by decide) fun behind => hf behind.within

theorem builds_addType {kind : TypeKind} {f : TypeId → Action α} (opens : s.types.Opens U t)
    (hk : ∀ part ∈ kind.contents, t.Closed U part)
    (hf : s.types.Opens U (t.add kind).2 → (f ⟨t.size⟩).Builds setup s U O (t.add kind).2 Q) :
    (addType kind >>= f).Builds setup s U O t Q := by
  obtain ⟨v, u, yields, opens', keeps, hQ⟩ := hf (opens.add hk)
  exact ⟨v, u, yields_bind.2 ⟨⟨t.size⟩, _, rfl, yields⟩, opens',
    (TypeTable.keeps_add O t kind).trans keeps, hQ⟩

/-- While a new structure is open, only its own kind changes. -/
theorem builds_open {kind : TypeKind} {f : TypeId → Action α} (opens : s.types.Opens U t)
    (hs : kind.isStructure = true) (empty : kind.contents = [])
    (hf : s.types.Opens (insert ⟨t.size⟩ U) (t.add kind).2 →
      (f ⟨t.size⟩).Builds setup s (insert ⟨t.size⟩ U) {⟨t.size⟩} (t.add kind).2 Q) :
    (addType kind >>= f).Builds setup s U ∅ t Q := by
  obtain ⟨v, u, yields, opens', keeps, hQ⟩ := hf (opens.start hs empty)
  have whole := (TypeTable.keeps_add {⟨t.size⟩} t kind).trans keeps
  refine ⟨v, u, yields_bind.2 ⟨⟨t.size⟩, _, rfl, yields⟩, opens'.mono (Set.subset_insert _ U),
    ⟨whole.size, fun id hi _ => whole.kinds id hi ?_⟩, hQ⟩
  rintro rfl
  exact Nat.lt_irrefl _ hi

/-! ### Names of types -/

section Names

variable {root : String} {r : Reference} {words : List Token} {behind : Stream} {id : TypeId}

theorem yields_resolve_of_typeOf? (h : s.typeOf? setup r = some id) (t : TypeTable) :
    ∃ x, (resolve r).Yields setup { s with types := t } x { s with types := t } ∧
      x.2.kind = .type ∧ x.2.type = id ∧ s.idents.get? x.1 = some x.2 := by
  unfold Session.typeOf? at h
  split at h
  · rename_i place ident u resolved
    obtain ⟨found, rfl, others⟩ := yields_resolve resolved
    split at h
    · rename_i kind
      exact ⟨(place, ident), others t u.code, kind, Option.some_inj.1 h, found⟩
    · cases h
  · cases h

theorem typeOf?_lt (hs : s ∈ history setup root) (h : s.typeOf? setup r = some id) :
    id.index < s.types.size := by
  obtain ⟨x, _, _, rfl, found⟩ := yields_resolve_of_typeOf? h s.types
  exact ((valid_of_mem_history hs).idents x.1 x.2 found).type.has

theorem builds_typeReference (opens : s.types.Opens U t) (written : r.WrittenAs s.isModule words)
    (shows : stream.Shows words behind)
    (ends : ∀ name ∈ r.plain?, s.isModule name = true → behind.isAt .dot = false)
    (found : s.typeOf? setup r = some id) :
    (typeReference stream).Builds setup s U O t fun past u =>
      past.value.type = id ∧ past.stream = behind ∧ u = t := by
  obtain ⟨x, resolved, kind, type, _⟩ := yields_resolve_of_typeOf? found t
  obtain rfl := shows.rest
  obtain ⟨past, read, rfl, stops⟩ := Reference.read?_of_writtenAs written shows.ahead ends
  have refers : (reference stream).Yields setup { s with types := t } ⟨x, past.stream, past.lt⟩
      { s with types := t } := yields_reference.2 ⟨past, read, rfl, resolved⟩
  refine Yields.builds (v := ⟨x.2, past.stream, past.lt⟩) ?_ opens ⟨type, stops, rfl⟩
  refine yields_bind.2 ⟨_, _, refers, ?_⟩
  simp only [fail_bind]
  rw [if_neg (not_not.2 kind)]
  exact yields_pure.2 ⟨rfl, rfl⟩

theorem builds_namedType (hs : s ∈ history setup root) (opens : s.types.Opens U t)
    (written : r.WrittenAs s.isModule words) (shows : stream.Shows words behind)
    (ends : ∀ name ∈ r.plain?, s.isModule name = true → behind.isAt .dot = false)
    (found : s.typeOf? setup r = some id) (solid : s.types.isForward id = false) :
    (namedType stream).Builds setup s U O t fun past u =>
      past.value = id ∧ past.stream = behind ∧ u = t := by
  have solid : t.isForward id = false := by
    rw [TypeTable.isForward_eq, opens.kinds id (typeOf?_lt hs found), ← TypeTable.isForward_eq,
      solid]
  unfold namedType
  refine (builds_typeReference opens written shows ends found).bind ?_
  rintro ⟨i, s', h⟩ u opens' _ ⟨type, stops, rfl⟩
  simp only [fail_bind]
  rw [builds_get, if_neg (by rw [type, solid]; exact Bool.false_ne_true)]
  exact builds_pure opens' ⟨type, stops, rfl⟩

/-- A name that stands for a type is not declared anew behind `^`. -/
theorem yields_isUndeclared (written : r.WrittenAs s.isModule words)
    (shows : stream.Shows words behind)
    (ends : ∀ name ∈ r.plain?, s.isModule name = true → behind.isAt .dot = false)
    (found : s.typeOf? setup r = some id) :
    ∃ name, stream.name? = some name ∧
      (isUndeclared name).Yields setup { s with types := t } false { s with types := t } := by
  obtain ⟨x, resolved, _⟩ := yields_resolve_of_typeOf? found s.types
  cases written with
  | plain name span =>
    obtain ⟨past, here⟩ := Stream.name?_of_kind shows.kind
    obtain rfl := shows.tail.nil
    have known := (yields_resolve_plain.1 resolved).1
    refine ⟨_, here, yields_get.2 (yields_pure.2 ⟨?_, rfl⟩)⟩
    have declared : (s.idents.find? s.blocks name).isNone = false := by
      rw [known]
      rfl
    exact (congrArg _ declared).trans (Bool.and_false _) |>.symm
  | @member file isFile name start dot span =>
    obtain ⟨past, here⟩ := Stream.name?_of_kind shows.kind
    refine ⟨_, here, yields_get.2 (yields_pure.2 ⟨?_, rfl⟩)⟩
    have dotted : stream.advance.isAt .dot = true := by
      rw [Stream.isAt_of_kind shows.tail.kind]
      rfl
    have member : (stream.advance.isAt .dot && s.isModule file) = true := by
      rw [dotted, isFile]
      rfl
    exact (congrArg (fun b => !b && _) member).trans (Bool.false_and _) |>.symm

theorem builds_namedPointerTarget (opens : s.types.Opens U t)
    (written : r.WrittenAs s.isModule words) (shows : stream.Shows words behind)
    (ends : ∀ name ∈ r.plain?, s.isModule name = true → behind.isAt .dot = false)
    (found : s.typeOf? setup r = some id) :
    (pointerTarget stream).Builds setup s U O t fun past u =>
      past.value = id ∧ past.stream = behind ∧ u = t := by
  obtain ⟨name, here, declared⟩ := yields_isUndeclared (t := t) written shows ends found
  rw [pointerTarget, here]
  refine (declared.builds (Q := fun v u => v = false ∧ u = t) opens ⟨rfl, rfl⟩).bind ?_
  rintro _ u opens' _ ⟨rfl, rfl⟩
  rw [if_neg Bool.false_ne_true]
  refine (builds_typeReference opens' written shows ends found).bind ?_
  rintro ⟨i, s', h⟩ v opens'' _ ⟨type, stops, rfl⟩
  exact builds_pure opens'' ⟨type, stops, rfl⟩

end Names

/-! ### Lengths -/

section Lengths

variable {behind : Stream} {n : Int64} {span : Span}

theorem builds_length {negative : Cause} (opens : s.types.Opens U t) (nonneg : 0 ≤ n)
    (shows : stream.Shows [⟨.int n, span⟩] behind) (closing : behind.kind = .symbol .closeBracket) :
    (length negative stream).Builds setup s U O t fun rest u =>
      rest.value = n ∧ rest.stream = behind ∧ u = t := by
  obtain rfl := shows.rest
  have written : ((Expression.literal (.int n)).parenthesize 1).WrittenAs s.isModule
      [⟨.int n, span⟩] := .literal rfl span
  obtain ⟨within, run⟩ := run_expression_of_got .constant setup { s with types := t }
    (Expression.got_read_of_writtenAs written ((Expression.literal (.int n)).fits_parenthesize 1)
      shows.ahead (by rw [closing]; rfl) fun _ hm => absurd hm (Option.not_mem_none _))
  have read : (constantExpression stream).Yields setup { s with types := t }
      ⟨(.int n, .int), Stream.advance^[1] stream, within⟩ { s with types := t } :=
    yields_bind.2 ⟨⟨⟨.int, some (.int n)⟩, _, within⟩, _, run, rfl⟩
  refine Yields.builds (v := ⟨n, _, within⟩) ?_ opens ⟨rfl, rfl, rfl⟩
  refine yields_bind.2 ⟨_, _, read, ?_⟩
  simp only [fail_bind]
  rw [yields_get, if_neg (by simp [TypeTable.compatible_refl])]
  dsimp only [Constant.asInt?]
  rw [if_pos nonneg]
  exact yields_pure.2 ⟨rfl, rfl⟩

theorem builds_arrayLength {length? : Option Int64} {inside : List Token}
    (opens : s.types.Opens U t) (measured : LengthWrittenAs length? inside)
    (shows : stream.Shows inside behind) (closing : behind.kind = .symbol .closeBracket) :
    (arrayLength stream).Builds setup s U O t fun rest u =>
      rest.value = length?.getD openLength ∧ rest.stream = behind ∧ u = t := by
  unfold arrayLength
  cases measured with
  | missing =>
    obtain rfl := shows.nil
    rw [Stream.isAt_of_kind closing, decide_eq_true rfl, if_pos rfl]
    exact builds_pure opens ⟨rfl, rfl, rfl⟩
  | given nonneg span =>
    have here : stream.isAt .closeBracket = false := by
      rw [Stream.isAt, shows.kind]
      rfl
    rw [here, if_neg Bool.false_ne_true]
    exact builds_length opens nonneg shows closing

end Lengths

/-! ### Names that are declared -/

theorem read_of_kind {name : String} (h : stream.kind = .ident name)
    (mark : stream.advance.isAt (.operator .multiply) = false) :
    ∃ past, DeclaredName.read stream = .ok past ∧ past.value.name = name ∧
      past.value.exported = false ∧ past.stream = stream.advance := by
  obtain ⟨behind, here⟩ := Stream.name?_of_kind h
  unfold DeclaredName.read Stream.exportMark
  rw [here]
  simp only [Stream.skip?_eq_none mark]
  exact ⟨_, rfl, rfl, rfl, rfl⟩

section Lists

variable {name : String} {past : Past stream DeclaredName} {room : Nat}

theorem checkIdent_of_kind (h : stream.kind = .ident name) : stream.checkIdent = .ok name := by
  rw [Stream.checkIdent, Stream.ident?_of_kind h]

theorem readList_single (h : stream.kind = .ident name) (read : DeclaredName.read stream = .ok past)
    (last : past.stream.skip? .comma = none) :
    DeclaredName.readList (room + 1) stream = .ok ⟨[past.value], past.stream, past.lt⟩ := by
  rw [DeclaredName.readList, checkIdent_of_kind h, read]
  dsimp only [bind, Except.bind]
  rw [last]
  rfl

theorem readList_cons (h : stream.kind = .ident name) (read : DeclaredName.read stream = .ok past)
    {comma : Shorter past.stream} (next : past.stream.skip? .comma = some comma)
    {more : Past comma.stream (List DeclaredName)}
    (others : DeclaredName.readList room comma.stream = .ok more) :
    DeclaredName.readList (room + 1) stream = .ok ⟨past.value :: more.value, more.stream,
      more.lt.trans (comma.lt.trans past.lt)⟩ := by
  rw [DeclaredName.readList, checkIdent_of_kind h, read]
  dsimp only [bind, Except.bind]
  rw [next]
  dsimp only [Past.after]
  rw [others]
  rfl

end Lists

theorem readList_of_writtenAs {names : List String} {words : List Token}
    (written : NamesWrittenAs names words) {capacity : Nat} (fits : names.length ≤ capacity)
    {stream behind : Stream} (shows : stream.Shows words behind)
    (colon : behind.kind = .symbol .colon) :
    ∃ past, DeclaredName.readList capacity stream = .ok past ∧ past.value.map (·.name) = names ∧
      (∀ d ∈ past.value, d.exported = false) ∧ past.stream = behind := by
  induction written generalizing capacity stream with
  | single name span =>
    obtain ⟨room, rfl⟩ : ∃ n, capacity = n + 1 := ⟨capacity - 1, (Nat.sub_add_cancel fits).symm⟩
    obtain rfl := shows.tail.nil
    obtain ⟨⟨declared, _, h₁⟩, read, rfl, plain, rfl⟩ :=
      read_of_kind shows.kind (by rw [Stream.isAt_of_kind colon]; rfl)
    have last : stream.advance.skip? .comma = none :=
      Stream.skip?_eq_none (by rw [Stream.isAt_of_kind colon]; rfl)
    refine ⟨_, readList_single shows.kind read last, rfl, fun d hd => ?_, rfl⟩
    rw [List.mem_singleton.1 hd, plain]
  | @cons name span comma names words written ih =>
    obtain ⟨room, rfl⟩ : ∃ n, capacity = n + 1 :=
      ⟨capacity - 1, (Nat.sub_add_cancel (Nat.le_trans (Nat.succ_pos _) fits)).symm⟩
    have between := shows.tail.kind
    obtain ⟨⟨more, _, h₂⟩, others, rfl, plains, rfl⟩ :=
      ih (Nat.le_of_succ_le_succ fits) shows.tail.tail
    obtain ⟨⟨declared, _, h₁⟩, read, rfl, plain, rfl⟩ :=
      read_of_kind shows.kind (by rw [Stream.isAt_of_kind between]; rfl)
    obtain ⟨hc, next⟩ := Stream.skip?_of_kind between (by decide)
    refine ⟨_, readList_cons shows.kind read next others, rfl, fun d hd => ?_, rfl⟩
    rcases List.mem_cons.1 hd with rfl | hd
    · exact plain
    · exact plains d hd

end Action

end FrontEnd
