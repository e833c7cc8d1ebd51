import FrontEnd.Proofs.TypeExpression.Written

/-!
Type expressions that are written by the rules of the grammar are read. The productions for
structures, interfaces and signatures read lists of entries, each with the tables that those before
it have left; together with the others they read all trees.
-/

namespace FrontEnd

open TypeTable

variable {setup : Setup} {root : String} {s : Session} {U O : Set TypeId} {t u : TypeTable}
  {first : Nat} {id : TypeId} {n : Int64} {stream behind : Stream} {words : List Token}

namespace Action

/-! ### Structures -/

theorem kind_of_names {names : List String} (h : NamesWrittenAs names words) {more : List Token}
    (shows : stream.Shows (words ++ more) behind) : ∃ name, stream.kind = .ident name := by
  cases h with
  | single name span => exact ⟨name, shows.kind⟩
  | cons name span comma written => exact ⟨name, shows.kind⟩

theorem builds_typedNames {names : List String} {tree : TypeTree} {before : List Token}
    {colon : Span} {capacity : Nat} (ih : tree.IsRead setup s) (opens : s.types.Opens U t)
    (named : NamesWrittenAs names before) (written : tree.WrittenAs s.isModule words)
    (shows : stream.Shows (before ++ ⟨.symbol .colon, colon⟩ :: words) behind)
    (ends : ∀ symbol ∈ tree.goesOn? s.isModule, behind.isAt symbol = false)
    (fits : names.length ≤ capacity) (proper : tree.Proper setup s)
    (sized : tree.size? setup s = some n) :
    (typedNames capacity stream).Builds setup s U ∅ t fun past u =>
      past.stream = behind ∧ past.value.1.map (·.name) = names ∧
        (∀ d ∈ past.value.1, d.exported = false) ∧
        tree.Built setup s U t.size u n past.value.2 := by
  obtain ⟨middle, listed, typed⟩ := shows.append
  obtain ⟨⟨declared, s₁, h₁⟩, read, same, plain, rfl⟩ :=
    readList_of_writtenAs named fits listed typed.kind
  rw [typedNames, read]
  refine builds_eat (f := _) typed.kind (by decide) fun h₂ => ?_
  refine (ih opens written typed.tail ends proper sized).bind ?_
  rintro ⟨type, s₃, h₃⟩ u opens' _ ⟨rfl, built⟩
  exact builds_pure opens' ⟨rfl, same, plain, built⟩

theorem findField?_eq_none {owner : TypeId} {members : List Field} {name : String}
    (hm : (t.kind owner).fields = members) (fresh : name ∉ members.map (·.name)) :
    t.findField? owner name = none := by
  rw [TypeTable.findField?, fields_eq, hm]
  refine List.find?_eq_none.2 fun f hf same => fresh ?_
  exact List.mem_map.2 ⟨f, hf, of_decide_eq_true same⟩

theorem builds_addStructField {owner type : TypeId} {members : List Field} {field : DeclaredName}
    {start stop : Int64} (plain : field.exported = false) (opens : s.types.Opens U t)
    (ho : owner ∈ U) (kind : t.kind owner = .struct members) (begins : t.size? owner = some start)
    (fresh : field.name ∉ members.map (·.name)) (closed : t.Closed U type)
    (size : t.size? type = some n) (ends : Word.add? start n = some stop) :
    (addStructField owner type field).Builds setup s U {owner} t fun _ u =>
      u.kind owner = .struct (members ++ [⟨field.name, type, start⟩]) ∧
        u.size? owner = some stop := by
  obtain ⟨u, added, gains⟩ := opens.exists_addField ho field.name closed begins size ends
  have none : t.findField? owner field.name = none :=
    findField?_eq_none (by rw [kind]; rfl) fresh
  unfold addStructField
  simp only [fail_bind]
  rw [if_neg (by rw [plain]; exact Bool.false_ne_true), builds_get, if_neg (by rw [none]; decide)]
  simp only [added]
  refine ⟨⟨⟩, u, rfl, gains.opens, gains.keeps, ?_, gains.size⟩
  rw [gains.kind, kind]
  rfl

theorem builds_addStructFields {owner type : TypeId} {members : List Field}
    {names : List DeclaredName} {start stop : Int64} (plain : ∀ d ∈ names, d.exported = false)
    (opens : s.types.Opens U t) (ho : owner ∈ U) (kind : t.kind owner = .struct members)
    (begins : t.size? owner = some start)
    (distinct : (members.map (·.name) ++ names.map (·.name)).Nodup) (closed : t.Closed U type)
    (size : t.size? type = some n) (ends : Word.endOf? n names.length start = some stop) :
    (names.forM (addStructField owner type)).Builds setup s U {owner} t fun _ u =>
      u.size? owner = some stop ∧ ∃ more : List Field, u.kind owner = .struct (members ++ more) ∧
        more.map Field.entry = names.map fun d => (d.name, type) := by
  induction names generalizing t members start with
  | nil =>
    cases ends
    exact builds_pure opens ⟨begins, [], by rw [kind, List.append_nil], rfl⟩
  | cons d names ih =>
    obtain ⟨next, first, rest⟩ := Option.bind_eq_some_iff.1 ends
    have fresh : d.name ∉ members.map (·.name) := fun hm =>
      (List.nodup_append.1 distinct).2.2 _ hm _ List.mem_cons_self rfl
    refine (builds_addStructField (plain d List.mem_cons_self) opens ho kind begins fresh closed
      size first).bind ?_
    rintro _ u opens' keeps ⟨kind', begins'⟩
    have other : type ∉ ({owner} : Set TypeId) := by
      rintro rfl
      exact closed.closed ho
    have size' : u.size? type = some n := by
      rw [opens.size?_eq opens' keeps (Set.singleton_subset_iff.2 ho) closed.has other, size]
    refine (ih (fun d hd => plain d (List.mem_cons_of_mem _ hd)) opens' kind' begins' ?_
      (closed.keeps keeps) size' rest).imp ?_
    · rw [List.map_append, List.append_assoc]
      exact distinct
    · rintro _ v _ _ ⟨total, more, kind'', entries⟩
      refine ⟨total, _ :: more, by rw [kind'', List.append_assoc, List.singleton_append], ?_⟩
      rw [List.map_cons, entries]
      rfl

theorem areFields_nil : GroupTrees.nil.AreFields setup s := by
  rintro U t stream behind words owner members start stop opens ho kind begins ⟨⟩ shows closing
    proper distinct ends
  cases ends
  obtain rfl := shows.nil
  rw [structFields, Stream.ident?_eq_none closing, if_pos Option.isNone_none]
  exact builds_pure opens ⟨rfl, begins, [], by rw [kind, List.append_nil], rfl⟩

end Action

theorem GroupTrees.FieldsWrittenAs.shows_cons {names : List String} {tree : TypeTree}
    {others : GroupTrees} {isModule : String → Bool}
    (h : (GroupTrees.cons names tree others).FieldsWrittenAs isModule words)
    (shows : stream.Shows words behind) (closing : behind.kind = .symbol .closeCurly) :
    ∃ before colon typed m next rest, NamesWrittenAs names before ∧
      tree.WrittenAs isModule typed ∧ stream.Shows (before ++ ⟨.symbol .colon, colon⟩ :: typed) m ∧
      m.Separates next ∧ others.FieldsWrittenAs isModule rest ∧ next.Shows rest behind := by
  cases h with
  | last named colon written =>
    exact ⟨_, colon, _, behind, behind, [], named, written, shows, .closing closing, .nil,
      ⟨rfl, rfl⟩⟩
  | @cons _ _ _ before typed rest named colon written semicolon others =>
    rw [← List.cons_append, ← List.append_assoc] at shows
    obtain ⟨m, first, second⟩ := shows.append
    exact ⟨_, colon, _, m, _, _, named, written, first, .semicolon second.kind, others, second.tail⟩

namespace Action

theorem areFields_cons {names : List String} {tree : TypeTree} {others : GroupTrees}
    (ih : tree.IsRead setup s) (ihOthers : others.AreFields setup s) :
    (GroupTrees.cons names tree others).AreFields setup s := by
  rintro U t stream behind words owner members start stop opens ho kind begins written shows closing
    ⟨fits, proper, properOthers⟩ distinct sized
  obtain ⟨before, colon, typed, m, next, rest, named, written, first, separates, others, second⟩ :=
    written.shows_cons shows closing
  obtain ⟨n, sizedTree, sized⟩ := Option.bind_eq_some_iff.1 sized
  obtain ⟨middle, group, sizedOthers⟩ := Option.bind_eq_some_iff.1 sized
  obtain ⟨symbol, symbolic, other⟩ := separates.kind
  have ends : ∀ wanted ∈ tree.goesOn? s.isModule, m.isAt wanted = false :=
    Stream.ends_of_kind symbolic other fun _ => tree.mem_goesOn?
  obtain ⟨name, head⟩ := kind_of_names named first
  have known : owner.index < t.size := index_lt_of_isStructure (opens.structured owner ho)
  rw [structFields, Stream.ident?_of_kind head, Option.isNone_some, if_neg Bool.false_ne_true]
  refine (builds_typedNames ih opens named written first ends fits
    proper sizedTree).inner ?_
  rintro ⟨⟨declared, type⟩, s₁, h₁⟩ u₁ opens₁ keeps₁ ⟨rfl, rfl, plain, built⟩
  obtain ⟨kind₁, begins₁⟩ := opens.keeps_owner opens₁ keeps₁ ho
  rw [kind] at kind₁
  rw [begins] at begins₁
  rw [List.length_map] at group
  rw [GroupTrees.names, ← List.append_assoc] at distinct
  refine (builds_addStructFields plain opens₁ ho kind₁ begins₁ (List.nodup_append.1 distinct).1
    built.closed built.size group).bind ?_
  rintro _ u₂ opens₂ keeps₂ ⟨begins₂, more, kind₂, entries⟩
  refine builds_separator separates fun within => ?_
  have names : more.map (·.name) = declared.map (·.name) := by
    have firsts := congrArg (List.map Prod.fst) entries
    rwa [List.map_map, List.map_map] at firsts
  refine (ihOthers opens₂ ho kind₂ begins₂ others second closing properOthers ?_
    sizedOthers).bind ?_
  · rw [List.map_append, names]
    exact distinct
  rintro ⟨_, s₃, h₃⟩ u₃ opens₃ keeps₃ ⟨rfl, ends, final, kind₃, denotes⟩
  refine builds_pure opens₃ ⟨rfl, ends, more ++ final, by rw [kind₃, List.append_assoc], ?_⟩
  refine ⟨type, _, ?_, denotes, ?_⟩
  · exact built.denotes.keeps ((keeps₂.trans keeps₃).keepsFrom_of_lt known) known
  · rw [List.map_append, entries, List.map_map]
    rfl

theorem isRead_struct {fields : GroupTrees} (ih : fields.AreFields setup s) :
    (TypeTree.struct fields).IsRead setup s := by
  rintro U t stream behind words n opens (_ | _ | _ | _ | _ | ⟨_, _, written, _⟩) shows ends
    ⟨proper, distinct⟩ sized
  obtain ⟨middle, inside, closing⟩ := shows.tail.tail.append
  obtain rfl := closing.tail.nil
  have size : (t.add (.struct [])).2.size? ⟨t.size⟩ = some 0 := by
    rw [opens.size?_add (closed_of_contents_nil rfl), TypeTable.sizeFrom, kind_add_self]
    rfl
  rw [typeExpression, shows.kind]
  show (structType stream).Builds _ _ _ _ _ _
  rw [structType]
  refine builds_eat shows.kind (by decide) fun h₁ => ?_
  refine builds_eat shows.tail.kind (by decide) fun h₂ => ?_
  refine builds_open opens rfl rfl fun opens₁ => ?_
  refine (ih opens₁ (Set.mem_insert _ U) (kind_add_self _) size written inside closing.kind proper
    distinct sized).bind ?_
  rintro ⟨_, s₃, h₃⟩ u opens₂ keeps ⟨rfl, total, more, kind, denotes⟩
  refine builds_eat closing.kind (by decide) fun h₄ => ?_
  have denotes : (TypeTree.struct fields).Denotes setup s t.size u ⟨t.size⟩ :=
    ⟨Nat.le_refl _, more, kind, denotes.keeps (fun _ _ _ => rfl) (Nat.le_succ _)⟩
  exact builds_pure opens₂ ⟨rfl, .of_structure opens (by rw [kind]; rfl) denotes total rfl⟩

/-! ### Signatures -/

theorem size?_anyPointer (hs : s ∈ history setup root) (opens : s.types.Opens U t) :
    t.size? .anyPointer = some pointerSize := by
  rw [opens.founded.size?_eq, TypeTable.sizeFrom, opens.kind_builtin hs (by decide)]
  rfl

theorem begun_empty : Signature.empty.Begun [] 0 :=
  ⟨rfl, fun _ hm => absurd hm List.not_mem_nil, rfl, rfl⟩

theorem exists_addParameter? {c : Signature} {entries : List (String × TypeId)}
    {start stop : Int64} (begun : c.Begun entries start) (name : String) {type : TypeId}
    (size : t.size? type = some n) (ends : Word.add? start n = some stop) :
    ∃ c', t.addParameter? c name type none = some c' ∧ c'.Begun (entries ++ [(name, type)]) stop ∧
      c'.results = c.results ∧ c'.defaults = c.defaults := by
  have total : Word.add? c.parametersSize n = some stop := by rw [begun.size, ends]
  unfold TypeTable.addParameter?
  simp only [Option.bind_eq_bind, size, total, Option.bind_some]
  refine ⟨_, rfl, ⟨?_, fun p hp => ?_, rfl, begun.method⟩, rfl, rfl⟩
  · rw [List.map_append, begun.parameters]
    rfl
  · rcases List.mem_append.1 hp with hp | hp
    · exact begun.plain p hp
    · rw [List.mem_singleton.1 hp]

theorem builds_addParameter {type : TypeId} {c : Signature} {entries : List (String × TypeId)}
    {start stop : Int64} {d : DeclaredName} (opens : s.types.Opens U t) (plain : d.exported = false)
    (begun : c.Begun entries start) (size : t.size? type = some n)
    (ends : Word.add? start n = some stop) :
    (addParameter type none c d).Builds setup s U O t fun c' u =>
      u = t ∧ c'.Begun (entries ++ [(d.name, type)]) stop := by
  obtain ⟨c', added, begun, _⟩ := exists_addParameter? begun d.name size ends
  unfold addParameter
  simp only [fail_bind]
  rw [if_neg (by rw [plain]; exact Bool.false_ne_true), builds_get]
  simp only [added]
  exact builds_pure opens ⟨rfl, begun⟩

theorem builds_addParameters {type : TypeId} {c : Signature} {entries : List (String × TypeId)}
    {start stop : Int64} {names : List DeclaredName} (opens : s.types.Opens U t)
    (plain : ∀ d ∈ names, d.exported = false) (begun : c.Begun entries start)
    (size : t.size? type = some n) (ends : Word.endOf? n names.length start = some stop) :
    (names.foldlM (addParameter type none) c).Builds setup s U O t fun c' u =>
      u = t ∧ c'.Begun (entries ++ names.map fun d => (d.name, type)) stop := by
  induction names generalizing c entries start with
  | nil =>
    cases ends
    exact builds_pure opens ⟨rfl, by rwa [List.map_nil, List.append_nil]⟩
  | cons d names ih =>
    obtain ⟨next, first, rest⟩ := Option.bind_eq_some_iff.1 ends
    rw [List.foldlM_cons]
    refine (builds_addParameter opens (plain d List.mem_cons_self) begun size first).bind ?_
    rintro c' _ opens _ ⟨rfl, begun⟩
    refine (ih (fun d hd => plain d (List.mem_cons_of_mem _ hd)) begun rest).imp ?_
    rintro c'' u _ _ ⟨rfl, begun⟩
    rw [List.append_assoc] at begun
    exact ⟨rfl, begun⟩

theorem builds_addResult {c : Signature} {type : TypeId} {span : Span}
    {entries : List (String × TypeId)} {start stop : Int64} {structured : Bool}
    (opens : s.types.Opens U t) (begun : c.Begun entries start) (defaults : c.defaults = 0)
    (kind : t.isStructured type = structured)
    (ends : (if structured then Word.add? start pointerSize else some start) = some stop)
    (older : first ≤ t.size) :
    (addResult c type span).Builds setup s U O t fun c' u =>
      c'.isMethod = false ∧ c'.Answers first u entries type structured := by
  have listed : Signature.Lists { c with results := [type] } entries type :=
    ⟨begun.parameters, begun.plain, defaults, rfl⟩
  unfold addResult
  rw [builds_get]
  cases structured with
  | false =>
    rw [if_pos (by rw [kind]; rfl)]
    exact builds_pure opens ⟨begun.method, listed⟩
  | true =>
    rw [if_neg (by rw [kind]; exact Bool.false_ne_true)]
    have empty : ∀ part ∈ (TypeKind.pointer type).contents, t.Closed U part :=
      closed_of_contents_nil rfl
    refine builds_addType opens empty fun opens' => ?_
    have size : (t.add (.pointer type)).2.size? ⟨t.size⟩ = some pointerSize := by
      rw [opens.size?_add empty, TypeTable.sizeFrom, kind_add_self]
    obtain ⟨c', added, begun, results, defaulted⟩ :=
      exists_addParameter? (begun.revise c.defaults [type]) resultName size ends
    rw [builds_get]
    simp only [added]
    refine builds_pure opens' ⟨begun.method, ⟨t.size⟩, older, kind_add_self _, ?_⟩
    exact ⟨begun.parameters, begun.plain, defaulted.trans defaults, results⟩

theorem defaultValue_of_isAt (names : Nat) (type : TypeId) (h : stream.isAt .assign = false) :
    defaultValue names type 0 stream = pure (.here stream none) := by
  unfold defaultValue
  rw [Stream.skip?_eq_none h]
  simp

end Action

/-- Behind a group of parameters stands a comma with another group, or the end of the list. -/
theorem GroupTrees.ParametersWrittenAs.shows_cons {names : List String} {tree : TypeTree}
    {others : GroupTrees} {isModule : String → Bool}
    (h : (GroupTrees.cons names tree others).ParametersWrittenAs isModule words)
    (shows : stream.Shows words behind) (closing : behind.kind = .symbol .closeParen) :
    ∃ before colon typed m, NamesWrittenAs names before ∧ tree.WrittenAs isModule typed ∧
      stream.Shows (before ++ ⟨.symbol .colon, colon⟩ :: typed) m ∧
      (m.kind = .symbol .closeParen ∧ m = behind ∧ others = .nil ∨
        m.kind = .symbol .comma ∧ ∃ rest, others.ParametersWrittenAs isModule rest ∧
          m.advance.Shows rest behind) := by
  cases h with
  | last named colon written =>
    exact ⟨_, colon, _, behind, named, written, shows, .inl ⟨closing, rfl, rfl⟩⟩
  | @cons _ _ _ before typed rest named colon written comma others =>
    rw [← List.cons_append, ← List.append_assoc] at shows
    obtain ⟨m, first, second⟩ := shows.append
    exact ⟨_, colon, _, m, named, written, first, .inr ⟨second.kind, rest, others, second.tail⟩⟩

namespace Action

theorem areParameters_nil : GroupTrees.nil.AreParameters setup s := by
  rintro U t stream behind words start before from_ stop opens ⟨⟩

theorem areParameters_cons {names : List String} {tree : TypeTree} {others : GroupTrees}
    (ih : tree.IsRead setup s) (ihOthers : others.AreParameters setup s) :
    (GroupTrees.cons names tree others).AreParameters setup s := by
  rintro U t stream behind words start before from_ stop opens written shows closing
    ⟨fits, proper, properOthers⟩ begun sized
  obtain ⟨listed, colon, typed, m, named, written, first, follows⟩ :=
    written.shows_cons shows closing
  obtain ⟨n, sizedTree, sized⟩ := Option.bind_eq_some_iff.1 sized
  obtain ⟨middle, group, sizedOthers⟩ := Option.bind_eq_some_iff.1 sized
  obtain ⟨symbol, symbolic, other, plain⟩ : ∃ symbol, m.kind = .symbol symbol ∧
      symbol ∉ [Symbol.dot, .openBracket, .colon] ∧ symbol ≠ .assign := by
    rcases follows with ⟨symbolic, _⟩ | ⟨symbolic, _⟩ <;> exact ⟨_, symbolic, by decide, by decide⟩
  have ends : ∀ wanted ∈ tree.goesOn? s.isModule, m.isAt wanted = false :=
    Stream.ends_of_kind symbolic other fun _ => tree.mem_goesOn?
  rw [parameterGroups]
  refine (builds_typedNames ih opens named written first ends fits
    proper sizedTree).bind ?_
  rintro ⟨⟨declared, type⟩, s₁, h₁⟩ u₁ opens₁ keeps₁ ⟨rfl, rfl, unmarked, built⟩
  dsimp only
  rw [defaultValue_of_isAt _ _ (by rw [Stream.isAt_of_kind symbolic]; exact decide_eq_false plain)]
  rw [List.length_map] at group
  refine (builds_addParameters opens₁ unmarked begun built.size group).bind ?_
  rintro extended _ opens₂ _ ⟨rfl, begun⟩
  have own : before ++ declared.map (fun d => (d.name, type)) =
      before ++ (declared.map (·.name)).map (·, type) := by
    rw [List.map_map]
    rfl
  rw [own] at begun
  rcases follows with ⟨ending, rfl, rfl⟩ | ⟨comma, rest, others, second⟩
  · cases sizedOthers
    have last : s₁.skip? .comma = none :=
      Stream.skip?_eq_none (by rw [Stream.isAt_of_kind ending]; rfl)
    dsimp only [Past.after, Rest.after, Rest.here]
    rw [last]
    refine builds_pure opens₂ ⟨rfl, rfl, _, begun, type, [], built.denotes, rfl, ?_⟩
    rw [List.append_nil]
  · obtain ⟨hc, next⟩ := Stream.skip?_of_kind comma (by decide)
    dsimp only [Past.after, Rest.after, Rest.here]
    rw [next]
    refine (ihOthers opens₂ others second closing properOthers begun sizedOthers).bind ?_
    rintro ⟨⟨final, count⟩, s₃, h₃⟩ u₃ opens₃ keeps₃ ⟨rfl, rfl, more, begun, denotes⟩
    rw [List.append_assoc] at begun
    refine builds_pure opens₃ ⟨rfl, rfl, _, begun, type, more, ?_, ?_, rfl⟩
    · exact built.denotes.keeps (keeps₃.keepsFrom _) (Nat.le_refl _)
    · exact denotes.keeps (fun _ _ _ => rfl) keeps₁.size

theorem builds_optionalParameters {parameters : GroupTrees} {start : Signature}
    {before : List (String × TypeId)} {from_ stop : Int64} (ih : parameters.AreParameters setup s)
    (opens : s.types.Opens U t) (written : parameters.ListWrittenAs s.isModule words)
    (shows : stream.Shows words behind) (closing : behind.kind = .symbol .closeParen)
    (proper : parameters.Proper setup s maxParameters) (begun : start.Begun before from_)
    (sized : parameters.end? setup s from_ = some stop) :
    (optionalParameters start stream).Builds setup s U ∅ t fun rest u =>
      rest.stream = behind ∧ rest.value.2 = 0 ∧ ∃ own,
        rest.value.1.Begun (before ++ own) stop ∧ parameters.Denotes setup s t.size u own := by
  rw [optionalParameters]
  cases written with
  | nil =>
    cases sized
    obtain rfl := shows.nil
    rw [Stream.ident?_eq_none closing, Option.isSome_none, if_neg Bool.false_ne_true]
    exact builds_pure opens ⟨rfl, rfl, [], by rwa [List.append_nil], rfl⟩
  | some written =>
    obtain ⟨name, head⟩ : ∃ name, stream.kind = .ident name := by
      cases written with
      | last named => exact kind_of_names named shows
      | cons named => exact kind_of_names named shows
    rw [Stream.ident?_of_kind head, if_pos Option.isSome_some]
    refine (ih opens written shows closing proper begun sized).bind ?_
    rintro ⟨⟨extended, count⟩, s₂, h₂⟩ u opens' _ ⟨rfl, rfl, own, begun, denotes⟩
    exact builds_pure opens' ⟨rfl, rfl, own, begun, denotes⟩

theorem isRead_procedure (hs : s ∈ history setup root) {parameters : GroupTrees}
    (ih : parameters.AreParameters setup s) :
    (SignatureTree.procedure parameters).IsRead setup s := by
  rintro U t stream behind words start before from_ stop opens (⟨_, written, _⟩) shows ends proper
    begun sized
  obtain ⟨middle, inside, closing⟩ := shows.tail.append
  obtain rfl := closing.tail.nil
  rw [signature]
  refine builds_eat shows.kind (by decide) fun h₁ => ?_
  refine (builds_optionalParameters ih opens written inside closing.kind proper begun sized).bind ?_
  rintro ⟨⟨listed, defaults⟩, s₂, h₂⟩ u opens' keeps ⟨rfl, rfl, own, begun, denotes⟩
  refine builds_eat closing.kind (by decide) fun h₃ => ?_
  have plain : u.isStructured .void = false := by
    rw [TypeTable.isStructured, opens'.kind_builtin hs (by decide)]
    rfl
  dsimp only [Past.after, Rest.after]
  rw [Stream.skip?_eq_none (ends .colon rfl)]
  refine (builds_addResult opens' (begun.revise 0 listed.results) rfl plain rfl keeps.size).bind ?_
  rintro complete v opens'' keeps' ⟨method, answers⟩
  refine builds_pure opens'' ⟨rfl, method, own, ?_, answers⟩
  exact denotes.keeps (keeps'.keepsFrom _) (Nat.le_refl _)

theorem isRead_answering {parameters : GroupTrees} {result : TypeTree}
    (ih : parameters.AreParameters setup s) (ihResult : result.IsRead setup s) :
    (SignatureTree.function parameters result).IsRead setup s := by
  rintro U t stream behind words start before from_ stop opens (_ | ⟨_, written, _, _, typed⟩) shows
    ends ⟨proper, properResult⟩ begun sized
  obtain ⟨middle, inside, closing⟩ := shows.tail.append
  obtain ⟨listedEnd, listedSize, sized⟩ := Option.bind_eq_some_iff.1 sized
  obtain ⟨size, resultSize, total⟩ := Option.bind_eq_some_iff.1 sized
  rw [signature]
  refine builds_eat shows.kind (by decide) fun h₁ => ?_
  refine (builds_optionalParameters ih opens written inside closing.kind proper begun
    listedSize).bind ?_
  rintro ⟨⟨listed, defaults⟩, s₂, h₂⟩ u₁ opens₁ keeps₁ ⟨rfl, rfl, own, begun, denotes⟩
  refine builds_eat closing.kind (by decide) fun h₃ => ?_
  obtain ⟨hc, next⟩ := Stream.skip?_of_kind closing.tail.kind (by decide)
  dsimp only [Past.after, Rest.after]
  rw [next]
  refine (ihResult opens₁ typed closing.tail.tail ends properResult resultSize).bind ?_
  rintro ⟨type, s₅, h₅⟩ u₂ opens₂ keeps₂ ⟨rfl, built⟩
  refine (builds_addResult opens₂ (begun.revise 0 listed.results) rfl built.structured total
    (keeps₁.size.trans keeps₂.size)).bind ?_
  rintro complete u₃ opens₃ keeps₃ ⟨method, answers⟩
  refine builds_pure opens₃ ⟨rfl, method, own, type, ?_, ?_, answers⟩
  · exact denotes.keeps ((keeps₂.trans keeps₃).keepsFrom _) (Nat.le_refl _)
  · exact built.denotes.keeps (keeps₃.keepsFrom _) keeps₁.size

theorem isRead_function {tree : SignatureTree} (ih : tree.IsRead setup s) :
    (TypeTree.function tree).IsRead setup s := by
  rintro U t stream behind words n opens
    (_ | _ | _ | _ | _ | _ | _ | ⟨_, written⟩) shows ends proper sized
  obtain ⟨stop, sizedTree, rfl⟩ := Option.map_eq_some_iff.1 sized
  rw [typeExpression, shows.kind]
  show (functionType stream).Builds _ _ _ _ _ _
  rw [functionType]
  refine builds_eat shows.kind (by decide) fun h₁ => ?_
  refine (ih opens written shows.tail ends proper begun_empty sizedTree).bind ?_
  rintro ⟨complete, s₂, h₂⟩ u opens' keeps ⟨rfl, method, denotes⟩
  have empty : ∀ part ∈ (TypeKind.function complete).contents, u.Closed U part :=
    closed_of_contents_nil rfl
  refine builds_newType opens' empty
    ⟨keeps.size, complete, u.kind_add_self _, method, ?_⟩ ?_ ?_
  · exact denotes.keeps ((keeps_add ∅ u _).keepsFrom _) (Nat.le_refl _)
  · rw [opens'.size?_add empty, TypeTable.sizeFrom, kind_add_self]
  · rw [TypeTable.isStructured, kind_add_self]
    rfl

/-! ### Interfaces -/

theorem builds_methodSignature (hs : s ∈ history setup root) (opens : s.types.Opens U t) :
    methodSignature.Builds setup s U O t fun start u =>
      u = t ∧ start.Begun [(selfName, .anyPointer)] pointerSize := by
  obtain ⟨c, added, begun, _⟩ := exists_addParameter? begun_empty selfName
    (size?_anyPointer hs opens) (by decide : Word.add? 0 pointerSize = some pointerSize)
  unfold methodSignature
  rw [builds_get]
  refine builds_pure opens ⟨rfl, ?_⟩
  dsimp only
  rw [added]
  exact begun

end Action

/-- That a function is a method of an interface says nothing about its parameters. -/
theorem SignatureTree.Denotes.method {tree : SignatureTree} {before : List (String × TypeId)}
    {c : Signature} (h : tree.Denotes setup s first t before c) (offset : Int64) :
    tree.Denotes setup s first t before
      { c with isMethod := true, offsetFromSelf := offset } := by
  have lists {entries : List (String × TypeId)} {result : TypeId} (h : c.Lists entries result) :
      Signature.Lists { c with isMethod := true, offsetFromSelf := offset } entries result :=
    ⟨h.parameters, h.plain, h.defaults, h.results⟩
  have answers {entries : List (String × TypeId)} {result : TypeId} {structured : Bool}
      (h : c.Answers first t entries result structured) :
      Signature.Answers { c with isMethod := true, offsetFromSelf := offset } first t entries result
        structured := by
    cases structured with
    | false => exact lists h
    | true =>
      obtain ⟨pointer, from_, kind, h⟩ := h
      exact ⟨pointer, from_, kind, lists h⟩
  cases tree with
  | procedure parameters =>
    obtain ⟨own, denotes, h⟩ := h
    exact ⟨own, denotes, answers h⟩
  | function parameters result =>
    obtain ⟨own, id, denotes, built, h⟩ := h
    exact ⟨own, id, denotes, built, answers h⟩

theorem MethodTrees.WrittenAs.shows_cons {name : String} {signature : SignatureTree}
    {others : MethodTrees} {isModule : String → Bool}
    (h : (MethodTrees.cons name signature others).WrittenAs isModule words)
    (shows : stream.Shows words behind) (closing : behind.kind = .symbol .closeCurly) :
    ∃ typed m next rest, stream.kind = .ident name ∧ signature.WrittenAs isModule typed ∧
      stream.advance.Shows typed m ∧ m.Separates next ∧ others.WrittenAs isModule rest ∧
      next.Shows rest behind := by
  cases h with
  | last _ span written =>
    exact ⟨_, behind, behind, [], shows.kind, written, shows.tail, .closing closing, .nil,
      ⟨rfl, rfl⟩⟩
  | cons _ span written semicolon others =>
    obtain ⟨m, first, second⟩ := shows.tail.append
    exact ⟨_, m, _, _, shows.kind, written, first, .semicolon second.kind, others, second.tail⟩

namespace Action

theorem builds_addMethod {owner : TypeId} {members : List Field} {name : String} {c : Signature}
    {span : Span} {start stop : Int64} (opens : s.types.Opens U t) (ho : owner ∈ U)
    (kind : t.kind owner = .interface members) (begins : t.size? owner = some start)
    (ends : Word.add? start pointerSize = some stop) :
    (addMethod owner name c span).Builds setup s U {owner} t fun _ u =>
      u.size? owner = some stop ∧
        u.kind ⟨t.size⟩ = .function { c with isMethod := true, offsetFromSelf := start } ∧
        u.kind owner = .interface (members ++ [⟨name, ⟨t.size⟩, start⟩]) := by
  unfold addMethod
  rw [builds_get]
  simp only [begins]
  generalize hm : TypeKind.function { c with isMethod := true, offsetFromSelf := start } = method
  have empty : ∀ part ∈ method.contents, t.Closed U part := closed_of_contents_nil (hm ▸ rfl)
  have known : owner.index < t.size := index_lt_of_isStructure (opens.structured owner ho)
  refine builds_addType opens empty fun opens' => ?_
  have size : (t.add method).2.size? ⟨t.size⟩ = some pointerSize := by
    rw [opens.size?_add empty, TypeTable.sizeFrom, kind_add_self, ← hm]
  obtain ⟨kind', begins'⟩ := opens.keeps_owner opens' (keeps_add ∅ t method) ho
  rw [kind] at kind'
  rw [begins] at begins'
  have closed := opens.closed_new method
  obtain ⟨u, added, gains⟩ := opens'.exists_addField ho name closed begins' size ends
  have other : (⟨t.size⟩ : TypeId) ∉ ({owner} : Set TypeId) := by
    rintro rfl
    exact Nat.lt_irrefl _ known
  rw [builds_get]
  simp only [added]
  refine ⟨⟨⟩, u, rfl, gains.opens, gains.keeps, gains.size, ?_, ?_⟩
  · rw [gains.keeps.kinds _ closed.has other, kind_add_self]
  · rw [gains.kind, kind']
    rfl

theorem areMethods_nil : MethodTrees.nil.AreMethods setup s := by
  rintro U t stream behind words owner members start stop opens ho kind begins ⟨⟩ shows closing
    proper distinct ends
  cases ends
  obtain rfl := shows.nil
  rw [interfaceMethods, Stream.name?_eq_none closing]
  exact builds_pure opens ⟨rfl, begins, [], by rw [kind, List.append_nil], rfl⟩

theorem areMethods_cons (hs : s ∈ history setup root) {name : String} {tree : SignatureTree}
    {others : MethodTrees} (ih : tree.IsRead setup s) (ihOthers : others.AreMethods setup s) :
    (MethodTrees.cons name tree others).AreMethods setup s := by
  rintro U t stream behind words owner members start stop opens ho kind begins written shows closing
    ⟨proper, properOthers⟩ distinct sized
  obtain ⟨typed, m, next, rest, head, written, first, separates, others, second⟩ :=
    written.shows_cons shows closing
  obtain ⟨_, sizedTree, sized⟩ := Option.bind_eq_some_iff.1 sized
  obtain ⟨middle, total, sizedOthers⟩ := Option.bind_eq_some_iff.1 sized
  obtain ⟨symbol, symbolic, other⟩ := separates.kind
  have known : owner.index < t.size := index_lt_of_isStructure (opens.structured owner ho)
  have fresh : name ∉ members.map (·.name) := fun hm =>
    (List.nodup_append.1 distinct).2.2 _ hm _ List.mem_cons_self rfl
  have ends : ∀ wanted ∈ tree.goesOn? s.isModule, m.isAt wanted = false :=
    Stream.ends_of_kind symbolic other fun _ => tree.mem_goesOn?
  have missing : t.findField? owner name = none := findField?_eq_none (by rw [kind]; rfl) fresh
  obtain ⟨h₁, named⟩ := Stream.name?_of_kind head
  rw [interfaceMethods, named]
  simp only [fail_bind]
  rw [builds_get, if_neg (by rw [missing]; exact Bool.false_ne_true)]
  refine (builds_methodSignature hs opens).bind ?_
  rintro start' _ opens _ ⟨rfl, begun⟩
  refine (ih opens written first ends proper begun sizedTree).inner ?_
  rintro ⟨complete, s₂, h₂⟩ u₁ opens₁ keeps₁ ⟨rfl, _, denotes⟩
  obtain ⟨kind₁, begins₁⟩ := opens.keeps_owner opens₁ keeps₁ ho
  rw [kind] at kind₁
  rw [begins] at begins₁
  refine (builds_addMethod opens₁ ho kind₁ begins₁ total).bind ?_
  rintro _ u₂ opens₂ keeps₂ ⟨begins₂, method, kind₂⟩
  refine builds_separator separates fun within => ?_
  refine (ihOthers opens₂ ho kind₂ begins₂ others second closing properOthers ?_
    sizedOthers).bind ?_
  · rw [List.map_append, List.append_assoc]
    exact distinct
  rintro ⟨_, s₃, h₃⟩ u₃ opens₃ keeps₃ ⟨rfl, ends, final, kind₃, rest⟩
  have added : (⟨u₁.size⟩ : TypeId).index < u₂.size := index_lt_of_kind_ne (by simp [method])
  have from_ : owner.index < u₁.size := Nat.lt_of_lt_of_le known keeps₁.size
  have unowned : (⟨u₁.size⟩ : TypeId) ∉ ({owner} : Set TypeId) := by
    rintro rfl
    exact Nat.lt_irrefl _ from_
  refine builds_pure opens₃ ⟨rfl, ends, ⟨name, ⟨u₁.size⟩, start⟩ :: final, ?_, ?_⟩
  · rw [kind₃, List.append_assoc, List.singleton_append]
  · refine ⟨⟨u₁.size⟩, _, _, from_, (keeps₃.kinds _ added unowned).trans method, rfl, ?_, rest, rfl⟩
    exact (denotes.method start).keeps ((keeps₂.trans keeps₃).keepsFrom_of_lt known) known

theorem builds_addInterface {α : Type} {Q : α → TypeTable → Prop} {f : TypeId → Action α}
    (hs : s ∈ history setup root) (opens : s.types.Opens U t)
    (hf : ∀ u, s.types.Opens (insert ⟨t.size⟩ U) u →
      u.kind ⟨t.size⟩ = .interface [⟨selfName, .anyPointer, 0⟩] →
      u.size? ⟨t.size⟩ = some pointerSize →
      (f ⟨t.size⟩).Builds setup s (insert ⟨t.size⟩ U) {⟨t.size⟩} u Q) :
    (addInterface >>= f).Builds setup s U ∅ t Q := by
  unfold addInterface
  rw [bind_assoc]
  refine builds_open opens rfl rfl fun opens₁ => ?_
  have begins : (t.add (.interface [])).2.size? ⟨t.size⟩ = some 0 := by
    rw [opens.size?_add (closed_of_contents_nil rfl), TypeTable.sizeFrom, kind_add_self]
    rfl
  have self : (t.add (.interface [])).2.Closed (insert ⟨t.size⟩ U) .anyPointer :=
    opens₁.closed_builtin hs (by decide)
  obtain ⟨u, added, gains⟩ := opens₁.exists_addField (Set.mem_insert _ U) selfName self begins
    (size?_anyPointer hs opens₁) (by decide : Word.add? 0 pointerSize = some pointerSize)
  have written : withSelf ⟨t.size⟩ { s with types := (t.add (.interface [])).2 } =
      { s with types := u } := by
    unfold withSelf
    simp only [added]
  have modified : Builds (modify (withSelf ⟨t.size⟩)) setup s (insert ⟨t.size⟩ U) {⟨t.size⟩}
      (t.add (.interface [])).2 fun _ v => v = u :=
    ⟨⟨⟩, u, congrArg (EStateM.Result.ok PUnit.unit) written, gains.opens, gains.keeps, rfl⟩
  rw [bind_assoc]
  refine modified.bind ?_
  rintro _ v opens₂ _ rfl
  refine hf v opens₂ ?_ gains.size
  rw [gains.kind, kind_add_self]
  rfl

theorem isRead_interface (hs : s ∈ history setup root) {methods : MethodTrees}
    (ih : methods.AreMethods setup s) : (TypeTree.interface methods).IsRead setup s := by
  rintro U t stream behind words n opens (_ | _ | _ | _ | _ | _ | ⟨_, _, written, _⟩) shows ends
    ⟨proper, distinct⟩ sized
  obtain ⟨middle, inside, closing⟩ := shows.tail.tail.append
  obtain rfl := closing.tail.nil
  rw [typeExpression, shows.kind]
  show (interfaceType stream).Builds _ _ _ _ _ _
  rw [interfaceType]
  refine builds_eat shows.kind (by decide) fun h₁ => ?_
  refine builds_eat shows.tail.kind (by decide) fun h₂ => ?_
  refine builds_addInterface hs opens fun u₁ opens₁ kind₁ begins => ?_
  refine (ih opens₁ (Set.mem_insert _ U) kind₁ begins written inside closing.kind proper distinct
    sized).bind ?_
  rintro ⟨_, s₃, h₃⟩ u opens₂ keeps ⟨rfl, total, more, kind, denotes⟩
  refine builds_eat closing.kind (by decide) fun h₄ => ?_
  have denotes : (TypeTree.interface methods).Denotes setup s t.size u ⟨t.size⟩ :=
    ⟨Nat.le_refl _, _, _, kind, rfl, denotes.keeps (fun _ _ _ => rfl) (Nat.le_succ _)⟩
  exact builds_pure opens₂ ⟨rfl, .of_structure opens (by rw [kind]; rfl) denotes total rfl⟩

/-! ### All trees -/

mutual

theorem isRead_type (hs : s ∈ history setup root) (tree : TypeTree) : tree.IsRead setup s := by
  cases tree with
  | name r => exact isRead_name hs r
  | pointer base => exact isRead_pointer (isRead_type hs base)
  | array length? base => exact isRead_array (isRead_type hs base)
  | text capacity? => exact isRead_text capacity?
  | struct fields => exact isRead_struct (areFields hs fields)
  | interface methods => exact isRead_interface hs (areMethods hs methods)
  | function signature => exact isRead_function (isRead_signature hs signature)

theorem areFields (hs : s ∈ history setup root) (groups : GroupTrees) :
    groups.AreFields setup s := by
  cases groups with
  | nil => exact areFields_nil
  | cons names type others => exact areFields_cons (isRead_type hs type) (areFields hs others)

theorem areParameters (hs : s ∈ history setup root) (groups : GroupTrees) :
    groups.AreParameters setup s := by
  cases groups with
  | nil => exact areParameters_nil
  | cons names type others =>
    exact areParameters_cons (isRead_type hs type) (areParameters hs others)

theorem areMethods (hs : s ∈ history setup root) (methods : MethodTrees) :
    methods.AreMethods setup s := by
  cases methods with
  | nil => exact areMethods_nil
  | cons name signature others =>
    exact areMethods_cons hs (isRead_signature hs signature) (areMethods hs others)

theorem isRead_signature (hs : s ∈ history setup root) (signature : SignatureTree) :
    signature.IsRead setup s := by
  cases signature with
  | procedure parameters => exact isRead_procedure hs (areParameters hs parameters)
  | function parameters result =>
    exact isRead_answering (areParameters hs parameters) (isRead_type hs result)

end

end Action

/-- A type expression that is written by the rules of the grammar is read up to the end of its
words, unless what follows goes on with it, and gives a type that is built like it. Names have to
stand for types that are declared, or directly behind `^` for any type; lists must not be too long,
names in a structure not occur twice, and all sizes have to be words. The new types are behind those
that were there before, and these stay as they are. -/
theorem history_typeExpressions (hs : s ∈ history setup root) {tree : TypeTree} {rest : List Token}
    (written : tree.WrittenAs s.isModule words) (ahead : stream.ahead = words ++ rest)
    (ends : ∀ symbol ∈ tree.goesOn? s.isModule,
      (Stream.advance^[words.length] stream).isAt symbol = false)
    (proper : tree.Proper setup s) (sized : tree.size? setup s = some n) :
    ∃ id types, ∃ lt : (Stream.advance^[words.length] stream).Behind stream,
      (Action.typeExpression stream).Yields setup s
          ⟨id, Stream.advance^[words.length] stream, lt⟩ { s with types } ∧
        tree.Denotes setup s s.types.size types id ∧ types.size? id = some n ∧
        s.types.size ≤ types.size ∧
        ∀ old : TypeId, old.index < s.types.size → types.kind old = s.types.kind old := by
  obtain ⟨⟨id, _, lt⟩, types, read, opens, _, rfl, built⟩ := Action.isRead_type hs tree
    (opens_self hs) written (Stream.shows_of_ahead ahead) ends proper sized
  exact ⟨id, types, lt, read, built.denotes, built.size, opens.size, opens.kinds⟩

/-- The type expression `struct {a, b: ^node; f: fn (x: int): str}`. -/
def nodesTree : TypeTree :=
  .struct (.cons ["a", "b"] (.pointer (.name (.plain "node" ⟨.origin, .origin⟩)))
    (.cons ["f"] (.function (.function
      (.cons ["x"] (.name (.plain "int" ⟨.origin, .origin⟩)) .nil) (.text none))) .nil))

def nodesStream : Stream where
  ahead := [.symbol .structWord, .symbol .openCurly, .ident "a", .symbol .comma, .ident "b",
    .symbol .colon, .symbol .caret, .ident "node", .symbol .semicolon, .ident "f", .symbol .colon,
    .symbol .fnWord, .symbol .openParen, .ident "x", .symbol .colon, .ident "int",
    .symbol .closeParen, .symbol .colon, .symbol .strWord, .symbol .closeCurly].map .first
  finish := ⟨.origin, .origin⟩
  index := 0

theorem nodesTree_writtenAs (isModule : String → Bool) :
    nodesTree.WrittenAs isModule nodesStream.ahead :=
  .struct _ _ (.cons (.cons "a" _ _ (.single "b" _)) _ (.pointer _ (.name (.plain "node" _))) _
    (.last (.single "f" _) _ (.function _ (.function _
      (.some (.last (.single "x" _) _ (.name (.plain "int" _)))) _ _ (.text _))))) _

/-- While `node` is a forward type, a pointer to it can be read. -/
theorem nodesTree_read : ∃ s ∈ history listProgram "main.um",
    nodesTree.WrittenAs s.isModule nodesStream.ahead ∧ nodesTree.Proper listProgram s ∧
      nodesTree.size? listProgram s = some 24 ∧ ∃ id types,
      ∃ lt : (Stream.advance^[20] nodesStream).Behind nodesStream,
        (Action.typeExpression nodesStream).Yields listProgram s
            ⟨id, Stream.advance^[20] nodesStream, lt⟩ { s with types } ∧
          nodesTree.Denotes listProgram s s.types.size types id ∧ types.size? id = some 24 ∧
          s.types.size ≤ types.size ∧
          ∀ old : TypeId, old.index < s.types.size → types.kind old = s.types.kind old := by
  have checked : ∃ s ∈ history listProgram "main.um",
      (∃ id ∈ s.typeOf? listProgram (.plain "node" ⟨.origin, .origin⟩),
        s.types.isForward id = true) ∧
      (∃ id ∈ s.typeOf? listProgram (.plain "int" ⟨.origin, .origin⟩),
        s.types.isForward id = false) ∧ nodesTree.size? listProgram s = some 24 := by
    decide +kernel
  obtain ⟨s, hs, ⟨node, forward, _⟩, ⟨int, declared, solid⟩, sized⟩ := checked
  have written := nodesTree_writtenAs s.isModule
  have proper : nodesTree.Proper listProgram s :=
    ⟨⟨by decide, .inl ⟨node, forward⟩, by decide,
      ⟨⟨by decide, ⟨int, declared, solid⟩, trivial⟩, trivial⟩, trivial⟩, by decide⟩
  refine ⟨s, hs, written, proper, sized, ?_⟩
  exact history_typeExpressions hs written (List.append_nil _).symm
    (by intro _ h; cases h) proper sized

end FrontEnd
