import FrontEnd.Proofs.TypeExpression.Builds

/-!
What it means that the words of a tree are read: the production of its form goes through the words
and leaves a type behind that is built like the tree. Shown here for names, pointers, arrays and
strings.
-/

namespace FrontEnd

variable {setup : Setup} {root : String} {s : Session} {U O : Set TypeId} {t u : TypeTable}
  {first : Nat} {id : TypeId} {n : Int64} {stream behind : Stream} {words : List Token}

/-- A type that is built like the tree, from types with numbers from `first` on, and takes `n`
bytes. -/
structure TypeTree.Built (setup : Setup) (s : Session) (U : Set TypeId) (first : Nat)
    (u : TypeTable) (tree : TypeTree) (n : Int64) (id : TypeId) : Prop where
  denotes : tree.Denotes setup s first u id
  size : u.size? id = some n
  closed : u.Closed U id
  structured : u.isStructured id = tree.isStructured setup s

namespace TypeTable

theorem Keeps.keepsFrom (k : t.Keeps ∅ u) (first : Nat) : t.KeepsFrom first u :=
  fun id _ hi => k.kinds id hi (Set.notMem_empty id)

/-- What is built behind an open structure stays while that gains fields. -/
theorem Keeps.keepsFrom_of_lt {owner : TypeId} (k : t.Keeps {owner} u) (h : owner.index < first) :
    t.KeepsFrom first u := by
  refine fun id from_ hi => k.kinds id hi ?_
  rintro rfl
  exact Nat.not_le_of_lt h from_

/-- An open structure stays as it is while other types are added. -/
theorem Opens.keeps_owner {owner : TypeId} (h : s.types.Opens U t) (h' : s.types.Opens U u)
    (k : t.Keeps ∅ u) (ho : owner ∈ U) :
    u.kind owner = t.kind owner ∧ u.size? owner = t.size? owner := by
  have known := index_lt_of_isStructure (h.structured owner ho)
  exact ⟨k.kinds owner known (Set.notMem_empty owner),
    h.size?_eq h' k (Set.empty_subset U) known (Set.notMem_empty owner)⟩

theorem Opens.closed_new (h : s.types.Opens U t) (kind : TypeKind) :
    (t.add kind).2.Closed U ⟨t.size⟩ := by
  refine ⟨by rw [size_add]; exact Nat.lt_succ_self _, fun ho => ?_⟩
  exact Nat.lt_irrefl _ (index_lt_of_isStructure (h.structured _ ho))

/-- A builtin type is what it is from the start. -/
theorem Opens.kind_builtin (h : s.types.Opens U t) (hs : s ∈ history setup root)
    (hi : id.index < TypeTable.initial.size) : t.kind id = TypeTable.initial.kind id := by
  obtain ⟨bound, builtins⟩ := (valid_of_mem_history hs).builtins
  rw [h.kinds id (Nat.lt_of_lt_of_le hi bound), (builtins id hi).2]

theorem Opens.closed_builtin (h : s.types.Opens U t) (hs : s ∈ history setup root)
    (hi : id.index < TypeTable.initial.size) : t.Closed U id :=
  h.closed_of_lt (Nat.lt_of_lt_of_le hi (valid_of_mem_history hs).builtins.1)

/-- The types of a session of a compilation. -/
theorem opens_self (hs : s ∈ history setup root) : s.types.Opens ∅ s.types where
  size := Nat.le_refl _
  kinds _ _ := rfl
  founded := (laidOut_of_mem_history hs).founded
  known _ _ hc := ((valid_of_mem_history hs).usable_of_contains hc).has
  fresh _ ho := absurd ho (Set.notMem_empty _)
  structured _ ho := absurd ho (Set.notMem_empty _)
  free _ ho := absurd ho (Set.notMem_empty _)

end TypeTable

open TypeTable

/-- A structure whose fields have all been read. -/
theorem TypeTree.Built.of_structure {tree : TypeTree} (opens : s.types.Opens U t)
    (gained : (u.kind ⟨t.size⟩).isStructure = true)
    (denotes : tree.Denotes setup s t.size u ⟨t.size⟩) (size : u.size? ⟨t.size⟩ = some n)
    (structured : tree.isStructured setup s = true) :
    tree.Built setup s U t.size u n ⟨t.size⟩ where
  denotes
  size
  closed := by
    refine ⟨index_lt_of_isStructure gained, fun ho => ?_⟩
    exact Nat.lt_irrefl _ (index_lt_of_isStructure (opens.structured _ ho))
  structured := by
    rw [structured, TypeTable.isStructured]
    cases hk : u.kind ⟨t.size⟩ <;> rw [hk] at gained <;> first | rfl | cases gained

/-! ### What is to be shown of each kind of tree -/

/-- The words of the tree are read as a type that is built like it. -/
def TypeTree.IsRead (setup : Setup) (s : Session) (tree : TypeTree) : Prop :=
  ∀ ⦃U : Set TypeId⦄ ⦃t : TypeTable⦄ ⦃stream behind : Stream⦄ ⦃words : List Token⦄ ⦃n : Int64⦄,
    s.types.Opens U t → tree.WrittenAs s.isModule words → stream.Shows words behind →
    (∀ symbol ∈ tree.goesOn? s.isModule, behind.isAt symbol = false) →
    tree.Proper setup s → tree.size? setup s = some n →
    (Action.typeExpression stream).Builds setup s U ∅ t fun past u =>
      past.stream = behind ∧ tree.Built setup s U t.size u n past.value

/-- The words of the groups are read as fields of an open structure. -/
def GroupTrees.AreFields (setup : Setup) (s : Session) (groups : GroupTrees) : Prop :=
  ∀ ⦃U : Set TypeId⦄ ⦃t : TypeTable⦄ ⦃stream behind : Stream⦄ ⦃words : List Token⦄
    ⦃owner : TypeId⦄ ⦃members : List Field⦄ ⦃start stop : Int64⦄,
    s.types.Opens U t → owner ∈ U → t.kind owner = .struct members →
    t.size? owner = some start → groups.FieldsWrittenAs s.isModule words →
    stream.Shows words behind → behind.kind = .symbol .closeCurly →
    groups.Proper setup s maxFields → (members.map (·.name) ++ groups.names).Nodup →
    groups.end? setup s start = some stop →
    (Action.structFields owner stream).Builds setup s U {owner} t fun rest u =>
      rest.stream = behind ∧ u.size? owner = some stop ∧ ∃ more : List Field,
        u.kind owner = .struct (members ++ more) ∧
          groups.Denotes setup s (owner.index + 1) u (more.map Field.entry)

/-- The words of the methods are read as methods of an open interface. -/
def MethodTrees.AreMethods (setup : Setup) (s : Session) (methods : MethodTrees) : Prop :=
  ∀ ⦃U : Set TypeId⦄ ⦃t : TypeTable⦄ ⦃stream behind : Stream⦄ ⦃words : List Token⦄
    ⦃owner : TypeId⦄ ⦃members : List Field⦄ ⦃start stop : Int64⦄,
    s.types.Opens U t → owner ∈ U → t.kind owner = .interface members →
    t.size? owner = some start → methods.WrittenAs s.isModule words →
    stream.Shows words behind → behind.kind = .symbol .closeCurly →
    methods.Proper setup s → (members.map (·.name) ++ methods.names).Nodup →
    methods.end? setup s start = some stop →
    (Action.interfaceMethods owner stream).Builds setup s U {owner} t fun rest u =>
      rest.stream = behind ∧ u.size? owner = some stop ∧ ∃ more : List Field,
        u.kind owner = .interface (members ++ more) ∧
          methods.Denotes setup s (owner.index + 1) u (more.map Field.entry)

/-- The first parameters of a signature, none of which has a default value. -/
structure Signature.Begun (c : Signature) (entries : List (String × TypeId)) (stop : Int64) :
    Prop where
  parameters : c.parameters.map Parameter.entry = entries
  plain : ∀ p ∈ c.parameters, p.default? = none
  size : c.parametersSize = stop
  method : c.isMethod = false

/-- The number of default values and the results are not parameters. -/
theorem Signature.Begun.revise {c : Signature} {entries : List (String × TypeId)} {stop : Int64}
    (begun : c.Begun entries stop) (defaults : Nat) (results : List TypeId) :
    Signature.Begun { c with defaults, results } entries stop :=
  ⟨begun.parameters, begun.plain, begun.size, begun.method⟩

/-- The words of the groups are read as parameters behind those that there are. -/
def GroupTrees.AreParameters (setup : Setup) (s : Session) (groups : GroupTrees) : Prop :=
  ∀ ⦃U : Set TypeId⦄ ⦃t : TypeTable⦄ ⦃stream behind : Stream⦄ ⦃words : List Token⦄
    ⦃start : Signature⦄ ⦃before : List (String × TypeId)⦄ ⦃from_ stop : Int64⦄,
    s.types.Opens U t → groups.ParametersWrittenAs s.isModule words →
    stream.Shows words behind → behind.kind = .symbol .closeParen →
    groups.Proper setup s maxParameters → start.Begun before from_ →
    groups.end? setup s from_ = some stop →
    (Action.parameterGroups start 0 stream).Builds setup s U ∅ t fun past u =>
      past.stream = behind ∧ past.value.2 = 0 ∧ ∃ own, past.value.1.Begun (before ++ own) stop ∧
        groups.Denotes setup s t.size u own

/-- The words of the signature are read as one with the parameters that there are and those of the
tree. -/
def SignatureTree.IsRead (setup : Setup) (s : Session) (signature : SignatureTree) : Prop :=
  ∀ ⦃U : Set TypeId⦄ ⦃t : TypeTable⦄ ⦃stream behind : Stream⦄ ⦃words : List Token⦄
    ⦃start : Signature⦄ ⦃before : List (String × TypeId)⦄ ⦃from_ stop : Int64⦄,
    s.types.Opens U t → signature.WrittenAs s.isModule words → stream.Shows words behind →
    (∀ symbol ∈ signature.goesOn? s.isModule, behind.isAt symbol = false) →
    signature.Proper setup s → start.Begun before from_ →
    signature.end? setup s from_ = some stop →
    (Action.signature start stream).Builds setup s U ∅ t fun past u =>
      past.stream = behind ∧ past.value.isMethod = false ∧
        signature.Denotes setup s t.size u before past.value

/-- A tree other than a name begins with a symbol. -/
theorem TypeTree.WrittenAs.name_or_symbol (setup : Setup) (s : Session) {tree : TypeTree}
    {isModule : String → Bool} {words : List Token} (h : tree.WrittenAs isModule words) :
    (∃ r, tree = .name r) ∨ ¬ tree.IsTypeName setup s ∧
      ∃ symbol span more, words = ⟨.symbol symbol, span⟩ :: more := by
  cases h with
  | name => exact .inl ⟨_, rfl⟩
  | pointer => exact .inr ⟨id, _, _, _, rfl⟩
  | array => exact .inr ⟨id, _, _, _, rfl⟩
  | text => exact .inr ⟨id, _, _, _, rfl⟩
  | textOf => exact .inr ⟨id, _, _, _, rfl⟩
  | struct => exact .inr ⟨id, _, _, _, rfl⟩
  | interface => exact .inr ⟨id, _, _, _, rfl⟩
  | function => exact .inr ⟨id, _, _, _, rfl⟩

/-- The name of a module does not go on with a dot. -/
theorem TypeTree.ends_of_name {r : Reference} {isModule : String → Bool}
    (ends : ∀ symbol ∈ (TypeTree.name r).goesOn? isModule, behind.isAt symbol = false) :
    ∀ name ∈ r.plain?, isModule name = true → behind.isAt .dot = false :=
  fun _ hn file => ends .dot (Option.bind_eq_some_iff.2 ⟨_, hn, if_pos file⟩)

namespace Action

/-! ### Names, pointers, arrays and strings -/

theorem isRead_name (hs : s ∈ history setup root) (r : Reference) :
    (TypeTree.name r).IsRead setup s := by
  rintro U t stream behind words n opens (⟨written⟩) shows ends ⟨id, found, solid⟩ sized
  obtain ⟨name, kind⟩ : ∃ name, stream.kind = .ident name := by
    cases written with
    | plain name span => exact ⟨name, shows.kind⟩
    | member isFile name start dot span => exact ⟨_, shows.kind⟩
  have known := typeOf?_lt hs found
  have size : s.types.size? id = some n := by
    rw [← sized, TypeTree.size?, found, Option.bind_some]
  rw [typeExpression, kind]
  refine (builds_namedType hs opens written shows (TypeTree.ends_of_name ends) found solid).imp ?_
  rintro past u opens' keeps ⟨rfl, stops, rfl⟩
  refine ⟨stops, found, ?_, opens'.closed_of_lt known, ?_⟩
  · rw [opens'.size?_base (opens_self hs) known, size]
  · rw [TypeTree.isStructured, found, Option.any_some, TypeTable.isStructured, opens'.kinds _ known]
    rfl

/-- The last step of reading a type other than a structure. -/
theorem builds_newType {tree : TypeTree} {kind : TypeKind} {lt : behind.Behind stream}
    (opens : s.types.Opens U t) (hk : ∀ part ∈ kind.contents, t.Closed U part)
    (denotes : tree.Denotes setup s first (t.add kind).2 ⟨t.size⟩)
    (size : (t.add kind).2.size? ⟨t.size⟩ = some n)
    (structured : (t.add kind).2.isStructured ⟨t.size⟩ = tree.isStructured setup s) :
    (addType kind >>= fun type => pure ⟨type, behind, lt⟩ : Action (Past stream TypeId)).Builds
      setup s U O t fun past u =>
        past.stream = behind ∧ tree.Built setup s U first u n past.value :=
  builds_addType opens hk fun opens' =>
    builds_pure opens' ⟨rfl, denotes, size, opens.closed_new kind, structured⟩

/-- Behind `^` a name may also stand for a type that is not declared yet. -/
theorem builds_pointerTarget {base : TypeTree} (ih : base.IsRead setup s)
    (opens : s.types.Opens U t) (written : base.WrittenAs s.isModule words)
    (shows : stream.Shows words behind)
    (ends : ∀ symbol ∈ base.goesOn? s.isModule, behind.isAt symbol = false)
    (proper : base.IsTypeName setup s ∨ base.Proper setup s) (sized : base.size? setup s = some n) :
    (pointerTarget stream).Builds setup s U ∅ t fun past u =>
      past.stream = behind ∧ base.Denotes setup s t.size u past.value := by
  rcases written.name_or_symbol setup s with ⟨r, rfl⟩ | ⟨other, symbol, span, more, rfl⟩
  · obtain ⟨named⟩ := written
    obtain ⟨id, found, _⟩ := Option.bind_eq_some_iff.1 sized
    refine (builds_namedPointerTarget opens named shows (TypeTree.ends_of_name ends) found).imp ?_
    rintro past u _ _ ⟨rfl, stops, rfl⟩
    exact ⟨stops, found⟩
  · rw [pointerTarget, Stream.name?_eq_none shows.kind]
    refine (ih opens written shows ends (proper.resolve_left other) sized).imp ?_
    rintro past u _ _ ⟨stops, built⟩
    exact ⟨stops, built.denotes⟩

theorem isRead_pointer {base : TypeTree} (ih : base.IsRead setup s) :
    (TypeTree.pointer base).IsRead setup s := by
  rintro U t stream behind words n opens (_ | ⟨_, written⟩) shows ends proper sized
  obtain ⟨m, sizedBase, rfl⟩ := Option.map_eq_some_iff.1 sized
  rw [typeExpression, shows.kind]
  show (pointerType stream).Builds _ _ _ _ _ _
  rw [pointerType]
  refine builds_eat shows.kind (by decide) fun h₁ => ?_
  refine (builds_pointerTarget ih opens written shows.tail ends proper sizedBase).bind ?_
  rintro ⟨b, s₂, h₂⟩ u opens' keeps ⟨rfl, denotes⟩
  have empty : ∀ part ∈ (TypeKind.pointer b).contents, u.Closed U part :=
    closed_of_contents_nil rfl
  refine builds_newType opens' empty ⟨keeps.size, b, u.kind_add_self _, ?_⟩ ?_ ?_
  · exact denotes.keeps ((keeps_add ∅ u _).keepsFrom _) (Nat.le_refl _)
  · rw [opens'.size?_add empty, TypeTable.sizeFrom, kind_add_self]
  · rw [TypeTable.isStructured, kind_add_self]
    rfl

theorem size?_newArray {length? : Option Int64} {inside : List Token} {b : TypeId} {m : Int64}
    (measured : LengthWrittenAs length? inside) (opens : s.types.Opens U t) (closed : t.Closed U b)
    (size : t.size? b = some m) (sized : arraySize? length? m = some n) :
    (∀ part ∈ (TypeKind.array b (length?.getD openLength)).contents, t.Closed U part) ∧
      (t.add (.array b (length?.getD openLength))).2.size? ⟨t.size⟩ = some n := by
  cases measured with
  | missing =>
    have empty : ∀ part ∈ (TypeKind.array b openLength).contents, t.Closed U part :=
      closed_of_contents_nil (by rw [TypeKind.contents, if_pos rfl])
    refine ⟨empty, ?_⟩
    rw [Option.getD_none, opens.size?_add empty, TypeTable.sizeFrom, kind_add_self]
    exact (if_pos rfl).trans sized
  | @given k nonneg span =>
    have counted : k ≠ openLength := by
      rintro rfl
      exact absurd nonneg (by decide)
    have inner : ∀ part ∈ (TypeKind.array b k).contents, t.Closed U part := by
      rw [TypeKind.contents, if_neg counted]
      exact fun part hm => List.mem_singleton.1 hm ▸ closed
    refine ⟨inner, ?_⟩
    rw [Option.getD_some, opens.size?_add inner, TypeTable.sizeFrom, kind_add_self]
    dsimp only
    rw [if_neg counted, opens.size?_add_of_closed inner closed, size]
    exact sized

theorem isRead_array {length? : Option Int64} {base : TypeTree} (ih : base.IsRead setup s) :
    (TypeTree.array length? base).IsRead setup s := by
  rintro U t stream behind words n opens (_ | _ | ⟨_, measured, _, written⟩) shows ends proper sized
  obtain ⟨m, sizedBase, total⟩ := Option.bind_eq_some_iff.1 sized
  obtain ⟨middle, inside, closing⟩ := shows.tail.append
  rw [typeExpression, shows.kind]
  show (arrayType stream).Builds _ _ _ _ _ _
  rw [arrayType]
  refine builds_eat shows.kind (by decide) fun h₁ => ?_
  refine (builds_arrayLength opens measured inside closing.kind).bind ?_
  rintro ⟨length, s₂, h₂⟩ _ opens _ ⟨rfl, rfl, rfl⟩
  refine builds_eat closing.kind (by decide) fun h₃ => ?_
  refine (ih opens written closing.tail ends proper sizedBase).bind ?_
  rintro ⟨b, s₄, h₄⟩ u opens' keeps ⟨rfl, built⟩
  obtain ⟨inner, size⟩ := size?_newArray measured opens' built.closed built.size total
  refine builds_addType opens' inner fun opens'' => ?_
  simp only [fail_bind]
  rw [builds_get, if_neg (by rw [size]; exact Bool.false_ne_true)]
  refine builds_pure opens'' ⟨rfl, ⟨keeps.size, b, kind_add_self _, ?_⟩, size,
    opens'.closed_new _, ?_⟩
  · exact built.denotes.keeps ((keeps_add ∅ u _).keepsFrom _) (Nat.le_refl _)
  · rw [TypeTable.isStructured, kind_add_self]
    rfl

theorem isRead_text (capacity? : Option Int64) : (TypeTree.text capacity?).IsRead setup s := by
  intro U t stream behind words n opens written shows ends proper sized
  have room : textCapacity? setup capacity? = some n := sized
  have empty : ∀ part ∈ (TypeKind.text n).contents, t.Closed U part :=
    closed_of_contents_nil rfl
  have size : (t.add (.text n)).2.size? ⟨t.size⟩ = some n := by
    rw [opens.size?_add empty, TypeTable.sizeFrom, kind_add_self]
  have structured : (t.add (.text n)).2.isStructured ⟨t.size⟩ = true := by
    rw [TypeTable.isStructured, kind_add_self]
  have denotes : (TypeTree.text capacity?).Denotes setup s t.size (t.add (.text n)).2 ⟨t.size⟩ :=
    ⟨Nat.le_refl _, n, room, kind_add_self _⟩
  cases written with
  | text span =>
    obtain rfl := shows.tail.nil
    rw [typeExpression, shows.kind]
    show (textType stream).Builds _ _ _ _ _ _
    unfold textType
    refine builds_eat shows.kind (by decide) fun h₁ => ?_
    dsimp only
    rw [Stream.skip?_eq_none (ends .openBracket rfl)]
    dsimp only
    rw [builds_read, show Word.add? setup.settings.defaultTextLength 1 = some n from room]
    exact builds_newType opens empty denotes size structured
  | @textOf k inside span opening measured closing =>
    obtain rfl : k = n := Option.some_inj.1 room
    obtain ⟨middle, inside, closing⟩ := shows.tail.tail.append
    obtain rfl := closing.tail.nil
    obtain ⟨opened, next⟩ := Stream.skip?_of_kind shows.tail.kind (by decide)
    cases measured with
    | given nonneg span =>
      rw [typeExpression, shows.kind]
      show (textType stream).Builds _ _ _ _ _ _
      unfold textType
      refine builds_eat shows.kind (by decide) fun h₁ => ?_
      dsimp only
      rw [next]
      refine (builds_length opens nonneg inside closing.kind).bind ?_
      rintro ⟨capacity, s₃, h₃⟩ _ opens _ ⟨rfl, rfl, rfl⟩
      refine builds_eat closing.kind (by decide) fun h₄ => ?_
      exact builds_newType opens empty denotes size structured

end Action

end FrontEnd
