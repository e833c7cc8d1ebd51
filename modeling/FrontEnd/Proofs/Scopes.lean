import FrontEnd.Proofs.Symbols.Scopes
import FrontEnd.Proofs.History
import FrontEnd.Proofs.Yields

/-!
Names are looked up as in a plain stack of scopes. The front end never removes an identifier; closed
blocks are hidden because their numbers are never used again, other modules because each identifier
belongs to one module.
-/

namespace FrontEnd

namespace Session

/-- The numbers of the open blocks, innermost first. -/
def openBlocks (s : Session) : List BlockId := s.blocks.stack.map (·.id)

/-- The stack of the scopes that are open. -/
def scopes (s : Session) : ScopeStack where
  blocks := s.openBlocks.map s.idents.scope
  moduleScope := s.idents.scope .moduleScope
  module := s.blocks.module

/-- Blocks are numbered in the order in which they are opened, behind module scope. -/
structure Nested (s : Session) : Prop where
  inner : .moduleScope ∉ s.openBlocks
  ordered : s.openBlocks.Pairwise fun inner outer => outer.index < inner.index

variable {U : Set TypeId} {s t : Session} {setup : Setup}

theorem find?_eq (s : Session) (name : String) :
    s.idents.find? s.blocks name = s.scopes.find? name := by
  unfold IdentTable.find? ScopeStack.find? Blocks.scopes scopes openBlocks IdentTable.findInModule?
  simp only [List.findSome?_append, List.findSome?_map, List.findSome?_singleton, Function.comp_def,
    IdentTable.find?_scope]

theorem find?_current (s : Session) (name : String) :
    s.scopes.current.find? s.blocks.module name =
      s.idents.findInScope? s.blocks.module s.blocks.current name := by
  unfold ScopeStack.current scopes openBlocks Blocks.current
  cases s.blocks.stack with
  | nil => exact IdentTable.find?_scope _ _ _ _
  | cons b rest => exact IdentTable.find?_scope _ _ _ _

theorem openBlocks_eq (h : t.blocks.scope.2 = s.blocks.scope.2) : t.openBlocks = s.openBlocks := by
  have ids (u : Session) : u.openBlocks = u.blocks.scope.2.map Prod.fst := by
    unfold openBlocks Blocks.scope
    rw [List.map_map]
    rfl
  rw [ids, ids, h]

theorem scopes_congr (idents : ∀ block, t.idents.scope block = s.idents.scope block)
    (scope : t.blocks.scope = s.blocks.scope) : t.scopes = s.scopes := by
  have blocks := openBlocks_eq (congrArg Prod.snd scope)
  have module : t.blocks.module = s.blocks.module := congrArg Prod.fst scope
  unfold scopes
  rw [blocks, module, funext idents]

theorem scopes_remark (s : Session) (types : TypeTable) (id : IdentId) (exported : Bool)
    (span : Span) :
    Session.scopes { s with types, idents := s.idents.modify id (remark exported span) } =
      s.scopes :=
  scopes_congr (IdentTable.scope_modify id fun _ => rfl) rfl

/-! ### Moves -/

/-- A block that is opened is empty. -/
theorem Valid.scope_next (h : s.Valid U) : s.idents.scope ⟨s.blocks.next⟩ = [] := by
  refine IdentTable.scope_eq_nil fun id i hi he => ?_
  have known := (h.idents id i hi).block
  rw [he] at known
  exact Nat.lt_irrefl _ known

theorem Valid.scopes_enter (h : s.Valid U) (function? : Option IdentId) :
    s.scopes.move? .enter =
      some (Session.scopes { s with blocks := s.blocks.enter function? }) := by
  have fresh := h.scope_next
  simp [scopes, openBlocks, ScopeStack.move?, Blocks.enter, fresh]

theorem scopes_leave (s : Session) :
    s.scopes.move? .leave = some (Session.scopes { s with blocks := s.blocks.leave }) := by
  simp [scopes, openBlocks, ScopeStack.move?, Blocks.leave]

theorem Nested.same (h : s.Nested) (he : t.openBlocks = s.openBlocks) : t.Nested :=
  ⟨he ▸ h.inner, he ▸ h.ordered⟩

/-- The innermost block is no other open block. -/
theorem Nested.current_ne (h : s.Nested) {block : BlockId} {rest : List BlockId}
    (hs : s.openBlocks = block :: rest) : block ≠ .moduleScope ∧ ∀ other ∈ rest, block ≠ other := by
  obtain ⟨inner, ordered⟩ := h
  rw [hs] at inner ordered
  refine ⟨fun he => inner (he ▸ List.mem_cons_self), fun other hm he => ?_⟩
  have lower := (List.pairwise_cons.1 ordered).1 other hm
  rw [he] at lower
  exact Nat.lt_irrefl _ lower

theorem current_eq (s : Session) : s.blocks.current = s.openBlocks.headD .moduleScope := by
  unfold Blocks.current openBlocks
  cases s.blocks.stack <;> rfl

/-- A name that is declared in the current scope is added to the innermost scope, and to no other. -/
theorem Nested.scopes_insert (h : s.Nested) {i : Ident} (placed : s.Places i)
    (plain : i.receiver? = none) :
    Session.scopes { s with idents := ⟨s.idents.idents.push i⟩ } =
      s.scopes.push ⟨s.blocks.module, i.name, ⟨s.idents.size⟩⟩ := by
  have added : IdentTable.scope ⟨s.idents.idents.push i⟩ i.block =
      s.idents.scope i.block ++ [⟨s.blocks.module, i.name, ⟨s.idents.size⟩⟩] := by
    rw [IdentTable.scope_push, Ident.key, plain, IdentTable.binding?_self, placed.module]
    rfl
  have other (block : BlockId) (hne : i.block ≠ block) :
      IdentTable.scope ⟨s.idents.idents.push i⟩ block = s.idents.scope block := by
    rw [IdentTable.scope_push, Ident.key, IdentTable.binding?]
    simp [hne]
  have current := placed.block.trans s.current_eq
  have blocks : Session.openBlocks { s with idents := ⟨s.idents.idents.push i⟩ } = s.openBlocks := rfl
  unfold scopes ScopeStack.push
  rw [blocks]
  cases hs : s.openBlocks with
  | nil =>
    rw [hs, List.headD_nil] at current
    rw [current] at added
    simp only [List.map_nil, added]
  | cons block rest =>
    rw [hs, List.headD_cons] at current
    obtain ⟨inner, others⟩ := h.current_ne hs
    rw [current] at added other
    have kept : rest.map (IdentTable.scope ⟨s.idents.idents.push i⟩) = rest.map s.idents.scope :=
      List.map_congr_left fun c hc => other c (others c hc)
    simp only [List.map_cons, added, other _ inner, kept]

theorem Nested.move?_insert (h : s.Nested) {i : Ident} {id : IdentId} {idents : IdentTable}
    (added : s.idents.insert? i = some (id, idents)) (placed : s.Places i)
    (plain : i.receiver? = none) :
    s.scopes.move? (.declare i.name id) = some (Session.scopes { s with idents }) := by
  obtain ⟨rfl, rfl, fresh⟩ := IdentTable.insert?_eq_some added
  have free : s.scopes.current.find? s.scopes.module i.name = none := by
    refine (find?_current s i.name).trans ?_
    cases hf : s.idents.findInScope? s.blocks.module s.blocks.current i.name with
    | none => rfl
    | some other =>
      obtain ⟨j, hj, key⟩ := IdentTable.findNamed?_eq_some hf
      refine absurd ?_ (fresh other j hj)
      rw [key, Ident.key, plain, placed.module, placed.block]
  rw [h.scopes_insert placed plain, ScopeStack.move?_declare, free]
  rfl

/-- A method is added to no scope. -/
theorem scopes_insert_method (s : Session) {i : Ident} (method : i.receiver? ≠ none) :
    Session.scopes { s with idents := ⟨s.idents.idents.push i⟩ } = s.scopes := by
  refine scopes_congr (fun block => ?_) rfl
  rw [IdentTable.scope_push, Ident.key, IdentTable.binding?]
  simp [method]

/-- A change moves the stack of scopes, or leaves it as it is. -/
def MovesScopes (s t : Session) : Prop :=
  t.scopes = s.scopes ∨ ∃ move, s.scopes.move? move = some t.scopes

theorem Nested.movesScopes_insert (h : s.Nested) {i : Ident} {id : IdentId} {idents : IdentTable}
    (added : s.idents.insert? i = some (id, idents)) (placed : s.Places i) :
    s.MovesScopes { s with idents } := by
  by_cases plain : i.receiver? = none
  · exact .inr ⟨.declare i.name id, h.move?_insert added placed plain⟩
  · obtain ⟨_, rfl, _⟩ := IdentTable.insert?_eq_some added
    exact .inl (scopes_insert_method s plain)

theorem Step.movesScopes (h : s.Step U t) (hs : s.Valid U) (hn : s.Nested) : s.MovesScopes t := by
  cases h with
  | declare added _ _ placed => exact hn.movesScopes_insert added placed
  | complete => exact .inl (scopes_remark s _ _ _ _)
  | allocateLocal allocated =>
    exact .inl (scopes_congr (fun _ => rfl) (Blocks.allocate?_eq_some allocated).1)
  | enter => exact .inr ⟨.enter, hs.scopes_enter _⟩
  | leave => exact .inr ⟨.leave, s.scopes_leave⟩
  | openModule => exact .inr ⟨.switch ⟨s.modules.size⟩, rfl⟩
  | _ => exact .inl rfl

theorem Change.movesScopes (h : s.Change t) (hs : s.Valid ∅) (hn : s.Nested) : s.MovesScopes t := by
  cases h with
  | step _ step => exact step.movesScopes hs hn
  | nameForward added _ _ _ _ placed => exact hn.movesScopes_insert added placed
  | @leaveFile outer => exact .inr ⟨.switch outer.module, rfl⟩
  | _ => exact .inl rfl

/-! ### Open and closed blocks -/

/-- What a change does to the open blocks. -/
inductive MovesBlocks (s t : Session) : Prop
  | same (open_ : t.openBlocks = s.openBlocks) (next : t.blocks.next = s.blocks.next)
  | enter (opened : t.openBlocks = ⟨s.blocks.next⟩ :: s.openBlocks)
      (next : t.blocks.next = s.blocks.next + 1)
  | leave (left : t.openBlocks = s.openBlocks.drop 1) (next : t.blocks.next = s.blocks.next)

theorem Step.movesBlocks (h : s.Step U t) : s.MovesBlocks t := by
  cases h with
  | allocateLocal allocated =>
    obtain ⟨scope, next⟩ := Blocks.allocate?_eq_some allocated
    exact .same (openBlocks_eq (congrArg Prod.snd scope)) next
  | enter => exact .enter rfl rfl
  | leave => exact .leave (List.map_drop ..) rfl
  | _ => exact .same rfl rfl

theorem Change.movesBlocks (h : s.Change t) : s.MovesBlocks t := by
  cases h with
  | step _ step => exact step.movesBlocks
  | _ => exact .same rfl rfl

theorem Valid.openBlocks_lt (h : s.Valid U) {block : BlockId} (hb : block ∈ s.openBlocks) :
    block.index < s.blocks.next := by
  obtain ⟨b, hm, rfl⟩ := List.mem_map.1 hb
  exact (h.blocks b hm).id

theorem Change.nested (h : s.Change t) (hs : s.Valid ∅) (hn : s.Nested) : t.Nested := by
  cases h.movesBlocks with
  | same open_ => exact hn.same open_
  | enter opened =>
    refine ⟨?_, ?_⟩ <;> rw [opened]
    · rw [List.mem_cons, not_or]
      refine ⟨fun he => ?_, hn.inner⟩
      exact Nat.ne_of_gt hs.next (congrArg BlockId.index he).symm
    · exact List.pairwise_cons.2 ⟨fun _ hb => hs.openBlocks_lt hb, hn.ordered⟩
  | leave left =>
    refine ⟨?_, ?_⟩ <;> rw [left]
    · exact fun hm => hn.inner (List.mem_of_mem_drop hm)
    · exact hn.ordered.sublist (List.drop_sublist 1 _)

/-- A block that has been closed is not opened again. -/
theorem Change.closed (h : s.Change t) {block : BlockId} (known : block.index < s.blocks.next)
    (closed : block ∉ s.openBlocks) : block.index < t.blocks.next ∧ block ∉ t.openBlocks := by
  cases h.movesBlocks with
  | same open_ next => exact ⟨next ▸ known, open_ ▸ closed⟩
  | enter opened next =>
    refine ⟨by omega, ?_⟩
    rw [opened, List.mem_cons, not_or]
    refine ⟨?_, closed⟩
    rintro rfl
    exact Nat.lt_irrefl _ known
  | leave left next =>
    refine ⟨next ▸ known, ?_⟩
    rw [left]
    exact fun hm => closed (List.mem_of_mem_drop hm)

end Session

open Session

namespace Action

variable {setup : Setup} {U : Set TypeId} {s t : Session}

/-! ### Declarations -/

/-- Declaring a name in the current scope comes to declaring it in the stack of scopes. -/
def DeclaresOnStack (setup : Setup) (s : Session) (i : Ident) : Prop :=
  match s.scopes.move? (.declare i.name ⟨s.idents.size⟩) with
  | none => (declare i).run setup s =
      .error ((⟨.duplicateName i.name, i.span⟩ : Fault).inFile s.place.file) s
  | some scopes => ∃ t, (declare i).run setup s = .ok ⟨s.idents.size⟩ t ∧ t.scopes = scopes

theorem run_declare_hidden {i : Ident} (hidden : i.exported = false) :
    (declare i).run setup s =
      match s.idents.insert? i with
      | some (id, idents) => .ok id { s with idents }
      | none => .error ((⟨.duplicateName i.name, i.span⟩ : Fault).inFile s.place.file) s := by
  unfold declare
  rw [hidden]
  show (get >>= _ : Action IdentId).run setup s = _
  rw [run_get]
  cases s.idents.insert? i <;> rfl

theorem declaresOnStack (hn : s.Nested) {i : Ident} (placed : s.Places i)
    (hidden : i.exported = false) (plain : i.receiver? = none) :
    DeclaresOnStack setup s i := by
  have free : s.scopes.current.find? s.scopes.module i.name =
      s.idents.findNamed? i.module i.block i.receiver? i.name := by
    rw [plain, placed.module, placed.block]
    exact find?_current s i.name
  unfold DeclaresOnStack
  rw [ScopeStack.move?_declare, free, run_declare_hidden hidden, IdentTable.insert?]
  cases s.idents.findNamed? i.module i.block i.receiver? i.name with
  | some _ => rfl
  | none => exact ⟨_, rfl, hn.scopes_insert placed plain⟩

/-- The name of the current scope is that of the forward type of the identifier `id`. -/
structure Awaited (s : Session) (name : String) (id : IdentId) (i : Ident) : Prop where
  found : s.scopes.current.find? s.blocks.module name = some id
  ident : s.idents.get? id = some i
  kind : i.kind = .type
  forward : s.types.isForward i.type = true

theorem forwardOf?_eq_some_iff {name : String} {id : IdentId} {forward : TypeId} :
    forwardOf? s name = some (id, forward) ↔ ∃ i, Awaited s name id i ∧ i.type = forward := by
  unfold forwardOf?
  simp only [Option.bind_eq_bind, Option.bind_eq_some_iff, ← find?_current]
  constructor
  · rintro ⟨id', found, i, ident, h⟩
    split at h
    · rename_i hk
      cases h
      obtain ⟨kind, forward⟩ := Bool.and_eq_true_iff.1 hk
      exact ⟨i, ⟨found, ident, of_decide_eq_true kind, forward⟩, rfl⟩
    · cases h
  · rintro ⟨i, ⟨found, ident, kind, forward⟩, rfl⟩
    exact ⟨id, found, i, ident, if_pos (Bool.and_eq_true_iff.2 ⟨decide_eq_true kind, forward⟩)⟩

/-- A type is declared like any name, unless its name is that of a forward type. -/
structure DeclaresTypeOnStack (setup : Setup) (s : Session) (name : String) (type : TypeId)
    (span : Span) : Prop where
  fresh : (∀ id i, ¬ Awaited s name id i) → (declareType name false type span).run setup s =
    (declare (s.ident name .type false type .none span)).run setup s
  awaited : ∀ id i, Awaited s name id i → ∀ exported, ∃ t,
    (declareType name exported type span).run setup s = .ok id t ∧ t.scopes = s.scopes

theorem declaresTypeOnStack {name : String} {type : TypeId} {span : Span}
    (solid : s.types.isForward type = false) : DeclaresTypeOnStack setup s name type span := by
  constructor
  · intro none
    have forward : forwardOf? s name = .none := by
      cases hf : forwardOf? s name with
      | none => rfl
      | some found =>
        obtain ⟨i, awaited, _⟩ := forwardOf?_eq_some_iff.1 hf
        exact absurd awaited (none _ i)
    unfold declareType
    rw [run_get, solid, forward]
    rfl
  · intro id i awaited exported
    have forward := forwardOf?_eq_some_iff.2 ⟨i, awaited, rfl⟩
    refine ⟨_, ?_, s.scopes_remark (s.types.complete i.type type) id exported span⟩
    unfold declareType
    rw [run_get, solid, forward]
    rfl

/-! ### Short declarations of variables -/

theorem yields_declare {i : Ident} {id : IdentId} (h : (declare i).Yields setup s id t) :
    (i.exported = true → i.block = .moduleScope) ∧ ∃ idents,
      s.idents.insert? i = some (id, idents) ∧ t = { s with idents } := by
  unfold declare at h
  simp only [fail_bind] at h
  split at h
  · exact absurd h not_yields_fail
  · rename_i ho
    rw [yields_get] at h
    split at h
    · rename_i id' idents added
      cases h
      exact ⟨exports_of_not_local ho, idents, added, rfl⟩
    · exact absurd h not_yields_fail

/-- Making room for a variable opens no scope and declares nothing. -/
theorem yields_allocate {name : String} {type : TypeId} {span : Span} {payload : Payload}
    (h : (allocate name type span).Yields setup s payload t) :
    t.idents = s.idents ∧ t.blocks.scope = s.blocks.scope := by
  unfold allocate at h
  rw [yields_get] at h
  split at h
  · cases h
    exact ⟨rfl, rfl⟩
  · split at h
    · rename_i offset blocks hb
      cases h
      obtain ⟨_, _, allocated⟩ := Option.bind_eq_some_iff.1 hb
      exact ⟨rfl, (Blocks.allocate?_eq_some allocated).1⟩
    · exact absurd h not_yields_fail

/-- Giving a new variable its value changes neither names nor scopes. -/
theorem yields_storeInferred {payload : Payload} {value : TypedValue}
    (h : (storeInferred payload value).Yields setup s () t) :
    t.idents = s.idents ∧ t.blocks = s.blocks := by
  unfold storeInferred at h
  split at h
  · unfold setGlobal at h
    rw [yields_get] at h
    split at h
    · cases h
      exact ⟨rfl, rfl⟩
    · exact absurd h not_yields_failInternal
  · cases h
    exact ⟨rfl, rfl⟩
  · exact absurd h not_yields_failInternal

/-- What changes no names, no blocks and no files leaves the scopes as they are all the time. -/
theorem Meets.scopes {α : Type} {action : Action α} {may : Set Part} {Q : α → Session → Prop}
    (h : action.Meets setup may U Q s) (idents : .idents ∉ may) (scopes : .scopes ∉ may)
    (files : .files ∉ may) : ∀ u ∈ s :: action.trace setup s, u.scopes = s.scopes := by
  have chain : (s :: action.trace setup s).IsChain fun t u => t.scopes = u.scopes :=
    (Ensures.isChain h).imp fun t u change => by
      have same := change.keeps.idents idents
      exact (scopes_congr (fun block => by rw [same]) (change.keeps.scope scopes files)).symm
  intro u hu
  exact chain.induction (fun u => u.scopes = s.scopes) _ (fun t u he ht => he.symm.trans ht)
    (fun _ => rfl) u hu

theorem meets_inferredCode (h : s.Ready U) (stream : Stream) :
    (inferredValue stream).Meets setup {.code} U (fun _ _ => True) s := by
  unfold inferredValue
  rw [meets_get]
  split
  · refine ((meets_constantExpression h).allow (Set.empty_subset _)).bind fun _ t ht _ _ => ?_
    exact meets_pure ht trivial
  · have value : (expression .runtime stream).Meets setup {.code} U _ s := meets_expression h
    exact value.bind fun _ t ht _ _ => meets_pure ht trivial

/-- A variable that takes its type from its value is declared when the value has been computed. All
the time until then names stand for what they stood for before. -/
structure DeclaresBehind (setup : Setup) (s : Session) (stream : Stream) : Prop where
  before : ∀ u ∈ s :: (inferredValue stream).trace setup s, u.scopes = s.scopes
  behind : ∀ declared rest t, (declareInferred declared stream).Yields setup s rest t →
    ∃ value u ident, (inferredValue stream).Yields setup s value u ∧
      s.scopes.move? (.declare declared.name ident) = some t.scopes

theorem yields_declareVariable {name : String} {exported : Bool} {type : TypeId} {span : Span}
    {id : IdentId} {payload : Payload} (hn : s.Nested)
    (h : (declareVariable name exported type span).Yields setup s (id, payload) t) :
    s.scopes.move? (.declare name id) = some t.scopes := by
  obtain ⟨payload', u, allocated, h⟩ := yields_bind.1 h
  obtain ⟨idents, scope⟩ := yields_allocate allocated
  obtain ⟨_, _, ⟨⟩, h⟩ := yields_bind.1 h
  obtain ⟨id', w, declared, h⟩ := yields_bind.1 h
  obtain ⟨he, rfl⟩ := yields_pure.1 h
  cases he
  obtain ⟨exports, table, added, rfl⟩ := yields_declare declared
  have same : u.scopes = s.scopes := scopes_congr (fun block => by rw [idents]) scope
  have nested := hn.same (openBlocks_eq (congrArg Prod.snd scope))
  rw [← same]
  exact nested.move?_insert added ⟨rfl, rfl, exports⟩ rfl

theorem declaresBehind (h : s.Ready U) (hn : s.Nested) (stream : Stream) :
    DeclaresBehind setup s stream := by
  have code : (inferredValue stream).Meets setup {.code} U (fun _ _ => True) s :=
    meets_inferredCode h stream
  have before := code.scopes nofun nofun nofun
  refine ⟨before, fun declared rest t hy => ?_⟩
  unfold declareInferred at hy
  simp only [fail_bind] at hy
  obtain ⟨⟨value, s', h'⟩, u, valued, hy⟩ := yields_bind.1 hy
  obtain ⟨⟨_, e, _⟩, _⟩ := code.of_run_ok valued
  have nested := hn.same (openBlocks_eq (e.keeps.scopes nofun))
  have same : u.scopes = s.scopes :=
    scopes_congr (fun block => by rw [e.keeps.idents nofun]) (e.keeps.scope nofun nofun)
  dsimp only at hy
  split at hy
  · obtain ⟨_, _, ⟨⟩, hy⟩ := yields_bind.1 hy
    exact absurd hy not_yields_fail
  · obtain ⟨⟨id, payload⟩, v, stands, hy⟩ := yields_bind.1 hy
    obtain ⟨⟨⟩, w, stored, hy⟩ := yields_bind.1 hy
    obtain ⟨_, rfl⟩ := yields_pure.1 hy
    obtain ⟨idents, blocks⟩ := yields_storeInferred stored
    have last : t.scopes = v.scopes :=
      scopes_congr (fun block => by rw [idents]) (by rw [blocks])
    refine ⟨_, u, id, valued, ?_⟩
    rw [last, ← same]
    exact yields_declareVariable nested stands

end Action

/-! ### Compilations -/

namespace Session

variable {s t : Session}

/-- The identifier `i` can be what `name` stands for: it is no method, and it belongs to the module
being read and to a scope that is open, or it is predeclared. -/
structure Visible (s : Session) (name : String) (i : Ident) : Prop where
  name : i.name = name
  plain : i.receiver? = none
  scope : i.module = s.blocks.module ∧ (i.block ∈ s.openBlocks ∨ i.block = .moduleScope) ∨
    i.module = .predeclared ∧ i.block = .moduleScope

theorem visible_of_find? {name : String} {id : IdentId}
    (h : s.idents.find? s.blocks name = some id) :
    ∃ i, s.idents.get? id = some i ∧ s.Visible name i := by
  unfold IdentTable.find? at h
  cases hf : s.blocks.scopes.findSome? (s.idents.findInScope? s.blocks.module · name) with
  | some found =>
    rw [hf] at h
    cases h
    obtain ⟨block, hb, hf⟩ := List.exists_of_findSome?_eq_some hf
    obtain ⟨i, hi, key⟩ := IdentTable.findNamed?_eq_some hf
    simp only [Ident.key, Prod.mk.injEq] at key
    refine ⟨i, hi, key.2.2.2, key.2.2.1, .inl ⟨key.1, ?_⟩⟩
    rw [key.2.1]
    exact (List.mem_append.1 hb).imp_right List.mem_singleton.1
  | none =>
    rw [hf] at h
    obtain ⟨i, hi, key⟩ := IdentTable.findNamed?_eq_some h
    simp only [Ident.key, Prod.mk.injEq] at key
    exact ⟨i, hi, key.2.2.2, key.2.2.1, .inr ⟨key.1, key.2.1⟩⟩

/-- In `s` names are looked up and declared, and blocks and modules entered and left, as with a stack
of scopes. -/
structure ActsAsStack (setup : Setup) (s : Session) : Prop where
  nested : s.Nested
  find : ∀ name, s.idents.find? s.blocks name = s.scopes.find? name
  visible : ∀ name id, s.idents.find? s.blocks name = some id →
    ∃ i, s.idents.get? id = some i ∧ s.Visible name i
  enter : ∀ function?, ∃ t, (Action.enter function?).Yields setup s () t ∧
    s.scopes.move? .enter = some t.scopes
  leave : ∃ t, Action.leave.Yields setup s () t ∧ s.scopes.move? .leave = some t.scopes
  openModule : ∀ path, ∃ module t, (Action.openModule path).Yields setup s module t ∧
    s.scopes.move? (.switch module) = some t.scopes
  enterFile : ∀ path, (s.enterFile path).scopes = s.scopes
  leaveFile : ∀ outer : Frame, s.scopes.move? (.switch outer.module) = some (s.leaveFile outer).scopes
  declare : ∀ name kind type payload span,
    Action.DeclaresOnStack setup s (s.ident name kind false type payload span)
  declareType : ∀ name type span, s.types.isForward type = false →
    Action.DeclaresTypeOnStack setup s name type span

theorem Valid.actsAsStack {setup : Setup} (h : s.Valid ∅) (hn : s.Nested) : s.ActsAsStack setup where
  nested := hn
  find := s.find?_eq
  visible _ _ := visible_of_find?
  enter function? := ⟨_, rfl, h.scopes_enter function?⟩
  leave := ⟨_, rfl, s.scopes_leave⟩
  openModule _ := ⟨_, _, rfl, rfl⟩
  enterFile _ := rfl
  leaveFile _ := rfl
  declare _ _ _ _ _ := Action.declaresOnStack hn ⟨rfl, rfl, nofun⟩ rfl rfl
  declareType _ _ _ := Action.declaresTypeOnStack

/-- The identifier `id` belongs to a block that has been closed. -/
def Closes (s : Session) (id : IdentId) : Prop :=
  ∃ i, s.idents.get? id = some i ∧ i.block ≠ .moduleScope ∧ i.block ∉ s.openBlocks

theorem Change.closes (h : s.Change t) (hs : s.Valid ∅) {id : IdentId} (hc : s.Closes id) :
    t.Closes id := by
  obtain ⟨i, hi, inner, closed⟩ := hc
  obtain ⟨exported, span, hi'⟩ := h.grows.idents id i hi
  exact ⟨_, hi', inner, (h.closed (hs.idents id i hi).block closed).2⟩

theorem Closes.hidden {id : IdentId} (h : s.Closes id) (name : String) :
    s.idents.find? s.blocks name ≠ some id := by
  intro found
  obtain ⟨i, hi, inner, closed⟩ := h
  obtain ⟨i', hi', visible⟩ := visible_of_find? found
  cases hi.symm.trans hi'
  rcases visible.scope with ⟨_, opened | outer⟩ | ⟨_, outer⟩
  · exact closed opened
  · exact inner outer
  · exact inner outer

/-- The stack of scopes before anything is read. -/
def initialScopes : ScopeStack where
  blocks := []
  moduleScope := (predeclaredIdents.map (·.name)).zipIdx.map fun (name, n) =>
    ⟨.predeclared, name, ⟨n⟩⟩
  module := .predeclared

theorem scopes_initial (settings : Settings) : (initial settings).scopes = initialScopes := by
  have table : IdentTable.scope ⟨predeclaredIdents.toArray⟩ .moduleScope =
      initialScopes.moduleScope := by
    decide
  unfold scopes
  exact congrArg (ScopeStack.mk [] · .predeclared) table

theorem nested_initial (settings : Settings) : (initial settings).Nested :=
  ⟨List.not_mem_nil, .nil⟩

end Session

/-- A run looks names up as a stack of scopes does that starts with the predeclared names. -/
structure LooksUpAsStack (setup : Setup) (run : List Session) : Prop where
  start : ∀ s, run.head? = some s → s.scopes = initialScopes
  sessions : ∀ s ∈ run, s.ActsAsStack setup
  moves : run.IsChain MovesScopes
  /-- What belongs to a closed block is not found again. -/
  closed : ∀ (n m : Nat) (s t : Session) id name, n ≤ m → run[n]? = some s → run[m]? = some t →
    s.Closes id → t.idents.find? t.blocks name ≠ some id

variable {setup : Setup} {root : String}

theorem closes_of_le {n m : Nat} {s t : Session} {id : IdentId} (hle : n ≤ m)
    (hs : (history setup root)[n]? = some s) (ht : (history setup root)[m]? = some t)
    (hc : s.Closes id) : t.Closes id := by
  induction m, hle using Nat.le_induction generalizing t with
  | base =>
    cases hs.symm.trans ht
    exact hc
  | succ m _ ih =>
    obtain ⟨bound, rfl⟩ := List.getElem?_eq_some_iff.1 ht
    have change := List.isChain_iff_getElem.1 (isChain_history setup root) m bound
    have bound := Nat.lt_of_succ_lt bound
    exact change.closes (valid_of_mem_history (List.getElem_mem bound))
      (ih (List.getElem?_eq_getElem bound))

/-- Throughout a compilation names are looked up and declared as with a plain stack of scopes, and
the value of a variable that takes its type from it is computed before the variable exists. -/
theorem history_scopes (setup : Setup) (root : String) :
    LooksUpAsStack setup (history setup root) ∧
      ∀ s, s.Ready ∅ → s.Nested → ∀ stream, Action.DeclaresBehind setup s stream := by
  have sessions : ∀ s ∈ history setup root, s.Valid ∅ ∧ s.Nested :=
    history_induction (nested_initial setup.settings) fun _ _ hv hc hn => hc.change.nested hv hn
  refine ⟨⟨?_, fun s hs => ?_, ?_, ?_⟩, fun s h hn stream => Action.declaresBehind h hn stream⟩
  · intro s hs
    rw [history, List.head?_cons, Option.some_inj] at hs
    rw [← hs]
    exact scopes_initial setup.settings
  · exact (sessions s hs).1.actsAsStack (sessions s hs).2
  · refine (isChain_history setup root).imp_of_mem_imp fun s t hs _ change => ?_
    exact change.movesScopes (sessions s hs).1 (sessions s hs).2
  · intro n m s t id name hle hs ht hc
    exact (closes_of_le hle hs ht hc).hidden name

end FrontEnd
