import FrontEnd.Proofs.Storage

/-!
What the declarations of a module leave alone. They are read when the module has no identifiers yet;
so the names that wait in its scope are its own, and nothing that was there before becomes another.
-/

namespace FrontEnd

namespace Session

variable {b s t u : Session} {n : Nat}

/-- What there was in `s` is there in `t` just as it was. -/
structure Leaves (s t : Session) : Prop where
  kinds : ∀ id : TypeId, id.index < s.types.size → t.types.kind id = s.types.kind id
  idents : ∀ id : IdentId, id.index < s.idents.size → t.idents.get? id = s.idents.get? id
  globals : ∀ slot < s.globals.size, t.globals[slot]? = s.globals[slot]?

/-- A module without identifiers, whose declarations begin with `b`, has been read on to `s`. -/
structure Begun (b s : Session) : Prop where
  valid : b.Valid ∅
  bound : b.Bound
  fresh : ∀ id i, b.idents.get? id = some i → i.module ≠ b.blocks.module
  grows : b.Grows s
  kinds : ∀ id : TypeId, id.index < b.types.size → s.types.kind id = b.types.kind id
  module : s.blocks.module = b.blocks.module
  outside : s.blocks.stack = []

/-- A module has been read on from `s` to `t`. Its new identifiers are its own, and of the types and
variables of `b` none has changed. -/
structure Appends (b s t : Session) : Prop where
  outside : t.blocks.stack = []
  module : t.blocks.module = s.blocks.module
  modules : t.modules = s.modules
  kinds : ∀ id : TypeId, id.index < b.types.size → t.types.kind id = s.types.kind id
  idents : s.idents.Gains (·.module = s.blocks.module) t.idents
  globals : ∀ slot < b.globals.size, t.globals[slot]? = s.globals[slot]?

namespace Appends

theorem trans (h : b.Appends s t) (h' : b.Appends t u) : b.Appends s u where
  outside := h'.outside
  module := h'.module.trans h.module
  modules := h'.modules.trans h.modules
  kinds id hi := (h'.kinds id hi).trans (h.kinds id hi)
  idents := h.idents.trans (h.module ▸ h'.idents)
  globals slot hs := (h'.globals slot hs).trans (h.globals slot hs)

theorem refl (b : Session) (outside : s.blocks.stack = []) : b.Appends s s :=
  ⟨outside, rfl, rfl, fun _ _ => rfl, .refl, fun _ _ => rfl⟩

/-- Types and constants of the module are appended. -/
theorem of_names (outside : s.blocks.stack = []) (h : s.Extends b.types.size s.blocks.Names t) :
    b.Appends s t where
  outside := by rw [h.blocks]; exact outside
  module := by rw [h.blocks]
  modules := h.modules
  kinds := h.kinds
  idents := h.idents.mono fun _ hi => hi.module
  globals slot _ := by rw [h.globals]

theorem begun (h : b.Appends s t) (g : s.Grows t) (o : b.Begun s) : b.Begun t :=
  { o with
    grows := o.grows.trans g
    kinds := fun id hi => (h.kinds id hi).trans (o.kinds id hi)
    module := h.module.trans o.module
    outside := h.outside }

/-- The identifiers that were there before are not those of the module. -/
theorem leaves (h : b.Appends b t)
    (fresh : ∀ id i, b.idents.get? id = some i → i.module ≠ b.blocks.module) : b.Leaves t where
  kinds := h.kinds
  idents := by
    have gains := h.idents
    generalize t.idents = idents at gains
    intro id old
    induction gains with
    | refl => rfl
    | push before _ ih =>
      rw [IdentTable.get?_push, if_neg (Nat.ne_of_lt (Nat.lt_of_lt_of_le old before.size_le)), ih]
    | @mark idents other i exported span before found _ own _ ih =>
      rw [IdentTable.get?_modify]
      split
      · rename_i he
        obtain rfl : other = id := IdentId.ext he
        rw [ih] at found
        exact absurd own (fresh other i found)
      · exact ih
  globals := h.globals

end Appends

namespace Leaves

theorem refl (s : Session) : s.Leaves s :=
  ⟨fun _ _ => rfl, fun _ _ => rfl, fun _ _ => rfl⟩

theorem trans (h : s.Leaves t) (g : s.Grows t) (h' : t.Leaves u) : s.Leaves u where
  kinds id hi := (h'.kinds id (Nat.lt_of_lt_of_le hi g.types.size)).trans (h.kinds id hi)
  idents id hi := (h'.idents id (Nat.lt_of_lt_of_le hi g.idents_size)).trans (h.idents id hi)
  globals slot hs :=
    (h'.globals slot (Nat.lt_of_lt_of_le hs g.globals_size)).trans (h.globals slot hs)

end Leaves

end Session

namespace Action

open Session

variable {setup : Setup} {root : String} {b s t z : Session} {stream : Stream}

/-! ### Items -/

/-- The names that wait in a module have been used in it. -/
theorem ownsForwards_of_begun (o : b.Begun s) :
    OwnsForwards setup root b.types.size s := by
  intro u reached grows extended name id forward hf
  have appends : b.Appends s u := .of_names o.outside (extended.mono fun _ hi => hi.names)
  have inside := appends.begun grows o
  refine le_of_forwardOf? o.valid o.bound inside.grows (tracks_of_mem_history reached) inside.kinds
    (fun id i hi module => ?_) hf
  exact absurd (module.trans inside.module) (o.fresh id i hi)

theorem appends_keywordGroup {keyword : Symbol} {item : (s : Stream) → Action (Shorter s)}
    (hitem : ∀ stream s t rest, b.Begun s →
      (item stream).PassesIn setup (history setup root) s rest t → b.Appends s t)
    {rest : Shorter stream} (o : b.Begun s)
    (h : (keywordGroup keyword item stream).PassesIn setup (history setup root) s rest t) :
    b.Appends s t := by
  refine (of_passes_keywordGroup (I := fun _ s => b.Begun s)
    (R := fun s t => s.blocks.stack = [] → b.Appends s t) (fun _ _ _ o _ => o)
    (fun _ _ _ _ o read => ?_) (fun _ outside => .refl b outside)
    (fun _ _ _ first second outside => ?_) o h).2 o.outside
  · have appends := hitem _ _ _ _ o read
    exact ⟨appends.begun read.grows o, fun _ => appends⟩
  · exact (first outside).trans (second (first outside).outside)

theorem appends_typeItem {rest : Shorter stream} (o : b.Begun s)
    (h : (typeItem stream).PassesIn setup (history setup root) s rest t) : b.Appends s t :=
  .of_names o.outside (extends_typeItem o.grows.types.size (ownsForwards_of_begun o) h)

theorem appends_constantItem {rest : Shorter stream} (o : b.Begun s)
    (h : (constantItem stream).PassesIn setup (history setup root) s rest t) : b.Appends s t :=
  .of_names o.outside (extends_constantItem o.grows.types.size h)

/-! ### Variables -/

theorem appends_declareVariable {name : String} {exported : Bool} {type : TypeId} {span : Span}
    {id : IdentId} {payload : Payload} (o : b.Begun s)
    (h : (declareVariable name exported type span).Yields setup s (id, payload) t) :
    b.Appends s t ∧ payload = .global s.globals.size := by
  obtain ⟨u, allocated, _, rfl⟩ := of_yields_declareVariable h
  obtain ⟨rfl, rfl⟩ := yields_allocate_outside o.outside allocated
  refine ⟨⟨o.outside, rfl, rfl, fun _ _ => rfl, .push .refl rfl, fun slot hs => ?_⟩, rfl⟩
  have old := Nat.lt_of_lt_of_le hs o.grows.globals_size
  exact (Array.getElem?_push ..).trans (if_neg (Nat.ne_of_lt old))

theorem appends_declareVariables {type : TypeId} {names : List DeclaredName} {payload : Payload}
    (o : b.Begun s)
    (h : (declareVariables type names).PassesIn setup (history setup root) s payload t) :
    b.Appends s t ∧ ∃ slot, payload = .global slot ∧ b.globals.size ≤ slot := by
  induction names generalizing s with
  | nil =>
    rw [declareVariables] at h
    exact absurd h.yields not_yields_failInternal
  | cons declared more ih =>
    rw [declareVariables] at h
    obtain ⟨⟨id, payload'⟩, u, first, h⟩ := passes_bind h
    obtain ⟨appends, place⟩ := appends_declareVariable o first.yields
    dsimp only at h
    split at h
    · obtain ⟨rfl, rfl⟩ := passes_pure h
      exact ⟨appends, _, place, o.grows.globals_size⟩
    · obtain ⟨others, place⟩ := ih (appends.begun first.grows o) h
      exact ⟨appends.trans others, place⟩

/-- A variable of the module gets its value. -/
theorem appends_withValue (outside : s.blocks.stack = []) {slot : Nat} (value : Constant)
    (own : b.globals.size ≤ slot) : b.Appends s (s.withValue slot value) := by
  refine ⟨outside, rfl, rfl, fun _ _ => rfl, .refl, fun other hs => ?_⟩
  have ne : slot ≠ other := Nat.ne_of_gt (Nat.lt_of_lt_of_le hs own)
  exact (Array.getElem?_modify ..).trans (if_neg ne)

theorem appends_variableItem {rest : Shorter stream} (o : b.Begun s)
    (h : (variableItem stream).PassesIn setup (history setup root) s rest t) : b.Appends s t := by
  unfold variableItem at h
  obtain ⟨⟨⟨names, type⟩, s₁, h₁⟩, u, read, h⟩ := passes_bind h
  obtain ⟨payload, w, declared, h⟩ := passes_bind h
  have reads : b.Appends s u := .of_names o.outside
    ((extends_typedNames _ ⟨o.grows.types.size, rfl⟩ read).1.mono fun _ hi => hi.names)
  have o' := reads.begun read.grows o
  obtain ⟨declares, slot, rfl, own⟩ := appends_declareVariables o' declared
  have both := reads.trans declares
  have o'' := declares.begun declared.grows o'
  dsimp only at h
  split at h
  · obtain ⟨_, rfl⟩ := passes_pure h
    exact both
  · simp only [fail_bind] at h
    split at h
    · exact absurd h not_passes_fail
    · obtain ⟨slot?, x, prepared, assigns⟩ := passes_bind h
      obtain ⟨rfl, rfl⟩ := passes_pure prepared
      obtain ⟨_, y, assigned, done⟩ := passes_bind assigns
      obtain ⟨_, rfl⟩ := passes_pure done
      obtain ⟨v, value, folds, rfl⟩ :=
        extends_fold (P := x.blocks.Names) o''.grows.types.size assigned.yields
      have folded : b.Appends x v := .of_names o''.outside folds
      exact both.trans (folded.trans (appends_withValue folded.outside value own))

theorem appends_shortDeclaration {rest : Shorter stream} (o : b.Begun s)
    (h : (shortDeclaration stream).PassesIn setup (history setup root) s rest t) :
    b.Appends s t := by
  unfold shortDeclaration at h
  obtain ⟨⟨declared, s₁, h₁⟩, _, h⟩ := passes_ofExcept_bind h
  obtain ⟨⟨⟨⟩, s₂, h₂⟩, _, h⟩ := passes_eat_bind h
  obtain ⟨_, u, read, h⟩ := passes_bind h
  obtain ⟨_, rfl⟩ := passes_pure h
  unfold declareInferred at read
  simp only [fail_bind] at read
  obtain ⟨⟨value, s₃, h₃⟩, w, valued, read⟩ := passes_bind read
  have reads : b.Appends s w :=
    .of_names o.outside (extends_inferredValue o.grows.types.size valued.yields)
  have o' := reads.begun valued.grows o
  dsimp only at read
  split at read
  · obtain ⟨_, _, _, failed⟩ := passes_bind read
    exact absurd failed not_passes_fail
  obtain ⟨⟨id, payload⟩, x, placed, read⟩ := passes_bind read
  obtain ⟨⟨⟩, y, stored, read⟩ := passes_bind read
  obtain ⟨_, rfl⟩ := passes_pure read
  obtain ⟨declares, rfl⟩ := appends_declareVariable o' placed.yields
  have both := reads.trans declares
  have stored := stored.yields
  unfold storeInferred at stored
  split at stored
  · rename_i slot _ place _
    cases place
    obtain ⟨_, rfl⟩ := of_yields_setGlobal stored
    exact both.trans (appends_withValue both.outside _ o'.grows.globals_size)
  · rename_i place _
    cases place
  · exact absurd stored not_yields_failInternal

/-! ### Functions -/

theorem appends_embodies {types : TypeTable} {signature : Signature} (o : b.Begun s)
    (h : s.Embodies types signature t) : b.Appends s t where
  outside := by
    have stack := congrArg (fun scope => scope.2.length) h.scope
    simpa [Blocks.scope, o.outside] using stack
  module := congrArg Prod.fst h.scope
  modules := h.modules
  kinds id hi := h.kinds id (Nat.lt_of_lt_of_le hi o.grows.types.size)
  idents := h.idents.mono fun _ hi => hi.module
  globals slot _ := by rw [h.globals]

theorem appends_functionDeclaration (last : (history setup root).getLast? = some z)
    {rest : Shorter stream} (o : b.Begun s)
    (h : (functionDeclaration stream).PassesIn setup (history setup root) s rest t) :
    b.Appends s t := by
  unfold functionDeclaration at h
  simp only [fail_bind] at h
  rw [passes_get] at h
  split at h
  · exact absurd h not_passes_fail
  obtain ⟨⟨⟨⟩, s₁, h₁⟩, _, h⟩ := passes_eat_bind h
  obtain ⟨⟨⟨receiver?, started⟩, s₂, h₂⟩, u, received, h⟩ := passes_bind h
  obtain ⟨⟨name, s₃, h₃⟩, _, h⟩ := passes_functionName_bind h
  obtain ⟨⟨complete, s₅, h₅⟩, v, signed, h⟩ := passes_bind h
  obtain ⟨⟨id, i⟩, w, declared, read⟩ := passes_bind h
  obtain ⟨receives, _⟩ := extends_optionalReceiver ⟨o.grows.types.size, rfl⟩ received
  have signs := extends_signature _ (receives.reads ⟨o.grows.types.size, rfl⟩) signed
  have before : b.Appends s v :=
    .of_names o.outside ((receives.trans signs).mono fun _ hi => hi.names)
  have o' := before.begun (received.grows.trans signed.grows) o
  obtain ⟨rfl, rfl, hw⟩ := yields_declareFunction declared.yields
  have declares : b.Appends v w := by
    have adds := extends_addType o'.grows.types.size (fun _ => True) (.function complete)
    rw [hw]
    exact ⟨o'.outside, rfl, rfl, adds.kinds, .push .refl rfl, fun _ _ => rfl⟩
  have o'' := declares.begun declared.grows o'
  have all := before.trans declares
  dsimp only at read
  split at read
  · obtain ⟨rest', x, body, done⟩ := passes_bind read
    obtain ⟨_, rfl⟩ := passes_pure done
    exact all.trans (appends_embodies o'' (embodies_functionBody last o''.outside body))
  · obtain ⟨_, x, emitted, done⟩ := passes_bind read
    obtain ⟨_, rfl⟩ := passes_pure done
    cases emitted.yields
    exact all.trans ⟨o''.outside, rfl, rfl, fun _ _ => rfl, .refl, fun _ _ => rfl⟩

/-! ### Modules -/

theorem appends_declaration (last : (history setup root).getLast? = some z) {rest : Kept stream}
    (o : b.Begun s) (h : (declaration stream).PassesIn setup (history setup root) s rest t) :
    b.Appends s t := by
  unfold declaration at h
  split at h
  · obtain ⟨_, read⟩ := passes_kept h
    obtain ⟨_, read⟩ := passes_typeDeclaration read
    exact appends_keywordGroup (fun _ _ _ _ => appends_typeItem) o read
  · obtain ⟨_, read⟩ := passes_kept h
    exact appends_keywordGroup (fun _ _ _ _ => appends_constantItem) o read
  · obtain ⟨_, read⟩ := passes_kept h
    exact appends_keywordGroup (fun _ _ _ _ => appends_variableItem) o read
  · obtain ⟨_, read⟩ := passes_kept h
    exact appends_functionDeclaration last o read
  · obtain ⟨_, read⟩ := passes_kept h
    exact appends_shortDeclaration o read
  · rw [passes_get] at h
    split at h
    · obtain ⟨_, rfl⟩ := passes_pure h
      exact .refl b o.outside
    · exact absurd h not_passes_fail

theorem appends_declarations (last : (history setup root).getLast? = some z) (stream : Stream)
    {s t : Session} {rest : Kept stream} (o : b.Begun s)
    (h : (declarations stream).PassesIn setup (history setup root) s rest t) : b.Appends s t := by
  rw [declarations] at h
  obtain ⟨⟨⟨⟩, s₁, h₁⟩, u, read, h⟩ := passes_bind h
  have appends := appends_declaration last o read
  dsimp only at h
  split at h
  · obtain ⟨_, rfl⟩ := passes_pure h
    exact appends
  · rename_i semicolon _
    obtain ⟨_, s₂, h₂⟩ := semicolon
    have hlt := (h₂.of_within h₁).2
    obtain ⟨_, w, more, h⟩ := passes_bind h
    obtain ⟨_, rfl⟩ := passes_pure h
    exact appends.trans (appends_declarations last s₂ (appends.begun read.grows o) more)
termination_by stream.size

end Action

end FrontEnd
