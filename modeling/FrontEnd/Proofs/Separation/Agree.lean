import FrontEnd.Proofs.Separation.InStep

/-!
Steps that agree. Two steps agree if they lead from sessions in step to sessions in step and read
the same, wherever both succeed. Here are the rules by which the agreement of composite steps
follows from that of their parts, and the primitive steps.
-/

namespace FrontEnd

open Session

variable {α β γ δ : Type}

/-- Where both steps succeed, the sessions behind them are in step, and what they answer is related
by `Q`. -/
def Twins.Agree (w : Twins) (Q : Session → α → β → Prop) (a : Action α) (b : Action β)
    (s t : Session) : Prop :=
  ∀ v s' u t', w.left.Passes a s v s' → w.right.Passes b t u t' → w.InStep s' t' ∧ Q s' v u

/-- The same rest is left, and what was read is related. -/
structure SameRest {stream : Stream} (Q : α → β → Prop) (r : Rest stream α) (r' : Rest stream β) :
    Prop where
  stream : r.stream = r'.stream
  value : Q r.value r'.value

/-- The same rest is left, and what was read is related. -/
structure SamePast {stream : Stream} (Q : α → β → Prop) (p : Past stream α) (p' : Past stream β) :
    Prop where
  stream : p.stream = p'.stream
  value : Q p.value p'.value

/-- Nothing was read but words. -/
abbrev SameKept {stream : Stream} (r r' : Kept stream) : Prop := SameRest (fun _ _ => True) r r'

/-- Nothing was read but words. -/
abbrev SameShorter {stream : Stream} (p p' : Shorter stream) : Prop :=
  SamePast (fun _ _ => True) p p'

/-- The slot is that of a variable of a type. -/
def Session.IsSlot (s : Session) (slot : Nat) (type : TypeId) : Prop :=
  ∃ g, s.globals[slot]? = some g ∧ g.type = type

namespace Action

variable {w : Twins} {s t : Session} {P : Session → α → β → Prop} {Q : Session → γ → δ → Prop}
  {stream : Stream}

/-! ### Rules -/

theorem agree_pure {v : α} {u : β} (h : w.InStep s t) (hP : P s v u) :
    w.Agree P (pure v) (pure u) s t := by
  intro _ _ _ _ left right
  obtain ⟨rfl, rfl⟩ := passes_pure left
  obtain ⟨rfl, rfl⟩ := passes_pure right
  exact ⟨h, hP⟩

theorem agree_bind {a : Action α} {b : Action β} {f : α → Action γ} {g : β → Action δ}
    (h : w.Agree P a b s t)
    (next : ∀ v s' u t', w.left.Passes a s v s' → w.InStep s' t' → P s' v u →
      w.Agree Q (f v) (g u) s' t') :
    w.Agree Q (a >>= f) (b >>= g) s t := by
  intro _ _ _ _ left right
  obtain ⟨v, s', left, left'⟩ := passes_bind left
  obtain ⟨u, t', right, right'⟩ := passes_bind right
  obtain ⟨step, hP⟩ := h v s' u t' left right
  exact next v s' u t' left step hP _ _ _ _ left' right'

theorem agree_get {f : Session → Action α} {g : Session → Action β}
    (h : w.Agree P (f s) (g t) s t) : w.Agree P (get >>= f) (get >>= g) s t :=
  fun _ _ _ _ left right => h _ _ _ _ (passes_get.1 left) (passes_get.1 right)

theorem agree_read {f : Setup → Action α} {g : Setup → Action β}
    (h : w.Agree P (f w.left.setup) (g w.right.setup) s t) :
    w.Agree P (read >>= f) (read >>= g) s t :=
  fun _ _ _ _ left right => h _ _ _ _ (passes_read.1 left) (passes_read.1 right)

theorem agree_of_not_left {a : Action α} {b : Action β}
    (h : ∀ v s', ¬ w.left.Passes a s v s') : w.Agree P a b s t :=
  fun _ _ _ _ left _ => absurd left (h _ _)

theorem agree_of_not_right {a : Action α} {b : Action β}
    (h : ∀ u t', ¬ w.right.Passes b t u t') : w.Agree P a b s t :=
  fun _ _ _ _ _ right => absurd right (h _ _)

theorem agree_fail {cause : Cause} {span : Span} {b : Action β} :
    w.Agree P (fail cause span : Action α) b s t :=
  agree_of_not_left fun _ _ => not_passes_fail

theorem agree_failInternal {cause : InternalCause} {b : Action β} :
    w.Agree P (failInternal cause : Action α) b s t :=
  agree_of_not_left fun _ _ h => not_yields_failInternal h.yields

/-- What only looks at the session answers what it sees there. -/
theorem agree_of_yields {a : Action α} {b : Action β} (h : w.InStep s t)
    (ha : ∀ v s', a.Yields w.left.setup s v s' → s' = s)
    (hb : ∀ u t', b.Yields w.right.setup t u t' → t' = t)
    (hP : ∀ v u, a.Yields w.left.setup s v s → b.Yields w.right.setup t u t → P s v u) :
    w.Agree P a b s t := by
  intro v s' u t' left right
  obtain rfl := ha v s' left.yields
  obtain rfl := hb u t' right.yields
  exact ⟨h, hP v u left.yields right.yields⟩

/-! ### Words -/

theorem agree_eat_bind {wanted : Symbol} {f : Shorter stream → Action α}
    {g : Shorter stream → Action β} (h : ∀ past, w.Agree P (f past) (g past) s t) :
    w.Agree P (eat wanted stream >>= f) (eat wanted stream >>= g) s t := by
  intro _ _ _ _ left right
  obtain ⟨past, known, left⟩ := passes_eat_bind left
  obtain ⟨past', known', right⟩ := passes_eat_bind right
  cases known.symm.trans known'
  exact h past _ _ _ _ left right

theorem agree_eatName_bind {f : Past stream String → Action α} {g : Past stream String → Action β}
    (h : ∀ past, w.Agree P (f past) (g past) s t) :
    w.Agree P (eatName stream >>= f) (eatName stream >>= g) s t := by
  intro _ _ _ _ left right
  obtain ⟨past, known, left⟩ := passes_eatName_bind left
  obtain ⟨past', known', right⟩ := passes_eatName_bind right
  cases known.symm.trans known'
  exact h past _ _ _ _ left right

theorem agree_ofExcept_bind {e : Except Fault γ} {f : γ → Action α} {g : γ → Action β}
    (h : ∀ value, w.Agree P (f value) (g value) s t) :
    w.Agree P (ofExcept e >>= f) (ofExcept e >>= g) s t := by
  intro _ _ _ _ left right
  obtain ⟨value, known, left⟩ := passes_ofExcept_bind left
  obtain ⟨value', known', right⟩ := passes_ofExcept_bind right
  cases known.symm.trans known'
  exact h value _ _ _ _ left right

theorem agree_separator_bind {closing : Symbol} {f : Kept stream → Action α}
    {g : Kept stream → Action β} (h : ∀ rest, w.Agree P (f rest) (g rest) s t) :
    w.Agree P (separator closing stream >>= f) (separator closing stream >>= g) s t := by
  unfold separator
  split
  · exact h _
  · rw [bind_assoc, bind_assoc]
    exact agree_eat_bind fun past => h past.rest

/-! ### Types and code -/

/-- What comes next on both sides has numbers that stand for each other. -/
theorem newType (h : w.InStep s t) {k l : TypeKind}
    (left : (s.types.add k).2.size ≤ w.left.last.types.size)
    (right : (t.types.add l).2.size ≤ w.right.last.types.size) :
    w.toRenumbering.types ⟨s.types.size⟩ ⟨t.types.size⟩ := by
  obtain ⟨n, hs, ht⟩ := h.types
  rw [TypeTable.size_add] at left right
  rw [hs] at left ⊢
  rw [ht] at right ⊢
  exact w.newType n left right

theorem agree_addType {k l : TypeKind} (h : w.InStep s t) (same : w.SameKind w.final k l) :
    w.Agree (fun s' a b => w.toRenumbering.types a b ∧ s'.types.kind a = k) (addType k) (addType l)
      s t := by
  intro _ s' _ t' left right
  have left_mem := left.last_mem
  have right_mem := right.last_mem
  obtain ⟨rfl, rfl⟩ := yields_addType left.yields
  obtain ⟨rfl, rfl⟩ := yields_addType right.yields
  have new := newType h (Passage.grows_last left_mem).types.size
    (Passage.grows_last right_mem).types.size
  refine ⟨{ h with left_mem, right_mem, types := ?_, kinds := fun a b hab => ?_ }, new, ?_⟩
  · show Apace _ _ (s.types.add k).2.size (t.types.add l).2.size
    rw [TypeTable.size_add, TypeTable.size_add]
    exact h.types.add 1
  · show w.SameKind w.final ((s.types.add k).2.kind a) ((t.types.add l).2.kind b)
    by_cases ha : a = ⟨s.types.size⟩
    · subst ha
      obtain rfl := w.oneToOne.types.right hab new
      rw [TypeTable.kind_add_self, TypeTable.kind_add_self]
      exact same
    · have hb : b ≠ ⟨t.types.size⟩ := fun hb => ha (w.oneToOne.types.left (hb ▸ hab) new)
      rw [TypeTable.kind_add_of_ne _ fun he => ha (TypeId.ext he),
        TypeTable.kind_add_of_ne _ fun he => hb (TypeId.ext he)]
      exact h.kinds a b hab
  · exact TypeTable.kind_add_self _

/-- The kinds of two types that stand for each other are changed. -/
theorem inStep_setKinds (h : w.InStep s t) {T U : TypeTable} {a b : TypeId} {k l : TypeKind}
    (left_mem : { s with types := T } ∈ w.left.sessions)
    (right_mem : { t with types := U } ∈ w.right.sessions)
    (hab : w.toRenumbering.types a b) (same : w.SameKind w.final k l)
    (hT : T.size = s.types.size ∧ ∀ id, T.kind id = if id = a then k else s.types.kind id)
    (hU : U.size = t.types.size ∧ ∀ id, U.kind id = if id = b then l else t.types.kind id) :
    w.InStep { s with types := T } { t with types := U } := by
  refine { h with left_mem, right_mem, types := ?_, kinds := fun c d hcd => ?_ }
  · show Apace _ _ T.size U.size
    rw [hT.1, hU.1]
    exact h.types
  · show w.SameKind w.final (T.kind c) (U.kind d)
    rw [hT.2, hU.2]
    by_cases hc : c = a
    · subst hc
      obtain rfl := w.oneToOne.types.right hcd hab
      rw [if_pos rfl, if_pos rfl]
      exact same
    · have hd : d ≠ b := fun hd => hc (w.oneToOne.types.left (hd ▸ hcd) hab)
      rw [if_neg hc, if_neg hd]
      exact h.kinds c d hcd

/-- Code of equal length is appended. -/
theorem inStep_code (h : w.InStep s t) {c d : Code}
    (left_mem : { s with code := c } ∈ w.left.sessions)
    (right_mem : { t with code := d } ∈ w.right.sessions) {n : Nat}
    (hc : c.size = s.code.size + n) (hd : d.size = t.code.size + n) :
    w.InStep { s with code := c } { t with code := d } := by
  refine { h with left_mem, right_mem, code := ?_ }
  show Apace _ _ c.size d.size
  rw [hc, hd]
  exact h.code.add n

theorem agree_emit {i j : Instruction} (h : w.InStep s t) :
    w.Agree (fun _ _ _ => True) (emit i) (emit j) s t := by
  intro _ s' _ t' left right
  have left_mem := left.last_mem
  have right_mem := right.last_mem
  cases left.yields
  cases right.yields
  exact ⟨inStep_code h left_mem right_mem (Array.size_push _) (Array.size_push _), trivial⟩

theorem agree_emit_bind {i j : Instruction} {f g : Nat → Action α} (h : w.InStep s t)
    {P : Session → α → α → Prop}
    (next : ∀ m s' n t', w.InStep s' t' → w.Agree P (f m) (g n) s' t') :
    w.Agree P (emit i >>= f) (emit j >>= g) s t :=
  agree_bind (agree_emit h) fun m s' n t' _ step _ => next m s' n t' step

/-! ### Identifiers -/

/-- Two identifiers that stand for each other are added. -/
theorem inStep_push (h : w.InStep s t) {i j : Ident} (same : w.SameIdent w.final i j)
    (left_mem : { s with idents := ⟨s.idents.idents.push i⟩ } ∈ w.left.sessions)
    (right_mem : { t with idents := ⟨t.idents.idents.push j⟩ } ∈ w.right.sessions) :
    w.InStep { s with idents := ⟨s.idents.idents.push i⟩ }
        { t with idents := ⟨t.idents.idents.push j⟩ } ∧
      w.toRenumbering.idents ⟨s.idents.size⟩ ⟨t.idents.size⟩ := by
  have new : w.toRenumbering.idents ⟨s.idents.size⟩ ⟨t.idents.size⟩ := by
    have left := (Passage.grows_last left_mem).idents_size
    have right := (Passage.grows_last right_mem).idents_size
    have left : s.idents.size + 1 ≤ w.left.last.idents.size := by simpa [IdentTable.size] using left
    have right : t.idents.size + 1 ≤ w.right.last.idents.size := by
      simpa [IdentTable.size] using right
    obtain ⟨n, hs, ht⟩ := h.idents
    rw [hs] at left ⊢
    rw [ht] at right ⊢
    exact w.newIdent n left right
  refine ⟨{ h with
    left_mem
    right_mem
    idents := ?_
    ident := fun a b hab => ?_
    left_ident := fun a x m hx hm => ?_
    right_ident := fun b y m hy hm => ?_ }, new⟩
  · show Apace _ _ (s.idents.idents.push i).size (t.idents.idents.push j).size
    rw [Array.size_push, Array.size_push]
    exact h.idents.add 1
  · show Option.Rel _ (IdentTable.get? ⟨s.idents.idents.push i⟩ a)
      (IdentTable.get? ⟨t.idents.idents.push j⟩ b)
    rw [IdentTable.get?_push, IdentTable.get?_push]
    by_cases ha : a.index = s.idents.size
    · obtain rfl : a = ⟨s.idents.size⟩ := IdentId.ext ha
      obtain rfl := w.oneToOne.idents.right hab new
      rw [if_pos rfl, if_pos rfl]
      exact .some same
    · have hb : b.index ≠ t.idents.size := fun hb => ha <| by
        obtain rfl : b = ⟨t.idents.size⟩ := IdentId.ext hb
        rw [w.oneToOne.idents.left hab new]
      rw [if_neg ha, if_neg hb]
      exact h.ident a b hab
  · replace hx : IdentTable.get? ⟨s.idents.idents.push i⟩ a = some x := hx
    rw [IdentTable.get?_push] at hx
    split at hx
    · rename_i ha
      obtain rfl : a = ⟨s.idents.size⟩ := IdentId.ext ha
      exact ⟨_, new⟩
    · exact h.left_ident a x m hx hm
  · replace hy : IdentTable.get? ⟨t.idents.idents.push j⟩ b = some y := hy
    rw [IdentTable.get?_push] at hy
    split at hy
    · rename_i hb
      obtain rfl : b = ⟨t.idents.size⟩ := IdentId.ext hb
      exact ⟨_, new⟩
    · exact h.right_ident b y m hy hm

theorem agree_declare (h : w.InStep s t) {i j : Ident} (same : w.SameIdent w.final i j) :
    w.Agree (fun _ => w.toRenumbering.idents) (declare i) (declare j) s t := by
  intro _ s' _ t' left right
  have left_mem := left.last_mem
  have right_mem := right.last_mem
  obtain ⟨_, _, added, rfl⟩ := yields_declare left.yields
  obtain ⟨_, _, added', rfl⟩ := yields_declare right.yields
  obtain ⟨rfl, rfl, _⟩ := IdentTable.insert?_eq_some added
  obtain ⟨rfl, rfl, _⟩ := IdentTable.insert?_eq_some added'
  exact inStep_push h same left_mem right_mem

/-- New identifiers of the current scope stand for each other. -/
theorem sameIdent_new (h : w.InStep s t) {name : String} {kind : IdentKind} {exported : Bool}
    {a b : TypeId} {p q : Payload} {span span' : Span} (type : w.toRenumbering.types a b)
    (payload : w.SamePayload w.final a p q) :
    w.SameIdent w.final (s.ident name kind exported a p span)
      (t.ident name kind exported b q span') :=
  ⟨rfl, rfl, rfl, type, payload, h.module, h.current, .none⟩

/-- A name that waits is completed on both sides. -/
theorem inStep_complete (h : w.InStep s t) {i j : IdentId} {x y : TypeId} {a b : TypeId}
    {exported : Bool} {span span' : Span} (hij : w.toRenumbering.idents i j)
    (hxy : w.toRenumbering.types x y) (hab : w.toRenumbering.types a b)
    (hx : s.types.isForward x = true) (hy : t.types.isForward y = true)
    (left_mem : { s with
      types := s.types.complete x a
      idents := s.idents.modify i (remark exported span) } ∈ w.left.sessions)
    (right_mem : { t with
      types := t.types.complete y b
      idents := t.idents.modify j (remark exported span') } ∈ w.right.sessions) :
    w.InStep
      { s with
        types := s.types.complete x a
        idents := s.idents.modify i (remark exported span) }
      { t with
        types := t.types.complete y b
        idents := t.idents.modify j (remark exported span') } := by
  have same := h.kinds a b hab
  refine { h with
    left_mem
    right_mem
    types := ?_
    idents := ?_
    kinds := fun c d hcd => ?_
    ident := fun c d hcd => ?_
    left_ident := fun c z m hc hm => ?_
    right_ident := fun d z m hd hm => ?_ }
  · show Apace _ _ (s.types.complete x a).size (t.types.complete y b).size
    rw [TypeTable.size_complete, TypeTable.size_complete]
    exact h.types
  · show Apace _ _ (s.idents.idents.modify _ _).size (t.idents.idents.modify _ _).size
    rw [Array.size_modify, Array.size_modify]
    exact h.idents
  · show w.SameKind w.final ((s.types.complete x a).kind c) ((t.types.complete y b).kind d)
    rw [TypeTable.kind_complete _ _ (TypeTable.index_lt_of_isForward hx),
      TypeTable.kind_complete _ _ (TypeTable.index_lt_of_isForward hy)]
    by_cases hc : c = x
    · subst hc
      obtain rfl := w.oneToOne.types.right hcd hxy
      rw [if_pos rfl, if_pos rfl]
      exact same
    · have hd : d ≠ y := fun hd => hc (w.oneToOne.types.left (hd ▸ hcd) hxy)
      rw [if_neg hc, if_neg hd]
      exact h.kinds c d hcd
  · show Option.Rel _ ((s.idents.modify i _).get? c) ((t.idents.modify j _).get? d)
    have old := h.ident c d hcd
    rw [IdentTable.get?_modify, IdentTable.get?_modify]
    by_cases hc : i = c
    · subst hc
      obtain rfl := w.oneToOne.idents.right hcd hij
      rw [if_pos rfl, if_pos rfl]
      cases hs : s.idents.get? i <;> cases ht : t.idents.get? d <;> rw [hs, ht] at old <;> cases old
      · exact .none
      · rename_i old
        exact .some { old with exported := congrArg (· || exported) old.exported }
    · have hd : j ≠ d := fun hd => hc (w.oneToOne.idents.left hij (hd ▸ hcd))
      rw [if_neg fun he => hc (IdentId.ext he), if_neg fun he => hd (IdentId.ext he)]
      exact old
  · replace hc : (s.idents.modify i _).get? c = some z := hc
    rw [IdentTable.get?_modify] at hc
    split at hc
    · obtain ⟨z', hz, rfl⟩ := Option.map_eq_some_iff.1 hc
      exact h.left_ident c z' m hz hm
    · exact h.left_ident c z m hc hm
  · replace hd : (t.idents.modify j _).get? d = some z := hd
    rw [IdentTable.get?_modify] at hd
    split at hd
    · obtain ⟨z', hz, rfl⟩ := Option.map_eq_some_iff.1 hd
      exact h.right_ident d z' m hz hm
    · exact h.right_ident d z m hd hm

theorem agree_declareType (h : w.InStep s t) {name : String} {exported : Bool} {a b : TypeId}
    {span : Span} (hab : w.toRenumbering.types a b) :
    w.Agree (fun _ => w.toRenumbering.idents) (declareType name exported a span)
      (declareType name exported b span) s t := by
  unfold declareType
  refine agree_get ?_
  have waits : Option.Rel (fun x y => w.toRenumbering.idents x.1 y.1 ∧
      w.toRenumbering.types x.2 y.2)
      (if s.types.isForward a then none else forwardOf? s name)
      (if t.types.isForward b then none else forwardOf? t name) := by
    rw [h.isForward hab]
    split
    · exact .none
    · exact h.rel_forwardOf? name
  cases hs : (if s.types.isForward a then none else forwardOf? s name) <;>
    cases ht : (if t.types.isForward b then none else forwardOf? t name) <;>
    rw [hs, ht] at waits <;> cases waits
  · exact agree_get (agree_declare h (sameIdent_new h hab .none))
  · rename_i i j waits
    have forward {u : Session} {c : TypeId} {x : IdentId × TypeId}
        (hf : (if u.types.isForward c then none else forwardOf? u name) = some x) :
        u.types.isForward x.2 = true := by
      split at hf
      · cases hf
      · obtain ⟨i, awaited, he⟩ := forwardOf?_eq_some_iff.1 (hf : _ = some (x.1, x.2))
        exact he ▸ awaited.forward
    intro _ s' _ t' left right
    have left_mem := left.last_mem
    have right_mem := right.last_mem
    cases left.yields
    cases right.yields
    exact ⟨inStep_complete h waits.1 waits.2 hab (forward hs) (forward ht) left_mem right_mem,
      waits.1⟩

/-! ### Variables -/

/-- Room is found in both frames or in neither. -/
theorem rel_allocateIn {bs cs : List Block} (h : List.Forall₂ w.SameBlock bs cs) (size : Int64) :
    Option.Rel (fun x y => x.1 = y.1 ∧ List.Forall₂ w.SameBlock x.2 y.2)
      (Blocks.allocateIn size bs) (Blocks.allocateIn size cs) := by
  induction h with
  | nil => exact .some ⟨rfl, .nil⟩
  | @cons b c bs cs hbc rest ih =>
    have same : b.function?.isSome = c.function?.isSome := by
      have function := hbc.function
      generalize b.function? = f at function ⊢
      generalize c.function? = g at function ⊢
      cases function <;> rfl
    rw [Blocks.allocateIn, Blocks.allocateIn, same, hbc.frameSize]
    split
    · cases Word.add? c.frameSize size with
      | none => exact .none
      | some total => exact .some ⟨rfl, .cons ⟨hbc.id, hbc.function, rfl⟩ rest⟩
    · generalize Blocks.allocateIn size bs = x at ih ⊢
      generalize Blocks.allocateIn size cs = y at ih ⊢
      cases ih with
      | none => exact .none
      | some ih => exact .some ⟨ih.1, .cons hbc ih.2⟩

/-- The same room for a variable of a type. -/
structure SameRoom (w : Twins) (type : TypeId) (s : Session) (p q : Payload) : Prop where
  payload : w.SamePayload w.final type p q
  slot : ∀ slot, p = .global slot → s.IsSlot slot type

theorem agree_allocate (h : w.InStep s t) {name : String} {a b : TypeId} {span : Span}
    (hab : w.toRenumbering.types a b) :
    w.Agree (SameRoom w a) (allocate name a span) (allocate name b span) s t := by
  unfold allocate
  refine agree_get ?_
  rw [h.atModuleScope]
  split
  · intro _ s' _ t' left right
    have left_mem := left.last_mem
    have right_mem := right.last_mem
    cases left.yields
    cases right.yields
    have new : w.toRenumbering.slots s.globals.size t.globals.size := by
      have left : s.globals.size + 1 ≤ w.left.last.globals.size := by
        simpa using (Passage.grows_last left_mem).globals_size
      have right : t.globals.size + 1 ≤ w.right.last.globals.size := by
        simpa using (Passage.grows_last right_mem).globals_size
      obtain ⟨n, hs, ht⟩ := h.slots
      rw [hs] at left ⊢
      rw [ht] at right ⊢
      exact w.newSlot n left right
    refine ⟨{ h with left_mem, right_mem, slots := ?_, globals := fun m n hmn => ?_ },
      .global new, ?_⟩
    · show Apace _ _ (s.globals.push _).size (t.globals.push _).size
      rw [Array.size_push, Array.size_push]
      exact h.slots.add 1
    · show Option.Rel _ (s.globals.push _)[m]? (t.globals.push _)[n]?
      rw [Array.getElem?_push, Array.getElem?_push]
      by_cases hm : m = s.globals.size
      · subst hm
        obtain rfl := w.oneToOne.slots.right hmn new
        rw [if_pos rfl, if_pos rfl]
        exact .some ⟨rfl, hab, .none⟩
      · have hn : n ≠ t.globals.size := fun hn => hm (w.oneToOne.slots.left (hn ▸ hmn) new)
        rw [if_neg hm, if_neg hn]
        exact h.globals m n hmn
    · rintro _ ⟨⟩
      exact ⟨_, Array.getElem?_push_size, rfl⟩
  · rw [h.size? hab]
    cases t.types.size? b with
    | none => exact agree_fail
    | some size =>
      have room := rel_allocateIn h.stack size
      simp only [Option.bind_some, Blocks.allocate?]
      generalize Blocks.allocateIn size s.blocks.stack = x at room ⊢
      generalize Blocks.allocateIn size t.blocks.stack = y at room ⊢
      cases room with
      | none => exact agree_fail
      | @some x y room =>
        obtain ⟨offset, stack⟩ := x
        obtain ⟨offset', stack'⟩ := y
        obtain ⟨rfl, opened⟩ := room
        intro _ s' _ t' left right
        have left_mem := left.last_mem
        have right_mem := right.last_mem
        cases left.yields
        cases right.yields
        exact ⟨{ h with left_mem, right_mem, stack := opened }, .local offset, nofun⟩

theorem agree_declareVariable (h : w.InStep s t) {name : String} {exported : Bool} {a b : TypeId}
    {span : Span} (hab : w.toRenumbering.types a b) :
    w.Agree (fun s' x y => SameRoom w a s' x.2 y.2) (declareVariable name exported a span)
      (declareVariable name exported b span) s t := by
  unfold declareVariable
  refine agree_bind (agree_allocate h hab) fun p s' q t' _ step room => ?_
  refine agree_get ?_
  intro _ s'' _ t'' left right
  have mem := left.last_mem
  obtain ⟨_, u, declared, done⟩ := passes_bind left
  obtain ⟨_, u', declared', done'⟩ := passes_bind right
  obtain ⟨step', _⟩ := agree_declare step (sameIdent_new step hab room.payload) _ _ _ _ declared
    declared'
  obtain ⟨rfl, rfl⟩ := passes_pure done
  obtain ⟨rfl, rfl⟩ := passes_pure done'
  obtain ⟨_, _, _, rfl⟩ := yields_declare declared.yields
  exact ⟨step', room.payload, room.slot⟩

/-- Both variables of a slot get the same value. -/
theorem agree_setGlobal (h : w.InStep s t) {m n : Nat} {type : TypeId} {v u : Constant}
    (hmn : w.toRenumbering.slots m n) (slot : s.IsSlot m type)
    (value : w.SameValue w.final type v u) :
    w.Agree (fun _ _ _ => True) (setGlobal m v) (setGlobal n u) s t := by
  intro _ s' _ t' left right
  have left_mem := left.last_mem
  have right_mem := right.last_mem
  obtain ⟨_, rfl⟩ := of_yields_setGlobal left.yields
  obtain ⟨_, rfl⟩ := of_yields_setGlobal right.yields
  refine ⟨{ h with left_mem, right_mem, slots := ?_, globals := fun k l hkl => ?_ }, trivial⟩
  · show Apace _ _ (s.globals.modify _ _).size (t.globals.modify _ _).size
    rw [Array.size_modify, Array.size_modify]
    exact h.slots
  · show Option.Rel _ (s.globals.modify m _)[k]? (t.globals.modify n _)[l]?
    have old := h.globals k l hkl
    rw [Array.getElem?_modify, Array.getElem?_modify]
    by_cases hk : m = k
    · subst hk
      obtain rfl := w.oneToOne.slots.right hkl hmn
      obtain ⟨g, hg, rfl⟩ := slot
      rw [if_pos rfl, if_pos rfl]
      rw [hg] at old ⊢
      generalize t.globals[l]? = y at old ⊢
      cases old with
      | some old => exact .some ⟨old.name, old.type, .some value⟩
    · have hl : n ≠ l := fun hl => hk (w.oneToOne.slots.left hmn (hl ▸ hkl))
      rw [if_neg hk, if_neg hl]
      exact old

/-! ### Blocks -/

theorem agree_enter (h : w.InStep s t) {f g : Option IdentId}
    (hfg : Option.Rel w.toRenumbering.idents f g) :
    w.Agree (fun _ _ _ => True) (enter f) (enter g) s t := by
  intro _ s' _ t' left right
  have left_mem := left.last_mem
  have right_mem := right.last_mem
  cases left.yields
  cases right.yields
  have new : w.toRenumbering.blocks ⟨s.blocks.next⟩ ⟨t.blocks.next⟩ := by
    have left : s.blocks.next + 1 ≤ w.left.last.blocks.next := (Passage.grows_last left_mem).blocks
    have right : t.blocks.next + 1 ≤ w.right.last.blocks.next :=
      (Passage.grows_last right_mem).blocks
    obtain ⟨n, hs, ht⟩ := h.blocks
    rw [hs] at left ⊢
    rw [ht] at right ⊢
    exact w.newBlock n left right
  exact ⟨{ h with
    left_mem
    right_mem
    blocks := h.blocks.add 1
    stack := .cons ⟨new, hfg, rfl⟩ h.stack }, trivial⟩

theorem agree_leave (h : w.InStep s t) : w.Agree (fun _ _ _ => True) leave leave s t := by
  intro _ s' _ t' left right
  have left_mem := left.last_mem
  have right_mem := right.last_mem
  cases left.yields
  cases right.yields
  exact ⟨{ h with left_mem, right_mem, stack := List.forall₂_drop 1 h.stack }, trivial⟩

/-- Where a session is in its file does not matter. -/
theorem agree_place (h : w.InStep s t) {f g : Session → Place} :
    w.Agree (fun _ _ _ => True) (modify fun s => { s with place := f s })
      (modify fun s => { s with place := g s }) s t := by
  intro _ s' _ t' left right
  have left_mem := left.last_mem
  have right_mem := right.last_mem
  cases left.yields
  cases right.yields
  exact ⟨{ h with left_mem, right_mem }, trivial⟩

end Action

end FrontEnd
