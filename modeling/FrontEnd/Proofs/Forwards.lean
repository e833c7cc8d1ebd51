import FrontEnd.Proofs.Integrity

/-!
Names that are used before their declaration. The forward types are those that are pending, each
stands for the one identifier that it is bound to, and each is completed at most once; so in a
program that compiles none is left, and a pointer that was built from a name points at the type that
the name was declared as.
-/

namespace FrontEnd

namespace TypeTable

/-- The forward types are those that have not been completed. -/
structure TracksForwards (t : TypeTable) : Prop where
  nodup : t.pending.Nodup
  mem_iff : ∀ id, id ∈ t.pending ↔ t.isForward id = true

namespace TracksForwards

variable {t u : TypeTable}

theorem initial : TypeTable.initial.TracksForwards where
  nodup := .nil
  mem_iff id := by
    refine ⟨nofun, fun hf => absurd hf ?_⟩
    have known := index_lt_of_isForward hf
    rw [isForward_eq, (Session.initial_kind_plain id.index known).1]
    nofun

theorem add (h : t.TracksForwards) (kind : TypeKind) : (t.add kind).2.TracksForwards := by
  have new (hm : ⟨t.size⟩ ∈ t.pending) : False :=
    Nat.lt_irrefl _ (index_lt_of_isForward ((h.mem_iff _).1 hm))
  have pending : (t.add kind).2.pending =
      if kind.isForward then t.pending ++ [⟨t.size⟩] else t.pending := by
    cases kind <;> rfl
  refine ⟨?_, fun id => ?_⟩
  · rw [pending]
    split
    · rw [← List.concat_eq_append]
      exact h.nodup.concat new
    · exact h.nodup
  · rw [pending, isForward_eq, kind_add]
    by_cases hi : id.index = t.size
    · obtain rfl : id = ⟨t.size⟩ := TypeId.ext hi
      rw [if_pos rfl]
      cases hk : kind.isForward with
      | true => simp
      | false => simpa using new
    · rw [if_neg hi, ← isForward_eq, ← h.mem_iff]
      have other : id ≠ ⟨t.size⟩ := fun he => hi (congrArg TypeId.index he)
      cases kind.isForward <;> simp [other]

theorem complete (h : t.TracksForwards) {forward concrete : TypeId}
    (hf : t.isForward forward = true) (hc : t.isForward concrete = false) :
    (t.complete forward concrete).TracksForwards := by
  refine ⟨h.nodup.filter _, fun id => ?_⟩
  rw [isForward_eq, kind_complete concrete id (index_lt_of_isForward hf)]
  show id ∈ t.pending.filter (· ≠ forward) ↔ _
  rw [List.mem_filter, h.mem_iff]
  split
  · rename_i he
    rw [← isForward_eq, hc]
    simp [he]
  · rename_i hne
    rw [← isForward_eq]
    simp [hne]

/-- Where the same types are forward types, the same are pending. -/
theorem same (h : t.TracksForwards) (pending : u.pending = t.pending)
    (forward : ∀ id, u.isForward id = t.isForward id) : u.TracksForwards where
  nodup := pending ▸ h.nodup
  mem_iff id := by rw [pending, forward, h.mem_iff]

theorem bind (h : t.TracksForwards) {forward : TypeId} (ident : IdentId)
    (hf : t.isForward forward = true) : (t.bind forward ident).TracksForwards := by
  refine h.same (t.pending_bind forward ident) fun id => ?_
  rw [isForward_eq, kind_bind ident id hf]
  split
  · rename_i he
    rw [he, hf]
    rfl
  · rw [isForward_eq]

theorem addField (h : t.TracksForwards) {owner type : TypeId} {name : String} {offset : Int64}
    (added : t.addField owner name type = some (offset, u))
    (structured : (t.kind owner).isStructure = true) : u.TracksForwards :=
  h.same (pending_addField added) fun id => (isForward_addField added structured id).1

/-- Where nothing is left to be completed, no type is a forward type. -/
theorem not_isForward (h : t.TracksForwards) (hn : t.firstForward? = none) (id : TypeId) :
    t.isForward id = false := by
  by_contra hf
  have hf : t.isForward id = true := by simpa using hf
  have none := List.findSome?_eq_none_iff.1 hn id ((h.mem_iff id).2 hf)
  unfold isForward at hf
  split at hf
  · rename_i hk
    rw [hk] at none
    cases none
  · cases hf

end TracksForwards

end TypeTable

namespace Session

variable {U : Set TypeId} {s t : Session}

/-- The forward types are those that are pending, and no two identifiers stand for the same one. -/
structure Tracks (s : Session) : Prop where
  types : s.types.TracksForwards
  unique : ∀ id id' i i', s.idents.get? id = some i → s.idents.get? id' = some i' →
    i.type = i'.type → s.types.isForward i.type = true → id = id'

theorem tracks_initial (settings : Settings) : (initial settings).Tracks where
  types := .initial
  unique _ _ i _ _ _ _ hf := by
    have none := TypeTable.TracksForwards.initial.mem_iff i.type
    exact absurd (none.2 hf) List.not_mem_nil

/-- A new identifier whose type is not a forward type, or the first one with its type. -/
theorem Tracks.insert (h : s.Tracks) {i : Ident} {id : IdentId} {idents : IdentTable}
    (added : s.idents.insert? i = some (id, idents))
    (first : s.types.isForward i.type = true →
      ∀ other j, s.idents.get? other = some j → j.type ≠ i.type) :
    Session.Tracks { s with idents } := by
  obtain ⟨rfl, rfl, _⟩ := IdentTable.insert?_eq_some added
  refine ⟨h.types, fun a b j k hj hk he hf => ?_⟩
  rw [IdentTable.get?_push] at hj hk
  split at hj <;> split at hk <;> rename_i ha hb
  · exact IdentId.ext (ha.trans hb.symm)
  · cases hj
    exact absurd he.symm (first hf b k hk)
  · cases hk
    exact absurd he (first (he ▸ hf) a j hj)
  · exact h.unique a b j k hj hk he hf

/-- Identifiers keep their types, and no type in use becomes a forward type. -/
theorem Tracks.same (h : s.Tracks) (types : t.types.TracksForwards)
    (idents : ∀ id i, t.idents.get? id = some i → ∃ j, s.idents.get? id = some j ∧ j.type = i.type)
    (forward : ∀ id i, s.idents.get? id = some i → t.types.isForward i.type = true →
      s.types.isForward i.type = true) : t.Tracks where
  types := types
  unique a b i k hi hk he hf := by
    obtain ⟨i', hi', hti⟩ := idents a i hi
    obtain ⟨k', hk', htk⟩ := idents b k hk
    refine h.unique a b i' k' hi' hk' (hti.trans (he.trans htk.symm)) (forward a i' hi' ?_)
    rw [hti]
    exact hf

theorem Step.tracks (h : s.Step U t) (hs : s.Tracks) : t.Tracks := by
  cases h with
  | declare added _ solid =>
    refine hs.insert added fun hf => ?_
    rw [solid] at hf
    cases hf
  | @complete id _ forward concrete exported span _ _ _ pending solid =>
    refine hs.same (hs.types.complete pending solid) (fun other i hi => ?_) fun other i _ hf => ?_
    · rw [IdentTable.get?_modify] at hi
      split at hi
      · obtain ⟨j, hj, rfl⟩ := Option.map_eq_some_iff.1 hi
        exact ⟨j, hj, rfl⟩
      · exact ⟨i, hi, rfl⟩
    · have hf : (s.types.complete forward concrete).isForward i.type = true := hf
      rw [TypeTable.isForward_eq,
        TypeTable.kind_complete concrete _ (TypeTable.index_lt_of_isForward pending)] at hf
      split at hf
      · rename_i he
        rw [he]
        exact pending
      · rwa [TypeTable.isForward_eq]
  | _ => exact ⟨hs.types, hs.unique⟩

theorem Change.tracks (h : s.Change t) (hv : s.Valid ∅) (hs : s.Tracks) : t.Tracks := by
  have keep (types : t.types.TracksForwards) (idents : t.idents = s.idents)
      (forward : ∀ id, id.index < s.types.size → t.types.isForward id = true →
        s.types.isForward id = true) : t.Tracks :=
    hs.same types (fun id i hi => ⟨i, idents ▸ hi, rfl⟩)
      fun id i hi => forward i.type (hv.idents id i hi).type.has
  cases h with
  | step _ step => exact step.tracks hs
  | addType =>
    refine keep (hs.types.add _) rfl fun id known hf => ?_
    rw [TypeTable.isForward_eq] at hf ⊢
    exact TypeTable.kind_add_of_ne _ (Nat.ne_of_lt known) ▸ hf
  | addField _ added structured =>
    have types := hs.types.addField added structured
    refine keep types rfl fun id _ hf => ?_
    exact (hs.types.mem_iff id).1 (TypeTable.pending_addField added ▸ (types.mem_iff id).2 hf)
  | nameForward added _ _ _ first => exact hs.insert added fun _ => first
  | @bind ident _ forward _ _ _ waiting =>
    have pending := TypeTable.isForward_of_kind_eq waiting
    have types := hs.types.bind ident pending
    refine keep types rfl fun id _ hf => ?_
    exact (hs.types.mem_iff id).1 (s.types.pending_bind forward ident ▸ (types.mem_iff id).2 hf)
  | leaveFile => exact ⟨hs.types, hs.unique⟩

/-- The forward types are those that are pending. Each is bound to the one identifier whose type it
is, and this is the identifier of a type. -/
structure NamesForwards (s : Session) : Prop where
  nodup : s.types.pending.Nodup
  mem_iff : ∀ id, id ∈ s.types.pending ↔ s.types.isForward id = true
  named : ∀ id ∈ s.types.pending, ∃ ident i, s.types.kind id = .forward (some ident) ∧
    s.idents.get? ident = some i ∧ i.kind = .type ∧ i.type = id ∧
    ∀ other j, s.idents.get? other = some j → j.type = id → other = ident

theorem Tracks.namesForwards (h : s.Tracks) (hv : s.Valid U) (bound : s.Bound) :
    s.NamesForwards := by
  refine ⟨h.types.nodup, h.types.mem_iff, fun id hi => ?_⟩
  have hf := (h.types.mem_iff id).1 hi
  rw [TypeTable.isForward_eq] at hf
  cases hk : s.types.kind id with
  | forward ident? =>
    cases ident? with
    | none => exact absurd hk (bound id)
    | some ident =>
      obtain ⟨i, hi, hkind, htype⟩ := hv.forwards id ident hk
      refine ⟨ident, i, rfl, hi, hkind, htype, fun other j hj he => ?_⟩
      refine h.unique other ident j i hj hi (he.trans htype.symm) ?_
      rw [he, TypeTable.isForward_eq, hk]
      rfl
  | _ =>
    rw [hk] at hf
    cases hf

/-- A step leaves no forward type waiting for its identifier. -/
theorem Step.bound (h : s.Step U t) (hs : s.Bound) : t.Bound := by
  intro id
  obtain he | ⟨forward, concrete, pending, _, he⟩ := h.types
  · rw [he]
    exact hs id
  · rw [he, TypeTable.kind_complete concrete id (TypeTable.index_lt_of_isForward pending)]
    split
    · exact hs concrete
    · exact hs id

/-- How a session comes about in which a forward type waits for its identifier: the forward type has
been added, or there has been one before. -/
inductive Defers (s t : Session) : Prop
  | add (bound : s.Bound) (added : t = { s with types := (s.types.add (.forward none)).2 })
  | wait (waiting : ¬ s.Bound) (types : t.types = s.types)

theorem Change.defers (h : s.Change t) (hs : s.Valid ∅) (ht : ¬ t.Bound) : s.Defers t := by
  cases h with
  | step bound step => exact absurd (step.bound bound) ht
  | @addType kind bound =>
    by_cases hk : kind = .forward none
    · subst hk
      exact .add bound rfl
    · refine absurd (fun id => ?_) ht
      rw [TypeTable.kind_add]
      split
      · exact hk
      · exact bound id
  | addField bound added structured =>
    refine absurd (fun id hk => ?_) ht
    rcases (TypeTable.isForward_addField added structured id).2 with he | he
    · exact bound id (he ▸ hk)
    · rw [TypeTable.isForward_eq, hk] at he
      cases he
  | nameForward _ _ _ forward => exact .wait (fun bound => bound _ forward) rfl
  | @bind ident _ forward _ _ _ waiting =>
    refine absurd (fun id hk => ?_) ht
    rw [TypeTable.kind_bind ident id (TypeTable.isForward_of_kind_eq waiting)] at hk
    split at hk
    · cases hk
    · rename_i hne
      -- Both would be the newest type.
      have newest := hs.newest id hk
      have newest' := hs.newest forward waiting
      exact hne (TypeId.ext (by omega))
  | leaveFile => exact .wait ht rfl

/-! ### Completing forward types -/

end Session

/-- The forward type `id` is completed between the sessions `n` and `n + 1` of a run. -/
def Completed (id : TypeId) (run : List Session) (n : Nat) : Prop :=
  ∃ s t, run[n]? = some s ∧ run[n + 1]? = some t ∧ s.types.isForward id = true ∧
    t.types.isForward id = false

/-- What has been completed stays completed. -/
theorem isForward_of_chain {run : List Session} (chain : run.IsChain Session.Change) {id : TypeId}
    {n m : Nat} (hle : n ≤ m) {s t : Session} (hs : run[n]? = some s) (ht : run[m]? = some t)
    (known : id.index < s.types.size) (hf : s.types.isForward id = false) :
    t.types.isForward id = false ∧ s.types.size ≤ t.types.size := by
  induction m, hle using Nat.le_induction generalizing t with
  | base =>
    cases hs.symm.trans ht
    exact ⟨hf, Nat.le_refl _⟩
  | succ m _ ih =>
    obtain ⟨bound, rfl⟩ := List.getElem?_eq_some_iff.1 ht
    have change := List.isChain_iff_getElem.1 chain m bound
    have earlier := ih (List.getElem?_eq_getElem (Nat.lt_of_succ_lt bound))
    have known := Nat.lt_of_lt_of_le known earlier.2
    exact ⟨change.grows.types.isForward known earlier.1,
      Nat.le_trans earlier.2 change.grows.types.size⟩

/-- No forward type is completed twice. -/
theorem completed_unique {run : List Session} (chain : run.IsChain Session.Change) {id : TypeId}
    {n m : Nat} (hn : Completed id run n) (hm : Completed id run m) : n = m := by
  -- After it has been completed once, a forward type is none any more.
  have once {n m : Nat} (hn : Completed id run n) (hm : Completed id run m) : ¬ n < m := by
    intro hlt
    obtain ⟨s, t, hs, ht, before, after_⟩ := hn
    obtain ⟨u, _, hu, _, again, _⟩ := hm
    obtain ⟨bound, rfl⟩ := List.getElem?_eq_some_iff.1 ht
    obtain ⟨_, rfl⟩ := List.getElem?_eq_some_iff.1 hs
    have change := List.isChain_iff_getElem.1 chain n bound
    have known := Nat.lt_of_lt_of_le (TypeTable.index_lt_of_isForward before)
      change.grows.types.size
    obtain ⟨gone, _⟩ := isForward_of_chain chain hlt ht hu known after_
    rw [again] at gone
    cases gone
  exact Nat.le_antisymm (Nat.le_of_not_lt (once hm hn)) (Nat.le_of_not_lt (once hn hm))

/-- Nothing that a session of a compilation stores is lost in the end. -/
theorem grows_of_mem_history {setup : Setup} {root : String} {s t : Session}
    (hs : s ∈ history setup root) (h : compile setup root = .ok t) : s.Grows t := by
  have last := getLast?_history_of_compile h
  have chain := (isChain_history setup root).imp fun _ _ hc => Session.Change.grows hc
  generalize history setup root = run at hs last chain
  -- By induction on what is left of the run: all of it leads to its last session.
  induction run generalizing s with
  | nil => cases hs
  | cons r run ih =>
    cases run with
    | nil =>
      cases last
      rw [List.mem_singleton.1 hs]
      exact .refl _
    | cons u run =>
      obtain ⟨grows, chain⟩ := List.isChain_cons_cons.1 chain
      rw [List.getLast?_cons_cons] at last
      have rest (r : Session) (hr : r ∈ u :: run) : r.Grows t := ih hr last chain
      rcases List.mem_cons.1 hs with rfl | hs
      · exact grows.trans (rest u List.mem_cons_self)
      · exact rest s hs

/-! ### Pointers -/

/-- In a program that compiles, the pointer `p` points at the type of the identifier `ident`, which is
what the name of `i` stands for in the scope of `i`. -/
structure PointsAt (t : Session) (p : TypeId) (ident : IdentId) (i : Ident) : Prop where
  found : t.idents.findInScope? i.module i.block i.name = some ident
  type : ∃ j, t.idents.get? ident = some j ∧ j.kind = .type ∧ t.types.kind p = .pointer j.type ∧
    t.types.isForward j.type = false

theorem tracks_of_mem_history {setup : Setup} {root : String} {s : Session}
    (h : s ∈ history setup root) : s.Tracks :=
  (history_induction (Session.tracks_initial setup.settings)
    (fun _ _ hv hc => hc.change.tracks hv) s h).2

theorem not_isForward_of_compile {setup : Setup} {root : String} {t : Session}
    (h : compile setup root = .ok t) (id : TypeId) : t.types.isForward id = false := by
  have reached := List.mem_of_getLast? (getLast?_history_of_compile h)
  exact (tracks_of_mem_history reached).types.not_isForward (compiled_of_compile h).resolved id

/-- A pointer at a name that has not been declared points at the type that the name is declared as in
the same scope. -/
theorem pointsAt_of_mem_history {setup : Setup} {root : String} {s t : Session}
    (hs : s ∈ history setup root) (h : compile setup root = .ok t) {p base : TypeId}
    {ident : IdentId} {i : Ident} (hp : s.types.kind p = .pointer base)
    (hb : s.types.kind base = .forward (some ident)) (hi : s.idents.get? ident = some i) :
    PointsAt t p ident i := by
  have grows := grows_of_mem_history hs h
  have valid := valid_of_mem_history hs
  obtain ⟨i', hi', hkind, htype⟩ := valid.forwards base ident hb
  cases hi.symm.trans hi'
  obtain ⟨exported, span, hj⟩ := grows.idents ident i hi
  have valid' : t.Valid ∅ :=
    valid_of_mem_history (List.mem_of_getLast? (getLast?_history_of_compile h))
  have plain := (valid.idents ident i hi).plain (by rw [hkind]; nofun)
  -- The pointer itself is no forward type, so it keeps its base.
  have known : p.index < s.types.size := TypeTable.index_lt_of_kind_ne (by rw [hp]; nofun)
  have kept := grows.types.kind p known (by rw [TypeTable.isForward_eq, hp]; rfl)
  refine ⟨?_, _, hj, hkind, ?_, not_isForward_of_compile h _⟩
  · have found := IdentTable.findNamed?_of_get? valid'.keys hj
    rw [plain] at found
    exact found
  · rw [hp] at kept
    generalize t.types.kind p = k at kept
    cases kept
    rw [htype]

/-! ### Before and after reading -/

/-- The current word names nothing that has been declared, nor a module in front of a dot. -/
structure Session.Undeclared (s : Session) {stream : Stream} (name : Past stream String) : Prop where
  noMember : (name.stream.isAt .dot && s.isModule name.value) = false
  notFound : s.idents.find? s.blocks name.value = none

/-- The pointer `p` points at the forward type that `name` stands for in the current scope of `s`. -/
def Session.PointsAhead (s : Session) (name : String) (p : TypeId) (t : Session) : Prop :=
  ∃ base ident i, t.types.kind p = .pointer base ∧ t.types.kind base = .forward (some ident) ∧
    t.idents.get? ident = some i ∧ i.name = name ∧ i.module = s.blocks.module ∧
    i.block = s.blocks.current

/-- A session between two steps, in which the types `U` are being read. -/
structure Session.Steady (U : Set TypeId) (s : Session) : Prop extends s.Ready U where
  tracks : s.Tracks

theorem Session.Steady.namesForwards {U : Set TypeId} {s : Session} (h : s.Steady U) :
    s.NamesForwards :=
  h.tracks.namesForwards h.toValid h.bound

namespace Action

open Session

variable {α : Type} {setup : Setup} {U : Set TypeId} {s : Session}

/-- Where `action` succeeds, it leads to a session between two steps. -/
def Steadies (action : Action α) (setup : Setup) (U : Set TypeId) (s : Session) : Prop :=
  ∀ v t, action.run setup s = .ok v t → t.Steady U

theorem Meets.steadies {action : Action α} {may : Set Part} {Q : α → Session → Prop}
    (h : action.Meets setup may U Q s) (hs : s.Steady U) : action.Steadies setup U s := by
  intro v t hr
  -- Changes keep sessions valid for `∅`; what the action ensures brings back `U`.
  have along := Ensures.along (fun t u => t.Valid ∅ ∧ t.Tracks → u.Valid ∅ ∧ u.Tracks)
    (fun _ => id) (fun h h' ht => h' (h ht))
    (fun t u hc ht => ⟨hc.change.valid ht.1, hc.change.tracks ht.1 ht.2⟩) h
  obtain ⟨⟨leads, _⟩, keeps⟩ := along.of_run_ok hr
  exact ⟨leads.ready, (keeps ⟨(hs.toReady.weaken (Set.empty_subset U)).toValid, hs.tracks⟩).2⟩

/-- The type that a pointer to a name points at, if the name has not been declared. -/
theorem meets_targetAhead {stream : Stream} {name : Past stream String} (h : s.Ready U)
    (hk : s.Knows stream) (hn : stream.name? = some name) (undeclared : s.Undeclared name) :
    (pointerTarget stream).Meets setup {.idents} U
      (fun past t => Foreseen U s name.value past.value t) s := by
  rw [pointerTarget, hn]
  unfold namedTarget isUndeclared
  simp only [bind_assoc]
  rw [meets_get, pure_bind, undeclared.noMember, undeclared.notFound]
  exact (meets_declareForward h (hk.name hn)).bind fun base t ht _ hf => meets_pure ht hf

theorem meets_pointerAhead {stream : Stream} {caret : Shorter stream}
    {name : Past caret.stream String} (h : s.Ready U) (hk : s.Knows stream)
    (hc : stream.skip? .caret = some caret) (hn : caret.stream.name? = some name)
    (undeclared : s.Undeclared name) :
    (pointerType stream).Meets setup {.idents} U
      (fun past t => s.PointsAhead name.value past.value t) s := by
  obtain ⟨⟨⟩, s₁, h₁⟩ := caret
  rw [pointerType, eat, hc]
  apply (meets_targetAhead h (hk.behind h₁) hn undeclared).bind
  rintro ⟨base, s₂, h₂⟩ t ht _ ⟨usable, ident, i, forward, found, scope⟩
  refine ((meets_newType ht (.pointer usable) rfl rfl trivial trivial).allow (Set.empty_subset _)).bind ?_
  rintro type u hu _ ⟨added, rfl⟩
  refine meets_pure hu ⟨base, ident, i, added.kind, ?_, found, scope⟩
  exact (TypeTable.kind_add_of_ne _ (Nat.ne_of_lt usable.has)).trans forward

/-- Whatever is read, each forward type has its identifier before and afterwards. -/
structure ReadersNameForwards (setup : Setup) : Prop where
  named : ∀ U s, Session.Steady U s → s.NamesForwards
  typeExpression : ∀ U s stream, Session.Steady U s → s.Knows stream →
    (typeExpression stream).Steadies setup U s
  declareType : ∀ U s name exported type span, Session.Steady U s → s.Solid U type →
    name ∈ s.names.texts → (declareType name exported type span).Steadies setup U s
  items : ∀ inside s stream, Session.Steady ∅ s → s.At inside → s.Knows stream →
    ∀ item ∈ [typeItem, typeDeclaration, constantItem, constantDeclaration, variableItem,
        variableDeclaration, shortDeclaration],
      (item stream).Steadies setup ∅ s
  declarations : ∀ s stream, Session.Steady ∅ s → s.Settled setup.settings → s.Knows stream →
    (functionDeclaration stream).Steadies setup ∅ s ∧
      ∀ reader ∈ [declaration, declarations], (reader stream).Steadies setup ∅ s
  statements : ∀ s stream, Session.Steady ∅ s → s.InFunction → s.Knows stream →
    (∀ reader ∈ [statement, statements], (reader stream).Steadies setup ∅ s) ∧
      ∀ reader ∈ [block, blockBody, returnStatement, assignment],
        (reader stream).Steadies setup ∅ s
  /-- After the last declaration of a run, no forward type is left. -/
  run : ∀ inside s stream, Session.Steady ∅ s → s.At inside → s.Knows stream →
    ∀ rest t, (typeDeclaration stream).run setup s = .ok rest t →
      runGoesOn rest.stream = false → ∀ id, t.types.isForward id = false
  pointer : ∀ U s stream (caret : Shorter stream) (name : Past caret.stream String),
    Session.Steady U s → s.Knows stream → stream.skip? .caret = some caret →
    caret.stream.name? = some name → s.Undeclared name →
    ∀ past t, (pointerType stream).run setup s = .ok past t → s.PointsAhead name.value past.value t

theorem readersNameForwards (setup : Setup) : ReadersNameForwards setup where
  named _ _ h := h.namesForwards
  typeExpression _ _ _ h hk := (meets_typeExpression h.toReady hk).steadies h
  declareType _ _ _ _ _ _ h solid hn := (meets_declareType h.toReady solid hn).steadies h
  items inside s stream h hin hk := by
    have declares {item : (s : Stream) → Action (Shorter s)} (hi : Declares setup inside item) :
        (item stream).Steadies setup ∅ s := (hi stream s h.toReady hin hk).steadies h
    simp only [List.forall_mem_cons, List.not_mem_nil, false_implies, implies_true, and_true]
    exact ⟨declares declares_typeItem, declares declares_typeDeclaration,
      declares declares_constantItem, declares declares_constantDeclaration,
      declares declares_variableItem, declares declares_variableDeclaration,
      declares declares_shortDeclaration⟩
  declarations s stream h hs hk := by
    refine ⟨(meets_functionDeclaration h.toReady hs hk).steadies h, ?_⟩
    simp only [List.forall_mem_cons, List.not_mem_nil, false_implies, implies_true, and_true]
    exact ⟨(meets_declaration h.toReady hs hk).steadies h,
      (meets_declarations stream s h.toReady hs hk).steadies h⟩
  statements s stream h hin hk := by
    simp only [List.forall_mem_cons, List.not_mem_nil, false_implies, implies_true, and_true]
    exact ⟨⟨(meets_statement stream s h.toReady hin hk).steadies h,
        (meets_statements stream s h.toReady hin hk).steadies h⟩,
      (meets_block stream s h.toReady hin hk).steadies h,
      (meets_blockBody stream s h.toReady hin hk).steadies h,
      (meets_returnStatement h.toReady hin).steadies h, (meets_assignment h.toReady).steadies h⟩
  run _ _ _ h hin hk rest t hr ended := by
    have steady : t.Steady ∅ := (meets_typeDeclaration h.toReady hin hk).steadies h rest t hr
    have resolved := ((meets_typeDeclaration h.toReady hin hk).of_run_ok hr).2.2 ended
    exact steady.tracks.types.not_isForward resolved
  pointer _ _ _ _ _ h hk hc hn undeclared _ _ hr :=
    ((meets_pointerAhead h.toReady hk hc hn undeclared).of_run_ok hr).2

end Action

/-- The forward types are those that are pending, and each is bound to the one identifier of a type
that stands for it, but for the short while in which a new one waits for its identifier; this holds
before and after everything that is read. None is left at the end of a run of type declarations or of
a program that compiles, none is completed twice, and in the end a pointer at a name that had not been
declared points at the type that the name was declared as in the same scope. -/
theorem history_forwards (setup : Setup) (root : String) :
    (∀ s ∈ history setup root, s.types.TracksForwards ∧ (s.Bound → s.NamesForwards)) ∧
      (history setup root).IsChain (fun s t =>
        (∀ id, s.types.kind id = .forward none → s.Awaits id t) ∧ (¬ t.Bound → s.Defers t)) ∧
      Action.ReadersNameForwards setup ∧
      (∀ id n m, Completed id (history setup root) n → Completed id (history setup root) m → n = m) ∧
      ∀ t, compile setup root = .ok t → (∀ id, t.types.isForward id = false) ∧
        ∀ s ∈ history setup root, ∀ p base ident i, s.types.kind p = .pointer base →
          s.types.kind base = .forward (some ident) → s.idents.get? ident = some i →
          PointsAt t p ident i := by
  refine ⟨fun s hs => ?_, ?_, Action.readersNameForwards setup, fun id n m hn hm => ?_, fun t h => ?_⟩
  · have tracks := tracks_of_mem_history hs
    exact ⟨tracks.types, tracks.namesForwards (valid_of_mem_history hs)⟩
  · refine (isChain_history setup root).imp_of_mem_imp fun s t hs _ change => ?_
    have valid := valid_of_mem_history hs
    exact ⟨fun id => change.awaits valid, change.defers valid⟩
  · exact completed_unique (isChain_history setup root) hn hm
  · exact ⟨not_isForward_of_compile h, fun s hs p base ident i hp hb hi =>
      pointsAt_of_mem_history hs h hp hb hi⟩

end FrontEnd
