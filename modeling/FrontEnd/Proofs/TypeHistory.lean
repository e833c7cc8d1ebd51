import FrontEnd.Proofs.Calls.Runs
import FrontEnd.Proofs.Session.InUse

/-!
The types in the course of a compilation. A type that is no forward type changes only while it is
being read itself, when a structure gains fields at its end.
-/

namespace FrontEnd

open Relation Session

/-- A type that becomes another one gains something that it refers to. -/
theorem TypeKind.Grows.eq_or_lt {k l : TypeKind} (h : k.Grows l) :
    k = l ∨ k.refs.length < l.refs.length := by
  cases h with
  | refl => exact .inl rfl
  | struct fields more =>
    cases more with
    | nil => exact .inl (by rw [List.append_nil])
    | cons field more =>
      refine .inr ?_
      show (fields.map (·.type)).length < ((fields ++ field :: more).map (·.type)).length
      simp
  | interface fields more =>
    cases more with
    | nil => exact .inl (by rw [List.append_nil])
    | cons field more =>
      refine .inr ?_
      show (fields.map (·.type)).length < ((fields ++ field :: more).map (·.type)).length
      simp

theorem TypeKind.Grows.antisymm {k l : TypeKind} (h : k.Grows l) (h' : l.Grows k) : k = l := by
  rcases h.eq_or_lt with same | more
  · exact same
  · rcases h'.eq_or_lt with same | fewer
    · exact same.symm
    · exact absurd fewer (Nat.lt_asymm more)

/-- Only structures become others. -/
theorem TypeKind.Grows.isStructure {k l : TypeKind} (h : k.Grows l) (other : l ≠ k) :
    k.isStructure = true := by
  cases h with
  | refl => exact absurd rfl other
  | struct | interface => rfl

namespace Action

variable {setup : Setup} {root : String} {s t : Session} {id : TypeId}

/-- The reader adds the structure `id` and then reads its fields. -/
def Reading.Opens (r : Reading) (id : TypeId) : Prop :=
  (r.nonterminal = .structType ∨ r.nonterminal = .interfaceType) ∧
    r.session.types.size = id.index

theorem eq_of_addInterface {owner : TypeId}
    (h : addInterface.Yields setup s owner t) : owner = ⟨s.types.size⟩ := by
  unfold addInterface at h
  obtain ⟨added, u, new, h⟩ := yields_bind.1 h
  obtain ⟨_, v, _, h⟩ := yields_bind.1 h
  obtain ⟨rfl, -⟩ := yields_pure.1 h
  cases new
  rfl

/-- Whoever reads fields of a structure is called where that structure has been added. -/
theorem Reading.Calls.opens {r c : Reading} (h : Reading.Calls setup r c)
    (owns : c.owner? = some id) : c.Opens id ∨ r.owner? = some id ∨ r.Opens id := by
  cases h with
  | declaration h => cases h <;> cases owns
  | function h => cases h <;> cases owns
  | statement h => cases h <;> cases owns
  | expression h => cases h <;> cases owns
  | type h =>
    cases h with
    | structFields _ _ added =>
      cases owns
      cases added
      exact .inr (.inr ⟨.inl rfl, rfl⟩)
    | nextFields => exact .inr (.inl owns)
    | interfaceType =>
      cases owns
      exact .inl ⟨.inr rfl, rfl⟩
    | interfaceMethods _ _ added =>
      cases owns
      obtain rfl := eq_of_addInterface added
      exact .inr (.inr ⟨.inr rfl, rfl⟩)
    | nextMethods => exact .inr (.inl owns)
    | _ => cases owns

/-- Fields of a structure are read as a part of reading the structure itself. -/
theorem Task.Reached.opens {r : Reading} (h : (Task.reading r).Reached setup root)
    (owns : r.owner? = some id) : ∃ p : Reading, (Task.reading p).Reached setup root ∧ p.Opens id ∧
      r.sessions setup <:+: p.sessions setup := by
  generalize hc : Task.reading r = c at h
  induction h generalizing r with
  | refl => cases hc
  | tail reached h ih =>
    subst hc
    obtain ⟨reads, within⟩ := h
    cases reads with
    | declarations => cases owns
    | @reading p _ call =>
      rcases call.opens owns with opens | owns' | opens
      · exact ⟨r, reached.tail ⟨.reading call, within⟩, opens, List.infix_refl _⟩
      · obtain ⟨q, found, opens, inside⟩ := ih owns' rfl
        exact ⟨q, found, opens, within.trans inside⟩
      · exact ⟨p, reached, opens, within⟩

end Action

variable {setup : Setup} {root : String} {s t : Session} {id : TypeId} {n m : Nat}

/-- At position `n` of the compilation the type `id` is just being read: its own reader has added it
and goes on. -/
def IsOpenAt (setup : Setup) (root : String) (id : TypeId) (n : Nat) : Prop :=
  ∃ (r : Action.Reading) (first : Nat), (Action.Task.reading r).Reached setup root ∧ r.Opens id ∧
    (Action.Task.reading r).StartsAt setup root first ∧
    first < n ∧ n + 1 < first + (r.sessions setup).length

/-- A type that changes does not become what it was. -/
theorem not_changes_of_ne (change : s.Change t)
    (has : id.index < s.types.size) (solid : s.types.isForward id = false)
    (other : t.types.kind id ≠ s.types.kind id) : ¬ ReflTransGen Change t s := by
  intro back
  have grows := change.grows.types
  have solid' := grows.isForward has solid
  have has' := Nat.lt_of_lt_of_le has grows.size
  have kinds := (grows_of_changes back).types.kind id has' solid'
  exact other (kinds.antisymm (grows.kind id has solid))

/-- A type that is no forward type changes while its fields are being read. -/
theorem opens_of_ne (hs : (history setup root)[n]? = some s)
    (ht : (history setup root)[n + 1]? = some t) (has : id.index < s.types.size)
    (solid : s.types.isForward id = false) (other : t.types.kind id ≠ s.types.kind id) :
    ∃ (r : Action.Reading) (first : Nat), (Action.Task.reading r).Reached setup root ∧ r.Opens id ∧
      (Action.Task.reading r).StartsAt setup root first ∧
      first ≤ n ∧ n + 1 < first + (r.sessions setup).length := by
  obtain ⟨hn, rfl⟩ := List.getElem?_eq_some_iff.1 hs
  obtain ⟨hm, rfl⟩ := List.getElem?_eq_some_iff.1 ht
  have change := List.isChain_iff_getElem.1 (isChain_history setup root) n hm
  have back := not_changes_of_ne change has solid other
  have structured := (change.grows.types.kind id has solid).isStructure other
  have chain := Action.Task.isChain_steps setup (.program root (.initial setup.settings))
  rw [Action.Task.sessions_program] at chain
  obtain ⟨d, reached, own, step⟩ := List.isChain_iff_getElem.1 chain n hm
  cases d with
  | program => exact absurd (congrArg (·.kind id) own.1) other
  | file => exact absurd (congrArg (·.kind id) own.1) other
  | imports => exact absurd (congrArg (·.kind id) own.1) other
  | reading c =>
    have owns : c.owner? = some id := by
      by_contra others
      exact other (own.structures id (Ne.symm others) structured)
    obtain ⟨r, found, opens, inside⟩ := Action.Task.Reached.opens reached owns
    obtain ⟨first, starts⟩ := found.startsAt
    obtain ⟨before, behind, split⟩ := step.trans inside
    have here : (r.sessions setup)[before.length]? = some (history setup root)[n] := by
      rw [← split]; simp
    have next : (r.sessions setup)[before.length + 1]? = some (history setup root)[n + 1] := by
      rw [← split]; simp
    have here := starts.getElem? here
    have last := (List.getElem?_eq_some_iff.1 next).1
    have next := starts.getElem? next
    -- The step stands at one place of the compilation, since the type does not change back.
    have place : first + before.length = n := by
      rcases Nat.lt_trichotomy (first + before.length) n with earlier | same | later
      · exact absurd (changes_of_le next hs (by omega)) back
      · exact same
      · exact absurd (changes_of_le ht here (by omega)) back
    exact ⟨r, first, found, opens, starts, by omega, by omega⟩

theorem kind_eq_or_isOpenAt (hs : (history setup root)[n]? = some s)
    (has : id.index < s.types.size) (solid : s.types.isForward id = false) (later : n ≤ m)
    (ht : (history setup root)[m]? = some t) :
    t.types.kind id = s.types.kind id ∨ IsOpenAt setup root id n := by
  induction m, later using Nat.le_induction generalizing t with
  | base =>
    obtain rfl : s = t := Option.some_inj.1 (hs.symm.trans ht)
    exact .inl rfl
  | succ m later ih =>
    obtain ⟨hm, -⟩ := List.getElem?_eq_some_iff.1 ht
    have hu := List.getElem?_eq_getElem (Nat.lt_of_succ_lt hm)
    rcases ih hu with same | isOpen
    · by_cases kept : t.types.kind id = ((history setup root)[m]).types.kind id
      · exact .inl (kept.trans same)
      have grows := (grows_of_changes (changes_of_le hs hu later)).types
      have has' := Nat.lt_of_lt_of_le has grows.size
      obtain ⟨r, first, reached, opens, starts, begun, goes⟩ :=
        opens_of_ne hu ht has' (grows.isForward has solid) kept
      refine .inr ⟨r, first, reached, opens, starts, ?_, by omega⟩
      by_contra before
      have start := starts.getElem? (i := 0) (s := r.session) rfl
      have grows := (grows_of_changes (changes_of_le hs start (by omega))).types.size
      rw [opens.2] at grows
      exact absurd has (Nat.not_lt.2 grows)
    · exact .inr isOpen

/-! ### Forward types -/

/-- A forward type gets its name, or it becomes what another type is. -/
theorem Session.Change.forward (h : s.Change t) (pending : s.types.isForward id = true) :
    t.types.kind id = s.types.kind id ∨
      (s.types.kind id = .forward none ∧ ∃ name, t.types.kind id = .forward (some name)) ∨
      ∃ concrete, s.types.isForward concrete = false ∧ t.types.kind id = s.types.kind concrete := by
  have known := TypeTable.index_lt_of_isForward pending
  cases h with
  | step _ step =>
    rcases step.types with same | ⟨forward, concrete, waits, solid, changed⟩
    · exact .inl (by rw [same])
    · rw [changed, TypeTable.kind_complete concrete id (TypeTable.index_lt_of_isForward waits)]
      split
      · exact .inr (.inr ⟨concrete, solid, rfl⟩)
      · exact .inl rfl
  | addType => exact .inl (TypeTable.kind_add_of_ne _ (Nat.ne_of_lt known))
  | addField _ added structured =>
    rw [(TypeTable.addField_eq_some added).2.2, if_neg]
    · exact .inl rfl
    · rintro rfl
      exact (TypeTable.not_isForward_of_isStructure structured pending).elim
  | nameForward => exact .inl rfl
  | @bind name _ forward _ _ _ waiting =>
    have waits : s.types.isForward forward = true := by
      rw [TypeTable.isForward_eq, waiting]
      rfl
    rw [TypeTable.kind_bind name id waits]
    split
    · rename_i he
      exact .inr (.inl ⟨he ▸ waiting, name, rfl⟩)
    · exact .inl rfl
  | leaveFile => exact .inl rfl

/-- What a forward type has become it stays. -/
theorem forward_of_changes (hs : (history setup root)[n]? = some s)
    (pending : s.types.isForward id = true) (later : n ≤ m)
    (ht : (history setup root)[m]? = some t) :
    t.types.kind id = s.types.kind id ∨
      (s.types.kind id = .forward none ∧ ∃ name, t.types.kind id = .forward (some name)) ∨
      ∃ k u concrete, n ≤ k ∧ k < m ∧ (history setup root)[k]? = some u ∧
        u.types.isForward concrete = false ∧ t.types.kind id = u.types.kind concrete := by
  induction m, later using Nat.le_induction generalizing t with
  | base =>
    obtain rfl : s = t := Option.some_inj.1 (hs.symm.trans ht)
    exact .inl rfl
  | succ m later ih =>
    obtain ⟨hm, rfl⟩ := List.getElem?_eq_some_iff.1 ht
    have hu := List.getElem?_eq_getElem (Nat.lt_of_succ_lt hm)
    have change := List.isChain_iff_getElem.1 (isChain_history setup root) m hm
    generalize (history setup root)[m + 1] = t at change
    generalize (history setup root)[m] = u at change hu
    rcases ih hu with same | ⟨waiting, name, bound⟩ | ⟨k, v, concrete, hn, hk, hv, solid, kind⟩
    · have pending' : u.types.isForward id = true := by
        rw [TypeTable.isForward_eq, same, ← TypeTable.isForward_eq]
        exact pending
      rw [← same]
      refine (change.forward pending').imp_right (Or.imp_right ?_)
      rintro ⟨concrete, solid, kind⟩
      exact ⟨m, u, concrete, later, Nat.lt_succ_self m, hu, solid, kind⟩
    · have pending' : u.types.isForward id = true := by
        rw [TypeTable.isForward_eq, bound]
        rfl
      rcases change.forward pending' with same | ⟨unbound, -⟩ | ⟨concrete, solid, kind⟩
      · exact .inr (.inl ⟨waiting, name, same.trans bound⟩)
      · rw [bound] at unbound
        cases unbound
      · exact .inr (.inr ⟨m, u, concrete, later, Nat.lt_succ_self m, hu, solid, kind⟩)
    · -- The completed type is in use, as forward types are from the start.
      have inUse := inUse_of_not_structure (TypeTable.index_lt_of_isForward pending)
        (Bool.eq_false_iff.2 fun hs => TypeTable.not_isForward_of_isStructure hs pending)
      have inUse := (fixes_of_changes (changes_of_le hs hu later)).inUse id inUse
      have solid' : u.types.isForward id = false := by
        rw [TypeTable.isForward_eq, kind, ← TypeTable.isForward_eq]
        exact solid
      have kept := change.fixes.kind id inUse solid'
      exact .inr (.inr ⟨k, v, concrete, hn, Nat.lt_succ_of_lt hk, hv, solid, kept.trans kind⟩)

/-- Throughout a compilation types are only added. A type stays as it is, unless it is a structure
that is just being read, which gains fields at its end, or a forward type, which gets its name and
becomes what another type is; and an identifier stands for one type, which stays as it is if it is
no forward type. -/
theorem history_types (setup : Setup) (root : String) :
    ((history setup root).Pairwise fun s t => s.types.size ≤ t.types.size) ∧
    (∀ n m s t, (history setup root)[n]? = some s → (history setup root)[m]? = some t → n ≤ m →
      ∀ id : TypeId, id.index < s.types.size →
        t.types.kind id = s.types.kind id ∨
        (IsOpenAt setup root id n ∧ (s.types.kind id).isStructure = true ∧
          (s.types.kind id).Grows (t.types.kind id)) ∨
        (s.types.kind id = .forward none ∧ ∃ name, t.types.kind id = .forward (some name)) ∨
        s.types.isForward id = true ∧ ∃ k u concrete, n ≤ k ∧ k < m ∧
          (history setup root)[k]? = some u ∧ u.types.isForward concrete = false ∧
            t.types.kind id = u.types.kind concrete) ∧
    (history setup root).Pairwise fun s t => ∀ id i, s.idents.get? id = some i →
      ∃ j, t.idents.get? id = some j ∧ j.type = i.type ∧
        (s.types.isForward i.type = false → t.types.kind j.type = s.types.kind i.type) := by
  refine ⟨?_, fun n m s t hs ht later id has => ?_, ?_⟩
  · exact (pairwise_history setup root).imp fun changes => (grows_of_changes changes).types.size
  · cases pending : s.types.isForward id with
    | true =>
      rcases forward_of_changes hs pending later ht with same | bound | completed
      · exact .inl same
      · exact .inr (.inr (.inl bound))
      · exact .inr (.inr (.inr ⟨rfl, completed⟩))
    | false =>
      by_cases same : t.types.kind id = s.types.kind id
      · exact .inl same
      have isOpen := (kind_eq_or_isOpenAt hs has pending later ht).resolve_left same
      have grows := (grows_of_changes (changes_of_le hs ht later)).types.kind id has pending
      exact .inr (.inl ⟨isOpen, grows.isStructure same, grows⟩)
  · refine (pairwise_history setup root).imp_of_mem fun hs _ changes id i hi => ?_
    obtain ⟨j, hj, -, type⟩ := (grows_of_changes changes).ident hi
    refine ⟨j, hj, type, fun solid => ?_⟩
    rw [type]
    exact (fixes_of_changes changes).kind i.type ((valid_of_mem_history hs).inUse_ident hi) solid

end FrontEnd
