import FrontEnd.Proofs.Verdicts
import FrontEnd.Types.Spelling

/-!
How a type is spelled. Pointers, arrays and functions are written out by the types that they show; a
structure shows none, it is cut off at the names of its fields. A type is spelled by a recursion that
ends exactly if no path from it comes to a type that shows itself. Such a type comes about only where
a name is declared as a type that shows the name itself; in all other compilations every spelling
ends.
-/

namespace FrontEnd

open Relation

/-- The types that are written out in the spelling of a type. -/
def TypeKind.shown : TypeKind → List TypeId
  | .pointer base | .array base _ => [base]
  | .function s => s.parameters.map (·.type) ++ s.result?.toList
  | _ => []

theorem TypeKind.refs_of_shown {kind : TypeKind} {part : TypeId} (h : part ∈ kind.shown) :
    part ∈ kind.refs := by
  cases kind with
  | pointer base => exact h
  | array base length => exact h
  | function s =>
    rcases List.mem_append.1 h with h | h
    · exact List.mem_append_left _ h
    · exact List.mem_append_right _ (List.mem_of_head? (Option.mem_toList.1 h))
  | _ => cases h

theorem TypeKind.shown_of_isForward {kind : TypeKind} (h : kind.isForward = true) :
    kind.shown = [] := by
  cases kind <;> first | rfl | cases h

theorem TypeKind.shown_of_isStructure {kind : TypeKind} (h : kind.isStructure = true) :
    kind.shown = [] := by
  cases kind <;> first | rfl | cases h

namespace TypeTable

variable {t u : TypeTable} {id : TypeId}

/-- The spelling of `whole` has the spelling of `part` in it. -/
def Shows (t : TypeTable) (whole part : TypeId) : Prop :=
  part ∈ (t.kind whole).shown

instance (t : TypeTable) (whole part : TypeId) : Decidable (t.Shows whole part) :=
  inferInstanceAs (Decidable (part ∈ (t.kind whole).shown))

/-- Writing out the types that a type shows, and those that these show, comes to an end. -/
def Spelled (t : TypeTable) (id : TypeId) : Prop :=
  Acc (fun part whole => t.Shows whole part) id

theorem index_lt_of_shows {whole part : TypeId} (h : t.Shows whole part) :
    whole.index < t.size := by
  apply index_lt_of_kind_ne
  intro hk
  rw [Shows, hk] at h
  cases h

/-! ### Recursions that end -/

theorem Spelled.not_loops (h : t.Spelled id) : ¬ TransGen t.Shows id id := by
  induction h with
  | intro id _ ih =>
    intro loop
    obtain ⟨part, shows, back⟩ := TransGen.head'_iff.1 loop
    exact ih part shows (.tail' back shows)

theorem Spelled.reaches (h : t.Spelled id) {other : TypeId} (path : ReflTransGen t.Shows id other) :
    t.Spelled other := by
  induction path with
  | refl => exact h
  | tail _ shows ih => exact ih.inv shows

section Depth

variable {P : Nat → TypeId → Prop}
  (step : ∀ depth id, (∀ part, t.Shows id part → P depth part) → P (depth + 1) id)

include step

/-- Behind a path of types that show each other, without a way to a type that shows itself, what
holds of a type if it holds of those that it shows holds of the next one. The path is no longer than
the table. -/
theorem behind_induction {depth : Nat} {path : List TypeId} (hn : path.Nodup)
    (hp : ∀ whole ∈ path, TransGen t.Shows whole id) (hd : path.length + depth = t.size + 1)
    (acyclic : ∀ a, ReflTransGen t.Shows id a → ¬ TransGen t.Shows a a) : P depth id := by
  induction depth generalizing id path with
  | zero =>
    have bound := length_le_of_nodup (t := t) hn fun whole hw => by
      obtain ⟨part, shows, _⟩ := TransGen.head'_iff.1 (hp whole hw)
      exact index_lt_of_shows shows
    omega
  | succ depth ih =>
    refine step depth id fun part shows => ?_
    have fresh : id ∉ path := fun hm => acyclic id .refl (hp id hm)
    refine ih (List.nodup_cons.2 ⟨fresh, hn⟩) (fun whole hw => ?_) ?_ fun a reach => ?_
    · rcases List.mem_cons.1 hw with rfl | hw
      · exact .single shows
      · exact (hp whole hw).tail shows
    · rw [List.length_cons]
      omega
    · exact acyclic a (.head shows reach)

/-- Without a way to a type that shows itself, paths are no longer than the table has types. -/
theorem acyclic_induction (acyclic : ∀ a, ReflTransGen t.Shows id a → ¬ TransGen t.Shows a a) :
    P (t.size + 1) id :=
  behind_induction step .nil nofun (Nat.zero_add _) acyclic

end Depth

/-- A type is spelled unless there is a way from it to a type that shows itself. -/
theorem spelled_iff (t : TypeTable) (id : TypeId) :
    t.Spelled id ↔ ∀ a, ReflTransGen t.Shows id a → ¬ TransGen t.Shows a a := by
  constructor
  · intro h a reach
    exact (h.reaches reach).not_loops
  · exact acyclic_induction (P := fun _ => t.Spelled) fun _ _ ih => ⟨_, ih⟩

theorem forall_spelled_iff (t : TypeTable) :
    (∀ id, t.Spelled id) ↔ ∀ id, ¬ TransGen t.Shows id id := by
  constructor
  · intro h id
    exact (h id).not_loops
  · intro h id
    exact (t.spelled_iff id).2 fun a _ => h a

/-! ### The text of a type -/

/-- One step of the spelling looks at the shown types only. -/
theorem spellWithin_congr {m n : Nat}
    (h : ∀ part, t.Shows id part → t.spellWithin m part = t.spellWithin n part) :
    t.spellWithin (m + 1) id = t.spellWithin (n + 1) id := by
  unfold Shows at h
  rw [spellWithin, spellWithin]
  cases hk : t.kind id with
  | pointer base =>
    rw [hk] at h
    exact congrArg ("^" ++ ·) (h base (List.mem_singleton_self base))
  | array base length =>
    rw [hk] at h
    dsimp only
    rw [h base (List.mem_singleton_self base)]
  | function s =>
    rw [hk] at h
    have parameters : s.parameters.map (fun p => p.name ++ ": " ++ t.spellWithin m p.type) =
        s.parameters.map (fun p => p.name ++ ": " ++ t.spellWithin n p.type) := by
      refine List.map_congr_left fun p hp => ?_
      rw [h p.type (List.mem_append_left _ (List.mem_map_of_mem hp))]
    cases hr : s.result? with
    | none => simp only [parameters, hr]
    | some result =>
      have shown : result ∈ (TypeKind.function s).shown :=
        List.mem_append_right _ (by rw [hr]; exact List.mem_singleton_self result)
      simp only [parameters, hr, h result shown]
  | _ => rfl

/-- The text of a type that is spelled does not depend on where writing it out is cut off. -/
theorem Spelled.spellWithin_eq (h : t.Spelled id) {depth : Nat} (hd : t.size < depth) :
    t.spellWithin depth id = t.spelling id := by
  refine acyclic_induction
    (P := fun n id => ∀ deeper, n ≤ deeper → t.spellWithin deeper id = t.spellWithin n id)
    (fun n id ih deeper hle => ?_) ((t.spelled_iff id).1 h) depth hd
  obtain ⟨deeper, rfl⟩ : ∃ m, deeper = m + 1 := ⟨deeper - 1, (Nat.sub_add_cancel (by omega)).symm⟩
  exact spellWithin_congr fun part shows => ih part shows deeper (Nat.le_of_succ_le_succ hle)

/-! ### Types that show themselves -/

/-- A new type is shown by none, so no path comes back to it. -/
theorem loops_add_iff {kind : TypeKind} (closed : ∀ part ∈ kind.shown, part.index < t.size)
    (known : ∀ a b, t.Shows a b → b.index < t.size) :
    (∃ a, TransGen (t.add kind).2.Shows a a) ↔ ∃ a, TransGen t.Shows a a := by
  have shows {a b : TypeId} : (t.add kind).2.Shows a b ↔
      if a.index = t.size then b ∈ kind.shown else t.Shows a b := by
    rw [Shows, kind_add]
    split <;> rfl
  have old {a b : TypeId} (step : (t.add kind).2.Shows a b) : b.index < t.size := by
    rw [shows] at step
    split at step
    · exact closed b step
    · exact known a b step
  have before {a b : TypeId} (ha : a.index < t.size)
      (path : TransGen (t.add kind).2.Shows a b) : TransGen t.Shows a b := by
    induction path with
    | single step =>
      rw [shows, if_neg ha.ne] at step
      exact .single step
    | @tail c b path step ih =>
      obtain ⟨_, _, last⟩ := TransGen.tail'_iff.1 path
      rw [shows, if_neg (old last).ne] at step
      exact ih.tail step
  constructor
  · rintro ⟨a, loop⟩
    obtain ⟨_, _, last⟩ := TransGen.tail'_iff.1 loop
    exact ⟨a, before (old last) loop⟩
  · rintro ⟨a, loop⟩
    refine ⟨a, TransGen.mono (fun a b step => ?_) _ _ loop⟩
    rw [shows, if_neg (index_lt_of_shows step).ne]
    exact step

/-- The forward type `forward` is completed by a type that shows it. -/
structure ClosesLoop (t : TypeTable) (forward concrete : TypeId) : Prop where
  pending : t.isForward forward = true
  shows : TransGen t.Shows concrete forward

section Complete

variable {forward concrete : TypeId}

theorem shows_complete (pending : t.isForward forward = true) (a b : TypeId) :
    (t.complete forward concrete).Shows a b ↔
      if a = forward then t.Shows concrete b else t.Shows a b := by
  rw [Shows, kind_complete concrete a (index_lt_of_isForward pending)]
  split <;> rfl

theorem not_shows_forward (pending : t.isForward forward = true) (part : TypeId) :
    ¬ t.Shows forward part := by
  rw [isForward_eq] at pending
  rw [Shows, TypeKind.shown_of_isForward pending]
  exact List.not_mem_nil

/-- What a forward type comes to show does not take away anything. -/
theorem Shows.complete (pending : t.isForward forward = true) (a b : TypeId) (h : t.Shows a b) :
    (t.complete forward concrete).Shows a b := by
  rw [shows_complete pending, if_neg]
  · exact h
  · rintro rfl
    exact not_shows_forward pending b h

/-- A path to the completed type was there before it was completed, up to where it first meets the
type. -/
theorem reaches_of_complete (pending : t.isForward forward = true) {a : TypeId}
    (path : ReflTransGen (t.complete forward concrete).Shows a forward) :
    ReflTransGen t.Shows a forward := by
  induction path using ReflTransGen.head_induction_on with
  | refl => exact .refl
  | @head a b step _ ih =>
    rw [shows_complete pending] at step
    split at step
    · rename_i he
      rw [he]
    · exact .head step ih

/-- A path after the completion goes through the completed type, or it was there before. -/
theorem path_of_complete (pending : t.isForward forward = true) {a b : TypeId}
    (path : TransGen (t.complete forward concrete).Shows a b) :
    TransGen t.Shows a b ∨ ReflTransGen (t.complete forward concrete).Shows a forward ∧
      TransGen (t.complete forward concrete).Shows forward b := by
  induction path with
  | @single b step =>
    by_cases he : a = forward
    · subst he
      exact .inr ⟨.refl, .single step⟩
    · rw [shows_complete pending, if_neg he] at step
      exact .inl (.single step)
  | @tail c b path step ih =>
    by_cases he : c = forward
    · subst he
      exact .inr ⟨path.to_reflTransGen, .single step⟩
    · rcases ih with before | ⟨first, rest⟩
      · rw [shows_complete pending, if_neg he] at step
        exact .inl (before.tail step)
      · exact .inr ⟨first, rest.tail step⟩

/-- A type shows itself after a completion if it did before, or if it was completed by a type that
shows it. -/
theorem loops_complete_iff (pending : t.isForward forward = true) :
    (∃ a, TransGen (t.complete forward concrete).Shows a a) ↔
      (∃ a, TransGen t.Shows a a) ∨ t.ClosesLoop forward concrete := by
  constructor
  · rintro ⟨a, loop⟩
    rcases path_of_complete pending loop with before | ⟨first, rest⟩
    · exact .inl ⟨a, before⟩
    · obtain ⟨b, step, back⟩ := TransGen.head'_iff.1 (rest.trans_left first)
      rw [shows_complete pending, if_pos rfl] at step
      exact .inr ⟨pending, .head' step (reaches_of_complete pending back)⟩
  · rintro (⟨a, loop⟩ | closes)
    · exact ⟨a, TransGen.mono (Shows.complete pending) _ _ loop⟩
    · obtain ⟨b, step, rest⟩ := TransGen.head'_iff.1 closes.shows
      refine ⟨forward, .head' ?_ (ReflTransGen.mono (Shows.complete pending) _ _ rest)⟩
      rw [shows_complete pending, if_pos rfl]
      exact step

end Complete

end TypeTable

/-! ### Compilations -/

namespace Session

variable {s t : Session}

/-- The next session has a name declared as a type that shows the name. -/
def ClosesLoop (s t : Session) : Prop :=
  ∃ forward concrete, s.types.ClosesLoop forward concrete ∧
    t.types = s.types.complete forward concrete

theorem ClosesLoop.loops (h : s.ClosesLoop t) : ∃ a, TransGen t.types.Shows a a := by
  obtain ⟨forward, concrete, closes, types⟩ := h
  rw [types]
  exact (TypeTable.loops_complete_iff closes.pending).2 (.inr closes)

/-- A change leaves what the types show as it is, adds a type or completes one. -/
theorem Change.shown (h : s.Change t) :
    (∀ id, (t.types.kind id).shown = (s.types.kind id).shown) ∨
    (∃ kind : TypeKind, kind.Valid ∅ s ∧ t.types = (s.types.add kind).2) ∨
    ∃ forward concrete, s.types.isForward forward = true ∧
      t.types = s.types.complete forward concrete := by
  cases h with
  | step _ step =>
    obtain types | ⟨forward, concrete, pending, _, types⟩ := step.types
    · exact .inl fun id => by rw [types]
    · exact .inr (.inr ⟨forward, concrete, pending, types⟩)
  | @addType kind _ valid => exact .inr (.inl ⟨kind, valid, rfl⟩)
  | @addField owner type name offset types _ added structured =>
    refine .inl fun id => ?_
    show (types.kind id).shown = _
    rw [(TypeTable.addField_eq_some added).2.2]
    split
    · rename_i he
      have structured' := (TypeKind.isStructure_withField _ ⟨name, type, offset⟩).trans structured
      rw [he, TypeKind.shown_of_isStructure structured, TypeKind.shown_of_isStructure structured']
    · rfl
  | nameForward => exact .inl fun _ => rfl
  | @bind ident _ forward _ _ _ waiting =>
    refine .inl fun id => ?_
    show ((s.types.bind forward ident).kind id).shown = _
    rw [TypeTable.kind_bind ident id (TypeTable.isForward_of_kind_eq waiting)]
    split
    · rename_i he
      rw [he, waiting]
      rfl
    · rfl
  | leaveFile => exact .inl fun _ => rfl

/-- Types that show themselves come about only where a name is declared as a type that shows it. -/
theorem Change.loops_iff (h : s.Change t) (hs : s.Valid ∅) :
    (∃ a, TransGen t.types.Shows a a) ↔ (∃ a, TransGen s.types.Shows a a) ∨ s.ClosesLoop t := by
  obtain same | ⟨kind, valid, types⟩ | ⟨forward, concrete, pending, types⟩ := h.shown
  · have same : t.types.Shows = s.types.Shows := by
      funext a b
      exact congrArg (b ∈ ·) (same a)
    rw [← same]
    exact ⟨.inl, fun h => h.elim id ClosesLoop.loops⟩
  · have before : (∃ a, TransGen t.types.Shows a a) ↔ ∃ a, TransGen s.types.Shows a a := by
      rw [types]
      refine TypeTable.loops_add_iff (fun part hp => ?_) fun a b shows => ?_
      · exact (valid.refs part (TypeKind.refs_of_shown hp)).has
      · exact ((hs.kinds a).refs b (TypeKind.refs_of_shown shows)).has
    exact ⟨fun loops => .inl (before.1 loops), fun h => h.elim before.2 ClosesLoop.loops⟩
  · constructor
    · intro loops
      rw [types, TypeTable.loops_complete_iff pending] at loops
      exact loops.imp_right fun closes => ⟨forward, concrete, closes, types⟩
    · rintro (loops | closes)
      · rw [types]
        exact (TypeTable.loops_complete_iff pending).2 (.inl loops)
      · exact closes.loops

end Session

/-- The types that every program starts with show at most `void`. -/
theorem TypeTable.not_loops_initial (id : TypeId) : ¬ TransGen TypeTable.initial.Shows id id := by
  have leaves : ∀ i < TypeTable.initial.size, ∀ part ∈ (TypeTable.initial.kind ⟨i⟩).shown,
      (TypeTable.initial.kind part).shown = [] := by decide
  intro loop
  obtain ⟨_, shows, _⟩ := TransGen.head'_iff.1 loop
  obtain ⟨whole, _, last⟩ := TransGen.tail'_iff.1 loop
  rw [Shows, leaves whole.index (index_lt_of_shows last) id last] at shows
  cases shows

variable {setup : Setup} {root : String} {s : Session}

/-- A type shows itself in the `n`th session of a compilation exactly if a name was declared before
as a type that shows the name. -/
theorem history_loops_iff {n : Nat} (position : (history setup root)[n]? = some s) :
    (∃ a, TransGen s.types.Shows a a) ↔ ∃ m < n, ∃ u v, (history setup root)[m]? = some u ∧
      (history setup root)[m + 1]? = some v ∧ u.ClosesLoop v := by
  induction n generalizing s with
  | zero =>
    rw [history, List.getElem?_cons_zero] at position
    obtain rfl := Option.some.inj position
    constructor
    · rintro ⟨a, loop⟩
      exact absurd loop (TypeTable.not_loops_initial a)
    · rintro ⟨m, hm, _⟩
      exact absurd hm (Nat.not_lt_zero m)
  | succ n ih =>
    have hn := (List.getElem?_eq_some_iff.1 position).1
    obtain ⟨r, before⟩ : ∃ r, (history setup root)[n]? = some r :=
      ⟨_, List.getElem?_eq_getElem (Nat.lt_of_succ_lt hn)⟩
    have change : r.Change s := by
      have chain := List.isChain_iff_getElem.1 (isChain_history setup root) n hn
      rwa [(List.getElem?_eq_some_iff.1 before).2, (List.getElem?_eq_some_iff.1 position).2] at chain
    rw [change.loops_iff (valid_of_mem_history (List.mem_of_getElem? before)), ih before]
    constructor
    · rintro (⟨m, hm, rest⟩ | closes)
      · exact ⟨m, Nat.lt_succ_of_lt hm, rest⟩
      · exact ⟨n, Nat.lt_succ_self n, r, s, before, position, closes⟩
    · rintro ⟨m, hm, u, v, hu, hv, closes⟩
      rcases Nat.lt_succ_iff_lt_or_eq.1 hm with hm | rfl
      · exact .inl ⟨m, hm, u, v, hu, hv, closes⟩
      · cases hu.symm.trans before
        cases hv.symm.trans position
        exact .inr closes

/-- In every session of a compilation a type is spelled unless there is a way from it to a type that
shows itself, and its text is then complete. All types are spelled as long as no name has been
declared as a type that shows the name. -/
theorem history_spelled {n : Nat} (position : (history setup root)[n]? = some s) :
    (∀ id, s.types.Spelled id ↔
      ∀ a, ReflTransGen s.types.Shows id a → ¬ TransGen s.types.Shows a a) ∧
    (∀ id, s.types.Spelled id →
      ∀ depth, s.types.size < depth → s.types.spellWithin depth id = s.types.spelling id) ∧
    ((∀ id, s.types.Spelled id) ↔ ∀ m < n, ∀ u v, (history setup root)[m]? = some u →
      (history setup root)[m + 1]? = some v → ¬ u.ClosesLoop v) := by
  refine ⟨s.types.spelled_iff, fun id spelled depth => spelled.spellWithin_eq, ?_⟩
  have loops := not_congr (history_loops_iff position)
  simp only [not_exists, not_and] at loops
  rw [TypeTable.forall_spelled_iff]
  exact loops

/-- `A` is declared as a pointer to itself. -/
def selfProgram : Setup := declaring "A = ^A"

theorem selfProgram_spelled : ∃ n s, (history selfProgram "main.um")[n]? = some s ∧
    s.types.Shows ⟨15⟩ ⟨15⟩ ∧
    (∀ id, s.types.Spelled id ↔
      ∀ a, ReflTransGen s.types.Shows id a → ¬ TransGen s.types.Shows a a) ∧
    (∀ id, s.types.Spelled id →
      ∀ depth, s.types.size < depth → s.types.spellWithin depth id = s.types.spelling id) ∧
    ((∀ id, s.types.Spelled id) ↔ ∀ m < n, ∀ u v, (history selfProgram "main.um")[m]? = some u →
      (history selfProgram "main.um")[m + 1]? = some v → ¬ u.ClosesLoop v) := by
  have checked : ∃ s ∈ history selfProgram "main.um", s.types.Shows ⟨15⟩ ⟨15⟩ := by
    decide +kernel
  obtain ⟨s, hs, shows⟩ := checked
  obtain ⟨n, position⟩ := List.mem_iff_getElem?.1 hs
  exact ⟨n, s, position, shows, history_spelled position⟩

/-- The program compiles, and the spelling of `A` never comes to an end. -/
theorem selfProgram_loops : ∃ s, compile selfProgram "main.um" = .ok s ∧
    TransGen s.types.Shows ⟨15⟩ ⟨15⟩ ∧ ¬ s.types.Spelled ⟨15⟩ := by
  have checked : ∃ s ∈ (compile selfProgram "main.um").toOption, s.types.Shows ⟨15⟩ ⟨15⟩ := by
    decide +kernel
  obtain ⟨s, compiled, shows⟩ := checked
  have loop : TransGen s.types.Shows ⟨15⟩ ⟨15⟩ := .single shows
  refine ⟨s, ?_, loop, fun spelled => spelled.not_loops loop⟩
  cases result : compile selfProgram "main.um" with
  | ok z =>
    rw [result] at compiled
    exact congrArg Except.ok (Option.some.inj compiled)
  | error d =>
    rw [result] at compiled
    cases compiled

end FrontEnd
