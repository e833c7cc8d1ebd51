import FrontEnd.Proofs.History

/-!
What inner blocks export. An identifier of an inner block is not exported when it is declared. Only
the declaration that completes a forward type in place can mark it, since the mark is not looked at
there; so constants, variables and types that nothing has waited for are never exported.
-/

namespace FrontEnd

namespace Session

variable {U : Set TypeId} {s t : Session}

/-- The change from `s` to `t` completes the forward type of the identifier `id` by a declaration
that is marked as exported. -/
def MarksForward (id : IdentId) (s t : Session) : Prop :=
  ∃ i concrete span, s.idents.get? id = some i ∧ i.kind = .type ∧
    s.types.isForward i.type = true ∧ s.types.isForward concrete = false ∧
    t = { s with
      types := s.types.complete i.type concrete
      idents := s.idents.modify id (remark true span) }

/-- What a change does to the mark of the identifier `id`. -/
inductive Marks (id : IdentId) (s t : Session) : Prop
  | keep (kept : (t.idents.get? id).map Ident.exported = (s.idents.get? id).map Ident.exported)
  | declare {i : Ident} (fresh : s.idents.get? id = none) (declared : t.idents.get? id = some i)
      (exports : i.exported = true → i.block = .moduleScope)
  | forward (marks : s.MarksForward id t)

theorem marks_insert {i : Ident} {new : IdentId} {idents : IdentTable}
    (added : s.idents.insert? i = some (new, idents)) (placed : s.Places i) (id : IdentId) :
    s.Marks id { s with idents } := by
  obtain ⟨rfl, rfl, _⟩ := IdentTable.insert?_eq_some added
  by_cases hi : id.index = s.idents.size
  · refine .declare (Array.getElem?_eq_none (Nat.le_of_eq hi.symm)) ?_ placed.exports
    rw [IdentTable.get?_push, if_pos hi]
  · refine .keep ?_
    rw [IdentTable.get?_push, if_neg hi]

theorem Step.marks (h : s.Step U t) (id : IdentId) : s.Marks id t := by
  cases h with
  | declare added _ _ placed => exact marks_insert added placed id
  | @complete ident i forward concrete exported span declared kind type pending solid =>
    by_cases he : ident.index = id.index
    · obtain rfl : ident = id := IdentId.ext he
      cases exported with
      | true =>
        subst type
        exact .forward ⟨i, concrete, span, declared, kind, pending, solid, rfl⟩
      | false =>
        refine .keep ?_
        show ((s.idents.modify ident (remark false span)).get? ident).map _ = _
        rw [IdentTable.get?_modify, if_pos rfl, declared]
        exact congrArg some (Bool.or_false i.exported)
    · refine .keep ?_
      show ((s.idents.modify ident (remark exported span)).get? id).map _ = _
      rw [IdentTable.get?_modify, if_neg he]
  | _ => exact .keep rfl

theorem Change.marks (h : s.Change t) (id : IdentId) : s.Marks id t := by
  cases h with
  | step _ step => exact step.marks id
  | nameForward added _ _ _ _ placed => exact marks_insert added placed id
  | _ => exact .keep rfl

theorem MarksForward.exported {id : IdentId} (h : s.MarksForward id t) :
    ∃ i, t.idents.get? id = some i ∧ i.kind = .type ∧ i.exported = true := by
  obtain ⟨i, concrete, span, declared, kind, _, _, rfl⟩ := h
  refine ⟨remark true span i, ?_, kind, Bool.or_true _⟩
  show (s.idents.modify id _).get? id = _
  rw [IdentTable.get?_modify, if_pos rfl, declared]
  rfl

/-- What is exported stays so. -/
theorem Change.exported (h : s.Change t) {id : IdentId} {i : Ident}
    (hi : s.idents.get? id = some i) (he : i.exported = true) :
    ∃ j, t.idents.get? id = some j ∧ j.kind = i.kind ∧ j.exported = true := by
  obtain ⟨exported, span, hj⟩ := h.grows.idents id i hi
  refine ⟨_, hj, rfl, ?_⟩
  cases h.marks id with
  | keep kept =>
    rw [hi, hj, Option.map_some, Option.map_some, Option.some_inj] at kept
    exact kept.trans he
  | declare fresh =>
    rw [hi] at fresh
    cases fresh
  | forward marks =>
    obtain ⟨_, hk, _, marked⟩ := marks.exported
    cases hj.symm.trans hk
    exact marked

end Session

open Session

/-- Between the sessions `n` and `n + 1` of a run the forward type of the identifier `id` is
completed by a declaration that is marked as exported. -/
def Marked (id : IdentId) (run : List Session) (n : Nat) : Prop :=
  ∃ s t, run[n]? = some s ∧ run[n + 1]? = some t ∧ s.MarksForward id t

/-- What inner blocks export in a run. -/
structure ExportsForwardsOnly (run : List Session) : Prop where
  /-- An identifier of an inner block is exported if and only if a marked declaration has completed
  it. -/
  inner : ∀ n s id i, run[n]? = some s → s.idents.get? id = some i → i.block ≠ .moduleScope →
    (i.exported = true ↔ ∃ m < n, Marked id run m)
  /-- Constants, variables and functions are exported by their module at most. -/
  others : ∀ s ∈ run, ∀ id i, s.idents.get? id = some i → i.kind ≠ .type → i.exported = true →
    i.block = .moduleScope

section Run

variable {run : List Session} {id : IdentId} {n m : Nat} {s t : Session} {i : Ident}

/-- What has been marked is a type that is exported from then on. -/
theorem exported_of_marked (chain : run.IsChain Change) (hm : Marked id run m) (hlt : m < n)
    (hs : run[n]? = some s) :
    ∃ i, s.idents.get? id = some i ∧ i.kind = .type ∧ i.exported = true := by
  induction n, hlt using Nat.le_induction generalizing s with
  | base =>
    obtain ⟨_, t, _, ht, marks⟩ := hm
    cases hs.symm.trans ht
    exact marks.exported
  | succ n _ ih =>
    obtain ⟨bound, rfl⟩ := List.getElem?_eq_some_iff.1 hs
    obtain ⟨i, hi, kind, he⟩ := ih (List.getElem?_eq_getElem (Nat.lt_of_succ_lt bound))
    obtain ⟨j, hj, same, exported⟩ := (List.isChain_iff_getElem.1 chain n bound).exported hi he
    exact ⟨j, hj, same.trans kind, exported⟩

/-- Where nothing of an inner block is exported at first, what is exported later has been marked. -/
theorem marked_of_exported (chain : run.IsChain Change)
    (start : ∀ s, run[0]? = some s → ∀ i, s.idents.get? id = some i → i.block = .moduleScope)
    (hs : run[n]? = some s) (hi : s.idents.get? id = some i) (inner : i.block ≠ .moduleScope)
    (he : i.exported = true) : ∃ m < n, Marked id run m := by
  induction n generalizing s i with
  | zero => exact absurd (start s hs i hi) inner
  | succ n ih =>
    obtain ⟨bound, rfl⟩ := List.getElem?_eq_some_iff.1 hs
    have before : run[n]? = some run[n] := List.getElem?_eq_getElem (Nat.lt_of_succ_lt bound)
    have change := List.isChain_iff_getElem.1 chain n bound
    cases change.marks id with
    | keep kept =>
      rw [hi, Option.map_some, he, eq_comm, Option.map_eq_some_iff] at kept
      obtain ⟨j, hj, hje⟩ := kept
      obtain ⟨_, _, hi'⟩ := change.grows.idents id j hj
      cases hi.symm.trans hi'
      obtain ⟨m, hlt, marked⟩ := ih before hj inner hje
      exact ⟨m, Nat.lt_succ_of_lt hlt, marked⟩
    | declare _ declared exports =>
      cases hi.symm.trans declared
      exact absurd (exports he) inner
    | forward marks => exact ⟨n, Nat.lt_succ_self n, _, _, before, hs, marks⟩

end Run

theorem initial_block {settings : Settings} {id : IdentId} {i : Ident}
    (h : (initial settings).idents.get? id = some i) : i.block = .moduleScope :=
  (predeclared_builtin i (List.mem_of_getElem? (get?_initial h))).2.2.1

/-- In every session of a compilation, an identifier of an inner block is exported only if a marked
declaration has completed its forward type. -/
theorem history_exports (setup : Setup) (root : String) :
    ExportsForwardsOnly (history setup root) := by
  have chain := isChain_history setup root
  have start (id : IdentId) (s : Session) (hs : (history setup root)[0]? = some s) (i : Ident)
      (hi : s.idents.get? id = some i) : i.block = .moduleScope := by
    rw [history, List.getElem?_cons_zero, Option.some_inj] at hs
    exact initial_block (hs ▸ hi)
  constructor
  · intro n s id i hs hi inner
    refine ⟨marked_of_exported chain (start id) hs hi inner, ?_⟩
    rintro ⟨m, hlt, marked⟩
    obtain ⟨j, hj, _, he⟩ := exported_of_marked chain marked hlt hs
    cases hi.symm.trans hj
    exact he
  · intro s hs id i hi kind he
    by_contra inner
    obtain ⟨n, hn⟩ := List.mem_iff_getElem?.1 hs
    obtain ⟨m, hlt, marked⟩ := marked_of_exported chain (start id) hn hi inner he
    obtain ⟨j, hj, type, _⟩ := exported_of_marked chain marked hlt hn
    cases hi.symm.trans hj
    exact kind type

/-- A function in which the declaration of a type marks the name that a pointer has used before. -/
def markedProgram : Setup where
  settings := .standard
  sources := ⟨fun _ => .ok "fn main() \x7b type ( P = ^B; B* = int ) \x7d\n"⟩
  hosts := ⟨[]⟩

/-- Whether an identifier of an inner block is exported. -/
def Session.exportsInner (s : Session) : Bool :=
  s.idents.toList.any fun i => i.exported && i.block ≠ .moduleScope

theorem markedProgram_exports_inner : ¬ ∀ s ∈ history markedProgram "main.um", ∀ id i,
    s.idents.get? id = some i → i.block ≠ .moduleScope → i.exported = false := by
  intro never
  have exports : (compile markedProgram "main.um").toOption.any Session.exportsInner = true := by
    decide +kernel
  cases hs : compile markedProgram "main.um" with
  | ok s =>
    rw [hs] at exports
    obtain ⟨i, hm, hi⟩ := List.any_eq_true.1 exports
    obtain ⟨id, hid⟩ := IdentTable.mem_toList.1 hm
    obtain ⟨exported, inner⟩ := Bool.and_eq_true_iff.1 hi
    have reached := List.mem_of_getLast? (getLast?_history_of_compile hs)
    have hidden := never s reached id i hid (of_decide_eq_true inner)
    rw [exported] at hidden
    cases hidden
  | error d =>
    rw [hs] at exports
    cases exports

end FrontEnd
