import FrontEnd.Proofs.Session.Update
import Mathlib.Data.List.TakeWhile

/-!
Identifier tables that gain identifiers of one sort. An identifier is added at the end of the
table, and a type that was there before can get an export mark; all others stay as they are.
-/

namespace FrontEnd

open Session

namespace IdentTable

/-- Identifiers with `P` have been added to `s`, or were types with `P` and have been marked. -/
inductive Gains (P : Ident → Prop) (s : IdentTable) : IdentTable → Prop
  | refl : Gains P s s
  | push {t : IdentTable} {i : Ident} (h : Gains P s t) (new : P i) : Gains P s ⟨t.idents.push i⟩
  | mark {t : IdentTable} {id : IdentId} {i : Ident} {exported : Bool} {span : Span}
      (h : Gains P s t) (found : t.get? id = some i) (type : i.kind = .type) (old : P i)
      (new : P (remark exported span i)) : Gains P s (t.modify id (remark exported span))

variable {P Q : Ident → Prop} {s t u : IdentTable}

theorem Gains.trans (h : s.Gains P t) (h' : t.Gains P u) : s.Gains P u := by
  induction h' with
  | refl => exact h
  | push _ new ih => exact ih.push new
  | mark _ found type old new ih => exact ih.mark found type old new

theorem Gains.mono (h : s.Gains P t) (hPQ : ∀ i, P i → Q i) : s.Gains Q t := by
  induction h with
  | refl => exact .refl
  | push _ new ih => exact ih.push (hPQ _ new)
  | mark _ found type old new ih => exact ih.mark found type (hPQ _ old) (hPQ _ new)

theorem toList_push (t : IdentTable) (i : Ident) :
    IdentTable.toList ⟨t.idents.push i⟩ = t.toList ++ [i] :=
  Array.toList_push

/-- A modified identifier stays at its place. -/
theorem exists_toList_modify {id : IdentId} {i : Ident} (found : t.get? id = some i)
    (f : Ident → Ident) : ∃ before behind, t.toList = before ++ i :: behind ∧
      (t.modify id f).toList = before ++ f i :: behind := by
  rw [← getElem?_toList] at found
  obtain ⟨bound, rfl⟩ := List.getElem?_eq_some_iff.1 found
  refine ⟨t.toList.take id.index, t.toList.drop (id.index + 1), ?_, ?_⟩
  · rw [List.getElem_cons_drop, List.take_append_drop]
  · exact Array.toList_modify.trans (List.modify_eq_take_cons_drop bound)

theorem length_toList (t : IdentTable) : t.toList.length = t.size := Array.length_toList

theorem Gains.size_le (h : s.Gains P t) : s.size ≤ t.size := by
  induction h with
  | refl => exact Nat.le_refl _
  | push _ _ ih =>
    refine Nat.le_trans ih ?_
    simp [size]
  | mark _ _ _ _ _ ih =>
    refine Nat.le_trans ih ?_
    simp [size, modify]

/-- What is said about other identifiers stays the same. -/
theorem Gains.filterMap_eq {β : Type} (h : s.Gains P t) (f : Ident → Option β)
    (none : ∀ i, P i → f i = .none) : t.toList.filterMap f = s.toList.filterMap f := by
  induction h with
  | refl => rfl
  | push _ new ih =>
    rw [toList_push, List.filterMap_append, ih, List.filterMap_cons, none _ new]
    exact List.append_nil _
  | @mark t id i exported span _ found _ old new ih =>
    obtain ⟨before, behind, same, marked⟩ := exists_toList_modify found (remark exported span)
    rw [marked, ← ih, same]
    simp [none _ old, none _ new]

theorem mem_drop_of_get? {id : IdentId} {i : Ident} {n : Nat} (new : n ≤ id.index)
    (found : t.get? id = some i) : i ∈ t.toList.drop n := by
  rw [← getElem?_toList] at found
  refine List.mem_iff_getElem?.2 ⟨id.index - n, ?_⟩
  rw [List.getElem?_drop, Nat.add_sub_cancel' new]
  exact found

/-- All that has been added has `P`. -/
theorem Gains.of_mem_drop (h : s.Gains P t) : ∀ i ∈ t.toList.drop s.size, P i := by
  induction h with
  | refl =>
    rw [← length_toList, List.drop_length]
    nofun
  | @push t _ h new ih =>
    have bound := h.size_le
    rw [← t.length_toList] at bound
    intro i hi
    rw [toList_push, List.drop_append_of_le_length bound] at hi
    rcases List.mem_append.1 hi with hi | hi
    · exact ih i hi
    · exact List.mem_singleton.1 hi ▸ new
  | @mark t id i exported span h found _ old new ih =>
    obtain ⟨before, behind, same, marked⟩ := exists_toList_modify found (remark exported span)
    rw [same] at ih
    rw [marked]
    intro j hj
    rw [List.drop_append] at hj ih
    rcases List.mem_append.1 hj with hj | hj
    · exact ih j (List.mem_append_left _ hj)
    · cases hd : s.size - before.length with
      | zero =>
        rw [hd] at hj ih
        rcases List.mem_cons.1 hj with rfl | hj
        · exact new
        · exact ih j (List.mem_append_right _ (List.mem_cons_of_mem _ hj))
      | succ n =>
        rw [hd] at hj ih
        exact ih j (List.mem_append_right _ hj)

/-! ### Variables -/

/-- The variables that have been declared behind the first `n` identifiers. -/
def variablesFrom (t : IdentTable) (n : Nat) : List Ident :=
  (t.toList.drop n).filter (·.kind = .var)

theorem variablesFrom_size (t : IdentTable) : t.variablesFrom t.size = [] := by
  rw [variablesFrom, ← length_toList, List.drop_length]
  rfl

theorem variablesFrom_push {n : Nat} (h : n ≤ t.size) (i : Ident) :
    IdentTable.variablesFrom ⟨t.idents.push i⟩ n =
      t.variablesFrom n ++ if i.kind = .var then [i] else [] := by
  rw [← length_toList] at h
  rw [variablesFrom, toList_push, List.drop_append_of_le_length h, List.filter_append,
    List.filter_singleton]
  simp [variablesFrom]

theorem variablesFrom_push_var {i : Ident} (h : i.kind = .var) :
    IdentTable.variablesFrom ⟨t.idents.push i⟩ t.size = [i] := by
  rw [variablesFrom_push (Nat.le_refl _), variablesFrom_size, if_pos h, List.nil_append]

theorem filter_drop_replace {before behind : List Ident} {i j : Ident} {q : Ident → Bool} (n : Nat)
    (hi : q i = false) (hj : q j = false) :
    ((before ++ j :: behind).drop n).filter q = ((before ++ i :: behind).drop n).filter q := by
  rw [List.drop_append, List.drop_append]
  cases n - before.length <;> simp [hi, hj]

theorem variablesFrom_mark {id : IdentId} {i : Ident} (found : t.get? id = some i)
    (type : i.kind = .type) (exported : Bool) (span : Span) (n : Nat) :
    (t.modify id (remark exported span)).variablesFrom n = t.variablesFrom n := by
  obtain ⟨before, behind, same, marked⟩ := exists_toList_modify found (remark exported span)
  rw [variablesFrom, variablesFrom, same, marked]
  exact filter_drop_replace n (by simp [type]) (by simp [remark, type])

/-- Variables are declared one behind the other. -/
theorem Gains.variablesFrom_append (h : t.Gains P u) {n : Nat} (hn : n ≤ t.size) :
    u.variablesFrom n = t.variablesFrom n ++ u.variablesFrom t.size := by
  induction h with
  | refl => rw [variablesFrom_size, List.append_nil]
  | push h _ ih =>
    rw [variablesFrom_push (Nat.le_trans hn h.size_le), variablesFrom_push h.size_le, ih,
      List.append_assoc]
  | mark _ found type _ _ ih =>
    rw [variablesFrom_mark found type, variablesFrom_mark found type, ih]

/-- Where no variables are added, there are none. -/
theorem Gains.variablesFrom_eq_nil (h : s.Gains P t) (none : ∀ i, P i → i.kind ≠ .var) :
    t.variablesFrom s.size = [] := by
  refine List.filter_eq_nil_iff.2 fun i hi hk => ?_
  exact none i (h.of_mem_drop i hi) (of_decide_eq_true hk)

/-- What was there before and is no type stays as it is. -/
theorem Gains.get?_eq (h : s.Gains P t) {id : IdentId} {i : Ident} (old : id.index < s.size)
    (found : t.get? id = some i) (kind : i.kind ≠ .type) : s.get? id = some i := by
  induction h with
  | refl => exact found
  | push h _ ih =>
    rw [get?_push, if_neg (Nat.ne_of_lt (Nat.lt_of_lt_of_le old h.size_le))] at found
    exact ih found
  | @mark t marked j exported span _ there type _ _ ih =>
    rw [get?_modify] at found
    split at found
    · rename_i he
      rw [← IdentId.ext he, there] at found
      cases found
      exact absurd type kind
    · exact ih found

end IdentTable

end FrontEnd
