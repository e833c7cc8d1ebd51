import FrontEnd.Proofs.Completion

/-!
What equivalence of types promises. Values of equivalent types take the same bytes in the same places.
Equivalent types can be exchanged wherever a value is assigned, but for pointers to a type that was
completed as `void`, which are not taken for the pointer to `void`. What has been said about types
while a name was still to be declared stays true when it is.
-/

namespace FrontEnd

/-- A program that consists of type declarations only. -/
def declaring (declarations : String) : Setup where
  settings := .standard
  sources := ⟨fun _ => .ok ("type (" ++ declarations ++ ")\nfn main() \x7b\x7d\n")⟩
  hosts := ⟨[]⟩

/-- `P` and `Q` point at the copy of `void` that `B` stands for. -/
def copyProgram : Setup :=
  declaring "P = ^B; Q = ^B; B = void; R = ^int; S = ^int"

namespace TypeTable

variable {t u : TypeTable} {a b a' b' : TypeId}

/-! ### The bytes of equivalent types -/

/-- Fields that follow each other start at the same offsets if they have the same sizes. -/
theorem forall₂_offset_of_isChain {as bs : List Field} (ha : as.IsChain t.Follows)
    (hb : bs.IsChain t.Follows) (h : List.Forall₂ (fun f g => t.size? f.type = t.size? g.type) as bs)
    (start : ∀ f ∈ as.head?, ∀ g ∈ bs.head?, f.offset = g.offset) :
    List.Forall₂ (fun f g => f.offset = g.offset) as bs := by
  induction h with
  | nil => exact .nil
  | @cons f g as bs size _ ih =>
    have offset := start f rfl g rfl
    rw [List.isChain_cons] at ha hb
    refine .cons offset (ih ha.2 hb.2 fun f' hf g' hg => ?_)
    have next : some f'.offset = some g'.offset := by
      rw [← ha.1 f' hf, ← hb.1 g' hg, size, offset]
    exact Option.some_inj.1 next

theorem forall₂_fields_of_equivalent (he : t.equivalent a b = true) :
    List.Forall₂ (fun f g => f.name = g.name ∧ t.equivalent f.type g.type = true) (t.fields a)
      (t.fields b) := by
  by_cases hab : a = b
  · rw [hab]
    exact List.forall₂_same.2 fun f _ => ⟨rfl, t.equivalent_refl f.type⟩
  have same := matches_of_equivalent he hab
  rw [fields_eq, fields_eq]
  cases ha : t.kind a <;> cases hb : t.kind b <;> rw [ha, hb] at same <;>
    first | exact same.elim | exact same | exact .nil

/-- A value of type `part` lies at `offset` inside the values of a type. -/
inductive LiesAt (t : TypeTable) : TypeId → Int → TypeId → Prop
  | whole (id : TypeId) : LiesAt t id 0 id
  | field {id part : TypeId} {f : Field} {offset : Int} (mem : f ∈ t.fields id)
      (inner : LiesAt t f.type offset part) : LiesAt t id (f.offset.toInt + offset) part
  | element {id base part : TypeId} {length : Int64} {n : Nat} {offset : Int}
      (kind : t.kind id = .array base length) (closed : length ≠ openLength) (bound : n < length.toInt)
      (inner : LiesAt t base offset part) : LiesAt t id (n * t.bytes base + offset) part

/-- Values of the two types take the same bytes, and each part of the one has its counterpart in the
same place of the other. -/
structure SharesLayout (t : TypeTable) (a b : TypeId) : Prop where
  size : t.size? a = t.size? b
  structured : t.isStructured a = t.isStructured b
  fields : List.Forall₂ (fun f g => f.name = g.name ∧ f.offset = g.offset ∧
    t.equivalent f.type g.type = true) (t.fields a) (t.fields b)
  parts : ∀ offset part, t.LiesAt a offset part →
    ∃ other, t.LiesAt b offset other ∧ t.equivalent part other = true

theorem outline_of_equivalent (he : t.equivalent a b = true) :
    (t.kind a).outline = (t.kind b).outline := by
  by_cases hab : a = b
  · rw [hab]
  · exact (matches_of_equivalent he hab).outline

section Founded

variable (founded : t.IsFounded) (laid : ∀ id, t.LaysOut (t.kind id).fields)
include founded laid

theorem IsFounded.forall₂_fields (he : t.equivalent a b = true) :
    List.Forall₂ (fun f g => f.name = g.name ∧ f.offset = g.offset ∧
      t.equivalent f.type g.type = true) (t.fields a) (t.fields b) := by
  have same := forall₂_fields_of_equivalent he
  have laidA := laid a
  have laidB := laid b
  rw [← fields_eq] at laidA laidB
  have offsets := forall₂_offset_of_isChain laidA.chain laidB.chain
    (same.imp fun f g h => founded.size?_eq_of_equivalent laid h.2) fun f hf g hg => by
      rw [laidA.first f hf, laidB.first g hg]
  refine List.forall₂_iff_get.2 ⟨same.length_eq, fun n hn hm => ?_⟩
  have pair := (List.forall₂_iff_get.1 same).2 n hn hm
  exact ⟨pair.1, (List.forall₂_iff_get.1 offsets).2 n hn hm, pair.2⟩

/-- What lies inside the values of a type has its counterpart in those of an equivalent type. -/
theorem LiesAt.of_equivalent {offset : Int} {part : TypeId} (h : t.LiesAt a offset part)
    (he : t.equivalent a b = true) :
    ∃ other, t.LiesAt b offset other ∧ t.equivalent part other = true := by
  induction h generalizing b with
  | whole id => exact ⟨b, .whole b, he⟩
  | @field id part f offset mem inner ih =>
    obtain ⟨n, hn, rfl⟩ := List.getElem_of_mem mem
    obtain ⟨length, pairs⟩ := List.forall₂_iff_get.1 (founded.forall₂_fields laid he)
    obtain ⟨_, same, types⟩ := pairs n hn (length ▸ hn)
    obtain ⟨other, lies, equivalent⟩ := ih types
    rw [List.get_eq_getElem, List.get_eq_getElem] at same
    rw [same]
    exact ⟨other, .field (List.getElem_mem _) lies, equivalent⟩
  | @element id base part length n offset kind closed bound inner ih =>
    by_cases hab : id = b
    · subst hab
      exact ⟨part, .element kind closed bound inner, t.equivalent_refl part⟩
    have same := matches_of_equivalent he hab
    rw [kind] at same
    cases hb : t.kind b with
    | array base' length' =>
      rw [hb] at same
      obtain ⟨rfl, bases⟩ := same
      obtain ⟨other, lies, equivalent⟩ := ih bases
      have bytes : t.bytes base = t.bytes base' := by
        rw [bytes, bytes, founded.size?_eq_of_equivalent laid bases]
      rw [bytes]
      exact ⟨other, .element hb closed bound lies, equivalent⟩
    | _ =>
      rw [hb] at same
      exact same.elim

theorem IsFounded.sharesLayout (he : t.equivalent a b = true) : t.SharesLayout a b where
  size := founded.size?_eq_of_equivalent laid he
  structured := isStructured_congr (outline_of_equivalent he)
  fields := founded.forall₂_fields laid he
  parts _ _ lies := lies.of_equivalent founded laid he

end Founded

/-! ### Equivalent types in assignments -/

/-- A pointer to a type that is equivalent to `void` without being it. -/
def PointsAtCopy (t : TypeTable) (id : TypeId) : Prop :=
  ∃ base ∈ t.pointerBase? id, t.equivalent .void base = true ∧ base ≠ .void

instance (t : TypeTable) (id : TypeId) : Decidable (t.PointsAtCopy id) :=
  inferInstanceAs (Decidable (∃ base ∈ t.pointerBase? id, t.equivalent .void base = true ∧ base ≠ .void))

theorem isAnyPointer_of_equivalent (he : t.equivalent a b = true) (genuine : ¬ t.PointsAtCopy b)
    (h : t.isAnyPointer a = true) : t.isAnyPointer b = true := by
  by_cases hab : a = b
  · rwa [← hab]
  have same := matches_of_equivalent he hab
  unfold isAnyPointer at h ⊢
  cases ha : t.kind a <;> cases hb : t.kind b <;> rw [ha, hb] at same <;> try exact same.elim
  all_goals rw [ha] at h
  case builtin.builtin =>
    obtain rfl : _ = _ := same
    exact h
  case pointer.pointer base base' =>
    obtain rfl := of_decide_eq_true h
    refine decide_eq_true (by_contra fun other => genuine ⟨base', ?_, same, other⟩)
    rw [pointerBase?, hb]
    rfl
  all_goals cases h

/-- Types can be exchanged for equivalent ones where a value is assigned, unless one of them points at
a copy of `void`. -/
theorem compatible_of_equivalents (ha : t.equivalent a a' = true) (hb : t.equivalent b b' = true)
    (genuine : ∀ id ∈ [a, a', b, b'], ¬ t.PointsAtCopy id) :
    t.compatible a b = t.compatible a' b' := by
  have anyPointer {c d : TypeId} (he : t.equivalent c d = true) (hc : ¬ t.PointsAtCopy c)
      (hd : ¬ t.PointsAtCopy d) : t.isAnyPointer c = t.isAnyPointer d :=
    Bool.eq_iff_iff.2 ⟨isAnyPointer_of_equivalent he hd,
      isAnyPointer_of_equivalent (equivalent_symm he) hc⟩
  exact compatible_congr (outline_of_equivalent ha) (outline_of_equivalent hb)
    (anyPointer ha (genuine a (by simp)) (genuine a' (by simp)))
    (anyPointer hb (genuine b (by simp)) (genuine b' (by simp))) (equivalent_congr ha hb)

theorem copyProgram_exchanges : ∃ s ∈ history copyProgram "main.um",
    s.types.equivalent ⟨18⟩ ⟨19⟩ = true ∧ s.types.equivalent .anyPointer .anyPointer = true ∧
      (∀ id ∈ [(⟨18⟩ : TypeId), ⟨19⟩, .anyPointer, .anyPointer], ¬ s.types.PointsAtCopy id) ∧
      s.types.compatible ⟨18⟩ .anyPointer = s.types.compatible ⟨19⟩ .anyPointer := by
  have checked : ∃ s ∈ history copyProgram "main.um",
      s.types.equivalent ⟨18⟩ ⟨19⟩ = true ∧ s.types.equivalent .anyPointer .anyPointer = true ∧
        ∀ id ∈ [(⟨18⟩ : TypeId), ⟨19⟩, .anyPointer, .anyPointer], ¬ s.types.PointsAtCopy id :=
    by decide +kernel
  obtain ⟨s, hs, first, second, genuine⟩ := checked
  exact ⟨s, hs, first, second, genuine, compatible_of_equivalents first second genuine⟩

/-- A pointer to `int` can be assigned to a pointer to `void`, but not to the equivalent type `P`. -/
theorem copyProgram_refuses : ∃ s ∈ history copyProgram "main.um",
    s.types.equivalent .anyPointer ⟨16⟩ = true ∧ s.types.compatible .anyPointer ⟨18⟩ = true ∧
      s.types.compatible ⟨16⟩ ⟨18⟩ = false :=
  by decide +kernel

/-! ### Verdicts about pending types -/

/-- What is said about types in the table `t` is also true in `u`. -/
structure Upholds (t u : TypeTable) : Prop where
  equivalent : ∀ a b, t.equivalent a b = true → u.equivalent a b = true
  compatible : ∀ a b, t.compatible a b = true → u.compatible a b = true
  size : ∀ id, t.isForward id = false → u.size? id = t.size? id

end TypeTable

/-- Completing a forward type revises nothing that has been said about types. -/
theorem Session.Valid.upholds {U : Set TypeId} {s : Session} (h : s.Valid U)
    (founded : s.types.IsFounded) {forward : TypeId} (concrete : TypeId)
    (pending : s.types.isForward forward = true) :
    s.types.Upholds (s.types.complete forward concrete) := by
  have replaces := h.replaces_complete concrete pending
  have other {id : TypeId} (solid : s.types.isForward id = false) : id ≠ forward := by
    rintro rfl
    rw [pending] at solid
    cases solid
  have kept (id : TypeId) (solid : s.types.isForward id = false) :=
    replaces.others id (other solid)
  have equivalent (a b : TypeId) (he : s.types.equivalent a b = true) :=
    h.equivalent_of_kinds (P := fun _ => True) (fun _ _ _ _ => trivial) (fun id _ => kept id) trivial
      trivial he
  refine ⟨equivalent, fun a b hc => ?_, fun id solid => replaces.size?_eq founded (other solid)⟩
  obtain he | ⟨ha, hb⟩ := TypeTable.solid_of_compatible hc
  · exact TypeTable.compatible_of_equivalent (equivalent a b he)
  · exact TypeTable.compatible_of_kinds (kept a ha) (kept b hb) (equivalent a b) hc

/-! ### Throughout a compilation -/

variable {setup : Setup} {root : String} {s : Session} {a b forward : TypeId}

/-- Values of equivalent types have the same layout, so that a value of the one type can be copied
into the place of one of the other. -/
theorem history_sharesLayout (hs : s ∈ history setup root) (he : s.types.equivalent a b = true) :
    s.types.SharesLayout a b := by
  have laid := laidOut_of_mem_history hs
  exact laid.founded.sharesLayout laid.fields he

/-- Two lists that are linked through pointers to themselves. -/
def listsProgram : Setup :=
  declaring "P = struct \x7bnext: ^P; mark: int8; row: [3]int\x7d; Q = struct \x7bnext: ^Q; mark: int8; row: [3]int\x7d"

theorem listsProgram_sharesLayout : ∃ s ∈ history listsProgram "main.um",
    s.types.equivalent ⟨15⟩ ⟨19⟩ = true ∧ s.types.SharesLayout ⟨15⟩ ⟨19⟩ := by
  have checked : ∃ s ∈ history listsProgram "main.um", s.types.equivalent ⟨15⟩ ⟨19⟩ = true :=
    by decide +kernel
  obtain ⟨s, hs, equivalent⟩ := checked
  exact ⟨s, hs, equivalent, history_sharesLayout hs equivalent⟩

/-- Whatever is said about types while a name waits for its declaration stays true when the name is
declared, as whatever type. -/
theorem history_upholds (hs : s ∈ history setup root) (pending : forward ∈ s.types.pending)
    (concrete : TypeId) : s.types.Upholds (s.types.complete forward concrete) := by
  have tracks := tracks_of_mem_history hs
  exact (valid_of_mem_history hs).upholds (laidOut_of_mem_history hs).founded concrete
    ((tracks.types.mem_iff forward).1 pending)

/-- `P` and `Q` are found to be equivalent while `B` waits for its declaration. -/
theorem copyProgram_upholds : ∃ s ∈ history copyProgram "main.um", ⟨15⟩ ∈ s.types.pending ∧
    s.types.equivalent ⟨16⟩ ⟨17⟩ = true ∧ s.types.Upholds (s.types.complete ⟨15⟩ .void) := by
  have checked : ∃ s ∈ history copyProgram "main.um", ⟨15⟩ ∈ s.types.pending ∧
      s.types.equivalent ⟨16⟩ ⟨17⟩ = true := by decide +kernel
  obtain ⟨s, hs, pending, equivalent⟩ := checked
  exact ⟨s, hs, pending, equivalent, history_upholds hs pending .void⟩

end FrontEnd
