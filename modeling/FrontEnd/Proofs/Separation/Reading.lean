import FrontEnd.Proofs.Expression.Climbing
import FrontEnd.Proofs.Expression.Folding

/-!
Reading where other names are those of modules. Whether a name in front of a dot stands for a module
decides how far a reference goes. Two readings of the same words come to the same tree if each name
that either of them has taken for a module is one for both or for neither.
-/

namespace FrontEnd

theorem Rest.eq_of_got {s : Stream} {α : Type} {r r' : Rest s α} (h : r.got = r'.got) : r = r' := by
  obtain ⟨value, stream, _⟩ := r
  obtain ⟨value', stream', _⟩ := r'
  obtain ⟨rfl, rfl⟩ := Prod.mk.inj h
  rfl

/-- The name that a reference takes for that of a module. -/
def Reference.file? : Reference → Option String
  | plain .. => none
  | member file .. => some file

variable {p q : String → Bool} {s : Stream}

/-- Of the names that these references take for those of modules, both do or neither. -/
def AllFiles (p q : String → Bool) (references : List Reference) : Prop :=
  ∀ r ∈ references, ∀ file ∈ r.file?, p file = q file

/-- A module in front of a dot is taken for one. -/
theorem Reference.file?_readFrom {first : String} {s₁ : Stream} {h₁ : s₁.Behind s}
    {dot : Shorter s₁} (found : s₁.skip? .dot = some dot) (file : p first = true) :
    (readFrom p s ⟨first, s₁, h₁⟩).value.file? = some first := by
  unfold readFrom
  dsimp only
  rw [found]
  dsimp only
  rw [if_pos file]
  split <;> rfl

theorem Reference.read?_congr {past past' : Past s Reference} (left : read? p s = some past)
    (right : read? q s = some past') (files : AllFiles p q [past.value])
    (files' : AllFiles p q [past'.value]) : past = past' := by
  obtain ⟨⟨first, s₁, h₁⟩, named, rfl⟩ := Option.map_eq_some_iff.1 left
  obtain ⟨named', known, rfl⟩ := Option.map_eq_some_iff.1 right
  cases named.symm.trans known
  cases found : s₁.skip? .dot with
  | none =>
    unfold readFrom
    dsimp only
    rw [found]
  | some dot =>
    have same : p first = q first := by
      by_cases hp : p first = true
      · exact files _ (List.mem_singleton_self _) first (file?_readFrom found hp)
      · by_cases hq : q first = true
        · exact files' _ (List.mem_singleton_self _) first (file?_readFrom found hq)
        · rw [Bool.not_eq_true] at hp hq
          rw [hp, hq]
    unfold readFrom
    dsimp only
    rw [same]

namespace Expression

theorem references_subset_readOperators (isModule : String → Bool) (lowest : Nat)
    (left : Expression) (s : Stream) :
    left.references ⊆ (readOperators isModule lowest left s).value.references := by
  by_cases tight : ∃ op ∈ operator? s.kind, lowest ≤ op.precedence
  · obtain ⟨op, here, tight⟩ := tight
    have shorter := (advance_behind_of_operator? here).2
    have within := (readAbove isModule (op.precedence + 1) s.advance).le.2
    have next := congrArg Prod.fst
      (got_readOperators_next here tight rfl :
        (readOperators isModule lowest left s).got = _)
    rw [show (readOperators isModule lowest left s).value = _ from next]
    exact List.Subset.trans (List.subset_append_left _ _)
      (references_subset_readOperators isModule lowest (.binary op s.span left _) _)
  · have loose : ∀ op ∈ operator? s.kind, op.precedence < lowest := fun op here =>
      Nat.lt_of_not_le fun h => tight ⟨op, here, h⟩
    have stop := congrArg Prod.fst
      (got_readOperators_stop loose : (readOperators isModule lowest left s).got = _)
    rw [show (readOperators isModule lowest left s).value = left from stop]
    exact List.Subset.refl _
termination_by s.size

/-- Two readings of the same words. -/
structure ReadAlike (p q : String → Bool) (r r' : Rest s Expression) : Prop where
  same : AllFiles p q r.value.references → AllFiles p q r'.value.references → r.got = r'.got

mutual

theorem readOperand_congr (s : Stream) : ReadAlike p q (readOperand p s) (readOperand q s) := by
  refine ⟨fun files files' => ?_⟩
  cases hu : unaryOperator? s.kind with
  | some op =>
    have shorter := (advance_behind_of_unaryOperator? hu).2
    have left : (readOperand p s).got = _ := got_readOperand_unary hu
    have right : (readOperand q s).got = _ := got_readOperand_unary hu
    rw [show (readOperand p s).value = _ from congrArg Prod.fst left] at files
    rw [show (readOperand q s).value = _ from congrArg Prod.fst right] at files'
    obtain ⟨value, stream⟩ := Prod.mk.inj ((readOperand_congr s.advance).same files files')
    rw [left, right, value, stream]
  | none =>
    cases hl : literal? s.kind with
    | some value => exact (got_readOperand_literal hl).trans (got_readOperand_literal hl).symm
    | none =>
      cases ho : s.skip? .openParen with
      | some opened =>
        obtain ⟨⟨⟩, s₁, h₁⟩ := opened
        obtain ⟨here, rfl⟩ := Stream.isAt_of_skip? ho
        have shorter := h₁.2
        have left : (readOperand p s).got = _ := got_readOperand_group here
        have right : (readOperand q s).got = _ := got_readOperand_group here
        rw [show (readOperand p s).value = _ from congrArg Prod.fst left] at files
        rw [show (readOperand q s).value = _ from congrArg Prod.fst right] at files'
        obtain ⟨value, stream⟩ := Prod.mk.inj ((readAbove_congr 1 s.advance).same files files')
        rw [left, right, value, stream]
      | none =>
        cases hn : s.ident? with
        | some name =>
          obtain ⟨past, found⟩ : ∃ past, Reference.read? p s = some past :=
            Reference.read?_of_ident? hn
          obtain ⟨past', found'⟩ : ∃ past, Reference.read? q s = some past :=
            Reference.read?_of_ident? hn
          have left := got_readOperand_name found
          have right := got_readOperand_name found'
          rw [show (readOperand p s).value = _ from congrArg Prod.fst left] at files
          rw [show (readOperand q s).value = _ from congrArg Prod.fst right] at files'
          rw [left, right, Reference.read?_congr found found' files files']
        | none =>
          exact (got_readOperand_missing hu hl ho (Reference.read?_eq_none hn)).trans
            (got_readOperand_missing hu hl ho (Reference.read?_eq_none hn)).symm
termination_by 3 * s.size

theorem readAbove_congr (lowest : Nat) (s : Stream) :
    ReadAlike p q (readAbove p lowest s) (readAbove q lowest s) := by
  refine ⟨fun files files' => ?_⟩
  have within := (readOperand p s).le.2
  have left : (readAbove p lowest s).got = _ := got_readAbove rfl
  have right : (readAbove q lowest s).got = _ := got_readAbove rfl
  rw [show (readAbove p lowest s).value = _ from congrArg Prod.fst left] at files
  rw [show (readAbove q lowest s).value = _ from congrArg Prod.fst right] at files'
  have first (r : Reference) (hr : r ∈ (readOperand p s).value.references) :=
    files r (references_subset_readOperators p lowest _ _ hr)
  have first' (r : Reference) (hr : r ∈ (readOperand q s).value.references) :=
    files' r (references_subset_readOperators q lowest _ _ hr)
  obtain ⟨value, stream⟩ := Prod.mk.inj ((readOperand_congr s).same first first')
  rw [← value, ← stream] at files' right
  rw [left, right]
  exact (readOperators_congr lowest _ _).same files files'
termination_by 3 * s.size + 2
decreasing_by all_goals omega

theorem readOperators_congr (lowest : Nat) (left : Expression) (s : Stream) :
    ReadAlike p q (readOperators p lowest left s) (readOperators q lowest left s) := by
  refine ⟨fun files files' => ?_⟩
  by_cases tight : ∃ op ∈ operator? s.kind, lowest ≤ op.precedence
  · obtain ⟨op, here, tight⟩ := tight
    have shorter := (advance_behind_of_operator? here).2
    have within := (readAbove p (op.precedence + 1) s.advance).le.2
    have next : (readOperators p lowest left s).got = _ := got_readOperators_next here tight rfl
    have next' : (readOperators q lowest left s).got = _ := got_readOperators_next here tight rfl
    rw [show (readOperators p lowest left s).value = _ from congrArg Prod.fst next] at files
    rw [show (readOperators q lowest left s).value = _ from congrArg Prod.fst next'] at files'
    have second (r : Reference)
        (hr : r ∈ (readAbove p (op.precedence + 1) s.advance).value.references) :=
      files r (references_subset_readOperators p lowest _ _
        (List.mem_append_right left.references hr))
    have second' (r : Reference)
        (hr : r ∈ (readAbove q (op.precedence + 1) s.advance).value.references) :=
      files' r (references_subset_readOperators q lowest _ _
        (List.mem_append_right left.references hr))
    obtain ⟨value, stream⟩ := Prod.mk.inj
      ((readAbove_congr (op.precedence + 1) s.advance).same second second')
    rw [← value, ← stream] at files' next'
    rw [next, next']
    exact (readOperators_congr lowest _ _).same files files'
  · have loose : ∀ op ∈ operator? s.kind, op.precedence < lowest := fun op here =>
      Nat.lt_of_not_le fun h => tight ⟨op, here, h⟩
    exact (got_readOperators_stop loose).trans (got_readOperators_stop loose).symm
termination_by 3 * s.size + 1

end

/-- The same words are read as the same tree, if the names that either side takes for modules are
the same for both. -/
theorem read_congr {s : Stream} (files : AllFiles p q (read p s).value.references)
    (files' : AllFiles p q (read q s).value.references) : read p s = read q s :=
  Rest.eq_of_got ((readAbove_congr 1 s).same files files')

end Expression

end FrontEnd
