import FrontEnd.Proofs.Number.Real
import FrontEnd.Proofs.Types.Table
import FrontEnd.Types.Equivalence
import Mathlib.Data.List.Forall2
import Mathlib.Data.Finset.Prod
import Mathlib.Data.Finset.Card

/-!
Structural equivalence of types is the largest relation that is consistent with the kinds of the
types: the comparison ends on every table, also on one with cycles, and it accepts two types
exactly if some relation between types holds between them and is borne out, pair by pair, by their
kinds.
-/

namespace FrontEnd

/-! ### Default values -/

namespace Constant

theorem same_symm {a b : Constant} (h : a.same b = true) : b.same a = true := by
  cases a <;> cases b <;> simp only [same, beq_iff_eq, Bool.false_eq_true] at h ⊢
  case real.real => exact real_beq_symm h
  all_goals exact h.symm

theorem same_trans {a b c : Constant} (hab : a.same b = true) (hbc : b.same c = true) :
    a.same c = true := by
  cases a <;> cases b <;> cases c <;> simp only [same, beq_iff_eq, Bool.false_eq_true] at hab hbc ⊢
  case real.real.real => exact real_beq_trans hab hbc
  all_goals exact hab.trans hbc

end Constant

theorem sameDefault_symm {a b : Option Constant} (h : sameDefault a b = true) :
    sameDefault b a = true := by
  cases a <;> cases b <;> simp only [sameDefault, Bool.false_eq_true] at h ⊢
  exact Constant.same_symm h

theorem sameDefault_trans {a b c : Option Constant} (hab : sameDefault a b = true)
    (hbc : sameDefault b c = true) : sameDefault a c = true := by
  cases a <;> cases b <;> cases c <;> simp only [sameDefault, Bool.false_eq_true] at hab hbc ⊢
  exact Constant.same_trans hab hbc

/-! ### Kinds that match -/

/-- The parameters that a comparison looks at: the receiver of a method is not one of them. -/
def Signature.compared (s : Signature) : List Parameter :=
  s.parameters.drop (if s.isMethod then 1 else 0)

/-- Two kinds match where `R` stands for the equivalence of the types they refer to. -/
def TypeKind.Matches (R : TypeId → TypeId → Prop) : TypeKind → TypeKind → Prop
  | .builtin a, .builtin b => a = b
  | .pointer a, .pointer b => R a b
  | .array a m, .array b n => m = n ∧ R a b
  | .text m, .text n => m = n
  | .struct as, .struct bs | .interface as, .interface bs =>
    List.Forall₂ (fun a b => a.name = b.name ∧ R a.type b.type) as bs
  | .function f, .function g =>
    f.isMethod = g.isMethod ∧ f.parameters.length = g.parameters.length ∧
      List.Forall₂ (fun a b => R a.type b.type ∧ sameDefault a.default? b.default? = true)
        f.compared g.compared ∧
      List.Forall₂ R f.results g.results
  | .forward a, .forward b => a = b
  | _, _ => False

namespace TypeKind.Matches

variable {R S : TypeId → TypeId → Prop} {k l m : TypeKind}

theorem mono (hRS : ∀ a b, R a b → S a b) (h : k.Matches R l) : k.Matches S l := by
  cases k <;> cases l <;> simp only [Matches] at h ⊢
  case pointer.pointer => exact hRS _ _ h
  case array.array => exact h.imp_right (hRS _ _)
  case function.function =>
    exact ⟨h.1, h.2.1, h.2.2.1.imp fun _ _ p => p.imp_left (hRS _ _), h.2.2.2.imp hRS⟩
  case struct.struct => exact h.imp fun _ _ p => p.imp_right (hRS _ _)
  case interface.interface => exact h.imp fun _ _ p => p.imp_right (hRS _ _)
  all_goals exact h

theorem symm (h : k.Matches R l) : l.Matches (fun a b => R b a) k := by
  cases k <;> cases l <;> simp only [Matches] at h ⊢
  case pointer.pointer => exact h
  case array.array => exact h.imp_left .symm
  case function.function =>
    exact ⟨h.1.symm, h.2.1.symm, .flip (h.2.2.1.imp fun _ _ p => p.imp_right sameDefault_symm),
      .flip h.2.2.2⟩
  case struct.struct => exact .flip (h.imp fun _ _ p => p.imp_left .symm)
  case interface.interface => exact .flip (h.imp fun _ _ p => p.imp_left .symm)
  all_goals exact h.symm

theorem forall₂_comp {α : Type} {P Q : α → α → Prop} {as bs cs : List α}
    (hp : List.Forall₂ P as bs) (hq : List.Forall₂ Q bs cs) :
    List.Forall₂ (Relation.Comp P Q) as cs := by
  induction hp generalizing cs with
  | nil =>
    cases hq
    exact .nil
  | cons h _ ih =>
    cases hq with
    | cons h' hq => exact .cons ⟨_, h, h'⟩ (ih hq)

theorem trans (hk : k.Matches R l) (hl : l.Matches S m) : k.Matches (Relation.Comp R S) m := by
  have fields {as bs cs : List Field}
      (hp : List.Forall₂ (fun a b => a.name = b.name ∧ R a.type b.type) as bs)
      (hq : List.Forall₂ (fun a b => a.name = b.name ∧ S a.type b.type) bs cs) :
      List.Forall₂ (fun a b => a.name = b.name ∧ Relation.Comp R S a.type b.type) as cs :=
    (forall₂_comp hp hq).imp fun _ _ ⟨b, p, q⟩ => ⟨p.1.trans q.1, b.type, p.2, q.2⟩
  cases k <;> cases l <;> try exact hk.elim
  all_goals cases m <;> try exact hl.elim
  all_goals simp only [Matches] at hk hl ⊢
  case pointer.pointer.pointer => exact ⟨_, hk, hl⟩
  case array.array.array => exact ⟨hk.1.trans hl.1, _, hk.2, hl.2⟩
  case function.function.function =>
    refine ⟨hk.1.trans hl.1, hk.2.1.trans hl.2.1, ?_, forall₂_comp hk.2.2.2 hl.2.2.2⟩
    exact (forall₂_comp hk.2.2.1 hl.2.2.1).imp fun _ _ ⟨b, p, q⟩ =>
      ⟨⟨b.type, p.1, q.1⟩, sameDefault_trans p.2 q.2⟩
  case struct.struct.struct => exact fields hk hl
  case interface.interface.interface => exact fields hk hl
  all_goals exact hk.trans hl

end TypeKind.Matches

namespace TypeTable

/-- Whatever `R` says about two different types is borne out by their kinds, given equality and
`R` for the types they refer to. -/
def BearsOut (t : TypeTable) (R : TypeId → TypeId → Prop) : Prop :=
  ∀ a b, R a b → a ≠ b → (t.kind a).Matches (fun x y => x = y ∨ R x y) (t.kind b)

/-! ### The comparison as a row of checks -/

/-- A step of the comparison of two kinds: a test of their own data, or two types to compare. -/
inductive Check
  | test (verdict : Bool)
  | pair (a b : TypeId)

namespace Check

def run (compare : TypeId → TypeId → Comparison) : Check → Comparison
  | test verdict => .test verdict
  | pair a b => compare a b

/-- The checks one after the other, up to the first that fails. -/
def runAll (compare : TypeId → TypeId → Comparison) : List Check → Comparison
  | [] => .accept
  | c :: cs => (c.run compare).and (runAll compare cs)

def Holds (R : TypeId → TypeId → Prop) : Check → Prop
  | test verdict => verdict = true
  | pair a b => R a b

def ofFields (a b : Field) : List Check :=
  [test (a.name = b.name), pair a.type b.type]

def ofParameters (a b : Parameter) : List Check :=
  [pair a.type b.type, test (sameDefault a.default? b.default?)]

/-- The checks of two lists, entry by entry. -/
def ofLists {α : Type} (checks : α → α → List Check) : List α → List α → List Check
  | [], [] => []
  | a :: as, b :: bs => checks a b ++ ofLists checks as bs
  | _, _ => [test false]

def ofKinds : TypeKind → TypeKind → List Check
  | .pointer a, .pointer b => [pair a b]
  | .array a m, .array b n => [test (m = n), pair a b]
  | .text m, .text n => [test (m = n)]
  | .struct as, .struct bs | .interface as, .interface bs =>
    test (as.length = bs.length) :: ofLists ofFields as bs
  | .function f, .function g =>
    test (f.isMethod = g.isMethod && f.parameters.length = g.parameters.length) ::
      (ofLists ofParameters f.compared (g.parameters.drop (if f.isMethod then 1 else 0)) ++
        test (f.results.length = g.results.length) ::
          ofLists (fun a b => [pair a b]) f.results g.results)
  | .forward a, .forward b => [test (a = b)]
  | .builtin a, .builtin b => [test (a = b)]
  | _, _ => [test false]

end Check

namespace Comparison

theorem and_assoc (c d e : Comparison) : (c.and d).and e = c.and (d.and e) := by
  funext assumed
  unfold Comparison.and
  rcases c assumed with ⟨_ | _, _⟩ <;> rfl

theorem and_accept (c : Comparison) : c.and accept = c := by
  funext assumed
  unfold Comparison.and accept
  rcases c assumed with ⟨_ | _, _⟩ <;> rfl

end Comparison

namespace Check

variable {compare : TypeId → TypeId → Comparison} {R : TypeId → TypeId → Prop}

theorem runAll_append (cs ds : List Check) :
    runAll compare (cs ++ ds) = (runAll compare cs).and (runAll compare ds) := by
  induction cs with
  | nil => rfl
  | cons c cs ih => simp only [List.cons_append, runAll, ih, Comparison.and_assoc]

theorem runAll_ofLists {α : Type} {checks : α → α → List Check} (as bs : List α) :
    runAll compare (ofLists checks as bs) =
      .lists (fun a b => runAll compare (checks a b)) as bs := by
  induction as generalizing bs with
  | nil => cases bs <;> rfl
  | cons a as ih =>
    cases bs with
    | nil => rfl
    | cons b bs => simp only [ofLists, runAll_append, ih, Comparison.lists]

/-- Comparing two kinds is running their checks. -/
theorem runAll_ofKinds (k l : TypeKind) : runAll compare (ofKinds k l) = sameKind compare k l := by
  cases k <;> cases l <;>
    simp only [ofKinds, sameKind, runAll, runAll_append, runAll_ofLists, run, ofFields,
      ofParameters, Comparison.and_accept, Signature.compared] <;> rfl

@[simp] theorem holds_test {verdict : Bool} : (test verdict).Holds R ↔ verdict = true := .rfl

@[simp] theorem holds_pair {a b : TypeId} : (pair a b).Holds R ↔ R a b := .rfl

@[simp] theorem holds_ofLists {α : Type} {checks : α → α → List Check} (as bs : List α) :
    (∀ c ∈ ofLists checks as bs, c.Holds R) ↔
      List.Forall₂ (fun a b => ∀ c ∈ checks a b, c.Holds R) as bs := by
  induction as generalizing bs with
  | nil => cases bs <;> simp [ofLists]
  | cons a as ih => cases bs <;> simp [ofLists, or_imp, forall_and, ih]

/-- Kinds match if all their checks hold. -/
theorem holds_ofKinds {k l : TypeKind} :
    (∀ c ∈ ofKinds k l, c.Holds R) ↔ k.Matches R l := by
  cases k <;> cases l <;>
    simp [ofKinds, TypeKind.Matches, or_imp, forall_and, ofFields, ofParameters, Signature.compared]
  case struct.struct => exact List.Forall₂.length_eq
  case interface.interface => exact List.Forall₂.length_eq
  case function.function f g =>
    constructor
    · rintro ⟨⟨hm, hp⟩, hps, -, hrs⟩
      exact ⟨hm, hp, hm ▸ hps, hrs⟩
    · rintro ⟨hm, hp, hps, hrs⟩
      exact ⟨⟨hm, hp⟩, hm ▸ hps, hrs.length_eq, hrs⟩

/-- A builtin type refers to no type, so its comparison is no deeper than itself. -/
theorem pair_notMem_ofKinds {k l : TypeKind} (h : k = .builtin .void ∨ l = .builtin .void)
    (a b : TypeId) : pair a b ∉ ofKinds k l := by
  rcases h with rfl | rfl
  · cases l <;> simp [ofKinds]
  · cases k <;> simp [ofKinds]

/-! What a row of checks does, from what the comparison of two types does. -/

variable {compare' : TypeId → TypeId → Comparison} {cs : List Check} {known : Assumed}

theorem subset_runAll (hc : ∀ a b L, L ⊆ (compare a b L).2) (L : Assumed) :
    L ⊆ (runAll compare cs L).2 := by
  induction cs generalizing L with
  | nil => exact List.Subset.refl L
  | cons c cs ih =>
    have first : L ⊆ (c.run compare L).2 := by
      cases c with
      | test => exact List.Subset.refl L
      | pair a b => exact hc a b L
    unfold runAll Comparison.and
    split <;> simp_all only
    exact List.Subset.trans first (ih _)

theorem runAll_congr (hc : ∀ a b L, L ⊆ (compare' a b L).2)
    (h : ∀ a b, pair a b ∈ cs → ∀ L, known ⊆ L → compare a b L = compare' a b L) (L : Assumed)
    (hL : known ⊆ L) : runAll compare cs L = runAll compare' cs L := by
  induction cs generalizing L with
  | nil => rfl
  | cons c cs ih =>
    have first : c.run compare L = c.run compare' L ∧ known ⊆ (c.run compare' L).2 := by
      cases c with
      | test => exact ⟨rfl, hL⟩
      | pair a b => exact ⟨h a b (List.mem_cons_self ..) L hL, List.Subset.trans hL (hc a b L)⟩
    unfold runAll Comparison.and
    rw [first.1]
    split <;> simp_all

theorem runAll_succeeds (hc : ∀ a b L, L ⊆ (compare a b L).2)
    (h : ∀ c ∈ cs, c.Holds fun a b => ∀ L, known ⊆ L → (compare a b L).1 = true) (L : Assumed)
    (hL : known ⊆ L) : (runAll compare cs L).1 = true := by
  induction cs generalizing L with
  | nil => rfl
  | cons c cs ih =>
    have first : (c.run compare L).1 = true ∧ known ⊆ (c.run compare L).2 := by
      have hh := h c (List.mem_cons_self ..)
      cases c with
      | test => exact ⟨hh, hL⟩
      | pair a b => exact ⟨hh L hL, List.Subset.trans hL (hc a b L)⟩
    unfold runAll Comparison.and
    split <;> simp_all

end Check

/-! ### The depth of the comparison -/

/-- One level of the comparison: `compare` is asked about the types that two kinds refer to. -/
def sameStep (t : TypeTable) (compare : TypeId → TypeId → Comparison) (a b : TypeId) :
    Comparison := fun assumed =>
  if a = b || assumed.contains (a, b) then (true, assumed)
  else sameKind compare (t.kind a) (t.kind b) ((a, b) :: assumed)

/-- The comparison down to `depth` nested pairs, where `cut` answers for the pairs below. -/
def sameCut (t : TypeTable) (cut : TypeId → TypeId → Comparison) :
    Nat → TypeId → TypeId → Comparison
  | 0 => cut
  | depth + 1 => t.sameStep (t.sameCut cut depth)

variable {t : TypeTable} {a b : TypeId} {depth : Nat}

theorem sameWithin_succ (a b : TypeId) (assumed : Assumed) :
    t.sameWithin (depth + 1) a b assumed = t.sameStep (t.sameWithin depth) a b assumed :=
  rfl

theorem sameStep_of_met {compare : TypeId → TypeId → Comparison} {L : Assumed}
    (h : a = b ∨ (a, b) ∈ L) : t.sameStep compare a b L = (true, L) := by
  simp [sameStep, h]

theorem sameStep_of_unmet {compare : TypeId → TypeId → Comparison} {L : Assumed}
    (h : ¬ (a = b ∨ (a, b) ∈ L)) :
    t.sameStep compare a b L =
      Check.runAll compare (Check.ofKinds (t.kind a) (t.kind b)) ((a, b) :: L) := by
  simp [sameStep, h, Check.runAll_ofKinds]

/-- No assumption is given up. -/
theorem subset_sameWithin (depth : Nat) (a b : TypeId) (L : Assumed) :
    L ⊆ (t.sameWithin depth a b L).2 := by
  induction depth generalizing a b L with
  | zero => exact List.Subset.refl L
  | succ depth ih =>
    rw [sameWithin_succ]
    by_cases h : a = b ∨ (a, b) ∈ L
    · rw [sameStep_of_met h]
      exact List.Subset.refl L
    · rw [sameStep_of_unmet h]
      exact List.Subset.trans (List.subset_cons_self ..) (Check.subset_runAll ih _)

/-- The pairs of types in the table that have not been met. -/
def unmet (t : TypeTable) (L : Assumed) : Finset (Nat × Nat) :=
  (Finset.range t.size ×ˢ Finset.range t.size).filter fun p => (⟨p.1⟩, ⟨p.2⟩) ∉ L

theorem card_unmet_le (t : TypeTable) (L : Assumed) : (t.unmet L).card ≤ t.size * t.size := by
  calc (t.unmet L).card ≤ (Finset.range t.size ×ˢ Finset.range t.size).card :=
        Finset.card_filter_le ..
    _ = t.size * t.size := by rw [Finset.card_product, Finset.card_range]

theorem unmet_subset {L M : Assumed} (h : L ⊆ M) : t.unmet M ⊆ t.unmet L :=
  Finset.monotone_filter_right _ fun _ _ hp hm => hp (h hm)

theorem card_unmet_cons_lt {L : Assumed} (ha : a.index < t.size) (hb : b.index < t.size)
    (h : (a, b) ∉ L) : (t.unmet ((a, b) :: L)).card < (t.unmet L).card := by
  apply Finset.card_lt_card
  refine (Finset.ssubset_iff_of_subset (unmet_subset (List.subset_cons_self ..))).2 ?_
  refine ⟨(a.index, b.index), ?_, ?_⟩ <;> simp [unmet, ha, hb, h]

/-- Two types that are compared for the first time refer only to types that are compared with
fewer pairs left, or refer to no types at all. -/
theorem card_unmet_lt_of_pair {L M : Assumed} (h : (a, b) ∉ L) {c d : TypeId}
    (hp : .pair c d ∈ Check.ofKinds (t.kind a) (t.kind b)) (hM : (a, b) :: L ⊆ M) :
    (t.unmet M).card < (t.unmet L).card := by
  have inside (hk : t.kind a ≠ .builtin .void ∧ t.kind b ≠ .builtin .void) :
      (t.unmet M).card < (t.unmet L).card :=
    (Finset.card_le_card (unmet_subset hM)).trans_lt
      (card_unmet_cons_lt (index_lt_of_kind_ne hk.1) (index_lt_of_kind_ne hk.2) h)
  by_cases hk : t.kind a = .builtin .void ∨ t.kind b = .builtin .void
  · exact absurd hp (Check.pair_notMem_ofKinds hk c d)
  · exact inside (not_or.1 hk)

/-- Below two pairs more than have not been met, the comparison asks nothing any more: what would
answer there does not matter. -/
theorem sameCut_eq_sameWithin (cut : TypeId → TypeId → Comparison) {depth depth' : Nat}
    (a b : TypeId) (L : Assumed) (h : (t.unmet L).card + 2 ≤ depth)
    (h' : (t.unmet L).card + 2 ≤ depth') :
    t.sameCut cut depth a b L = t.sameWithin depth' a b L := by
  induction depth generalizing depth' a b L with
  | zero => omega
  | succ depth ih =>
    obtain ⟨depth', rfl⟩ : ∃ n, depth' = n + 1 := ⟨depth' - 1, by omega⟩
    rw [sameWithin_succ, sameCut]
    by_cases hm : a = b ∨ (a, b) ∈ L
    · rw [sameStep_of_met hm, sameStep_of_met hm]
    rw [sameStep_of_unmet hm, sameStep_of_unmet hm]
    refine Check.runAll_congr (subset_sameWithin depth') (fun c d hp M hM => ?_) _
      (List.Subset.refl _)
    -- What is asked below has fewer pairs left, so both depths reach as far.
    have hlt := card_unmet_lt_of_pair (not_or.1 hm).2 hp hM
    exact ih c d M (by omega) (by omega)

/-! ### What is accepted -/

/-- Every pair that is new in `M` is borne out by the kinds of its types, given the pairs in `M`. -/
def Justified (t : TypeTable) (L M : Assumed) : Prop :=
  L ⊆ M ∧ ∀ p ∈ M, p ∉ L → (t.kind p.1).Matches (fun x y => x = y ∨ (x, y) ∈ M) (t.kind p.2)

theorem Justified.refl (L : Assumed) : t.Justified L L :=
  ⟨List.Subset.refl L, fun _ hp hn => absurd hp hn⟩

theorem Justified.trans {L M N : Assumed} (h : t.Justified L M) (h' : t.Justified M N) :
    t.Justified L N := by
  refine ⟨List.Subset.trans h.1 h'.1, fun p hp hn => ?_⟩
  by_cases hM : p ∈ M
  · exact (h.2 p hM hn).mono fun _ _ hxy => hxy.imp_right (h'.1 ·)
  · exact h'.2 p hp hM

theorem Check.runAll_justified {compare : TypeId → TypeId → Comparison}
    (hc : ∀ a b L, (compare a b L).1 = true →
      t.Justified L (compare a b L).2 ∧ (a = b ∨ (a, b) ∈ (compare a b L).2))
    {cs : List Check} (L : Assumed) (h : (runAll compare cs L).1 = true) :
    t.Justified L (runAll compare cs L).2 ∧
      ∀ c ∈ cs, c.Holds fun x y => x = y ∨ (x, y) ∈ (runAll compare cs L).2 := by
  induction cs generalizing L with
  | nil => exact ⟨.refl L, by simp⟩
  | cons c cs ih =>
    -- The first check has succeeded, so the others ran on what it left.
    have hfirst : (c.run compare L).1 = true := by
      unfold runAll Comparison.and at h
      split at h <;> simp_all
    have hrun : runAll compare (c :: cs) L = runAll compare cs (c.run compare L).2 := by
      conv_lhs => unfold runAll Comparison.and
      split <;> simp_all
    rw [hrun] at h ⊢
    obtain ⟨hrest, hholds⟩ := ih _ h
    cases c with
    | test verdict =>
      exact ⟨hrest, List.forall_mem_cons.2 ⟨hfirst, hholds⟩⟩
    | pair a b =>
      obtain ⟨hj, hab⟩ := hc a b L hfirst
      exact ⟨hj.trans hrest, List.forall_mem_cons.2 ⟨hab.imp_right (hrest.1 ·), hholds⟩⟩

/-- An accepted comparison leaves only pairs that are borne out. -/
theorem sameWithin_justified (a b : TypeId) (L : Assumed)
    (h : (t.sameWithin depth a b L).1 = true) :
    t.Justified L (t.sameWithin depth a b L).2 ∧
      (a = b ∨ (a, b) ∈ (t.sameWithin depth a b L).2) := by
  induction depth generalizing a b L with
  | zero => cases h
  | succ depth ih =>
    rw [sameWithin_succ] at h ⊢
    by_cases hm : a = b ∨ (a, b) ∈ L
    · rw [sameStep_of_met hm]
      exact ⟨.refl L, hm⟩
    rw [sameStep_of_unmet hm] at h ⊢
    obtain ⟨hj, hholds⟩ := Check.runAll_justified ih _ h
    refine ⟨⟨List.Subset.trans (List.subset_cons_self ..) hj.1, fun p hp hn => ?_⟩,
      .inr (hj.1 (List.mem_cons_self ..))⟩
    -- The pair that was assumed here is borne out by its own checks, which have held.
    by_cases hpab : p = (a, b)
    · subst hpab
      exact Check.holds_ofKinds.1 hholds
    · exact hj.2 p hp (by simp [hpab, hn])

/-- Types that a relation between types holds for are accepted, if the kinds bear it out. -/
theorem sameWithin_of_bearsOut {R : TypeId → TypeId → Prop} (hR : t.BearsOut R) (a b : TypeId)
    (L : Assumed) (hab : a = b ∨ R a b) (h : (t.unmet L).card + 2 ≤ depth) :
    (t.sameWithin depth a b L).1 = true := by
  induction depth generalizing a b L with
  | zero => omega
  | succ depth ih =>
    rw [sameWithin_succ]
    by_cases hm : a = b ∨ (a, b) ∈ L
    · rw [sameStep_of_met hm]
    rw [sameStep_of_unmet hm]
    have hne := not_or.1 hm
    have hmatches := hR a b (hab.resolve_left hne.1) hne.1
    refine Check.runAll_succeeds (subset_sameWithin depth) (fun c hc => ?_) _ (List.Subset.refl _)
    have hholds := Check.holds_ofKinds.2 hmatches c hc
    cases c with
    | test => exact hholds
    | pair c d =>
      intro M hM
      have hlt := card_unmet_lt_of_pair hne.2 hc hM
      exact ih c d M hholds (by omega)

/-! ### Equivalence -/

theorem equivalent_iff :
    t.equivalent a b = true ↔ ∃ R : TypeId → TypeId → Prop, R a b ∧ t.BearsOut R := by
  constructor
  · intro h
    obtain ⟨hj, hab⟩ := sameWithin_justified a b [] h
    refine ⟨fun x y => x = y ∨ (x, y) ∈ (t.sameWithin (t.size * t.size + 2) a b []).2, hab, ?_⟩
    intro x y hxy hne
    refine (hj.2 (x, y) (hxy.resolve_left hne) (by simp)).mono ?_
    intro _ _ h
    exact .inr h
  · rintro ⟨R, hab, hR⟩
    have hle := t.card_unmet_le []
    exact sameWithin_of_bearsOut hR a b [] (.inr hab) (by omega)

theorem equivalent_refl (t : TypeTable) (a : TypeId) : t.equivalent a a = true :=
  equivalent_iff.2 ⟨Eq, rfl, fun _ _ h hne => absurd h hne⟩

theorem BearsOut.flip {R : TypeId → TypeId → Prop} (hR : t.BearsOut R) :
    t.BearsOut fun a b => R b a := by
  intro a b hab hne
  refine (hR b a hab hne.symm).symm.mono ?_
  intro x y h
  exact h.imp_left .symm

theorem BearsOut.comp {R S : TypeId → TypeId → Prop} (hR : t.BearsOut R) (hS : t.BearsOut S) :
    t.BearsOut (Relation.Comp (fun a b => a = b ∨ R a b) fun b c => b = c ∨ S b c) := by
  rintro a c ⟨b, hab, hbc⟩ hne
  by_cases h₁ : a = b
  · subst h₁
    refine (hS a c (hbc.resolve_left hne) hne).mono fun x y h => ?_
    exact .inr ⟨x, .inl rfl, h⟩
  by_cases h₂ : b = c
  · subst h₂
    refine (hR a b (hab.resolve_left hne) hne).mono fun x y h => ?_
    exact .inr ⟨y, h, .inl rfl⟩
  refine ((hR a b (hab.resolve_left h₁) h₁).trans (hS b c (hbc.resolve_left h₂) h₂)).mono ?_
  intro x y h
  exact .inr h

/-- The comparison of two types comes to an end by itself, before its bound on nested pairs is
reached. It accepts exactly the types that some relation holds for which the kinds of the types
bear out, so that structural equivalence is an equivalence relation. -/
theorem equivalent_spec (t : TypeTable) :
    (∀ cut depth a b, t.size * t.size + 2 ≤ depth →
        (t.sameCut cut depth a b []).1 = t.equivalent a b) ∧
      (∀ a b, t.equivalent a b = true ↔ ∃ R : TypeId → TypeId → Prop, R a b ∧ t.BearsOut R) ∧
      Equivalence fun a b => t.equivalent a b = true := by
  refine ⟨fun cut depth a b h => ?_, fun a b => equivalent_iff, ?refl, ?symm, ?trans⟩
  · have hle := t.card_unmet_le []
    have same : t.sameCut cut depth a b [] = t.sameWithin (t.size * t.size + 2) a b [] :=
      sameCut_eq_sameWithin cut a b [] (by omega) (by omega)
    rw [same]
    rfl
  case refl => exact t.equivalent_refl
  case symm =>
    intro a b h
    obtain ⟨R, hab, hR⟩ := equivalent_iff.1 h
    exact equivalent_iff.2 ⟨_, hab, hR.flip⟩
  case trans =>
    intro a b c hab hbc
    obtain ⟨R, h₁, hR⟩ := equivalent_iff.1 hab
    obtain ⟨S, h₂, hS⟩ := equivalent_iff.1 hbc
    exact equivalent_iff.2 ⟨_, ⟨b, .inr h₁, .inr h₂⟩, hR.comp hS⟩

/-- Two lists that are linked through their own pointers are the same type. -/
example :
    equivalent
      ⟨#[.pointer ⟨1⟩, .struct [⟨"next", ⟨0⟩, 0⟩], .pointer ⟨3⟩, .struct [⟨"next", ⟨2⟩, 0⟩]], []⟩
      ⟨1⟩ ⟨3⟩ = true := by
  decide

end TypeTable

end FrontEnd
