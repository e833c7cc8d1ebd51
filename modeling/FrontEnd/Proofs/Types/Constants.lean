import FrontEnd.Types.Equivalence
import FrontEnd.Expression.Evaluation

/-!
Constants and the types that they belong to. A constant keeps to its type under folding, and where
the types of the operands have been checked, folding fails only for the reasons that a program can
be told.
-/

namespace FrontEnd

/-- A constant is of the kind that its type says. The value of a function is its address. -/
def Constant.HasKind : Constant → TypeKind → Prop
  | .int _, .builtin b => b.isInteger
  | .int _, .function _ => True
  | .real _, .builtin b => b.isReal
  | .bool _, .builtin .bool => True
  | .char _, .builtin .char => True
  | .text _, .text _ => True
  | .null, .builtin .null | .null, .pointer _ => True
  | _, _ => False

/-- Types that are built in the same way. -/
inductive TypeKind.Alike : TypeKind → TypeKind → Prop
  | builtin (b : Builtin) : Alike (.builtin b) (.builtin b)
  | pointer (a b : TypeId) : Alike (.pointer a) (.pointer b)
  | array (a b : TypeId) (m n : Int64) : Alike (.array a m) (.array b n)
  | text (m n : Int64) : Alike (.text m) (.text n)
  | struct (as bs : List Field) : Alike (.struct as) (.struct bs)
  | interface (as bs : List Field) : Alike (.interface as) (.interface bs)
  | function (f g : Signature) : Alike (.function f) (.function g)
  | forward (a b : Option IdentId) : Alike (.forward a) (.forward b)

theorem TypeKind.Alike.refl (k : TypeKind) : k.Alike k := by
  cases k <;> constructor

theorem TypeKind.Alike.hasKind {c : Constant} {k l : TypeKind} (h : k.Alike l)
    (hc : c.HasKind l) : c.HasKind k := by
  cases h <;> cases c <;> exact hc

namespace TypeTable

variable {t : TypeTable} {id : TypeId} {c : Constant}

/-! ### Families of types and their constants -/

theorem isInteger_iff : t.isInteger id = true ↔ ∃ b, t.kind id = .builtin b ∧ b.isInteger := by
  unfold isInteger
  cases t.kind id <;> simp

theorem isReal_iff : t.isReal id = true ↔ ∃ b, t.kind id = .builtin b ∧ b.isReal := by
  unfold isReal
  cases t.kind id <;> simp

theorem isText_iff : t.isText id = true ↔ ∃ n, t.kind id = .text n := by
  unfold isText
  cases t.kind id <;> simp

theorem isPointer_iff :
    t.isPointer id = true ↔ t.kind id = .builtin .null ∨ ∃ base, t.kind id = .pointer base := by
  unfold isPointer
  cases t.kind id with
  | builtin b => cases b <;> simp
  | _ => simp

theorem hasKind_integer (h : t.isInteger id = true) :
    c.HasKind (t.kind id) ↔ ∃ value, c = .int value := by
  obtain ⟨b, hb, hi⟩ := isInteger_iff.1 h
  rw [hb]
  cases b <;> cases hi <;> cases c <;> simp [Constant.HasKind, Builtin.isInteger, Builtin.isReal]

theorem hasKind_real (h : t.isReal id = true) :
    c.HasKind (t.kind id) ↔ ∃ value, c = .real value := by
  obtain ⟨b, hb, hr⟩ := isReal_iff.1 h
  rw [hb]
  cases b <;> cases hr <;> cases c <;> simp [Constant.HasKind, Builtin.isInteger, Builtin.isReal]

theorem hasKind_text (h : t.isText id = true) :
    c.HasKind (t.kind id) ↔ ∃ value, c = .text value := by
  obtain ⟨n, hn⟩ := isText_iff.1 h
  rw [hn]
  cases c <;> simp [Constant.HasKind]

theorem hasKind_pointer (h : t.isPointer id = true) : c.HasKind (t.kind id) ↔ c = .null := by
  rcases isPointer_iff.1 h with hn | ⟨base, hn⟩ <;> rw [hn] <;> cases c <;>
    simp [Constant.HasKind, Builtin.isInteger, Builtin.isReal]

theorem alike_of_sameKind {compare : TypeId → TypeId → Comparison} {k l : TypeKind}
    {assumed : Assumed} (h : (sameKind compare k l assumed).1 = true) : k.Alike l := by
  unfold sameKind at h
  split at h
  case h_8 a b =>
    have he : a = b := of_decide_eq_true h
    rw [he]
    exact .builtin b
  case h_9 => cases h
  all_goals constructor

theorem alike_of_equivalent {a b : TypeId} (h : t.equivalent a b = true) :
    (t.kind a).Alike (t.kind b) := by
  unfold equivalent sameWithin at h
  split at h
  · rename_i he
    have he : a = b := by simpa using he
    rw [he]
    exact .refl _
  · exact alike_of_sameKind h

/-- A constant that can be assigned to a place is of the kind of the place. -/
theorem hasKind_of_compatible {target source : TypeId} (h : t.compatible target source = true)
    (hc : c.HasKind (t.kind source)) : c.HasKind (t.kind target) := by
  unfold compatible at h
  simp only [Bool.or_eq_true, Bool.and_eq_true] at h
  rcases h with ((h | ⟨ht, hs⟩) | ⟨ht, hs⟩) | h
  · exact (alike_of_equivalent h).hasKind hc
  · exact (hasKind_integer ht).2 ((hasKind_integer hs).1 hc)
  · exact (hasKind_real ht).2 ((hasKind_real hs).1 hc)
  · split at h
    · rename_i hp
      exact (hasKind_pointer hp.1).2 ((hasKind_pointer hp.2).1 hc)
    · obtain ⟨ht, hs⟩ := Bool.and_eq_true_iff.1 h
      exact (hasKind_text ht).2 ((hasKind_text hs).1 hc)

end TypeTable

namespace Constant

/-- Two constants of one kind. -/
inductive Alike : Constant → Constant → Prop
  | int (a b : Int64) : Alike (.int a) (.int b)
  | real (a b : Float) : Alike (.real a) (.real b)
  | bool (a b : Bool) : Alike (.bool a) (.bool b)
  | char (a b : Char) : Alike (.char a) (.char b)
  | text (a b : String) : Alike (.text a) (.text b)
  | null : Alike .null .null

variable {a b r : Constant} {k : TypeKind}

theorem HasKind.alike (ha : a.HasKind k) (hb : b.HasKind k) : a.Alike b := by
  cases k with
  | builtin t => cases t <;> cases a <;> cases ha <;> cases b <;> cases hb <;> constructor
  | _ => cases a <;> cases ha <;> cases b <;> cases hb <;> constructor

theorem Alike.hasKind (h : a.Alike r) (ha : a.HasKind k) : r.HasKind k := by
  cases k with
  | builtin t => cases h <;> cases t <;> exact ha
  | _ => cases h <;> exact ha

theorem foldUnary_alike {op : UnaryOperator} (h : a.foldUnary op = .ok r) : a.Alike r := by
  unfold foldUnary at h
  split at h
  · split at h
    · unfold ofWord? at h
      split at h <;> cases h
      constructor
    · cases h
  · split at h <;> cases h
    constructor
  · split at h <;> cases h
    constructor
  · cases h

theorem ofWord?_alike {word? : Option Int64} (v : Int64) (h : ofWord? word? = .ok r) :
    Alike (.int v) r := by
  unfold ofWord? at h
  split at h <;> cases h
  constructor

theorem ofComparison?_bool {op : Operator} {order : Ordering} (h : ofComparison? op order = .ok r) :
    op.isComparison = true ∧ ∃ v, r = .bool v := by
  unfold ofComparison? at h
  split at h <;> cases h
  rename_i v hv
  refine ⟨?_, v, rfl⟩
  cases op <;> first | rfl | cases hv

/-- What folding an operator answers for operands like `a`. -/
def Answers (op : Operator) (a r : Constant) : Prop :=
  if op.isComparison then ∃ v, r = .bool v else a.Alike r

theorem answers_of_comparison {op : Operator} {order : Ordering}
    (h : ofComparison? op order = .ok r) : Answers op a r := by
  obtain ⟨hc, hb⟩ := ofComparison?_bool h
  rw [Answers, if_pos hc]
  exact hb

theorem foldInt_answers {op : Operator} {m n : Int64} (h : foldInt op m n = .ok r) :
    Answers op (.int m) r := by
  unfold foldInt at h
  split at h
  · exact ofWord?_alike m h
  · exact ofWord?_alike m h
  · exact ofWord?_alike m h
  · split at h
    · cases h
    · exact ofWord?_alike m h
  · split at h
    · cases h
    · exact ofWord?_alike m h
  · exact answers_of_comparison h

theorem foldReal_answers {op : Operator} {x y : Float} (h : foldReal op x y = .ok r) :
    Answers op (.real x) r := by
  unfold foldReal at h
  split at h
  · cases h; exact .real x _
  · cases h; exact .real x _
  · cases h; exact .real x _
  · split at h <;> cases h
    exact .real x _
  · cases h
  · split at h
    · exact answers_of_comparison h
    · cases h

theorem foldBool_answers {op : Operator} {x y : Bool} (h : foldBool op x y = .ok r) :
    Answers op (.bool x) r := by
  unfold foldBool at h
  split at h <;> cases h
  · exact .bool x _
  · exact .bool x _
  · exact ⟨_, rfl⟩
  · exact ⟨_, rfl⟩

theorem foldText_answers {op : Operator} {x y : String} (h : foldText op x y = .ok r) :
    Answers op (.text x) r := by
  unfold foldText at h
  split at h
  · cases h; exact .text x _
  · exact answers_of_comparison h

theorem foldNull_answers {op : Operator} (h : foldNull op = .ok r) : Answers op .null r := by
  unfold foldNull at h
  split at h <;> cases h <;> exact ⟨_, rfl⟩

/-- A comparison folds to a truth value, any other operator to a constant of the kind of its
operands. -/
theorem foldBinary_answers {op : Operator} (hab : a.Alike b) (h : a.foldBinary op b = .ok r) :
    Answers op a r := by
  cases hab with
  | int => exact foldInt_answers h
  | real => exact foldReal_answers h
  | bool => exact foldBool_answers h
  | char => exact answers_of_comparison h
  | text => exact foldText_answers h
  | null => exact foldNull_answers h

end Constant

namespace TypeTable

open Constant

variable {t : TypeTable} {left : TypeId} {op : Operator} {a b : Constant}

theorem holds?_isSome (order : Ordering) (h : op.isComparison = true) :
    ∃ v, op.holds? order = some v := by
  cases op <;> first | exact ⟨_, rfl⟩ | cases h

theorem ofComparison?_ne_unsupported {order : Ordering} (h : op.isComparison = true) :
    ofComparison? op order ≠ .error .unsupported := by
  obtain ⟨v, hv⟩ := holds?_isSome order h
  rw [ofComparison?, hv]
  nofun

theorem ofWord?_ne_unsupported (word? : Option Int64) : ofWord? word? ≠ .error .unsupported := by
  cases word? <;> nofun

section Supported

variable (hb : t.kind .bool = .builtin .bool) (hc : t.kind .char = .builtin .char)
  (ha : a.HasKind (t.kind left)) (ho : t.hasOperator op left = true)

include hb ha in
theorem bool_of_logical (h : left = .bool) : ∃ v, a = .bool v := by
  subst h
  rw [hb] at ha
  cases a <;> first | exact ⟨_, rfl⟩ | cases ha

include hc ha in
theorem char_of_char (h : left = .char) : ∃ v, a = .char v := by
  subst h
  rw [hc] at ha
  cases a <;> first | exact ⟨_, rfl⟩ | cases ha

include ha in
theorem number_of_numeric (h : t.isNumeric left = true) :
    (∃ v, a = .int v) ∨ ∃ v, a = .real v := by
  rcases Bool.or_eq_true_iff.1 h with h | h
  · exact .inl ((hasKind_integer h).1 ha)
  · exact .inr ((hasKind_real h).1 ha)

include ha in
theorem not_numeric (hi : ∀ v, a ≠ .int v) (hr : ∀ v, a ≠ .real v) :
    t.isInteger left = false ∧ t.isNumeric left = false := by
  constructor
  · apply Bool.eq_false_iff.2
    intro h
    obtain ⟨v, hv⟩ := (hasKind_integer h).1 ha
    exact hi v hv
  · apply Bool.eq_false_iff.2
    intro h
    rcases number_of_numeric ha h with ⟨v, hv⟩ | ⟨v, hv⟩
    · exact hi v hv
    · exact hr v hv

include ha in
theorem not_text (h : ∀ v, a ≠ .text v) : t.isText left = false := by
  apply Bool.eq_false_iff.2
  intro ht
  obtain ⟨v, hv⟩ := (hasKind_text ht).1 ha
  exact h v hv

include hb ha ho in
theorem foldInt_supported {m n : Int64} (he : a = .int m) :
    foldInt op m n ≠ .error .unsupported := by
  unfold foldInt
  split
  · exact ofWord?_ne_unsupported _
  · exact ofWord?_ne_unsupported _
  · exact ofWord?_ne_unsupported _
  · split
    · nofun
    · exact ofWord?_ne_unsupported _
  · split
    · nofun
    · exact ofWord?_ne_unsupported _
  · apply ofComparison?_ne_unsupported
    cases op with
    | and | or =>
      obtain ⟨v, hv⟩ := bool_of_logical hb ha (of_decide_eq_true ho)
      exact nomatch he.symm.trans hv
    | add | subtract | multiply | divide | modulus => contradiction
    | _ => rfl

include hb ha ho in
theorem foldReal_supported {x y : Float} (he : a = .real x)
    (h : foldReal op x y = .error .unsupported) :
    op.isComparison = true ∧ realOrder? x y = none := by
  unfold foldReal at h
  split at h
  · cases h
  · cases h
  · cases h
  · split at h <;> cases h
  · obtain ⟨v, hv⟩ := (hasKind_integer ho).1 ha
    exact nomatch he.symm.trans hv
  · have hop : op.isComparison = true := by
      cases op with
      | and | or =>
        obtain ⟨v, hv⟩ := bool_of_logical hb ha (of_decide_eq_true ho)
        exact nomatch he.symm.trans hv
      | add | subtract | multiply | divide | modulus => contradiction
      | _ => rfl
    split at h
    · exact absurd h (ofComparison?_ne_unsupported hop)
    · exact ⟨hop, by assumption⟩

include hc ha ho in
theorem operator_of_bool {x : Bool} (he : a = .bool x) :
    op = .and ∨ op = .or ∨ op = .equal ∨ op = .notEqual := by
  have ⟨hi, hn⟩ := not_numeric ha (by simp [he]) (by simp [he])
  have ht := not_text ha (by simp [he])
  have hchar : left ≠ .char := fun h => by
    obtain ⟨v, hv⟩ := char_of_char hc ha h
    exact nomatch he.symm.trans hv
  cases op <;> simp [hasOperator, hi, hn, ht, hchar] at ho ⊢

include hb ha ho in
theorem operator_of_char {x : Char} (he : a = .char x) : op.isComparison = true := by
  have ⟨hi, hn⟩ := not_numeric ha (by simp [he]) (by simp [he])
  have ht := not_text ha (by simp [he])
  have hbool : left ≠ .bool := fun h => by
    obtain ⟨v, hv⟩ := bool_of_logical hb ha h
    exact nomatch he.symm.trans hv
  cases op <;> simp [hasOperator, hi, hn, ht, hbool, Operator.isComparison] at ho ⊢

include hb ha ho in
theorem operator_of_text {x : String} (he : a = .text x) : op = .add ∨ op.isComparison = true := by
  have ⟨hi, hn⟩ := not_numeric ha (by simp [he]) (by simp [he])
  have hbool : left ≠ .bool := fun h => by
    obtain ⟨v, hv⟩ := bool_of_logical hb ha h
    exact nomatch he.symm.trans hv
  cases op <;> simp [hasOperator, hi, hn, hbool, Operator.isComparison] at ho ⊢

include hb hc ha ho in
theorem operator_of_null (he : a = .null) : op = .equal ∨ op = .notEqual := by
  have ⟨hi, hn⟩ := not_numeric ha (by simp [he]) (by simp [he])
  have ht := not_text ha (by simp [he])
  have hbool : left ≠ .bool := fun h => by
    obtain ⟨v, hv⟩ := bool_of_logical hb ha h
    exact nomatch he.symm.trans hv
  have hchar : left ≠ .char := fun h => by
    obtain ⟨v, hv⟩ := char_of_char hc ha h
    exact nomatch he.symm.trans hv
  cases op <;> simp [hasOperator, hi, hn, ht, hbool, hchar] at ho ⊢

end Supported

theorem foldText_of_comparison {x y : String} (h : op.isComparison = true) :
    foldText op x y = ofComparison? op (textOrder x.toList y.toList) := by
  cases op <;> first | rfl | cases h

/-- Where the operand has a type with the operator, folding is supported. -/
theorem foldUnary_supported (hb : t.kind .bool = .builtin .bool) {op : UnaryOperator}
    (ha : a.HasKind (t.kind left)) (ho : t.hasUnaryOperator op left = true) :
    a.foldUnary op ≠ .error .unsupported := by
  cases op with
  | negate =>
    rcases number_of_numeric ha ho with ⟨v, rfl⟩ | ⟨v, rfl⟩
    · exact ofWord?_ne_unsupported _
    · nofun
  | not =>
    obtain ⟨v, rfl⟩ := bool_of_logical hb ha (of_decide_eq_true ho)
    nofun

/-- Where the operands have a type with the operator, folding is supported unless one of two reals
to compare is no number. -/
theorem foldBinary_supported (hb : t.kind .bool = .builtin .bool) (hc : t.kind .char = .builtin .char)
    (hab : a.Alike b) (ha : a.HasKind (t.kind left)) (ho : t.hasOperator op left = true)
    (h : a.foldBinary op b = .error .unsupported) :
    op.isComparison = true ∧ ∃ x y, a = .real x ∧ b = .real y ∧ realOrder? x y = none := by
  cases hab with
  | int m n => exact absurd h (foldInt_supported hb ha ho rfl)
  | real x y =>
    obtain ⟨hop, hr⟩ := foldReal_supported hb ha ho rfl h
    exact ⟨hop, x, y, rfl, rfl, hr⟩
  | bool x y => rcases operator_of_bool hc ha ho rfl with rfl | rfl | rfl | rfl <;> cases h
  | char x y =>
    exact absurd h (ofComparison?_ne_unsupported (operator_of_char hb ha ho rfl))
  | text x y =>
    rcases operator_of_text hb ha ho rfl with rfl | hop
    · cases h
    · rw [foldBinary, foldText_of_comparison hop] at h
      exact absurd h (ofComparison?_ne_unsupported hop)
  | null => rcases operator_of_null hb hc ha ho rfl with rfl | rfl <;> cases h

end TypeTable

end FrontEnd
