import FrontEnd.Source.Position
import Mathlib.Order.Basic

/-!
The order of the places of a text, and the characters that stand in a span of it.
-/

namespace FrontEnd

namespace Position

/-- A position comes before another one on the same line or on a later one. -/
instance : LE Position :=
  ⟨fun p q => p.line < q.line ∨ p.line = q.line ∧ p.column ≤ q.column⟩

instance : LT Position :=
  ⟨fun p q => p ≤ q ∧ ¬ q ≤ p⟩

instance (p q : Position) : Decidable (p ≤ q) :=
  inferInstanceAs (Decidable (_ ∨ _))

instance (p q : Position) : Decidable (p < q) :=
  inferInstanceAs (Decidable (_ ∧ _))

variable {p q r : Position}

theorem le_iff : p ≤ q ↔ p.line < q.line ∨ p.line = q.line ∧ p.column ≤ q.column := Iff.rfl

instance : PartialOrder Position where
  le_refl p := .inr ⟨rfl, Nat.le_refl _⟩
  le_trans p q r h h' := by
    rw [le_iff] at *
    omega
  le_antisymm p q h h' := by
    obtain ⟨line, column⟩ := p
    obtain ⟨line', column'⟩ := q
    simp only [le_iff] at h h'
    have lines : line = line' := by omega
    have columns : column = column' := by omega
    rw [lines, columns]

/-- Every character takes some room. -/
theorem lt_step (p : Position) (c : Char) : p < p.step c := by
  unfold step
  split
  · exact ⟨.inl (Nat.lt_succ_self _), by rw [le_iff]; simp⟩
  · exact ⟨.inr ⟨rfl, Nat.le_succ _⟩, by rw [le_iff]; simp⟩

theorem le_after (p : Position) (cs : List Char) : p ≤ p.after cs := by
  induction cs generalizing p with
  | nil => exact le_refl p
  | cons c cs ih =>
    rw [after_cons]
    exact (lt_step p c).le.trans (ih (p.step c))

end Position

namespace Span

/-- The characters of a text, which starts at `place`, that stand in the span. -/
def cutFrom (span : Span) (place : Position) : List Char → List Char
  | [] => []
  | c :: cs =>
    if span.first ≤ place ∧ place < span.last then c :: span.cutFrom (place.step c) cs
    else span.cutFrom (place.step c) cs

/-- The characters of a text that stand in the span. -/
def cut (span : Span) (text : List Char) : List Char :=
  span.cutFrom .origin text

variable {span : Span} {place : Position} {cs ds : List Char}

theorem cutFrom_append (span : Span) (place : Position) (cs ds : List Char) :
    span.cutFrom place (cs ++ ds) = span.cutFrom place cs ++ span.cutFrom (place.after cs) ds := by
  induction cs generalizing place with
  | nil => rfl
  | cons c cs ih =>
    rw [List.cons_append, cutFrom, cutFrom, ih, Position.after_cons]
    split
    · rfl
    · rfl

/-- Nothing of what stands behind the span is in it. -/
theorem cutFrom_behind (h : span.last ≤ place) : span.cutFrom place cs = [] := by
  induction cs generalizing place with
  | nil => rfl
  | cons c cs ih =>
    rw [cutFrom, if_neg fun inside => inside.2.2 h]
    exact ih (h.trans (Position.lt_step place c).le)

/-- Nothing of what stands in front of the span is in it. -/
theorem cutFrom_before (h : place.after cs ≤ span.first) : span.cutFrom place cs = [] := by
  induction cs generalizing place with
  | nil => rfl
  | cons c cs ih =>
    rw [Position.after_cons] at h
    have before : place < span.first :=
      (Position.lt_step place c).trans_le ((Position.le_after _ cs).trans h)
    rw [cutFrom, if_neg fun inside => before.2 inside.1]
    exact ih h

theorem cutFrom_inside (first : span.first ≤ place) (last : place.after cs ≤ span.last) :
    span.cutFrom place cs = cs := by
  induction cs generalizing place with
  | nil => rfl
  | cons c cs ih =>
    rw [Position.after_cons] at last
    have next := Position.lt_step place c
    have inside : place < span.last := next.trans_le ((Position.le_after _ cs).trans last)
    rw [cutFrom, if_pos ⟨first, inside⟩, ih (first.trans next.le) last]

/-- The span of a piece of a text holds just that piece. -/
theorem cut_piece (before piece behind : List Char) :
    (⟨.after .origin before, .after .origin (before ++ piece)⟩ : Span).cut
      (before ++ piece ++ behind) = piece := by
  rw [cut, cutFrom_append, cutFrom_append, cutFrom_before (le_refl _),
    cutFrom_inside (le_refl _) (Position.after_append .origin before piece).ge,
    cutFrom_behind (le_refl _), List.nil_append, List.append_nil]

end Span

end FrontEnd
