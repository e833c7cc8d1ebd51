import FrontEnd.Source.Path
import FrontEnd.Settings

/-!
Collapsed paths. The text of a collapsed path has the parts of the path, so texts of collapsed paths
that have the same parts are the same text.
-/

namespace FrontEnd.Path

/-- The text of a collapsed path, which is the identity of a source file. -/
def IsCanonical (text : String) : Prop :=
  ∃ written : String, text = (normalize written).toText

/-- A text that can stand between two slashes. -/
def IsPiece (part : String) : Prop :=
  part ≠ "" ∧ '/' ∉ part.toList

/-- The parts of a path are names or `..`. -/
def Proper (p : Path) : Prop :=
  ∀ part ∈ p.parts, IsPiece part ∧ part ≠ "."

theorem Proper.isPiece {p : Path} (h : p.Proper) : ∀ part ∈ p.parts, IsPiece part :=
  fun part hp => (h part hp).1

theorem pieces_ne_nil (cs : List Char) : pieces cs ≠ [] := by
  cases cs with
  | nil => nofun
  | cons c cs =>
    rw [pieces]
    split
    · nofun
    · split <;> nofun

theorem not_mem_of_mem_pieces {cs piece : List Char} (h : piece ∈ pieces cs) : '/' ∉ piece := by
  induction cs generalizing piece with
  | nil =>
    rw [List.mem_singleton.1 h]
    exact List.not_mem_nil
  | cons c cs ih =>
    rw [pieces] at h
    split at h
    · rcases List.mem_cons.1 h with rfl | h
      · exact List.not_mem_nil
      · exact ih h
    · rename_i hc
      split at h
      · rename_i hp
        exact absurd hp (pieces_ne_nil cs)
      · rename_i first rest hp
        rcases List.mem_cons.1 h with rfl | h
        · have first := ih (hp ▸ List.mem_cons_self)
          exact List.not_mem_cons_of_ne_of_not_mem (Ne.symm hc) first
        · exact ih (hp ▸ List.mem_cons_of_mem first h)

theorem pieces_of_not_mem {piece : List Char} (h : '/' ∉ piece) : pieces piece = [piece] := by
  induction piece with
  | nil => rfl
  | cons c piece ih =>
    rw [List.mem_cons, not_or] at h
    rw [pieces, if_neg (Ne.symm h.1), ih h.2]

theorem pieces_append {piece : List Char} (h : '/' ∉ piece) (cs : List Char) :
    pieces (piece ++ '/' :: cs) = piece :: pieces cs := by
  induction piece with
  | nil => rfl
  | cons c piece ih =>
    rw [List.mem_cons, not_or] at h
    rw [List.cons_append, pieces, if_neg (Ne.symm h.1), ih h.2]

theorem pieces_intercalate {names : List (List Char)} (hn : names ≠ [])
    (h : ∀ name ∈ names, '/' ∉ name) : pieces (['/'].intercalate names) = names := by
  induction names with
  | nil => exact absurd rfl hn
  | cons name names ih =>
    have hname := h name List.mem_cons_self
    cases names with
    | nil => simpa using pieces_of_not_mem hname
    | cons next rest =>
      have rest := ih nofun fun other ho => h other (List.mem_cons_of_mem name ho)
      rw [List.intercalate_cons_cons, List.append_assoc]
      exact (pieces_append hname _).trans (congrArg _ rest)

theorem mem_of_mem_collapse {rooted : Bool} {done : List String} {part name : String}
    (h : name ∈ collapse rooted done part) : name = part ∨ name ∈ done := by
  unfold collapse at h
  split at h
  · split at h
    · split at h
      · exact absurd h List.not_mem_nil
      · exact .inl (List.mem_singleton.1 h)
    · split at h
      · exact List.mem_cons.1 h
      · exact .inr (List.mem_cons_of_mem _ h)
  · exact List.mem_cons.1 h

theorem isPiece_of_mem_movingParts {text part : String} (h : part ∈ movingParts text) :
    IsPiece part ∧ part ≠ "." := by
  obtain ⟨written, moves⟩ := List.mem_filter.1 h
  obtain ⟨piece, between, rfl⟩ := List.mem_map.1 written
  have idle : isIdle (String.ofList piece) = false := by simpa using moves
  unfold isIdle at idle
  rw [Bool.or_eq_false_iff, decide_eq_false_iff_not, decide_eq_false_iff_not] at idle
  refine ⟨⟨idle.1, ?_⟩, idle.2⟩
  rw [String.toList_ofList]
  exact not_mem_of_mem_pieces between

theorem proper_normalize (text : String) : (normalize text).Proper := by
  intro part hp
  have step (done : List String) (hd : ∀ name ∈ done, IsPiece name ∧ name ≠ ".")
      (next : String) (hn : next ∈ movingParts text) (name : String)
      (hm : name ∈ collapse (isRooted text) done next) : IsPiece name ∧ name ≠ "." :=
    (mem_of_mem_collapse hm).elim (fun he => he ▸ isPiece_of_mem_movingParts hn) (hd name)
  exact List.foldlRecOn (movingParts text) (collapse (isRooted text)) nofun step part
    (List.mem_reverse.1 hp)

variable {p q : Path}

theorem toList_toText : p.toText.toList =
    (if p.rooted then ['/'] else []) ++ ['/'].intercalate (p.parts.map String.toList) := by
  unfold toText
  rw [String.toList_append, String.toList_intercalate]
  split <;> rfl

/-- The pieces of the text of a path are its parts. -/
theorem pieces_toText (h : ∀ part ∈ p.parts, IsPiece part) :
    (pieces p.toText.toList).map String.ofList =
      (if p.rooted then [""] else []) ++ if p.parts = [] then [""] else p.parts := by
  have below : (pieces (['/'].intercalate (p.parts.map String.toList))).map String.ofList =
      if p.parts = [] then [""] else p.parts := by
    split
    · rename_i none
      rw [none]
      rfl
    · rename_i some
      rw [pieces_intercalate (by simpa using some), List.map_map]
      · simp [Function.comp_def]
      · intro name hn
        obtain ⟨part, hp, rfl⟩ := List.mem_map.1 hn
        exact (h part hp).2
  rw [toList_toText]
  cases p.rooted with
  | true => exact congrArg ("" :: ·) below
  | false => exact below

theorem isRooted_toText (h : ∀ part ∈ p.parts, IsPiece part) : isRooted p.toText = p.rooted := by
  unfold isRooted
  rw [toList_toText]
  obtain ⟨rooted, parts⟩ := p
  cases rooted with
  | true => rfl
  | false =>
    cases parts with
    | nil => rfl
    | cons part rest =>
      obtain ⟨written, slashless⟩ := h part List.mem_cons_self
      cases hp : part.toList with
      | nil => exact absurd (String.toList_eq_nil_iff.1 hp) written
      | cons c cs =>
        have hc : c ≠ '/' := fun he => slashless (by rw [hp, he]; exact List.mem_cons_self)
        cases rest <;> simp [hp, hc]

theorem movingParts_toText (h : ∀ part ∈ p.parts, IsPiece part) :
    movingParts p.toText = p.parts.filter (· ≠ ".") := by
  have written : p.parts.filter (!isIdle ·) = p.parts.filter (· ≠ ".") :=
    List.filter_congr fun part hp => by simp [isIdle, (h part hp).1]
  unfold movingParts
  rw [pieces_toText h]
  obtain ⟨rooted, parts⟩ := p
  cases rooted <;> cases parts
  · rfl
  · exact written
  · rfl
  · exact written

theorem Proper.movingParts_toText (h : p.Proper) : movingParts p.toText = p.parts := by
  rw [Path.movingParts_toText h.isPiece]
  exact List.filter_eq_self.2 fun part hp => by simpa using (h part hp).2

/-- Collapsed paths whose texts have the same parts have the same text. -/
theorem eq_of_sameParts {a b : String} (ha : IsCanonical a) (hb : IsCanonical b)
    (h : sameParts a b = true) : a = b := by
  obtain ⟨a, rfl⟩ := ha
  obtain ⟨b, rfl⟩ := hb
  have pa := proper_normalize a
  have pb := proper_normalize b
  unfold sameParts at h
  rw [isRooted_toText pa.isPiece, isRooted_toText pb.isPiece, pa.movingParts_toText,
    pb.movingParts_toText, Bool.and_eq_true, Bool.and_eq_true, decide_eq_true_iff,
    decide_eq_true_iff] at h
  have same {p q : Path} (rooted : p.rooted = q.rooted) (parts : p.parts = q.parts) : p = q := by
    cases p
    cases q
    cases rooted
    cases parts
    rfl
  rw [same h.1.1 h.1.2]

theorem sameParts_self (text : String) : sameParts text text = true := by
  simp [sameParts]

theorem isCanonical_predeclared : IsCanonical predeclaredPath := ⟨predeclaredPath, by decide⟩

end FrontEnd.Path
