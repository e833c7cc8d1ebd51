import FrontEnd.Proofs.Source.Path
import Mathlib.Logic.Relation

/-!
Collapsed lists of components. A component `.` counts for nothing, `..` takes back the name before it
and stays at the root; a list that nothing of this shortens is collapsed. `Path.normalize` comes to
the one collapsed list that the components of a text lead to, so a collapsed path is its own. The path
of an import has the collapsed components of its file's folder followed by those of the literal.
-/

namespace FrontEnd.Path

open Relation

/-! ### Components -/

/-- The components of a text: the root, if the text begins there, then the names and `..`. A `.` is a
component only where an unrooted text begins with it. -/
def components (text : String) : List String :=
  (if isRooted text then ["/"] else if (trimmedPieces text).head? = some "." then ["."] else []) ++
    movingParts text

/-- The text of a list of components. -/
def ofComponents (parts : List String) : String :=
  if parts.head? = some "/" then toText ⟨true, parts.tail⟩ else toText ⟨false, parts⟩

/-- The components of a path with or without the root. -/
def listed (rooted : Bool) (parts : List String) : List String :=
  if rooted then "/" :: parts else parts

theorem IsPiece.ne_slash {part : String} (h : IsPiece part) : part ≠ "/" := by
  rintro rfl
  exact h.2 (by decide)

/-- The components stand for a text: they are its moving parts, with any `.` between them. -/
def Lists (text : String) (written : List String) : Prop :=
  ∃ parts, written = listed (isRooted text) parts ∧ (∀ part ∈ parts, IsPiece part) ∧
    parts.filter (· ≠ ".") = movingParts text

theorem filter_of_moving {parts : List String} (h : ∀ part ∈ parts, part ≠ ".") :
    parts.filter (· ≠ ".") = parts :=
  List.filter_eq_self.2 fun part hp => decide_eq_true (h part hp)

theorem lists_components (text : String) : Lists text (components text) := by
  have moving : (movingParts text).filter (· ≠ ".") = movingParts text :=
    filter_of_moving fun part hp => (isPiece_of_mem_movingParts hp).2
  unfold components Lists
  split
  · rename_i rooted
    rw [rooted]
    exact ⟨movingParts text, rfl, fun part hp => (isPiece_of_mem_movingParts hp).1, moving⟩
  · rename_i unrooted
    rw [Bool.eq_false_iff.2 unrooted]
    split
    · refine ⟨"." :: movingParts text, rfl, fun part hp => ?_, moving⟩
      rcases List.mem_cons.1 hp with rfl | hp
      · exact ⟨by decide, by decide⟩
      · exact (isPiece_of_mem_movingParts hp).1
    · exact ⟨movingParts text, rfl, fun part hp => (isPiece_of_mem_movingParts hp).1, moving⟩

theorem head?_trimIdle {piece : String} {rest : List String} (h : isIdle piece = false) :
    (trimIdle (piece :: rest)).head? = some piece := by
  rw [trimIdle]
  split
  · rw [h]
    rfl
  · rfl

theorem trimIdle_eq_self {names : List String} (h : ∀ name ∈ names, isIdle name = false) :
    trimIdle names = names := by
  induction names with
  | nil => rfl
  | cons name names ih =>
    rw [trimIdle, ih fun other ho => h other (List.mem_cons_of_mem name ho)]
    cases names with
    | nil => simp [h name List.mem_cons_self]
    | cons => rfl

variable {p q : Path}

theorem isIdle_eq_false {part : String} : isIdle part = false ↔ part ≠ "" ∧ part ≠ "." := by
  simp [isIdle]

theorem isIdle_of_proper (h : p.Proper) : ∀ part ∈ p.parts, isIdle part = false :=
  fun part hp => isIdle_eq_false.2 ⟨(h part hp).1.1, (h part hp).2⟩

theorem trimmedPieces_toText (h : p.Proper) : trimmedPieces p.toText =
    (if p.rooted then [""] else []) ++ if p.rooted = false ∧ p.parts = [] then [""] else p.parts := by
  have moving := isIdle_of_proper h
  have kept := trimIdle_eq_self moving
  unfold trimmedPieces
  rw [pieces_toText h.isPiece]
  obtain ⟨rooted, parts⟩ := p
  cases rooted with
  | true =>
    cases parts with
    | nil => rfl
    | cons part rest => simpa using kept
  | false =>
    cases parts with
    | nil => rfl
    | cons part rest =>
      obtain ⟨written, other⟩ := isIdle_eq_false.1 (moving part List.mem_cons_self)
      simpa [written, other] using kept

theorem components_toText (h : p.Proper) : components p.toText = listed p.rooted p.parts := by
  have still : (trimmedPieces p.toText).head? ≠ some "." := by
    rw [trimmedPieces_toText h]
    obtain ⟨rooted, parts⟩ := p
    cases rooted with
    | true => simp
    | false =>
      cases parts with
      | nil => simp
      | cons part rest =>
        intro first
        exact (h part List.mem_cons_self).2 (by simpa using first)
  unfold components listed
  rw [isRooted_toText h.isPiece, h.movingParts_toText, if_neg still]
  cases p.rooted <;> rfl

theorem Proper.slash_not_mem (h : p.Proper) : "/" ∉ p.parts :=
  fun hm => (h "/" hm).1.ne_slash rfl

theorem eq_of_components (hp : p.Proper) (hq : q.Proper)
    (h : components p.toText = components q.toText) : p = q := by
  rw [components_toText hp, components_toText hq] at h
  obtain ⟨rooted, parts⟩ := p
  obtain ⟨rooted', parts'⟩ := q
  cases rooted <;> cases rooted'
  · exact congrArg (Path.mk false) h
  · obtain rfl : parts = "/" :: parts' := h
    exact absurd List.mem_cons_self hp.slash_not_mem
  · obtain rfl : "/" :: parts = parts' := h
    exact absurd List.mem_cons_self hq.slash_not_mem
  · exact congrArg (Path.mk true) (List.cons.inj h).2

/-! ### Collapsing -/

/-- One component or two go: a `.`, a name with the `..` behind it, or a `..` behind the root. -/
inductive Cancels : List String → List String → Prop
  | idle (before behind : List String) : Cancels (before ++ "." :: behind) (before ++ behind)
  | back (before behind : List String) {name : String} (hn : name ∉ ["/", ".", ".."]) :
    Cancels (before ++ name :: ".." :: behind) (before ++ behind)
  | top (behind : List String) : Cancels ("/" :: ".." :: behind) ("/" :: behind)

/-- A list is shortened until nothing is left to shorten. -/
def Collapses (parts rest : List String) : Prop :=
  ReflTransGen Cancels parts rest ∧ ∀ next, ¬ Cancels rest next

/-- What is left of parts below the root or below the working folder, the last part first. -/
def stack (rooted : Bool) (parts : List String) : List String :=
  (parts.filter (· ≠ ".")).foldl (collapse rooted) []

/-- No `.` is among the parts, and `..` stands only at the front, where there is no root. -/
def IsCollapsed (rooted : Bool) (parts : List String) : Prop :=
  ∃ n names, parts = List.replicate n ".." ++ names ∧ (rooted = true → n = 0) ∧
    ∀ name ∈ names, name ∉ [".", ".."]

variable {rooted : Bool} {parts next : List String}

theorem stack_append (rooted : Bool) (before behind : List String) :
    stack rooted (before ++ behind) =
      (behind.filter (· ≠ ".")).foldl (collapse rooted) (stack rooted before) := by
  unfold stack
  rw [List.filter_append, List.foldl_append]

theorem collapse_of_ne {part : String} (rooted : Bool) (done : List String) (h : part ≠ "..") :
    collapse rooted done part = part :: done := if_neg h

theorem collapse_up {last : String} (rooted : Bool) (rest : List String) :
    collapse rooted (last :: rest) ".." = if last = ".." then ".." :: last :: rest else rest := rfl

theorem listed_append (rooted : Bool) (before behind : List String) :
    listed rooted (before ++ behind) = listed rooted before ++ behind := by
  cases rooted <;> rfl

/-- What can be shortened below the root. -/
theorem Cancels.below (slash : "/" ∉ parts) (h : Cancels (listed rooted parts) next) :
    ∃ fewer, next = listed rooted fewer ∧
      ((∃ before behind, parts = before ++ "." :: behind ∧ fewer = before ++ behind) ∨
        (∃ before name behind, name ∉ ["/", ".", ".."] ∧ parts = before ++ name :: ".." :: behind ∧
          fewer = before ++ behind) ∨
        rooted = true ∧ parts = ".." :: fewer) := by
  cases rooted with
  | false =>
    unfold listed at h
    rw [if_neg Bool.false_ne_true] at h
    cases h with
    | idle before behind => exact ⟨_, rfl, .inl ⟨before, behind, rfl, rfl⟩⟩
    | back before behind hn => exact ⟨_, rfl, .inr (.inl ⟨before, _, behind, hn, rfl, rfl⟩)⟩
    | top behind => exact absurd List.mem_cons_self slash
  | true =>
    generalize whole : listed true parts = all at h
    replace whole : "/" :: parts = all := whole
    cases h with
    | idle before behind =>
      cases before with
      | nil => exact absurd (List.cons.inj whole).1 (by decide)
      | cons top before =>
        obtain ⟨rfl, rfl⟩ := List.cons.inj whole
        exact ⟨before ++ behind, rfl, .inl ⟨before, behind, rfl, rfl⟩⟩
    | back before behind hn =>
      cases before with
      | nil => exact absurd ((List.cons.inj whole).1 ▸ List.mem_cons_self) hn
      | cons top before =>
        obtain ⟨rfl, rfl⟩ := List.cons.inj whole
        exact ⟨before ++ behind, rfl, .inr (.inl ⟨before, _, behind, hn, rfl, rfl⟩)⟩
    | top behind =>
      obtain ⟨-, rfl⟩ := List.cons.inj whole
      exact ⟨behind, rfl, .inr (.inr ⟨rfl, rfl⟩)⟩

/-- Shortening a list does not change what it collapses to. -/
theorem Cancels.stack_eq (slash : "/" ∉ parts) (h : Cancels (listed rooted parts) next) :
    ∃ fewer, next = listed rooted fewer ∧ "/" ∉ fewer ∧ stack rooted fewer = stack rooted parts := by
  obtain ⟨fewer, rfl, ⟨before, behind, rfl, rfl⟩ | ⟨before, name, behind, hn, rfl, rfl⟩ |
    ⟨rfl, rfl⟩⟩ := h.below slash
  · refine ⟨before ++ behind, rfl, fun hm => slash ?_, ?_⟩
    · rcases List.mem_append.1 hm with hm | hm <;> simp [hm]
    · rw [stack_append, stack_append, List.filter_cons_of_neg (by decide)]
  · refine ⟨before ++ behind, rfl, fun hm => slash ?_, ?_⟩
    · rcases List.mem_append.1 hm with hm | hm <;> simp [hm]
    · simp only [List.mem_cons, List.not_mem_nil, or_false, not_or] at hn
      rw [stack_append, stack_append, List.filter_cons_of_pos (by simpa using hn.2.1),
        List.filter_cons_of_pos (by decide), List.foldl_cons, List.foldl_cons, collapse_of_ne _ _ hn.2.2,
        collapse_up, if_neg hn.2.2]
  · refine ⟨fewer, rfl, fun hm => slash (List.mem_cons_of_mem _ hm), ?_⟩
    unfold stack
    rw [List.filter_cons_of_pos (by decide), List.foldl_cons]
    rfl

/-- A part that is pushed stays where it is, and one that is taken back is cancelled. -/
theorem reaches_collapse {part : String} {done : List String} (hd : ∀ name ∈ done, name ∉ ["/", "."])
    (parts : List String) : ReflTransGen Cancels (listed rooted (done.reverse ++ part :: parts))
      (listed rooted ((collapse rooted done part).reverse ++ parts)) := by
  have pushed : ReflTransGen Cancels (listed rooted (done.reverse ++ part :: parts))
      (listed rooted ((part :: done).reverse ++ parts)) := by
    rw [List.reverse_cons, List.append_assoc]
    exact .refl
  by_cases up : part = ".."
  · subst up
    cases done with
    | nil =>
      cases rooted with
      | false => exact pushed
      | true => exact .single (.top parts)
    | cons last rest =>
      rw [collapse_up]
      split
      · exact pushed
      · rename_i name
        have last := hd last List.mem_cons_self
        rw [List.reverse_cons, List.append_assoc, listed_append, listed_append]
        exact .single (.back _ parts (by simp_all))
  · rw [collapse_of_ne _ _ up]
    exact pushed

theorem mem_of_mem_stack {name : String} (h : name ∈ stack rooted parts) : name ∈ parts := by
  have start : ∀ name ∈ ([] : List String), name ∈ parts := nofun
  refine List.foldlRecOn (motive := fun done => ∀ name ∈ done, name ∈ parts) _ (collapse rooted)
    start (fun done hd part hp name hn => ?_) name h
  exact (mem_of_mem_collapse hn).elim (fun he => he ▸ (List.mem_filter.1 hp).1) (hd name)

/-- What is left below the root can be reached by shortening the list bit by bit. -/
theorem reaches_foldl {done : List String} (hd : ∀ name ∈ done, name ∉ ["/", "."])
    (slash : "/" ∉ parts) : ReflTransGen Cancels (listed rooted (done.reverse ++ parts))
      (listed rooted ((parts.filter (· ≠ ".")).foldl (collapse rooted) done).reverse) := by
  induction parts generalizing done with
  | nil =>
    rw [List.append_nil]
    exact .refl
  | cons part parts ih =>
    rw [List.mem_cons, not_or] at slash
    by_cases still : part = "."
    · rw [List.filter_cons_of_neg (by simpa using still), listed_append, still]
      refine .head (.idle _ parts) ?_
      rw [← listed_append]
      exact ih hd slash.2
    · rw [List.filter_cons_of_pos (by simpa using still), List.foldl_cons]
      refine (reaches_collapse hd parts).trans (ih (fun name hn => ?_) slash.2)
      rcases mem_of_mem_collapse hn with rfl | hn
      · simp [still, Ne.symm slash.1]
      · exact hd name hn

theorem IsCollapsed.collapse {done : List String} {part : String}
    (h : IsCollapsed rooted done.reverse) (still : part ≠ ".") :
    IsCollapsed rooted (collapse rooted done part).reverse := by
  obtain ⟨n, names, written, root, plain⟩ := h
  by_cases up : part = ".."
  · subst up
    cases done with
    | nil =>
      cases rooted with
      | false => exact ⟨1, [], rfl, nofun, nofun⟩
      | true => exact ⟨0, [], rfl, fun _ => rfl, nofun⟩
    | cons last rest =>
      rw [List.reverse_cons] at written
      rw [collapse_up]
      rcases List.eq_nil_or_concat names with rfl | ⟨before, name, rfl⟩
      · rw [List.append_nil] at written
        have here : last ∈ List.replicate n ".." := by
          rw [← written]
          simp
        have above := List.eq_of_mem_replicate here
        rw [if_pos above, List.reverse_cons, List.reverse_cons, written]
        refine ⟨n + 1, [], ?_, fun h => ?_, nofun⟩
        · rw [List.append_nil, List.replicate_succ']
        · rw [root h] at written
          simp at written
      · rw [List.concat_eq_append, ← List.append_assoc] at written
        obtain ⟨kept, same⟩ := List.append_inj' written rfl
        obtain rfl := List.cons.inj same |>.1
        have name : last ≠ ".." := by
          rintro rfl
          exact plain ".." (by simp) (by decide)
        rw [if_neg name]
        exact ⟨n, before, kept, root, fun name hn => plain name (by simp [hn])⟩
  · refine ⟨n, names ++ [part], ?_, root, fun name hn => ?_⟩
    · rw [collapse_of_ne _ _ up, List.reverse_cons, written, List.append_assoc]
    · rcases List.mem_append.1 hn with hn | hn
      · exact plain name hn
      · rw [List.mem_singleton.1 hn]
        simp [still, up]

theorem isCollapsed_stack (rooted : Bool) (parts : List String) :
    IsCollapsed rooted (stack rooted parts).reverse :=
  List.foldlRecOn (motive := fun done => IsCollapsed rooted done.reverse) _ (Path.collapse rooted)
    ⟨0, [], rfl, fun _ => rfl, nofun⟩ fun _ hd part hp =>
      hd.collapse (by simpa using (List.mem_filter.1 hp).2)

/-- A collapsed list cannot be shortened. -/
theorem IsCollapsed.not_cancels (slash : "/" ∉ parts) (h : IsCollapsed rooted parts)
    (next : List String) : ¬ Cancels (listed rooted parts) next := by
  intro cancels
  obtain ⟨n, names, written, root, plain⟩ := h
  have named {part : String} (hp : part ∈ parts) : part = ".." ∨ part ∉ [".", ".."] := by
    rw [written] at hp
    exact (List.mem_append.1 hp).imp List.eq_of_mem_replicate (plain part)
  obtain ⟨fewer, -, ⟨before, behind, rfl, -⟩ | ⟨before, name, behind, hn, rfl, -⟩ | ⟨top, rfl⟩⟩ :=
    cancels.below slash
  · exact absurd (named (show "." ∈ _ by simp)) (by decide)
  · -- The name and the `..` behind it would both be names, or both be `..`.
    rcases List.append_eq_append_iff.1 written with ⟨same, ahead, rest⟩ | ⟨same, ahead, rest⟩
    · cases same with
      | nil =>
        rw [List.nil_append] at rest
        exact plain ".." (rest ▸ by simp) (by decide)
      | cons first same =>
        have first : first ∈ List.replicate n ".." := ahead ▸ by simp
        obtain ⟨rfl, -⟩ := List.cons.inj rest
        rw [List.eq_of_mem_replicate first] at hn
        exact hn (by decide)
    · exact plain ".." (rest ▸ by simp) (by decide)
  · rw [root top] at written
    exact plain ".." (by rw [← List.nil_append names, ← List.replicate_zero, ← written]; simp) (by decide)

/-- Every list of components has one collapsed form. -/
theorem collapses_iff (slash : "/" ∉ parts) :
    Collapses (listed rooted parts) next ↔ next = listed rooted (stack rooted parts).reverse := by
  have kept {rest : List String} (h : ReflTransGen Cancels (listed rooted parts) rest) :
      ∃ fewer, rest = listed rooted fewer ∧ "/" ∉ fewer ∧ stack rooted fewer = stack rooted parts := by
    induction h with
    | refl => exact ⟨parts, rfl, slash, rfl⟩
    | tail _ cancels ih =>
      obtain ⟨fewer, rfl, slash, same⟩ := ih
      obtain ⟨fewest, rfl, slash, same'⟩ := cancels.stack_eq slash
      exact ⟨fewest, rfl, slash, same'.trans same⟩
  have reaches {parts : List String} (slash : "/" ∉ parts) :
      ReflTransGen Cancels (listed rooted parts) (listed rooted (stack rooted parts).reverse) :=
    reaches_foldl (List.forall_mem_nil _) slash
  constructor
  · rintro ⟨reached, final⟩
    obtain ⟨fewer, rfl, slash, same⟩ := kept reached
    rw [← same]
    rcases (reaches slash).cases_head with he | ⟨further, cancels, -⟩
    · exact he
    · exact absurd cancels (final further)
  · rintro rfl
    refine ⟨reaches slash, (isCollapsed_stack rooted parts).not_cancels ?_⟩
    exact fun hm => slash (mem_of_mem_stack (List.mem_reverse.1 hm))

/-! ### Texts -/

theorem slash_not_mem (h : ∀ part ∈ parts, IsPiece part) : "/" ∉ parts :=
  fun hm => (h "/" hm).ne_slash rfl

theorem normalize_toText {parts : List String} (h : ∀ part ∈ parts, IsPiece part) :
    normalize (toText ⟨rooted, parts⟩) = ⟨rooted, (stack rooted parts).reverse⟩ := by
  unfold normalize
  rw [isRooted_toText h, movingParts_toText h]
  rfl

theorem ofComponents_listed (h : "/" ∉ parts) :
    ofComponents (listed rooted parts) = toText ⟨rooted, parts⟩ := by
  cases rooted with
  | true => rfl
  | false =>
    have below : parts.head? ≠ some "/" := fun hs => h (List.mem_of_head? hs)
    exact if_neg below

namespace Lists

variable {text : String} {written : List String} (h : Lists text written)

include h

theorem normalize_ofComponents : normalize (ofComponents written) = normalize text := by
  obtain ⟨parts, rfl, between, moving⟩ := h
  rw [ofComponents_listed (slash_not_mem between), normalize_toText between]
  unfold stack normalize
  rw [moving]

/-- The collapsed path of a text has what the components of the text collapse to. -/
theorem collapses_iff : Collapses written next ↔ next = components (normalize text).toText := by
  rw [← h.normalize_ofComponents, components_toText (proper_normalize _)]
  obtain ⟨parts, rfl, between, -⟩ := h
  rw [Path.collapses_iff (slash_not_mem between), ofComponents_listed (slash_not_mem between),
    normalize_toText between]

end Lists

/-- A collapsed path stays as it is. -/
theorem normalize_normalize (text : String) : normalize (normalize text).toText = normalize text := by
  obtain ⟨-, final⟩ := (lists_components text).collapses_iff.2 rfl
  have again : Collapses (components (normalize text).toText) _ := ⟨.refl, final⟩
  exact (eq_of_components (proper_normalize text) (proper_normalize _)
    ((lists_components _).collapses_iff.1 again)).symm

theorem isCollapsed_normalize (text : String) :
    ∃ parts, components (normalize text).toText = listed (isRooted (normalize text).toText) parts ∧
      IsCollapsed (isRooted (normalize text).toText) parts := by
  have proper := proper_normalize text
  rw [isRooted_toText proper.isPiece]
  refine ⟨_, components_toText proper, ?_⟩
  have collapsed := isCollapsed_stack (isRooted text) (movingParts text)
  unfold stack at collapsed
  rw [filter_of_moving fun part hp => (isPiece_of_mem_movingParts hp).2] at collapsed
  exact collapsed

/-! ### Imports -/

theorem pieces_append_slash (before behind : List Char) :
    pieces (before ++ '/' :: behind) = pieces before ++ pieces behind := by
  induction before with
  | nil => rfl
  | cons c before ih =>
    rw [List.cons_append, pieces, pieces, ih]
    split
    · rfl
    · cases hp : pieces before with
      | nil => exact absurd hp (pieces_ne_nil before)
      | cons => rfl

theorem movingParts_append_slash (before behind : String) :
    movingParts (before ++ "/" ++ behind) = movingParts before ++ movingParts behind := by
  have slash : (before ++ "/" ++ behind).toList = before.toList ++ '/' :: behind.toList := by
    rw [String.toList_append, String.toList_append, List.append_assoc]
    rfl
  unfold movingParts
  rw [slash, pieces_append_slash, List.map_append, List.filter_append]

theorem parent?_toText (h : p.Proper) : parent? p.toText =
    if p.parts = [] then none else some (toText ⟨p.rooted, p.parts.dropLast⟩) := by
  have kept : trimIdle p.parts.dropLast = p.parts.dropLast :=
    trimIdle_eq_self fun name hn => isIdle_of_proper h name (List.dropLast_subset _ hn)
  unfold parent?
  rw [isRooted_toText h.isPiece, trimmedPieces_toText h]
  obtain ⟨rooted, parts⟩ := p
  cases rooted with
  | true =>
    cases parts with
    | nil => rfl
    | cons part rest =>
      have kept : trimIdle (part :: rest).dropLast = (part :: rest).dropLast := kept
      simp only [if_true, Bool.true_eq_false, false_and, if_false, List.cons_append, List.nil_append,
        List.drop_succ_cons, List.drop_zero, kept, reduceCtorEq]
      cases (part :: rest).dropLast <;> rfl
  | false =>
    cases parts with
    | nil => rfl
    | cons part rest =>
      obtain ⟨written, other⟩ := isIdle_eq_false.1 (isIdle_of_proper h part List.mem_cons_self)
      have below : toText ⟨false, (part :: rest).dropLast⟩ = "/".intercalate (part :: rest).dropLast :=
        String.empty_append
      have kept : trimIdle (part :: rest).dropLast = (part :: rest).dropLast := kept
      simp [written, other, below, kept]

theorem isRooted_append {before : String} (h : before ≠ "") (behind : String) :
    isRooted (before ++ behind) = isRooted before := by
  unfold isRooted
  rw [String.toList_append]
  cases hb : before.toList with
  | nil => exact absurd (String.toList_eq_nil_iff.1 hb) h
  | cons => rfl

/-- What the folder of a file says: the components of the file without the last one. -/
theorem folder_append (h : p.Proper) {literal : String} (unrooted : isRooted literal = false) :
    ∃ names, (components p.toText).dropLast = listed (isRooted (folder p.toText ++ literal)) names ∧
      movingParts (folder p.toText ++ literal) = names ++ movingParts literal := by
  rw [components_toText h]
  unfold folder
  rw [parent?_toText h]
  obtain ⟨rooted, parts⟩ := p
  by_cases none : parts = []
  · rw [if_pos none]
    dsimp only
    rw [String.empty_append, unrooted, none]
    exact ⟨[], by cases rooted <;> rfl, rfl⟩
  · rw [if_neg none]
    dsimp only
    have proper : Proper ⟨rooted, parts.dropLast⟩ :=
      fun part hp => h part (List.dropLast_subset _ hp)
    have moving := proper.movingParts_toText
    have here := isRooted_toText proper.isPiece
    dsimp only at moving here
    have last : (listed rooted parts).dropLast = listed rooted parts.dropLast := by
      cases rooted with
      | false => rfl
      | true => exact List.dropLast_cons_of_ne_nil none
    generalize toText ⟨rooted, parts.dropLast⟩ = parent at moving here
    rw [last, ← moving, ← here]
    split
    · rename_i working
      rw [working, String.empty_append, unrooted]
      exact ⟨[], rfl, rfl⟩
    · rename_i below
      rw [String.append_assoc, isRooted_append below, ← String.append_assoc]
      exact ⟨_, rfl, movingParts_append_slash _ literal⟩

/-- An import literal stands for the components of the file's folder and those of the literal. -/
theorem lists_import {text literal : String} (canonical : IsCanonical text)
    (unrooted : isRooted literal = false) :
    Lists (folder text ++ literal) ((components text).dropLast ++ components literal) := by
  obtain ⟨_, rfl⟩ := canonical
  obtain ⟨names, last, moving⟩ := folder_append (proper_normalize _) unrooted
  obtain ⟨parts, written, between, rest⟩ := lists_components literal
  have named {name : String} (hn : name ∈ names) : IsPiece name ∧ name ≠ "." :=
    isPiece_of_mem_movingParts (moving ▸ List.mem_append_left _ hn)
  refine ⟨names ++ parts, ?_, fun part hp => ?_, ?_⟩
  · rw [last, written, unrooted, listed_append]
    rfl
  · exact (List.mem_append.1 hp).elim (fun hn => (named hn).1) (between part)
  · rw [List.filter_append, filter_of_moving fun name hn => (named hn).2, rest, moving]

theorem ofImport_folder {text literal : String} (canonical : IsCanonical text)
    (unrooted : isRooted literal = false) : ofImport (folder text) literal =
      normalize (ofComponents ((components text).dropLast ++ components literal)) :=
  (lists_import canonical unrooted).normalize_ofComponents.symm

end FrontEnd.Path
