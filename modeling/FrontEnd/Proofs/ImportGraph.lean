import FrontEnd.Proofs.Symbols.Module
import FrontEnd.Reading
import Mathlib.Logic.Relation

/-!
What the modules of a program import. The literals of a file's import clause are read off its words,
and each stands for the module of a path. The modules that are read because of a module hang below it
in the graph of imports.
-/

namespace FrontEnd

open Relation

/-! ### Import clauses -/

/-- The text that a word is. -/
def TokenKind.text? : TokenKind → Option String
  | text literal => some literal
  | _ => none

namespace Stream

/-- The literals up to a closing parenthesis. -/
def groupLiterals (words : List Token) : List String :=
  (words.takeWhile (·.kind.symbol? ≠ some .closeParen)).filterMap (·.kind.text?)

/-- The literals of the import clause with which a file begins, if it does. -/
def importLiterals (s : Stream) : List String :=
  match s.ahead with
  | word :: next :: rest =>
    if word.kind.symbol? = some .importWord then
      if next.kind.symbol? = some .openParen then groupLiterals rest else next.kind.text?.toList
    else []
  | _ => []

variable {word : Token} (rest : List Token)

theorem groupLiterals_closeParen (h : word.kind.symbol? = some .closeParen) :
    groupLiterals (word :: rest) = [] := by
  simp [groupLiterals, h]

theorem groupLiterals_semicolon (h : word.kind.symbol? = some .semicolon) :
    groupLiterals (word :: rest) = groupLiterals rest := by
  have none : word.kind.text? = none := by
    cases hk : word.kind <;> rw [hk] at h <;> cases h
    rfl
  simp [groupLiterals, h, none]

theorem groupLiterals_text {literal : String} (h : word.kind = .text literal) :
    groupLiterals (word :: rest) = literal :: groupLiterals rest := by
  simp [groupLiterals, h, TokenKind.symbol?, TokenKind.text?]

theorem importLiterals_single {s : Stream} {next : Token} {literal : String}
    (h : s.ahead = word :: next :: rest) (hw : word.kind.symbol? = some .importWord)
    (hn : next.kind = .text literal) : s.importLiterals = [literal] := by
  have other : next.kind.symbol? ≠ some .openParen := by
    rw [hn]
    nofun
  unfold importLiterals
  rw [h]
  dsimp only
  rw [if_pos hw, if_neg other, hn]
  rfl

theorem importLiterals_group {s : Stream} {paren : Token} (h : s.ahead = word :: paren :: rest)
    (hw : word.kind.symbol? = some .importWord) (hp : paren.kind.symbol? = some .openParen) :
    s.importLiterals = groupLiterals rest := by
  unfold importLiterals
  rw [h]
  dsimp only
  rw [if_pos hw, if_pos hp]

theorem importLiterals_of_not_isAt {s : Stream} (h : s.isAt .importWord = false) :
    s.importLiterals = [] := by
  unfold isAt kind at h
  unfold importLiterals
  split
  · rename_i word next rest ha
    rw [ha] at h
    rw [if_neg (of_decide_eq_false h)]
  · rfl

end Stream

/-- The words of the file at a path, if there is one. -/
def Setup.words? (setup : Setup) (path : String) : Option Stream :=
  match setup.sources.read path with
  | .ok text => (Stream.ofText text).toOption
  | .error _ => none

namespace ModuleTable

variable {setup : Setup} {t u v : ModuleTable} {reader : ModuleId} {literals more : List String}

/-! ### Tables that grow -/

/-- All modules of `t` are modules of `u`, and no import is lost. -/
def Grows (t u : ModuleTable) : Prop :=
  ∀ id m, t.get? id = some m → ∃ imports, u.get? id = some { m with imports } ∧ m.imports ⊆ imports

/-- The module `id` is that of the file at `path`. -/
def IsAt (t : ModuleTable) (id : ModuleId) (path : Path) : Prop :=
  ∃ m, t.get? id = some m ∧ m.path = path.toText

theorem Grows.refl (t : ModuleTable) : t.Grows t :=
  fun _ m hm => ⟨m.imports, hm, List.Subset.refl _⟩

theorem Grows.size (h : t.Grows u) : t.size ≤ u.size := by
  apply Nat.le_of_not_lt
  intro hlt
  obtain ⟨_, hi, _⟩ := h ⟨u.size⟩ _ (Array.getElem?_eq_getElem hlt)
  exact Nat.lt_irrefl _ (lt_of_get?_eq_some hi)

theorem IsAt.grows {id : ModuleId} {path : Path} (h : t.IsAt id path) (he : t.Grows u) :
    u.IsAt id path := by
  obtain ⟨m, hm, hp⟩ := h
  obtain ⟨imports, hi, _⟩ := he id m hm
  exact ⟨_, hi, hp⟩

theorem Imports.grows {a b : ModuleId} (h : t.Imports a b) (he : t.Grows u) : u.Imports a b := by
  obtain ⟨m, hm, hb⟩ := imports_iff.1 h
  obtain ⟨imports, hi, before⟩ := he a m hm
  exact imports_iff.2 ⟨_, hi, before hb⟩

theorem below_grows {a b : ModuleId} (h : ReflTransGen t.Imports a b) (he : t.Grows u) :
    ReflTransGen u.Imports a b :=
  ReflTransGen.lift id (fun _ _ (hi : t.Imports _ _) => hi.grows he) a b h

theorem grows_addImport (importer imported : ModuleId) :
    t.Grows (t.addImport importer imported) := by
  intro id m hm
  rcases get?_addImport importer imported hm with h | h
  · exact ⟨_, h, List.Subset.refl _⟩
  · exact ⟨_, h, List.subset_append_left _ _⟩

/-! ### What a module gains by reading its imports -/

/-- Besides what the module `m` imported before, `imports` are the modules of `literals`. -/
structure Adds (t : ModuleTable) (m : Module) (literals : List String) (imports : List ModuleId) :
    Prop where
  before : m.imports ⊆ imports
  only : ∀ e ∈ imports,
    e ∈ m.imports ∨ ∃ literal ∈ literals, t.IsAt e (Path.ofImport m.folder literal)
  each : ∀ literal ∈ literals, ∃ e ∈ imports, t.IsAt e (Path.ofImport m.folder literal)

/-- The module `m` imports the modules of the literals in its file, and no others. -/
def Resolved (setup : Setup) (t : ModuleTable) (m : Module) : Prop :=
  ∃ stream, setup.words? m.path = some stream ∧
    t.Adds { m with imports := [] } stream.importLiterals m.imports

/-- The modules that have been read since `t` hang below the module `top`. -/
structure ReadBelow (setup : Setup) (top : ModuleId) (t u : ModuleTable) : Prop where
  unfinished : u.unfinished = t.unfinished
  resolved : ∀ id m, t.size ≤ id.index → u.get? id = some m → u.Resolved setup m
  below : ∀ id, t.size ≤ id.index → id.index < u.size → ReflTransGen u.Imports top id

/-- The module `id` stands for a path; if it was not there before, it has been read. -/
structure Obtains (setup : Setup) (path : Path) (id : ModuleId) (t u : ModuleTable) : Prop where
  kept : ∀ other, other.index < t.size → u.get? other = t.get? other
  here : u.IsAt id path
  read : ReadBelow setup id t u

/-- The module `reader` has read the imports `literals`. -/
structure Gathers (setup : Setup) (reader : ModuleId) (literals : List String) (t u : ModuleTable) :
    Prop where
  kept : ∀ id, id ≠ reader → id.index < t.size → u.get? id = t.get? id
  added : ∃ m imports, t.get? reader = some m ∧ u.get? reader = some { m with imports } ∧
    u.Adds m literals imports
  read : ReadBelow setup reader t u

theorem Adds.grows {m : Module} {imports : List ModuleId} (h : t.Adds m literals imports)
    (he : t.Grows u) : u.Adds m literals imports where
  before := h.before
  only e hi := (h.only e hi).imp_right fun ⟨literal, hl, ha⟩ => ⟨literal, hl, ha.grows he⟩
  each literal hl :=
    have ⟨e, hi, ha⟩ := h.each literal hl
    ⟨e, hi, ha.grows he⟩

theorem Adds.trans {m : Module} {imports imports' : List ModuleId}
    (h : t.Adds m literals imports) (h' : t.Adds { m with imports } more imports') :
    t.Adds m (literals ++ more) imports' where
  before := List.Subset.trans h.before h'.before
  only e hi := by
    rcases h'.only e hi with hi | ⟨literal, hl, ha⟩
    · rcases h.only e hi with hi | ⟨literal, hl, ha⟩
      · exact .inl hi
      · exact .inr ⟨literal, List.mem_append_left more hl, ha⟩
    · exact .inr ⟨literal, List.mem_append_right literals hl, ha⟩
  each literal hl := by
    rcases List.mem_append.1 hl with hl | hl
    · obtain ⟨e, hi, ha⟩ := h.each literal hl
      exact ⟨e, h'.before hi, ha⟩
    · exact h'.each literal hl

theorem Resolved.grows {m : Module} (h : t.Resolved setup m) (he : t.Grows u) :
    u.Resolved setup m := by
  obtain ⟨stream, hs, adds⟩ := h
  exact ⟨stream, hs, adds.grows he⟩

theorem ReadBelow.refl (setup : Setup) (top : ModuleId) (t : ModuleTable) :
    t.ReadBelow setup top t where
  unfinished := rfl
  resolved _ _ hi hm := absurd (lt_of_get?_eq_some hm) (Nat.not_lt_of_le hi)
  below _ hi hlt := absurd hlt (Nat.not_lt_of_le hi)

namespace Gathers

theorem refl (known : reader.index < t.size) : t.Gathers setup reader [] t where
  kept _ _ _ := rfl
  added :=
    have hm : t.get? reader = some t.modules[reader.index] := Array.getElem?_eq_getElem known
    ⟨_, _, hm, hm, List.Subset.refl _, fun _ => .inl, nofun⟩
  read := .refl setup reader t

theorem known (h : t.Gathers setup reader literals u) : reader.index < t.size := by
  obtain ⟨m, _, hm, _⟩ := h.added
  exact lt_of_get?_eq_some hm

theorem grows (h : t.Gathers setup reader literals u) : t.Grows u := by
  intro id m hm
  by_cases hr : id = reader
  · subst hr
    obtain ⟨n, imports, hn, hi, adds⟩ := h.added
    cases hm.symm.trans hn
    exact ⟨imports, hi, adds.before⟩
  · rw [← h.kept id hr (lt_of_get?_eq_some hm)] at hm
    exact ⟨m.imports, hm, List.Subset.refl _⟩

theorem trans (h : t.Gathers setup reader literals u) (h' : u.Gathers setup reader more v) :
    t.Gathers setup reader (literals ++ more) v := by
  have size := h.grows.size
  have known := h.known
  -- The new modules of `v` are those that are new in `u`, and those behind them.
  have ne (id : ModuleId) (hi : t.size ≤ id.index) : id ≠ reader := by
    rintro rfl
    exact Nat.not_lt_of_le hi known
  refine ⟨fun id hne hlt => ?_, ?_, h'.read.unfinished.trans h.read.unfinished, fun id m hi hm => ?_,
    fun id hi hlt => ?_⟩
  · rw [h'.kept id hne (Nat.lt_of_lt_of_le hlt size), h.kept id hne hlt]
  · obtain ⟨m, imports, hm, hi, adds⟩ := h.added
    obtain ⟨n, imports', hn, hi', adds'⟩ := h'.added
    cases hi.symm.trans hn
    exact ⟨m, imports', hm, hi', (adds.grows h'.grows).trans adds'⟩
  · by_cases hu : id.index < u.size
    · rw [h'.kept id (ne id hi) hu] at hm
      exact (h.read.resolved id m hi hm).grows h'.grows
    · exact h'.read.resolved id m (Nat.le_of_not_lt hu) hm
  · by_cases hu : id.index < u.size
    · exact below_grows (h.read.below id hi hu) h'.grows
    · exact h'.read.below id (Nat.le_of_not_lt hu) hlt

/-- A file has been read when its imports have been. -/
theorem obtains {path : Path} {folder name : String} {stream : Stream}
    (h : ((t.add path.toText folder name).2.begin ⟨t.size⟩).Gathers setup ⟨t.size⟩
      stream.importLiterals u)
    (words : setup.words? path.toText = some stream)
    (known : ∀ id ∈ t.unfinished, id.index < t.size) :
    t.Obtains setup path ⟨t.size⟩ (u.finish ⟨t.size⟩) := by
  have new : (⟨t.size⟩ : ModuleId) ∉ t.unfinished := fun hm => Nat.lt_irrefl _ (known _ hm)
  have size : ((t.add path.toText folder name).2.begin ⟨t.size⟩).size = t.size + 1 := by
    rw [size_begin, size_add]
  -- Finishing a module changes no module.
  have finished : u.Grows (u.finish ⟨t.size⟩) := .refl u
  obtain ⟨m, imports, hm, hi, adds⟩ := h.added
  rw [get?_begin, get?_add, if_pos rfl] at hm
  cases hm
  refine ⟨fun other hlt => ?_, ⟨_, hi, rfl⟩, ?_, fun id m hle hm => ?_, fun id hle hlt => ?_⟩
  · have old := Nat.ne_of_lt hlt
    have kept := h.kept other (fun he => old (congrArg ModuleId.index he)) (by omega)
    rw [get?_begin, get?_add, if_neg old] at kept
    exact kept
  · show u.unfinished.filter (· ≠ ⟨t.size⟩) = t.unfinished
    rw [h.read.unfinished, unfinished_begin (t := (t.add path.toText folder name).2) new,
      List.filter_cons_of_neg (by simp)]
    exact List.filter_eq_self.2 fun id hm => decide_eq_true fun he => new (he ▸ hm)
  · by_cases he : id.index = t.size
    · obtain rfl : id = ⟨t.size⟩ := ModuleId.ext he
      cases hm.symm.trans hi
      exact ⟨stream, words, adds.grows finished⟩
    · exact (h.read.resolved id m (by omega) hm).grows finished
  · by_cases he : id.index = t.size
    · obtain rfl : id = ⟨t.size⟩ := ModuleId.ext he
      exact .refl
    · exact below_grows (h.read.below id (by omega) hlt) finished

end Gathers

theorem Obtains.refl {path : Path} {id : ModuleId} (h : t.IsAt id path) : t.Obtains setup path id t :=
  ⟨fun _ _ => rfl, h, .refl setup id t⟩

/-- An import has been read when its module is there and recorded. -/
theorem Obtains.gathers {m : Module} {literal : String} {imported : ModuleId}
    (h : t.Obtains setup (Path.ofImport m.folder literal) imported u)
    (hm : t.get? reader = some m) :
    t.Gathers setup reader [literal] (u.addImport reader imported) := by
  have known := lt_of_get?_eq_some hm
  have ne (id : ModuleId) (hi : t.size ≤ id.index) : id ≠ reader := by
    rintro rfl
    exact Nat.not_lt_of_le hi known
  have grows := grows_addImport (t := u) reader imported
  obtain ⟨imports, hi, all⟩ := get?_addImport_self imported ((h.kept reader known).trans hm)
  have edge : (u.addImport reader imported).Imports reader imported :=
    imports_iff.2 ⟨_, hi, (all imported).2 (.inr rfl)⟩
  refine ⟨fun id hne hlt => ?_, ⟨m, imports, hm, hi, fun e he => (all e).2 (.inl he), fun e he => ?_,
      fun l hl => ⟨imported, (all imported).2 (.inr rfl), ?_⟩⟩,
    (unfinished_addImport reader imported).trans h.read.unfinished, fun id n hle hn => ?_,
    fun id hle hlt => ?_⟩
  · rw [get?_addImport_of_ne hne, h.kept id hlt]
  · refine ((all e).1 he).imp_right ?_
    rintro rfl
    exact ⟨literal, List.mem_singleton_self literal, h.here.grows grows⟩
  · rw [List.mem_singleton.1 hl]
    exact h.here.grows grows
  · rw [get?_addImport_of_ne (ne id hle)] at hn
    exact (h.read.resolved id n hle hn).grows grows
  · rw [size_addImport] at hlt
    exact .head edge (below_grows (h.read.below id hle hlt) grows)

end ModuleTable

end FrontEnd
