import FrontEnd.Proofs.Scopes
import FrontEnd.Proofs.Modules

/-!
What a reference can stand for. A plain name stands for an identifier of the module being read, in a
block that is open, or for a predeclared one; a name behind that of a file only for an exported
identifier of a module that this module imports itself.
-/

namespace FrontEnd

/-! ### The words of a reference -/

/-- At the front of `s` stand the words `file.name`; `rest` is the stream behind them. -/
structure Stream.Spells (s : Stream) (file name : String) (rest : Stream) : Prop where
  file : s.kind = .ident file
  dot : s.advance.isAt .dot = true
  name : s.advance.advance.kind = .ident name
  rest : rest = s.advance.advance.advance

namespace Stream

variable {s : Stream}

theorem advance_of_name? {past : Past s String} (h : s.name? = some past) :
    past.stream = s.advance := by
  unfold name? at h
  split at h
  · cases h
    rfl
  · cases h

theorem name?_of_kind {name : String} (h : s.kind = .ident name) :
    ∃ behind, s.name? = some ⟨name, s.advance, behind⟩ := by
  have hi : s.ident? = some name := by
    rw [ident?, h]
    rfl
  unfold name?
  split
  · rename_i hn
    cases hi.symm.trans hn
    exact ⟨advance_behind_of_ident? hn, rfl⟩
  · rename_i hn
    cases hi.symm.trans hn

theorem isAt_of_skip? {wanted : Symbol} {rest : Shorter s} (h : s.skip? wanted = some rest) :
    s.isAt wanted = true ∧ rest.stream = s.advance := by
  obtain ⟨word, ahead, symbol⟩ := ahead_of_skip? h
  refine ⟨decide_eq_true ?_, ?_⟩
  · rw [kind, ahead]
    exact symbol
  · unfold skip? at h
    split at h
    · split at h
      · cases h
        rfl
      · cases h
    · cases h

theorem skip?_of_isAt {wanted : Symbol} (h : s.isAt wanted = true) (hw : wanted ≠ .endOfFile) :
    ∃ behind, s.skip? wanted = some ⟨(), s.advance, behind⟩ := by
  have symbol : s.kind.symbol? = some wanted := of_decide_eq_true h
  unfold kind at symbol
  unfold skip?
  split
  · rename_i ahead
    rw [ahead] at symbol
    exact ⟨advance_behind_of_ahead ahead, if_pos symbol⟩
  · rename_i ahead
    rw [ahead] at symbol
    exact absurd (Option.some.inj symbol).symm hw

end Stream

namespace Reference

variable {isModule : String → Bool} {stream rest : Stream} {past : Past stream Reference}

/-- A reference is read as a name, unless it begins with the name of a module and a dot. -/
theorem of_read? (h : read? isModule stream = some past) :
    (∃ name, stream.kind = .ident name ∧ past.value = .plain name stream.span) ∨
      ∃ file member, past.value = .member file stream.span member ∧
        ∀ name span, member = .ok (name, span) → stream.Spells file name past.stream := by
  obtain ⟨⟨first, s₁, h₁⟩, hn, rfl⟩ := Option.map_eq_some_iff.1 h
  have kind := Stream.kind_of_name? hn
  obtain rfl := Stream.advance_of_name? hn
  unfold readFrom
  dsimp only
  cases hd : stream.advance.skip? .dot with
  | none => exact .inl ⟨first, kind, rfl⟩
  | some dot =>
    obtain ⟨here, same⟩ := Stream.isAt_of_skip? hd
    obtain ⟨⟨⟩, s₂, h₂⟩ := dot
    obtain rfl := same
    cases isModule first with
    | false => exact .inl ⟨first, kind, rfl⟩
    | true =>
      refine .inr ?_
      dsimp only [Past.after]
      cases hs : stream.advance.advance.name? with
      | none => exact ⟨first, _, rfl, nofun⟩
      | some second =>
        refine ⟨first, _, rfl, fun _ _ he => ?_⟩
        cases he
        exact ⟨kind, here, Stream.kind_of_name? hs, Stream.advance_of_name? hs⟩

/-- What is spelled as a name behind that of a module is read as such. -/
theorem read?_of_spells {file name : String} (h : stream.Spells file name rest)
    (hm : isModule file = true) :
    ∃ past : Past stream Reference, read? isModule stream = some past ∧ past.stream = rest ∧
      past.value = .member file stream.span (.ok (name, stream.advance.advance.span)) := by
  obtain ⟨h₁, first⟩ := Stream.name?_of_kind h.file
  obtain ⟨h₂, dot⟩ := Stream.skip?_of_isAt h.dot nofun
  obtain ⟨h₃, second⟩ := Stream.name?_of_kind h.name
  unfold read?
  rw [first, Option.map_some]
  unfold readFrom
  simp only [dot, hm, Past.after, second, if_true]
  exact ⟨_, rfl, h.rest.symm, rfl⟩

end Reference

/-! ### The names of modules -/

namespace ModuleTable

variable {t : ModuleTable} {id : ModuleId} {name : String}

/-- The file of the module is called `stem`, without folder and extension. -/
def HasStem (t : ModuleTable) (id : ModuleId) (stem : String) : Prop :=
  ∃ m, t.get? id = some m ∧ Path.stem m.path = stem

/-- Modules are named like their files. -/
def NamedByFiles (t : ModuleTable) : Prop :=
  ∀ id m, t.get? id = some m → m.name = Path.stem m.path

theorem name_of_get? {m : Module} (h : t.get? id = some m) : t.name id = m.name := by
  rw [ModuleTable.name, h]
  rfl

theorem NamedByFiles.hasStem_iff (h : t.NamedByFiles) (known : id.index < t.size) :
    t.HasStem id name ↔ t.name id = name := by
  have hm : t.get? id = some t.modules[id.index] := Array.getElem?_eq_getElem known
  constructor
  · rintro ⟨m, hm', rfl⟩
    rw [name_of_get? hm', h id m hm']
  · intro he
    exact ⟨_, hm, by rw [← h id _ hm, ← name_of_get? hm, he]⟩

theorem NamedByFiles.add {path folder : String} (h : t.NamedByFiles) :
    (t.add path folder (Path.stem path)).2.NamedByFiles := by
  intro id m hm
  rw [get?_add] at hm
  split at hm
  · cases hm
    rfl
  · exact h id m hm

theorem NamedByFiles.addImport (h : t.NamedByFiles) (importer imported : ModuleId) :
    (t.addImport importer imported).NamedByFiles := by
  intro id m hm
  obtain ⟨n, hn, rfl | rfl⟩ := get?_of_addImport hm
  · exact h id m hn
  · exact h id n hn

/-- A name of a module that has been read, other than that of the predeclared names, is found. -/
theorem isSome_findByName? {m : Module} (h : t.get? id = some m) (file : id ≠ .predeclared)
    (hn : m.name = name) : (t.findByName? name).isSome = true := by
  unfold findByName?
  rw [Option.isSome_map, List.find?_isSome]
  refine ⟨id.index, List.mem_range.2 (lt_of_get?_eq_some h), ?_⟩
  have hm : t.modules[id.index]? = some m := h
  rw [hm]
  refine Bool.and_eq_true_iff.2 ⟨decide_eq_true fun h0 => file (ModuleId.ext h0), decide_eq_true hn⟩

theorem name_of_findByName? (h : t.findByName? name = some id) :
    id.index < t.size ∧ t.name id = name := by
  obtain ⟨n, hn, rfl⟩ := Option.map_eq_some_iff.1 h
  have found := List.find?_some hn
  split at found
  · rename_i m hm
    have hm : t.get? ⟨n⟩ = some m := hm
    have same := (Bool.and_eq_true_iff.1 found).2
    exact ⟨lt_of_get?_eq_some hm, (name_of_get? hm).trans (of_decide_eq_true same)⟩
  · cases found

theorem name_of_findImportedByName? {importer : ModuleId}
    (h : t.findImportedByName? importer name = some id) : t.name id = name := by
  unfold findImportedByName? at h
  cases hf : (t.importsOf importer).find? (t.name · = name) with
  | none =>
    rw [hf] at h
    exact (name_of_findByName? h).2
  | some imported =>
    rw [hf] at h
    cases h
    exact of_decide_eq_true (List.find?_some (p := (t.name · = name)) hf)

theorem mem_importsOf {importer imported : ModuleId} :
    imported ∈ t.importsOf importer ↔ t.Imports importer imported := by
  unfold Imports ModuleTable.imports
  rw [List.contains_iff_mem]

/-- Of several modules with one name, the imported one is found. -/
theorem findImportedByName?_of_imports {importer imported : ModuleId}
    (h : t.Imports importer imported) (hn : t.name imported = name)
    (only : ∀ other, t.Imports importer other → t.name other = name → other = imported) :
    t.findImportedByName? importer name = some imported := by
  unfold findImportedByName?
  cases hf : (t.importsOf importer).find? (t.name · = name) with
  | none =>
    exact absurd (decide_eq_true hn) (List.find?_eq_none.1 hf imported (mem_importsOf.2 h))
  | some other =>
    have same := of_decide_eq_true (List.find?_some (p := (t.name · = name)) hf)
    rw [only other (mem_importsOf.1 (List.mem_of_find?_eq_some hf)) same]
    rfl

end ModuleTable

namespace Session

variable {U : Set TypeId} {s t : Session}

theorem Step.namedByFiles (h : s.Step U t) (hs : s.modules.NamedByFiles) :
    t.modules.NamedByFiles := by
  cases h with
  | openModule =>
    intro id m hm
    exact hs.add id m (by rwa [← ModuleTable.get?_begin])
  | addImport => exact hs.addImport _ _
  | finish => exact hs
  | _ => exact hs

theorem Change.namedByFiles (h : s.Change t) (hs : s.modules.NamedByFiles) :
    t.modules.NamedByFiles := by
  cases h with
  | step _ step => exact step.namedByFiles hs
  | _ => exact hs

theorem stem_predeclaredPath : Path.stem predeclaredPath = predeclaredPath := by
  decide +kernel

theorem namedByFiles_initial (settings : Settings) : (initial settings).modules.NamedByFiles := by
  intro id m hm
  rw [(get?_modules_initial hm).2]
  exact stem_predeclaredPath.symm

end Session

theorem namedByFiles_of_mem_history {setup : Setup} {root : String} {s : Session}
    (h : s ∈ history setup root) : s.modules.NamedByFiles :=
  (history_induction (Session.namedByFiles_initial setup.settings)
    (fun _ _ _ changes => changes.change.namedByFiles) s h).2

/-! ### What a reference stands for -/

namespace Session

variable {s t : Session}

/-- What the reference at the front of `stream`, which ends where `rest` begins, can stand for. -/
inductive Sees (s : Session) (stream rest : Stream) (i : Ident) : Prop
  | inside (name : stream.kind = .ident i.name) (module : i.module = s.blocks.module)
      (block : i.block ∈ s.blocks.scopes) (plain : i.receiver? = none)
  | predeclared (name : stream.kind = .ident i.name) (module : i.module = .predeclared)
  /-- An exported identifier of another module, behind the name of its file. -/
  | member {file : String} (spelled : stream.Spells file i.name rest)
      (imported : s.modules.Imports s.blocks.module i.module)
      (stem : s.modules.HasStem i.module file) (block : i.block = .moduleScope)
      (plain : i.receiver? = none) (exported : i.exported = true)

/-- Of all modules that are called `file`, the module being read imports just this one. -/
structure ImportsOnly (s : Session) (file : String) (module : ModuleId) : Prop where
  imported : s.modules.Imports s.blocks.module module
  stem : s.modules.HasStem module file
  only : ∀ other, s.modules.Imports s.blocks.module other → s.modules.HasStem other file →
    other = module

/-- What a name of the module stands for in the modules that import it. -/
structure Offers (s : Session) (module : ModuleId) (name : String) (x : IdentId × Ident) : Prop where
  found : s.idents.findInModule? module name = some x.1
  ident : s.idents.get? x.1 = some x.2
  exported : x.2.exported = true

theorem Valid.imported_lt {U : Set TypeId} (h : s.Valid U) {importer imported : ModuleId}
    (hi : s.modules.Imports importer imported) : imported.index < s.modules.size := by
  obtain ⟨m, hm, hb⟩ := ModuleTable.imports_iff.1 hi
  exact (h.modules importer m hm).imports imported hb

/-- Whatever other modules are called like it, the imported one is meant. -/
theorem ImportsOnly.findImportedByName? {file : String} {module : ModuleId}
    (h : s.ImportsOnly file module) (hs : s.Valid ∅) (named : s.modules.NamedByFiles) :
    s.modules.findImportedByName? s.blocks.module file = some module := by
  have name := (named.hasStem_iff (hs.imported_lt h.imported)).1 h.stem
  refine ModuleTable.findImportedByName?_of_imports h.imported name fun other hi hn => ?_
  exact h.only other hi ((named.hasStem_iff (hs.imported_lt hi)).2 hn)

/-- A file that is imported can be named. -/
theorem ImportsOnly.isModule {file : String} {module : ModuleId} (h : s.ImportsOnly file module)
    (named : s.modules.NamedByFiles) (hm : module ≠ .predeclared) : s.isModule file = true := by
  obtain ⟨m, hm', rfl⟩ := h.stem
  exact ModuleTable.isSome_findByName? hm' hm (named module m hm')

end Session

namespace Action

open Session

variable {setup : Setup} {s t : Session} {stream : Stream} {x : IdentId × Ident}

theorem yields_resolve_plain {name : String} {span : Span} :
    (resolve (.plain name span)).Yields setup s x t ↔
      s.idents.find? s.blocks name = some x.1 ∧ s.idents.get? x.1 = some x.2 ∧ t = s := by
  unfold resolve
  rw [yields_get]
  exact yields_found

theorem yields_resolve_member {file : String} {span : Span}
    {member : Except Fault (String × Span)} :
    (resolve (.member file span member)).Yields setup s x t ↔
      ∃ module name nameSpan, s.modules.findImportedByName? s.blocks.module file = some module ∧
        s.modules.Imports s.blocks.module module ∧ member = .ok (name, nameSpan) ∧
        s.Offers module name x ∧ t = s := by
  unfold resolve
  rw [yields_get]
  dsimp only
  constructor
  · intro h
    split at h
    · exact absurd h not_yields_fail
    · rename_i module hm
      rw [fail_bind] at h
      split at h
      · exact absurd h not_yields_fail
      · rename_i imported
        obtain ⟨⟨name, nameSpan⟩, _, read, rest⟩ := yields_bind.1 h
        obtain ⟨rfl, rfl⟩ := yields_ofExcept.1 read
        obtain ⟨y, _, named, last⟩ := yields_bind.1 rest
        obtain ⟨hn, hi, rfl⟩ := yields_found.1 named
        dsimp only at last
        rw [fail_bind] at last
        split at last
        · exact absurd last not_yields_fail
        · rename_i exported
          obtain ⟨rfl, rfl⟩ := yields_pure.1 last
          refine ⟨module, name, nameSpan, hm, ?_, rfl, ⟨hn, hi, ?_⟩, rfl⟩
          · exact Bool.eq_true_of_not_eq_false (by simpa using imported)
          · exact Bool.eq_true_of_not_eq_false (by simpa using exported)
  · rintro ⟨module, name, nameSpan, hm, imported, rfl, offered, ht⟩
    have imported : ¬ (!s.modules.imports s.blocks.module module) = true := by
      rw [show s.modules.imports s.blocks.module module = true from imported]
      nofun
    have exported : ¬ (!x.2.exported) = true := by
      rw [offered.exported]
      nofun
    simp only [hm, fail_bind, if_neg imported]
    refine yields_bind.2 ⟨_, s, yields_ofExcept.2 ⟨rfl, rfl⟩, ?_⟩
    refine yields_bind.2 ⟨x, s, yields_found.2 ⟨offered.found, offered.ident, rfl⟩, ?_⟩
    rw [if_neg exported]
    exact yields_pure.2 ⟨rfl, ht⟩

theorem yields_reference {past : Past stream (IdentId × Ident)} :
    (reference stream).Yields setup s past t ↔
      ∃ r : Past stream Reference, Reference.read? s.isModule stream = some r ∧
        past.stream = r.stream ∧ (resolve r.value).Yields setup s past.value t := by
  unfold reference
  rw [yields_get]
  constructor
  · intro h
    split at h
    · rename_i r s' hs hr
      obtain ⟨y, u, resolved, last⟩ := yields_bind.1 h
      obtain ⟨rfl, rfl⟩ := yields_pure.1 last
      exact ⟨_, hr, rfl, resolved⟩
    · exact absurd h not_yields_fail
  · rintro ⟨⟨r, s', hs⟩, hr, he, resolved⟩
    obtain ⟨y, s'', hs'⟩ := past
    cases he
    rw [hr]
    exact yields_bind.2 ⟨y, t, resolved, yields_pure.2 ⟨rfl, rfl⟩⟩

/-- A reference leaves the session as it is. What it stands for can be seen from where it is. -/
theorem sees_of_reference (hs : s.Valid ∅) (named : s.modules.NamedByFiles)
    {past : Past stream (IdentId × Ident)} (h : (reference stream).Yields setup s past t) :
    t = s ∧ s.idents.get? past.value.1 = some past.value.2 ∧
      s.Sees stream past.stream past.value.2 := by
  obtain ⟨r, hr, rest, resolved⟩ := yields_reference.1 h
  rcases Reference.of_read? hr with ⟨name, kind, hv⟩ | ⟨file, member, hv, spells⟩
  · rw [hv] at resolved
    obtain ⟨hf, hi, rfl⟩ := yields_resolve_plain.1 resolved
    obtain ⟨i, hi', visible⟩ := visible_of_find? hf
    cases hi.symm.trans hi'
    refine ⟨rfl, hi, ?_⟩
    have spelled : stream.kind = .ident past.value.2.name := by rw [kind, visible.name]
    rcases visible.scope with ⟨module, block⟩ | ⟨module, _⟩
    · refine .inside spelled module (List.mem_append.2 (block.imp_right ?_)) visible.plain
      exact List.mem_singleton.2
    · exact .predeclared spelled module
  · rw [hv] at resolved
    obtain ⟨module, name, _, hm, imported, he, offered, rfl⟩ := yields_resolve_member.1 resolved
    obtain ⟨i, hi, key⟩ := IdentTable.findNamed?_eq_some offered.found
    cases offered.ident.symm.trans hi
    simp only [Ident.key, Prod.mk.injEq] at key
    obtain ⟨rfl, block, plain, rfl⟩ := key
    have stem := (named.hasStem_iff (hs.imported_lt imported)).2
      (ModuleTable.name_of_findImportedByName? hm)
    refine ⟨rfl, offered.ident, .member ?_ imported stem block plain offered.exported⟩
    rw [rest]
    exact spells _ _ he

/-- Where one module of a name is imported, a name behind it stands for what that module offers. -/
theorem yields_reference_of_spells (hs : s.Valid ∅) (named : s.modules.NamedByFiles)
    {file name : String} {module : ModuleId} {rest : Stream} (only : s.ImportsOnly file module)
    (hm : s.isModule file = true) (spelled : stream.Spells file name rest)
    {past : Past stream (IdentId × Ident)} :
    (reference stream).Yields setup s past t ↔
      past.stream = rest ∧ s.Offers module name past.value ∧ t = s := by
  obtain ⟨r, hr, rfl, hv⟩ := Reference.read?_of_spells spelled hm
  have found := only.findImportedByName? hs named
  rw [yields_reference]
  constructor
  · rintro ⟨r', hr', he, resolved⟩
    cases hr.symm.trans hr'
    rw [hv] at resolved
    obtain ⟨module', name', _, hm', _, member, offered, ht⟩ := yields_resolve_member.1 resolved
    cases found.symm.trans hm'
    cases member
    exact ⟨he, offered, ht⟩
  · rintro ⟨he, offered, ht⟩
    refine ⟨r, hr, he, ?_⟩
    rw [hv]
    exact yields_resolve_member.2 ⟨module, name, _, found, only.imported, rfl, offered, ht⟩

end Action

/-- Throughout a compilation a reference stands for an identifier of the module being read, in a block
that is open, for a predeclared one, or for what it calls by the name of a file: an exported
identifier of a module that is imported by the module being read itself. Where this imports one
module of that name, it is this one that is looked into, whatever other modules have been read. -/
theorem history_references (setup : Setup) (root : String) :
    (∀ s ∈ history setup root, ∀ stream past t,
      (Action.reference stream).Yields setup s past t →
      t = s ∧ s.idents.get? past.value.1 = some past.value.2 ∧
        s.Sees stream past.stream past.value.2) ∧
      ∀ s ∈ history setup root, ∀ file module, s.ImportsOnly file module →
        (module ≠ .predeclared → s.isModule file = true) ∧
          (s.isModule file = true → ∀ stream name rest, stream.Spells file name rest →
            ∀ past t, (Action.reference stream).Yields setup s past t ↔
              past.stream = rest ∧ s.Offers module name past.value ∧ t = s) := by
  constructor
  · intro s hs stream past t h
    exact Action.sees_of_reference (valid_of_mem_history hs) (namedByFiles_of_mem_history hs) h
  · intro s hs file module only
    have named := namedByFiles_of_mem_history hs
    refine ⟨only.isModule named, fun hm stream name rest spelled past t => ?_⟩
    exact Action.yields_reference_of_spells (valid_of_mem_history hs) named only hm spelled

end FrontEnd
