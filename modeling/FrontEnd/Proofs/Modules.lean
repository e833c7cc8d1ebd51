import FrontEnd.Proofs.History

/-!
The modules of a program. Whatever is read, no file has two modules, and no module imports itself
through others, since a module imports only what has been read to its end; in a program that compiles
every module has the imports that its file asks for.
-/

namespace FrontEnd

open Relation

namespace ModuleTable

variable {t : ModuleTable}

/-- What is known about modules and their imports at any time. -/
structure Sound (t : ModuleTable) : Prop where
  nonempty : 0 < t.size
  /-- Only the root can have the path of the predeclared names. -/
  distinct : ∀ a b m n, t.get? a = some m → t.get? b = some n → m.path = n.path →
    a.index < b.index → a = .predeclared ∧ b = .root
  idle : .predeclared ∉ t.unfinished
  finished : ∀ a b, t.Imports a b → b ∉ t.unfinished
  acyclic : ∀ id, ¬ TransGen t.Imports id id
  named : ∀ a, t.Imports a .predeclared → ∀ id m, t.get? id = some m →
    m.path = t.path .predeclared → id = .predeclared

namespace Sound

/-- A path has one module, but for that of the predeclared names, which the root can have too. -/
theorem eq_of_path (h : t.Sound) {a b : ModuleId} {m n : Module} (hm : t.get? a = some m)
    (hn : t.get? b = some n) (same : m.path = n.path) :
    a = b ∨ a = .predeclared ∧ b = .root ∨ a = .root ∧ b = .predeclared := by
  rcases Nat.lt_trichotomy a.index b.index with hlt | he | hlt
  · exact .inr (.inl (h.distinct a b m n hm hn same hlt))
  · exact .inl (ModuleId.ext he)
  · exact .inr (.inr (h.distinct b a n m hn hm same.symm hlt).symm)

theorem openModule {path folder name : String} (h : t.Sound)
    (known : ∀ a b, t.Imports a b → b.index < t.size)
    (fresh : 1 < t.size → ∀ id m, t.get? id = some m → m.path ≠ path) :
    ((t.add path folder name).2.begin ⟨t.size⟩).Sound := by
  have get (id : ModuleId) : ((t.add path folder name).2.begin ⟨t.size⟩).get? id =
      if id.index = t.size then some ⟨path, folder, name, []⟩ else t.get? id := by
    rw [get?_begin, get?_add]
  have nonempty := h.nonempty
  -- The new module imports nothing.
  have edge (a b : ModuleId) (hi : ((t.add path folder name).2.begin ⟨t.size⟩).Imports a b) :
      t.Imports a b := by
    obtain ⟨m, hm, hb⟩ := imports_iff.1 hi
    rw [get] at hm
    split at hm
    · cases hm
      cases hb
    · exact imports_iff.2 ⟨m, hm, hb⟩
  refine ⟨?_, fun a b m n hm hn same hlt => ?_, fun hm => ?_, fun a b hi hm => ?_,
    fun id cycle => ?_, fun a hi id m hm same => ?_⟩
  · rw [size_begin, size_add]
    exact Nat.succ_pos _
  · rw [get] at hm hn
    split at hn
    · rename_i hb
      rw [if_neg (by omega)] at hm
      cases hn
      -- The second module of all is the root; it alone may share a path.
      by_cases more : 1 < t.size
      · exact absurd same (fresh more a m hm)
      · exact ⟨ModuleId.ext (by show a.index = 0; omega), ModuleId.ext (by show b.index = 1; omega)⟩
    · have hb := lt_of_get?_eq_some hn
      rw [if_neg (by omega)] at hm
      exact h.distinct a b m n hm hn same hlt
  · rcases mem_unfinished_begin hm with he | hm
    · exact Nat.ne_of_lt nonempty (congrArg ModuleId.index he)
    · exact h.idle hm
  · have hb := known a b (edge a b hi)
    rcases mem_unfinished_begin hm with rfl | hm
    · exact Nat.lt_irrefl _ hb
    · exact h.finished a b (edge a b hi) hm
  · exact h.acyclic id (TransGen.mono edge id id cycle)
  · have hi := edge a _ hi
    have old : ModuleId.predeclared.index ≠ t.size := Nat.ne_of_lt nonempty
    obtain ⟨p, first⟩ : ∃ p, t.get? .predeclared = some p :=
      ⟨_, Array.getElem?_eq_getElem nonempty⟩
    have kept : ((t.add path folder name).2.begin ⟨t.size⟩).get? .predeclared = some p := by
      rw [get, if_neg old, first]
    rw [path_of_get? kept, ← path_of_get? first] at same
    -- The first module does not import itself, so there are others where it is imported.
    have more : 1 < t.size := by
      obtain ⟨n, hn, _⟩ := imports_iff.1 hi
      have hlt := lt_of_get?_eq_some hn
      refine Nat.lt_of_le_of_ne nonempty fun one => h.acyclic .predeclared (.single ?_)
      obtain rfl : a = .predeclared := ModuleId.ext (by show a.index = 0; omega)
      exact hi
    rw [get] at hm
    split at hm
    · cases hm
      rw [path_of_get? first] at same
      exact absurd same.symm (fresh more _ _ first)
    · exact h.named a hi id m hm same

/-- No module that is being read is imported, so a new import begins no way back to it. -/
theorem addImport {importer imported : ModuleId} (h : t.Sound)
    (reading : importer ∈ t.unfinished) (read : imported ∉ t.unfinished)
    (named : imported = .predeclared → ∀ id m, t.get? id = some m → m.path = t.path imported →
      id = imported) :
    (t.addImport importer imported).Sound := by
  have finished (a b : ModuleId) (hi : (t.addImport importer imported).Imports a b) :
      b ∉ t.unfinished := by
    rcases imports_addImport hi with hi | ⟨rfl, rfl⟩
    · exact h.finished a b hi
    · exact read
  have old (a b : ModuleId) (hi : (t.addImport importer imported).Imports a b)
      (ha : a ≠ importer) : t.Imports a b :=
    (imports_addImport hi).resolve_right fun hn => ha hn.1
  -- A way reaches the new import only through the importer, which nothing imports yet.
  have way (a b : ModuleId) (hw : TransGen (t.addImport importer imported).Imports a b)
      (ha : a ≠ importer) : TransGen t.Imports a b := by
    induction hw with
    | single hi => exact .single (old _ _ hi ha)
    | tail hw hi ih =>
      obtain ⟨c, _, hc⟩ := TransGen.tail'_iff.1 hw
      exact ih.tail (old _ _ hi fun he => finished _ _ hc (he ▸ reading))
  refine ⟨?_, fun a b m n hm hn same hlt => ?_, fun hm => ?_, fun a b hi hm => ?_,
    fun id cycle => ?_, fun a hi id m hm same => ?_⟩
  · rw [size_addImport]
    exact h.nonempty
  · obtain ⟨m', hm', _⟩ := get?_of_addImport hm
    obtain ⟨n', hn', _⟩ := get?_of_addImport hn
    rw [← path_of_get? hm, ← path_of_get? hn, path_addImport, path_addImport, path_of_get? hm',
      path_of_get? hn'] at same
    exact h.distinct a b m' n' hm' hn' same hlt
  · rw [unfinished_addImport] at hm
    exact h.idle hm
  · rw [unfinished_addImport] at hm
    exact finished a b hi hm
  · obtain ⟨c, _, hc⟩ := TransGen.tail'_iff.1 cycle
    exact h.acyclic id (way id id cycle fun he => finished _ _ hc (he ▸ reading))
  · obtain ⟨m', hm', _⟩ := get?_of_addImport hm
    rw [← path_of_get? hm, path_addImport, path_addImport, path_of_get? hm'] at same
    rcases imports_addImport hi with hi | ⟨_, he⟩
    · exact h.named a hi id m' hm' same
    · subst he
      exact named rfl id m' hm' same

theorem finish (h : t.Sound) (id : ModuleId) : (t.finish id).Sound :=
  { h with
    idle := fun hm => h.idle (List.mem_filter.1 hm).1
    finished := fun a b hi hm => h.finished a b hi (List.mem_filter.1 hm).1 }

/-- A module that is being read is found under its path. -/
theorem findByPath? (h : t.Sound) {id : ModuleId} {path : Path} (here : t.IsAt id path)
    (unfinished : id ∈ t.unfinished) (canonical : ∀ other m, t.get? other = some m →
      Path.IsCanonical m.path) : t.findByPath? path.toText = some id := by
  obtain ⟨m, hm, hp⟩ := here
  cases hf : t.findByPath? path.toText with
  | none =>
    have none := findByPath?_eq_none hf hm
    rw [hp, Path.sameParts_self] at none
    cases none
  | some other =>
    obtain ⟨⟨n, hn, same⟩, last⟩ := findByPath?_eq_some hf
    have first := last id m hm (hp ▸ Path.sameParts_self path.toText)
    have same := Path.eq_of_sameParts (canonical other n hn) (hp ▸ canonical id m hm) same
    rcases h.eq_of_path hn hm (same.trans hp.symm) with rfl | ⟨rfl, rfl⟩ | ⟨_, rfl⟩
    · rfl
    · exact absurd first (by decide)
    · exact absurd unfinished h.idle

end Sound

end ModuleTable

namespace Session

variable {s t : Session} {U : Set TypeId}

theorem Step.sound (h : s.Step U t) (hv : s.Valid U) (hs : s.modules.Sound) : t.modules.Sound := by
  cases h with
  | openModule _ fresh =>
    refine hs.openModule (fun a b hi => ?_) fresh
    obtain ⟨m, hm, hb⟩ := ModuleTable.imports_iff.1 hi
    exact (hv.modules a m hm).imports b hb
  | addImport _ reading read named => exact hs.addImport reading read named
  | finish => exact hs.finish _
  | _ => exact hs

theorem Change.sound (h : s.Change t) (hv : s.Valid ∅) (hs : s.modules.Sound) :
    t.modules.Sound := by
  cases h with
  | step _ step => exact step.sound hv hs
  | _ => exact hs

/-- At the start there is only the module of the predeclared names. -/
theorem get?_modules_initial {settings : Settings} {id : ModuleId} {m : Module}
    (h : (initial settings).modules.get? id = some m) :
    id = .predeclared ∧ m = ⟨predeclaredPath, "", predeclaredPath, []⟩ := by
  unfold initial at h
  rw [ModuleTable.get?_add] at h
  split at h
  · rename_i hi
    cases h
    exact ⟨ModuleId.ext hi, rfl⟩
  · cases h

theorem sound_initial (settings : Settings) : (initial settings).modules.Sound := by
  have none (a b : ModuleId) : ¬ (initial settings).modules.Imports a b := by
    intro hi
    obtain ⟨m, hm, hb⟩ := ModuleTable.imports_iff.1 hi
    rw [(get?_modules_initial hm).2] at hb
    cases hb
  refine ⟨Nat.zero_lt_one, fun a b m n hm hn _ hlt => ?_, nofun, fun a b hi => absurd hi (none a b),
    fun id cycle => ?_, fun a hi => absurd hi (none a _)⟩
  · rw [(get?_modules_initial hm).1, (get?_modules_initial hn).1] at hlt
    exact absurd hlt (Nat.lt_irrefl _)
  · obtain ⟨c, _, hc⟩ := TransGen.tail'_iff.1 cycle
    exact none c id hc

end Session

theorem sound_of_mem_history {setup : Setup} {root : String} {s : Session}
    (h : s ∈ history setup root) : s.modules.Sound :=
  (history_induction (Session.sound_initial setup.settings)
    (fun _ _ hv hc => hc.change.sound hv) s h).2

/-- The modules of the program of a root file, and what they import. -/
structure WellImported (setup : Setup) (root : String) (t : ModuleTable) : Prop where
  start : t.IsAt .root (Path.normalize root)
  canonical : ∀ id m, t.get? id = some m →
    Path.IsCanonical m.path ∧ m.folder = Path.folder m.path
  unique : ∀ a b m n, a ≠ .predeclared → b ≠ .predeclared → t.get? a = some m →
    t.get? b = some n → m.path = n.path → a = b
  /-- The predeclared names have no file, but a root file can be called like their module. -/
  reserved : ∀ id m, t.get? id = some m → m.path = predeclaredPath → id = .predeclared ∨ id = .root
  reachable : ∀ id m, id ≠ .predeclared → t.get? id = some m → ReflTransGen t.Imports .root id
  /-- The imports are the modules of the literals in the file, and each literal has its module. -/
  imports : ∀ id m, id ≠ .predeclared → t.get? id = some m →
    ∃ stream, setup.words? m.path = some stream ∧
      (∀ e, e ∈ m.imports ↔
        ∃ literal ∈ stream.importLiterals, t.IsAt e (Path.ofImport m.folder literal)) ∧
      ∀ literal ∈ stream.importLiterals, ∃ e, t.IsAt e (Path.ofImport m.folder literal)
  acyclic : ∀ id, ¬ TransGen t.Imports id id
  finished : t.unfinished = []

theorem wellImported_of_compile {setup : Setup} {root : String} {t : Session}
    (h : compile setup root = .ok t) : WellImported setup root t.modules := by
  have reached := List.mem_of_getLast? (getLast?_history_of_compile h)
  have valid := valid_of_mem_history reached
  have sound := sound_of_mem_history reached
  have obtains := (compiled_of_compile h).modules
  have later {id : ModuleId} (hne : id ≠ .predeclared) : 1 ≤ id.index :=
    Nat.pos_of_ne_zero fun he => hne (ModuleId.ext he)
  have reachable (id : ModuleId) (m : Module) (hne : id ≠ .predeclared)
      (hm : t.modules.get? id = some m) : ReflTransGen t.modules.Imports .root id :=
    obtains.read.below id (later hne) (ModuleTable.lt_of_get?_eq_some hm)
  refine ⟨obtains.here, fun id m hm => ?_, fun a b m n ha hb hm hn same => ?_, fun id m hm hp => ?_,
    reachable, fun id m hne hm => ?_, sound.acyclic, obtains.read.unfinished⟩
  · exact ⟨(valid.modules id m hm).canonical, (valid.modules id m hm).folder⟩
  · rcases sound.eq_of_path hm hn same with he | ⟨he, _⟩ | ⟨_, he⟩
    · exact he
    · exact absurd he ha
    · exact absurd he hb
  · by_cases hne : id = .predeclared
    · exact .inl hne
    · have first : t.modules.get? .predeclared = some ⟨predeclaredPath, "", predeclaredPath, []⟩ :=
        obtains.kept .predeclared Nat.zero_lt_one
      exact .inr (sound.distinct _ id _ m first hm hp.symm (later hne)).2
  · obtain ⟨stream, words, adds⟩ := obtains.read.resolved id m (later hne) hm
    refine ⟨stream, words, fun e => ⟨fun he => ?_, fun ⟨literal, hl, he⟩ => ?_⟩, fun literal hl => ?_⟩
    · exact (adds.only e he).resolve_left List.not_mem_nil
    · obtain ⟨n, hn, hp⟩ := he
      obtain ⟨e', hi, n', hn', hp'⟩ := adds.each literal hl
      have edge : t.modules.Imports id e' := ModuleTable.imports_iff.2 ⟨m, hm, hi⟩
      rcases sound.eq_of_path hn hn' (hp.trans hp'.symm) with rfl | ⟨_, rfl⟩ | ⟨rfl, rfl⟩
      · exact hi
      · exact absurd (.tail' (reachable id m hne hm) edge) (sound.acyclic .root)
      · rw [← hp', ← ModuleTable.path_of_get? hn'] at hp
        exact absurd (sound.named id edge .root n hn hp) nofun
    · obtain ⟨e, _, he⟩ := adds.each literal hl
      exact ⟨e, he⟩

/-! ### Modules that import each other -/

namespace Action

variable {setup : Setup} {s : Session} {stream : Stream} {past : Past stream String} {id : ModuleId}

/-- The fault of an import of a module that is still being read. -/
def cyclicImport (s : Session) {stream : Stream} (past : Past stream String) : Diagnostic :=
  let path := Path.ofImport (s.modules.folder s.blocks.module) past.value
  (⟨.cyclicImport path.toText, stream.span⟩ : Fault).inFile s.place.file

end Action

/-- Two files that import each other. -/
def circularProgram : Setup where
  settings := .standard
  sources := ⟨fun path =>
    .ok (if path = "a.um" then "import \"b.um\"\n" else "import \"a.um\"\n")⟩
  hosts := ⟨[]⟩

example : (match compile circularProgram "a.um" with
    | .ok _ => none
    | .error d => some (d.cause, d.scope)) = some (.cyclicImport "a.um", "b.um") := by
  decide +kernel

end FrontEnd
