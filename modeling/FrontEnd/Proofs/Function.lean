import FrontEnd.Proofs.Bodies
import FrontEnd.Proofs.Statement
import FrontEnd.Function

/-!
Functions and the declarations of a module. After each of them the code is laid out as the functions
that have been declared ask for.
-/

namespace FrontEnd

/-- The parts of a session that the declarations of a module change. -/
def moduleParts : Set Part :=
  {part | part ≠ .files}

theorem subset_moduleParts {may : Set Part} (h : .files ∉ may) : may ⊆ moduleParts := by
  rintro part hp rfl
  exact h hp

theorem mem_moduleParts (part : Part) (h : part ≠ .files := by decide) : part ∈ moduleParts := h

theorem bodyParts_subset_moduleParts : bodyParts ⊆ moduleParts :=
  subset_moduleParts fun h => h.2 rfl

theorem itemParts_subset_moduleParts (inside : Bool) : itemParts inside ⊆ moduleParts :=
  (itemParts_subset_bodyParts inside).trans bodyParts_subset_moduleParts

namespace Session

variable {settings : Settings} {s t u : Session}

theorem keeps_univ (s t : Session) : s.Keeps Set.univ t where
  idents hm := absurd (Set.mem_univ _) hm
  functions hm := absurd (Set.mem_univ _) hm
  code hm := absurd (Set.mem_univ _) hm
  globals hm := absurd (Set.mem_univ _) hm
  frames hm := absurd (Set.mem_univ _) hm
  scopes hm := absurd (Set.mem_univ _) hm
  files hm := absurd (Set.mem_univ _) hm

/-- The file being read and what is known about files stay the same. -/
theorem keeps_moduleParts (names : t.names = s.names) (modules : t.modules = s.modules)
    (module : t.blocks.module = s.blocks.module) (depth : t.importDepth = s.importDepth)
    (file : t.place.file = s.place.file) : s.Keeps moduleParts t where
  idents hm := absurd (mem_moduleParts .idents) hm
  functions hm := absurd (mem_moduleParts .functions) hm
  code hm := absurd (mem_moduleParts .code) hm
  globals hm := absurd (mem_moduleParts .globals) hm
  frames hm := absurd (mem_moduleParts .frames) hm
  scopes hm := absurd (mem_moduleParts .scopes) hm
  files _ := ⟨names, modules, module, depth, file⟩

/-- A session between two declarations of a module. -/
structure Settled (settings : Settings) (s : Session) : Prop where
  outside : s.At false
  laid : s.Laid settings

theorem Settled.evolves (h : s.Settled settings) (e : s.Evolves (itemParts false) t) :
    t.Settled settings where
  outside := h.outside.evolves e
  laid := h.laid.same e.grows (e.keeps.functions (by simp [itemParts])).1
    (e.keeps.code (by simp [itemParts]))

theorem Settled.scope (h : s.Settled settings) (hs : t.blocks.scope = s.blocks.scope)
    (hl : t.Laid settings) : t.Settled settings where
  outside := (Blocks.atModuleScope_eq hs).trans h.outside
  laid := hl

/-- What is said about files and modules keeps a session settled. -/
theorem Settled.same (h : s.Settled settings) (g : s.Grows t)
    (hi : t.idents = s.idents) (hc : t.code = s.code)
    (hb : t.blocks.stack = s.blocks.stack) : t.Settled settings where
  outside := by rw [At, Blocks.atModuleScope, hb]; exact h.outside
  laid := h.laid.same g (by rw [hi]) hc

/-- A settled session, with what is known of the bodies that have been read. -/
structure Arranged (settings : Settings) (s : Session) : Prop extends s.Settled settings where
  answers : ∃ ends, s.Answers ends

theorem Arranged.same (h : s.Arranged settings) (g : s.Grows t) (ht : t.types = s.types)
    (hi : t.idents = s.idents) (hc : t.code = s.code)
    (hb : t.blocks.stack = s.blocks.stack) : t.Arranged settings where
  toSettled := h.toSettled.same g hi hc hb
  answers := by
    obtain ⟨ends, answers⟩ := h.answers
    exact ⟨ends, answers.same g (g.fixes_same ht) (by rw [hi]) hc⟩

/-- What declarations read since `s` leave behind: the code is laid out, and the bodies that have been
read keep to what their functions return. -/
structure Arranges (settings : Settings) (s t : Session) : Prop where
  settled : t.Settled settings
  answers : ∀ ends, s.Answers ends → ∃ ends, t.Answers ends

theorem Arranges.arranged (h : s.Arranges settings t) (hs : s.Arranged settings) :
    t.Arranged settings := by
  obtain ⟨ends, answers⟩ := hs.answers
  exact ⟨h.settled, h.answers ends answers⟩

theorem Settled.arranges_self (h : s.Settled settings) : s.Arranges settings s :=
  ⟨h, fun ends ha => ⟨ends, ha⟩⟩

theorem Arranges.trans (h : s.Arranges settings t) (h' : t.Arranges settings u) :
    s.Arranges settings u := by
  refine ⟨h'.settled, fun ends ha => ?_⟩
  obtain ⟨ends', ha'⟩ := h.answers ends ha
  exact h'.answers ends' ha'

theorem Settled.arranges (h : s.Settled settings) (e : s.Evolves (itemParts false) t) :
    s.Arranges settings t where
  settled := h.evolves e
  answers ends ha := ⟨ends, ha.same e.grows e.fixes (e.keeps.functions (by simp [itemParts])).1
    (e.keeps.code (by simp [itemParts]))⟩

/-- A function that has been declared and is to be read. -/
structure Opens (s : Session) (id : IdentId) (i : Ident) (signature : Signature) : Prop where
  found : s.idents.get? id = some i
  kind : i.kind = .function
  type : s.types.kind i.type = .function signature
  fits : signature.Fits ∅ s

end Session

namespace Action

open Session

variable {setup : Setup} {s : Session} {stream : Stream} {id : IdentId} {i : Ident}
  {signature : Signature}

/-! ### Bodies -/

theorem meets_defineEntry (h : s.Ready ∅) (hc : s.code.instructions[0]? = some .nop) :
    (defineEntry i signature).Meets setup moduleParts ∅ (fun _ t =>
      (∃ code, s.code.Prepares true code ∧ t = { s with code }) ∧
        signature.parameters = [] ∧ signature.result? = some .void) s := by
  unfold defineEntry
  simp only [fail_bind]
  split
  · rw [meets_read]
    exact meets_fail rfl
  · rename_i hs
    have hs : signature.parameters.isEmpty = true ∧ signature.result? = some .void := by
      simpa using hs
    have size : 0 < s.code.size := Code.getElem?_lt hc
    rw [meets_get]
    unfold Code.patch?
    rw [if_pos size]
    have patched : s.code.patch? 0 (.goto s.code.size) = some _ := if_pos size
    refine meets_write h (.patch hc (.inl rfl) patched) (keeps_moduleParts rfl rfl rfl rfl rfl)
      ⟨⟨_, ⟨?_, fun a ha => ?_, ?_, (Bool.or_true _).symm⟩, rfl⟩, List.isEmpty_iff.1 hs.1, hs.2⟩
    · exact Array.size_setIfInBounds
    · exact Array.getElem?_setIfInBounds_ne ha.symm
    · exact Array.getElem?_setIfInBounds_self_of_lt size

theorem meets_prepareEntry (h : s.Ready ∅)
    (hc : isEntry setup.settings s i = true → s.code.instructions[0]? = some .nop) :
    (prepareEntry i signature).Meets setup moduleParts ∅ (fun _ t =>
      (∃ code, s.code.Prepares (isEntry setup.settings s i) code ∧ t = { s with code }) ∧
        (isEntry setup.settings s i = true →
          signature.parameters = [] ∧ signature.result? = some .void)) s := by
  unfold prepareEntry
  rw [meets_read, meets_get]
  split
  · rename_i he
    rw [he]
    exact (meets_defineEntry h (hc he)).imp fun _ t _ _ ht => ⟨ht.1, fun _ => ht.2⟩
  · rename_i he
    rw [Bool.eq_false_iff.2 he]
    exact meets_pure h ⟨⟨s.code, Code.prepares_false s.code, rfl⟩, nofun⟩

theorem meets_place {function? : Option String} (h : s.Ready ∅) :
    (modify fun t => { t with place := { t.place with function? } } : Action PUnit).Meets setup
      moduleParts ∅ (fun _ t => t = { s with place := { s.place with function? } }) s := by
  have step : s.Step ∅ { s with place := { s.place with function? } } := .place
  exact meets_write h step (keeps_moduleParts rfl rfl rfl rfl rfl) rfl

theorem fits_parameter (h : signature.Fits ∅ s) {p : Parameter} (hp : p ∈ signature.parameters) :
    s.Solid ∅ p.type ∧ p.name ∈ s.names.texts := by
  have part : p.type ∈ (TypeKind.function signature).parts :=
    List.mem_append_left _ (List.mem_map_of_mem hp)
  exact ⟨⟨h.valid.refs _ part, h.valid.parts _ part⟩, h.valid.names _ (List.mem_map_of_mem hp)⟩

theorem meets_functionBlock {span : Span} (h : s.Ready ∅) (hin : s.InFunction)
    (hs : signature.Fits ∅ s) (hk : s.Knows stream) :
    (functionBlock signature span stream).Meets setup bodyParts ∅ s.Continues s := by
  unfold functionBlock
  have parameters : (signature.parameters.forM fun p =>
      discard (declareVariable p.name false p.type span)).Meets setup (itemParts true) ∅
      (fun _ t => t.code = s.code) s := by
    refine meets_forM h rfl fun p hm t ht e same => ?_
    obtain ⟨solid, known⟩ := fits_parameter hs hm
    have known := e.grows.names _ known
    have declared : (declareVariable p.name false p.type span).Meets setup (itemParts true) ∅ _ t :=
      meets_declareVariable ht (hin.at_true.evolves e) (solid.evolves e) known
    exact declared.bind fun _ u hu _ hd => meets_pure hu (hd.2.2.trans same)
  have parameters : (signature.parameters.forM fun p =>
      discard (declareVariable p.name false p.type span)).Meets setup bodyParts ∅ s.Continues s :=
    parameters.mono (itemParts_subset_bodyParts true) (Set.Subset.refl _) fun _ _ _ e same =>
      (assigns_same same).continues e.scope
  refine parameters.bind fun _ t ht e hs => ?_
  exact (meets_blockBody stream t ht (hin.scope hs.scope) (hk.evolves e)).imp
    fun _ _ _ e' hu => hs.trans e hu e'

/-- What reading the body of the function `i` leaves behind. -/
structure BodyRead (settings : Settings) (s : Session) (i : Ident) (signature : Signature)
    (t : Session) : Prop where
  scope : t.blocks.scope = s.blocks.scope
  functions : t.idents.functions = s.idents.functions
  code : s.code.Compiles (isEntry settings s i) t.code
  entry : isEntry settings s i = true → signature.parameters = [] ∧ signature.result? = some .void
  performs : ∀ result, s.Returns signature result → ∀ u, t.Fixes u →
    (result ≠ .void → u.types.ReservesName signature result) →
    u.types.Performs signature t.code s.code.size t.code.size

theorem meets_functionBody (h : s.Ready ∅) (ho : s.Opens id i signature) (hpos : 0 < s.code.size)
    (hc : isEntry setup.settings s i = true → s.code.instructions[0]? = some .nop)
    (hk : s.Knows stream) :
    (functionBody id i signature stream).Meets setup moduleParts ∅
      (fun _ t => BodyRead setup.settings s i signature t) s := by
  unfold functionBody
  refine (meets_prepareEntry h hc).bind fun _ t₁ h₁ e₁ ht₁ => ?_
  obtain ⟨⟨code, prepared, rfl⟩, entry⟩ := ht₁
  rw [meets_get]
  refine (meets_place h₁).bind fun _ t₂ h₂ e₂ ht₂ => ?_
  have opened : ∀ f ∈ some id, t₂.IsFunction f := by
    rintro f ⟨⟩
    rw [ht₂]
    exact ⟨i, ho.found, ho.kind, signature, ho.type⟩
  refine (meets_enter h₂ (mem_moduleParts _) opened).bind fun _ t₃ h₃ e₃ ht₃ => ?_
  have inside : t₃.InFunction := by
    rw [ht₃]
    rfl
  have before := (e₁.trans e₂).trans e₃
  have fits := ho.fits.evolves before
  have known := hk.evolves before
  have block : (functionBlock signature i.span stream).Meets setup bodyParts ∅ _ t₃ :=
    meets_functionBlock h₃ inside fits known
  apply (block.recall bodyParts_subset_moduleParts).bind
  rintro rest t₄ h₄ _ ⟨e₄, continues⟩
  have returned : (emit (.leave signature.parametersSize)).Meets setup {.code} ∅ _ t₄ :=
    meets_emit h₄ (.of_nil rfl rfl) rfl
  refine (returned.allow (subset_moduleParts (by simp))).bind fun _ t₅ h₅ e₅ ht₅ => ?_
  refine (meets_leave h₅ (mem_moduleParts _)).bind fun _ t₆ h₆ e₆ ht₆ => ?_
  refine (meets_place h₆).bind fun _ t₇ h₇ e₇ ht₇ => meets_pure h₇ ?_
  have behind := (e₅.trans e₆).trans e₇
  obtain ⟨functions, extends_, _⟩ := e₄.keeps.functions fun hm => hm.1 rfl
  have blocks : t₃.blocks = s.blocks.enter (some id) := by rw [ht₃, ht₂]
  have size : t₃.code.size = s.code.size := by rw [ht₃, ht₂]; exact prepared.size
  have encloses : t₃.Encloses signature := by
    rw [ht₃, ht₂]
    exact ⟨id, i, rfl, ho.found, ho.type⟩
  have emitted : t₇.code = t₄.code.emit (.leave signature.parametersSize) := by
    rw [ht₇, ht₆, ht₅]
  have performs (result : TypeId) (returns : s.Returns signature result) (u : Session)
      (later : t₇.Fixes u) (reserves : result ≠ .void → u.types.ReservesName signature result) :
      u.types.Performs signature t₇.code s.code.size t₇.code.size := by
    have later := behind.fixes.trans later
    have returns := before.fixes.returns returns
    have inBody : t₃.InBody signature := ⟨encloses, result, returns, fun hv =>
      ((e₄.fixes.trans later).reservesName returns.settles).1 (reserves hv)⟩
    obtain ⟨more, appends, phrases⟩ := continues.phrases signature inBody
    rw [emitted, ← size]
    exact appends.performs (phrases u later)
  refine ⟨?_, ?_, ?_, entry, performs⟩
  · rw [ht₇, ht₆, ht₅]
    exact scope_leave blocks continues.scope
  · rw [ht₇, ht₆, ht₅]
    rw [ht₃, ht₂] at functions
    exact functions
  · rw [ht₃, ht₂] at extends_
    rw [emitted]
    exact prepared.compiles hpos extends_

/-! ### Heads -/

theorem meets_receiver (h : s.Ready ∅) (hk : s.Knows stream) :
    (receiver stream).Meets setup {.idents} ∅
      (fun past t => (t.Usable ∅ past.value.1 ∧ t.IsReceiver past.value.1) ∧
        past.value.2.Fits ∅ t) s := by
  unfold receiver
  apply meets_eat
  rintro ⟨⟨⟩, s₁, h₁⟩
  apply meets_eatName (hk.behind h₁)
  rintro ⟨name, s₂, h₂⟩ known
  apply meets_eat
  rintro ⟨⟨⟩, s₃, h₃⟩
  have h₃ := (h₃.trans h₂).trans h₁
  apply (meets_typeExpression h (hk.behind h₃)).bind
  rintro ⟨type, s₄, h₄⟩ t ht e solid
  rw [meets_get]
  dsimp only
  split
  · exact meets_fail rfl
  · rename_i base hb
    obtain ⟨hb, structured⟩ := Option.filter_eq_some_iff.1 hb
    have hp : t.types.kind type = .pointer base := by
      unfold TypeTable.pointerBase? at hb
      split at hb
      · rename_i hp
        cases hb
        exact hp
      · cases hb
    refine meets_eat fun _ => meets_pure ht ⟨⟨?_, structured, type, hp⟩, ?_⟩
    · have valid := ht.kinds type
      rw [hp] at valid
      exact valid.refs base (List.mem_singleton_self base)
    · have started : Signature.Fits ∅ t { Signature.empty with isMethod := true } :=
        ⟨.of_nil rfl rfl, nofun⟩
      exact started.getD_addParameter solid (e.grows.names _ known)

theorem meets_optionalReceiver (h : s.Ready ∅) (hk : s.Knows stream) :
    (optionalReceiver stream).Meets setup {.idents} ∅
      (fun rest t => (∀ r ∈ rest.value.1, t.Usable ∅ r ∧ t.IsReceiver r) ∧
        rest.value.2.Fits ∅ t) s := by
  unfold optionalReceiver
  split
  · refine (meets_receiver h hk).bind fun past t ht _ hr => meets_pure ht ⟨?_, hr.2⟩
    rintro r ⟨⟩
    exact hr.1
  · exact meets_pure h ⟨nofun, Signature.fits_empty⟩

theorem meets_functionName {receiver? : Option TypeId} {may : Set Part} (h : s.Ready ∅)
    (hk : s.Knows stream) :
    (functionName receiver? stream).Meets setup may ∅
      (fun past t => (past.value ∈ t.names.texts ∧
        ∀ r ∈ receiver?, s.types.findField? r past.value = none) ∧ t = s) s := by
  unfold functionName checkMethodName
  refine meets_eatName hk fun past known => ?_
  simp only [fail_bind]
  split
  · simp only [bind_assoc]
    rw [meets_get]
    split
    · exact meets_fail rfl
    · rename_i free
      split
      · exact meets_fail rfl
      · refine meets_pure h ⟨⟨known, ?_⟩, rfl⟩
        rintro r ⟨⟩
        exact Option.not_isSome_iff_eq_none.1 free
  · rename_i plain
    exact meets_pure h ⟨⟨known, fun r hm => (plain r hm).elim⟩, rfl⟩

/-! ### Declarations -/

/-- The function `i` has just been declared behind the code of `s`. -/
structure Announced (s : Session) (signature : Signature) (hasBody : Bool) (i : Ident) (t : Session) :
    Prop where
  fresh : ∀ other j, s.idents.get? other = some j → j.key ≠ i.key
  functions : t.idents.functions = s.idents.functions ++ [i]
  code : t.code = s.code
  scope : t.blocks.scope = s.blocks.scope
  payload : i.payload = .function s.code.size (if hasBody then none else some s.code.size)
  place : i.module = s.blocks.module ∧ i.block = s.blocks.current

theorem meets_declareFunction {name : String} {exported : Bool} {receiver? : Option TypeId}
    {hasBody : Bool} {span : Span} (h : s.Ready ∅) (hin : s.At false) (hn : name ∈ s.names.texts)
    (hr : ∀ r ∈ receiver?, s.Usable ∅ r ∧ s.Receives r name) (hs : signature.Fits ∅ s) :
    (declareFunction name exported receiver? signature hasBody span).Meets setup moduleParts ∅
      (fun r t => t.Opens r.1 r.2 signature ∧ Announced s signature hasBody r.2 t) s := by
  unfold declareFunction
  apply ((meets_addType h hs.valid rfl rfl trivial hs.defaults).recall (Set.empty_subset _)).bind
  rintro type t ht _ ⟨e, ha⟩
  rw [meets_get, meets_newIdent]
  have idents : t.idents = s.idents := e.keeps.idents nofun
  have code : t.code = s.code := e.keeps.code nofun
  have blocks : t.blocks = s.blocks := e.keeps.frames nofun nofun nofun
  have outside : t.blocks.atModuleScope = true := by rw [blocks]; exact hin
  generalize hp : Payload.function t.code.size (if hasBody then none else some t.code.size) = payload
  have carries : (t.ident name .function exported type payload span).Carries t := by
    rw [← hp]
    refine ⟨⟨signature, ha.kind⟩, Nat.le_refl _, ?_, Blocks.current_of_atModuleScope outside⟩
    cases hasBody
    · exact .inr rfl
    · exact .inl rfl
  have solid : t.types.isForward type = false := by rw [TypeTable.isForward_eq, ha.kind]; rfl
  have known := e.grows.names _ hn
  have valid := ht.ident ha.usable (fun _ => solid) known carries
  have valid : Ident.Valid ∅ t { t.ident name .function exported type payload span with receiver? } :=
    { valid with receiver := fun r hm => (hr r hm).1.evolves e, plain := fun hk => absurd rfl hk, carries }
  have receives (r : TypeId) (hm : r ∈ receiver?) : t.Receives r name :=
    (hr r hm).2.grows e.grows e.fixes
  refine (meets_declare ht valid solid rfl rfl receives (mem_moduleParts _)
    fun _ => mem_moduleParts _).bind fun id u hu e' hd => meets_pure hu ⟨⟨hd.found, rfl, ?_, ?_⟩, ⟨?_, ?_, ?_, ?_, ?_, ?_⟩⟩
  · exact e'.grows.signature ha.kind
  · exact (hs.evolves e).evolves e'
  · rw [← idents]
    exact hd.fresh
  · rw [← idents]
    exact hd.functions
  · rw [hd.others]
    exact code
  · rw [hd.others, ← blocks]
  · rw [← code]
    exact hp.symm
  · rw [← blocks]
    exact ⟨rfl, rfl⟩

theorem isEntry_iff {settings : Settings} :
    isEntry settings s i = true ↔
      i.name = settings.entryFunction ∧ i.receiver? = none ∧ s.blocks.module = .root := by
  unfold isEntry
  simp [and_assoc]

theorem Announced.reserve {settings : Settings} {t u : Session} (h : s.Settled settings)
    (ha : Announced s signature false i t) (g : s.Grows u) (x : s.Fixes u)
    (hu : u = { t with code := t.code.emit .nop }) : s.Arranges settings u := by
  have scope : u.blocks.scope = s.blocks.scope := by rw [hu]; exact ha.scope
  have functions : u.idents.functions = s.idents.functions ++ [i] := by rw [hu]; exact ha.functions
  have code : u.code = s.code.emit .nop := by rw [hu, ← ha.code]
  exact ⟨h.scope scope (h.laid.reserve g functions code ha.payload),
    fun _ answers => answers.reserve g x h.laid.first functions code ha.payload⟩

/-- The entry function is announced once. -/
theorem Announced.entry {settings : Settings} {t : Session} {hasBody : Bool}
    (h : s.Settled settings) (ha : Announced s signature hasBody i t)
    (he : isEntry settings t i = true) :
    s.code.entryDefined = false ∧ i.key = (.root, .moduleScope, none, settings.entryFunction) := by
  obtain ⟨name, receiver, module⟩ := isEntry_iff.1 he
  have module : i.module = .root := by
    rw [ha.place.1, ← module]
    exact (congrArg Prod.fst ha.scope).symm
  have block : i.block = .moduleScope :=
    ha.place.2.trans (Blocks.current_of_atModuleScope h.outside)
  have key : i.key = (.root, .moduleScope, none, settings.entryFunction) := by
    rw [Ident.key, module, block, receiver, name]
  refine ⟨h.laid.unentered fun other j hj => ?_, key⟩
  rw [← key]
  exact ha.fresh other j hj

theorem Announced.compile {settings : Settings} {t u : Session} {result : TypeId}
    (h : s.Settled settings) (ha : Announced s signature true i t) (ho : t.Opens id i signature)
    (returns : t.Returns signature result) (g : s.Grows t) (x : s.Fixes t) (g' : t.Grows u)
    (x' : t.Fixes u) (hu : BodyRead settings t i signature u) : s.Arranges settings u := by
  have scope : u.blocks.scope = s.blocks.scope := hu.scope.trans ha.scope
  have code := hu.code
  rw [ha.code] at code
  have functions := hu.functions.trans ha.functions
  refine ⟨h.scope scope (h.laid.compile (g.trans g') functions ha.payload code fun he => ?_),
    fun _ answers => answers.compile (g.trans g') (x.trans x') h.laid.first functions ha.payload code
      ⟨signature, result, g'.signature ho.type, x'.returns returns, ?_⟩⟩
  · obtain ⟨first, key⟩ := ha.entry h he
    exact ⟨first, key, signature, g'.signature ho.type, hu.entry he⟩
  · rw [← ha.code]
    exact hu.performs result returns

/-- Any instruction but a jump can be appended. -/
theorem meets_append {instruction : Instruction} (h : s.Ready ∅)
    (valid : instruction.Valid ∅ s) (straight : ∀ target, instruction ≠ .goto target) :
    (emit instruction).Meets setup moduleParts ∅
      (fun a t => a = s.code.size ∧ t = { s with code := s.code.emit instruction }) s := by
  have step : s.Step ∅ { s with code := s.code.emit instruction } := .emit valid straight
  exact meets_write h step (keeps_moduleParts rfl rfl rfl rfl rfl) ⟨rfl, rfl⟩

theorem meets_functionDeclaration (h : s.Ready ∅) (hs : s.Settled setup.settings)
    (hk : s.Knows stream) :
    (functionDeclaration stream).Meets setup moduleParts ∅
      (fun _ t => s.Arranges setup.settings t) s := by
  unfold functionDeclaration
  simp only [fail_bind]
  rw [meets_get]
  split
  · exact meets_fail rfl
  have idents := idents_subset_itemParts false
  have any : ({.idents} : Set Part) ⊆ moduleParts := subset_moduleParts nofun
  apply meets_eat
  rintro ⟨⟨⟩, s₁, h₁⟩
  refine ((meets_optionalReceiver h (hk.behind h₁)).recall any).bind fun head t ht _ hr => ?_
  obtain ⟨⟨receiver?, started⟩, s₂, h₂⟩ := head
  obtain ⟨e, usable, fits⟩ := hr
  have h₂ := h₂.behind h₁
  have hk := (hk.behind h₂).evolves e
  have arranged := hs.arranges (e.mono idents)
  apply (meets_functionName ht hk).bind
  rintro ⟨name, s₃, h₃⟩ _ _ _ ⟨⟨known, free⟩, he⟩
  subst he
  have h₄ := s₃.exportMark.le.behind h₃
  refine ((meets_signature ht (hk.behind h₄) fits).recall any).bind fun past u hu _ hc => ?_
  obtain ⟨complete, s₅, h₅⟩ := past
  obtain ⟨e', read⟩ := hc
  have hk := (hk.behind (h₅.trans h₄)).evolves e'
  have arranged := arranged.trans (arranged.settled.arranges (e'.mono idents))
  have hs := arranged.settled
  have known := e'.grows.names _ known
  have receives (r : TypeId) (hm : r ∈ receiver?) : u.Usable ∅ r ∧ u.Receives r name :=
    ⟨(usable r hm).1.evolves e', Receives.grows ⟨(usable r hm).2, free r hm⟩ e'.grows e'.fixes⟩
  refine (meets_declareFunction hu hs.outside known receives read.fits).bind ?_
  rintro ⟨id, i⟩ v hv e ⟨opens, announced⟩
  have hk := hk.evolves e
  dsimp only
  split
  · rename_i body
    rw [body] at announced
    have first : 0 < v.code.size := by
      rw [announced.code]
      exact hs.laid.first
    have stub (he : isEntry setup.settings v i = true) : v.code.instructions[0]? = some .nop := by
      rw [announced.code]
      exact hs.laid.stub (announced.entry hs he).1
    refine (meets_functionBody hv opens first stub hk).bind fun rest w hw e' body => ?_
    obtain ⟨result, returns⟩ := read.returns
    exact meets_pure hw (arranged.trans (announced.compile hs opens (e.fixes.returns returns) e.grows
      e.fixes e'.grows e'.fixes body))
  · rename_i body
    rw [Bool.eq_false_iff.2 body] at announced
    refine (meets_append hv (.of_nil rfl rfl) (by nofun)).bind fun _ w hw e' reserved => ?_
    exact meets_pure hw (arranged.trans (announced.reserve hs (e.grows.trans e'.grows)
      (e.fixes.trans e'.fixes) reserved.2))

/-- Anything that is declared outside of functions leaves the code as it is. -/
theorem meets_moduleItem {item : (s : Stream) → Action (Shorter s)}
    (hitem : Declares setup false item) (h : s.Ready ∅) (hs : s.Settled setup.settings)
    (hk : s.Knows stream) :
    (kept (item stream)).Meets setup moduleParts ∅ (fun _ t => s.Arranges setup.settings t) s := by
  unfold kept
  refine ((hitem stream s h hs.outside hk).recall (itemParts_subset_moduleParts false)).bind fun _ t ht _ he => ?_
  exact meets_pure ht (hs.arranges he.1)

theorem meets_declaration (h : s.Ready ∅) (hs : s.Settled setup.settings) (hk : s.Knows stream) :
    (declaration stream).Meets setup moduleParts ∅ (fun _ t => s.Arranges setup.settings t) s := by
  unfold declaration
  split
  · exact meets_moduleItem declares_typeDeclaration h hs hk
  · exact meets_moduleItem declares_constantDeclaration h hs hk
  · exact meets_moduleItem declares_variableDeclaration h hs hk
  · unfold kept
    exact (meets_functionDeclaration h hs hk).bind fun _ t ht _ ht' => meets_pure ht ht'
  · exact meets_moduleItem declares_shortDeclaration h hs hk
  · rw [meets_get]
    split
    · exact meets_pure h hs.arranges_self
    · exact meets_fail rfl

theorem meets_declarations (stream : Stream) (s : Session) (h : s.Ready ∅)
    (hs : s.Settled setup.settings) (hk : s.Knows stream) :
    (declarations stream).Meets setup moduleParts ∅ (fun _ t => s.Arranges setup.settings t) s := by
  rw [declarations]
  apply (meets_declaration h hs hk).bind
  rintro ⟨⟨⟩, s₁, h₁⟩ t ht e arranged
  dsimp only
  split
  · exact meets_pure ht arranged
  · rename_i semicolon _
    obtain ⟨_, s₂, h₂⟩ := semicolon
    have h₂ := h₂.of_within h₁
    have hlt := h₂.2
    have hk := (hk.behind h₂).evolves e
    refine (meets_declarations s₂ t ht arranged.settled hk).bind fun _ u hu _ arranged' => ?_
    exact meets_pure hu (arranged.trans arranged')
termination_by stream.size

end Action

end FrontEnd
