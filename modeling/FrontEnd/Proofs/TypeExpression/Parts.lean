import FrontEnd.Proofs.Expression.Evaluation
import FrontEnd.Proofs.Number.Word
import FrontEnd.Proofs.Session.Result
import FrontEnd.TypeExpression

/-!
The steps from which type expressions are read. A structure that is being read is not referred to
until it is complete, so it can still gain fields.
-/

namespace FrontEnd

open Session

section Parts

variable {may : Set Part} {U : Set TypeId} {s t : Session}

/-- A structure that is being read inside of the structures `U`. -/
structure Building (U : Set TypeId) (s : Session) (owner : TypeId) : Prop where
  usable : s.Usable U owner
  structured : (s.types.kind owner).isStructure = true

theorem Building.solid {owner : TypeId} (h : Building U s owner) :
    s.types.isForward owner = false := by
  rw [TypeTable.isForward_eq]
  exact TypeKind.isForward_of_isStructure h.structured

theorem Building.evolves {owner : TypeId} (h : Building U s owner)
    (e : s.Evolves may t) : Building U t owner := by
  refine ⟨h.usable.evolves e, ?_⟩
  have structured := h.structured
  have hi := TypeTable.index_lt_of_isStructure structured
  have grows := e.grows.types.kind owner hi h.solid
  generalize t.types.kind owner = k at grows
  generalize s.types.kind owner = l at grows structured
  cases grows with
  | refl => exact structured
  | _ => rfl

/-- A structure keeps its fields while its parts are read. -/
theorem Building.fresh {owner : TypeId} {name : String} (h : Building U s owner)
    (preserves : s.Preserves (insert owner U) t) (fresh : s.types.findField? owner name = none) :
    t.types.findField? owner name = none := by
  have kept := preserves owner (Set.mem_insert owner U) h.structured
  rw [← fresh, TypeTable.findField?, TypeTable.findField?, TypeTable.fields_eq, TypeTable.fields_eq,
    kept]

/-- The pointer to the object itself fits into an interface without other fields. -/
theorem TypeTable.addField_self {t : TypeTable} {owner : TypeId} (ho : t.kind owner = .interface [])
    (hp : t.kind .anyPointer = .pointer .void) :
    ∃ offset types, t.addField owner selfName .anyPointer = some (offset, types) := by
  have so : t.size? owner = some 0 := by
    rw [TypeTable.size?, TypeTable.sizeWithin, TypeTable.sizeFrom, ho]
    rfl
  have sp : t.size? .anyPointer = some pointerSize := by
    rw [TypeTable.size?, TypeTable.sizeWithin, TypeTable.sizeFrom, hp]
  have fits : Word.add? 0 pointerSize = some pointerSize := by decide
  unfold TypeTable.addField
  rw [so, sp]
  simp only [Option.bind_eq_bind, Option.bind_some, fits, ho]
  exact ⟨_, _, rfl⟩

theorem void_solid (h : s.Valid U) : s.Solid U .void := by
  have hi : TypeId.void.index < TypeTable.initial.size := by decide
  obtain ⟨hu, hk⟩ := h.grounded.builtin hi rfl
  refine ⟨hu, ?_⟩
  rw [TypeTable.isForward_eq, hk]
  rfl

theorem anyPointer_solid (h : t.Valid U) :
    t.Solid U .anyPointer ∧ t.types.kind .anyPointer = .pointer .void := by
  have hi : TypeId.anyPointer.index < TypeTable.initial.size := by decide
  obtain ⟨hu, hk⟩ := h.builtins.2 .anyPointer hi
  have hk : t.types.kind .anyPointer = .pointer .void := hk
  refine ⟨⟨⟨Nat.lt_of_lt_of_le hi h.builtins.1, hu⟩, ?_⟩, hk⟩
  rw [TypeTable.isForward_eq, hk]
  rfl

/-- A signature whose types can be referred to and whose default values are of these types. -/
structure Signature.Fits (U : Set TypeId) (s : Session) (signature : Signature) : Prop where
  valid : (TypeKind.function signature).Valid U s
  defaults : s.HoldsDefaults (.function signature)

theorem Signature.Fits.evolves {signature : Signature} (h : signature.Fits U s)
    (e : s.Evolves may t) : signature.Fits U t where
  valid := h.valid.transport e.grows fun _ hr => hr.evolves e
  defaults := h.defaults.grows e.grows h.valid

theorem Signature.fits_empty : Signature.Fits U s .empty := ⟨.of_nil rfl rfl, nofun⟩

theorem Signature.Fits.withResult {signature : Signature} {type : TypeId}
    (h : signature.Fits U s) (ht : s.Solid U type) :
    Signature.Fits U s { signature with results := [type] } := by
  have types (r : TypeId) (hr : r ∈ (TypeKind.function { signature with results := [type] }).parts) :
      r ∈ (TypeKind.function signature).parts ∨ r = type := by
    simp only [TypeKind.parts, Signature.types, List.mem_append] at hr ⊢
    rcases hr with hr | hr
    · exact .inl (.inl hr)
    · exact .inr (List.mem_singleton.1 hr)
  refine ⟨⟨fun r hr => ?_, fun r hr => ?_, h.valid.names⟩, h.defaults⟩
  · rcases types r hr with hr | rfl
    · exact h.valid.refs r hr
    · exact ht.usable
  · rcases types r hr with hr | rfl
    · exact h.valid.parts r hr
    · exact ht.solid

theorem Signature.Fits.addParameter {signature signature' : Signature} {name : String} {type : TypeId}
    {default? : Option Constant} (h : signature.Fits U s) (ht : s.Solid U type)
    (hn : name ∈ s.names.texts) (hd : s.Holds type default?)
    (added : s.types.addParameter? signature name type default? = some signature') :
    signature'.Fits U s := by
  obtain ⟨total, rfl⟩ := TypeTable.addParameter?_eq_some added
  have types (r : TypeId) (hr : r ∈ (TypeKind.function { signature with
      parameters := signature.parameters ++ [⟨name, type, signature.parametersSize, default?⟩]
      parametersSize := total }).parts) : r ∈ (TypeKind.function signature).parts ∨ r = type := by
    simp only [TypeKind.parts, Signature.types, List.map_append, List.mem_append] at hr ⊢
    rcases hr with (hr | hr) | hr
    · exact .inl (.inl hr)
    · exact .inr (List.mem_singleton.1 hr)
    · exact .inl (.inr hr)
  refine ⟨⟨fun r hr => ?_, fun r hr => ?_, fun n hm => ?_⟩, fun p hp => ?_⟩
  · rcases types r hr with hr | rfl
    · exact h.valid.refs r hr
    · exact ht.usable
  · rcases types r hr with hr | rfl
    · exact h.valid.parts r hr
    · exact ht.solid
  · simp only [TypeKind.names, List.map_append, List.mem_append] at hm
    rcases hm with hm | hm
    · exact h.valid.names n hm
    · rw [List.mem_singleton.1 hm]
      exact hn
  · rcases List.mem_append.1 hp with hp | hp
    · exact h.defaults p hp
    · rw [List.mem_singleton.1 hp]
      exact hd

/-- A signature that has been read to its end. -/
structure Signature.Complete (U : Set TypeId) (s : Session) (signature : Signature) : Prop where
  fits : signature.Fits U s
  returns : ∃ result, s.Returns signature result

/-- Adds a parameter where there is room for it. -/
theorem Signature.Fits.getD_addParameter {signature : Signature} {name : String} {type : TypeId}
    (h : signature.Fits U s) (ht : s.Solid U type) (hn : name ∈ s.names.texts) :
    ((s.types.addParameter? signature name type none).getD signature).Fits U s := by
  cases ha : s.types.addParameter? signature name type none with
  | none => exact h
  | some signature' => exact h.addParameter ht hn (s.holds_none type) ha

end Parts

namespace Action

variable {α : Type} {setup : Setup} {may : Set Part} {U : Set TypeId} {s : Session}
  {stream : Stream} {Q : α → Session → Prop}

/-! ### Named types -/

theorem meets_typeReference {f : Past stream Ident → Action α} (h : s.Ready U)
    (hf : ∀ past, past.value.kind = .type → s.Usable U past.value.type →
      (f past).Meets setup may U Q s) : (typeReference stream >>= f).Meets setup may U Q s := by
  unfold typeReference
  rw [bind_assoc]
  refine meets_reference fun past hi => ?_
  obtain ⟨⟨id, i⟩, s', hs⟩ := past
  simp only [fail_bind]
  split
  · exact meets_fail rfl
  · rename_i hk
    exact hf ⟨i, s', hs⟩ (by simpa using hk) (h.idents id i hi).type

theorem meets_namedType (h : s.Ready U) :
    (namedType stream).Meets setup may U (fun past t => t.Solid U past.value) s := by
  unfold namedType
  refine meets_typeReference h fun past _ hu => ?_
  simp only [fail_bind]
  rw [meets_get]
  split
  · exact meets_fail rfl
  · rename_i hf
    exact meets_pure h ⟨hu, by simpa using hf⟩

theorem meets_isUndeclared {name : Past stream String} {f : Bool → Action α}
    (hf : ∀ b, (f b).Meets setup may U Q s) :
    (isUndeclared name >>= f).Meets setup may U Q s := hf _

/-! ### Lengths -/

theorem meets_length {negative : Cause} (h : s.Ready U) (hn : negative.category ≠ .internal) :
    (length negative stream).Meets setup ∅ U (fun rest _ => 0 ≤ rest.value) s := by
  unfold length
  refine (meets_constantExpression h).bind fun r t ht _ _ => ?_
  obtain ⟨⟨value, type⟩, s', hs⟩ := r
  simp only [fail_bind]
  rw [meets_get]
  split
  · exact meets_fail rfl
  split
  · split
    · rename_i n _ bound
      exact meets_pure ht bound
    · exact meets_failAt hn
  · exact meets_failAt hn

theorem meets_addText {capacity : Int64} (h : s.Ready U)
    (hc : 0 ≤ capacity ∨ capacity = setup.settings.defaultTextLength + 1) :
    (addType (.text capacity)).Meets setup ∅ U (fun type t => t.Solid U type) s := by
  have added : (addType (.text capacity)).Meets setup ∅ U _ s :=
    meets_addType h (.of_nil rfl rfl) rfl rfl hc trivial
  refine added.imp fun type t _ _ ha => ⟨ha.usable, ?_⟩
  rw [TypeTable.isForward_eq, ha.kind]
  rfl

theorem meets_textType (h : s.Ready U) :
    (textType stream).Meets setup ∅ U (fun past t => t.Solid U past.value) s := by
  unfold textType
  apply meets_eat
  rintro ⟨⟨⟩, s₁, h₁⟩
  dsimp only
  split
  · refine (meets_length h (by decide)).bind fun r t ht _ hl => ?_
    refine meets_eat fun rest => ?_
    refine (meets_addText ht (.inl hl)).bind fun type u hu _ hs => ?_
    exact meets_pure hu hs
  · rw [meets_read]
    split
    · rename_i capacity hc
      refine (meets_addText h (.inr (Word.eq_add_of_add? hc))).bind fun type u hu _ hs => ?_
      exact meets_pure hu hs
    · exact meets_fail rfl

theorem meets_arrayLength (h : s.Ready U) :
    (arrayLength stream).Meets setup ∅ U
      (fun rest _ => rest.value = openLength ∨ 0 ≤ rest.value) s := by
  unfold arrayLength
  split
  · exact meets_pure h (.inl rfl)
  · exact (meets_length h (by decide)).imp fun _ _ _ _ => .inr

/-- An array is of no use if it turns out to be too large. -/
theorem meets_addArray {base : TypeId} {length : Int64} {f : TypeId → Action α} {span : Span}
    (h : s.Ready U) (hb : s.Solid U base) (hl : length = openLength ∨ 0 ≤ length)
    (hf : ∀ type t, t.Ready U → t.Solid U type → (f type).Meets setup may U Q t) :
    (do
      let type ← addType (.array base length)
      if ((← get).types.size? type).isNone then fail .typeTooLarge span
      f type : Action α).Meets setup may U Q s := by
  have valid : (TypeKind.array base length).Valid U s :=
    ⟨fun r hr => by rw [List.mem_singleton.1 hr]; exact hb.usable,
      fun r hr => by rw [List.mem_singleton.1 hr]; exact hb.solid, nofun⟩
  have change : Changes setup may s _ := changes_addType h valid nofun rfl hl trivial
  simp only [fail_bind]
  refine ⟨change, ?_⟩
  show Ensures (if _ then _ else _) _ _ _ _ _
  split
  · exact ⟨of_decide_eq_false rfl, change.evolves⟩
  · rename_i hz
    rw [Option.isNone_iff_eq_none] at hz
    obtain ⟨n, size⟩ := Option.ne_none_iff_exists'.1 hz
    have added := added_addType h valid rfl size
    have ready := added.unreferenced.weaken (Set.subset_insert _ U)
    have leads : Leads may U s _ := ⟨ready, change.evolves, preserves_addType U s _⟩
    have solid := TypeTable.isForward_eq _ _ ▸ congrArg TypeKind.isForward added.kind
    refine Ensures.mono (hf _ _ ready ⟨added.usable, solid⟩) (fun _ _ => id)
      (fun _ _ he => ⟨he.1, leads.evolves.trans he.2⟩) fun _ _ hv => ⟨leads.trans hv.1, hv.2⟩

/-! ### Names used before their declaration -/

/-- A forward type is declared like any new name. -/
theorem ensures_declareType {name : String} {exported : Bool} {type : TypeId} {span : Span}
    {R : Session → Session → Prop} {E : Diagnostic → Session → Prop}
    {P : IdentId → Session → Prop} (h : s.types.isForward type = true) :
    (declareType name exported type span).Ensures setup R E P s ↔
      (declare (s.ident name .type exported type .none span)).Ensures setup R E P s := by
  unfold declareType
  rw [ensures_get, if_pos h]
  rfl

/-- Declaring an identifier is one change, if it succeeds. -/
theorem ensures_declare {i : Ident} {R : Session → Session → Prop}
    {P : IdentId → Session → Prop}
    (h : ∀ id idents, s.idents.insert? i = some (id, idents) →
      (i.exported = true → i.block = .moduleScope) → R s { s with idents } ∧ P id { s with idents }) :
    (declare i).Ensures setup R (fun d _ => d.IsProper) P s := by
  unfold declare
  simp only [fail_bind]
  split
  · exact nofun
  rename_i ho
  rw [ensures_get]
  split
  · rename_i id idents hi
    exact h id idents hi (exports_of_not_local ho)
  · exact nofun

/-- The forward type `type` stands for a name of the current scope of `s`. -/
structure Foreseen (U : Set TypeId) (s : Session) (name : String) (type : TypeId) (t : Session) :
    Prop where
  usable : t.Usable U type
  declared : ∃ id i, t.types.kind type = .forward (some id) ∧ t.idents.get? id = some i ∧
    i.name = name ∧ i.module = s.blocks.module ∧ i.block = s.blocks.current

/-- A forward type gets its name and then its identifier. -/
theorem ensures_nameForward {forward : TypeId} {name : String} {exported : Bool} {span : Span}
    (valid : s.Valid U) (founded : s.types.IsFounded) (sized : s.types.IsSized)
    (usable : s.Usable U forward) (kind : s.types.kind forward = .forward none)
    (others : ∀ id, id ≠ forward → s.types.kind id ≠ .forward none)
    (first : ∀ id i, s.idents.get? id = some i → i.type ≠ forward) (hn : name ∈ s.names.texts) :
    (do
      let ident ← declareType name exported forward span
      modify fun s => { s with types := s.types.bind forward ident }
      return forward : Action TypeId).Ensures setup (Changes setup {.idents})
      (fun d _ => d.IsProper)
      (fun type t => t.Ready U ∧ s.Preserves U t ∧ Foreseen U s name type t) s := by
  have hf : s.types.isForward forward = true := by
    rw [TypeTable.isForward_eq, kind]
    rfl
  have hi : (s.ident name .type exported forward .none span).Valid U s :=
    valid.ident usable (fun hk => absurd rfl hk) hn trivial
  rw [ensures_bind, ensures_declareType hf]
  refine ensures_declare fun id idents added exports => ?_
  have found : idents.get? id = some (s.ident name .type exported forward .none span) := by
    obtain ⟨rfl, rfl, _⟩ := IdentTable.insert?_eq_some added
    rw [IdentTable.get?_push, if_pos rfl]
  have functions : idents.functions = s.idents.functions := by
    obtain ⟨_, rfl, _⟩ := IdentTable.insert?_eq_some added
    exact IdentTable.functions_push _
  have hi' := hi.transport (.refl s) fun _ hr => hr.mono (Set.empty_subset U)
  have kinds (other : TypeId) := s.types.kind_bind id other hf
  have bound : (s.types.bind forward id).kind forward = .forward (some id) := by
    rw [kinds, if_pos rfl]
  have r := valid.replaces_bind id hf
  obtain ⟨n, size⟩ := (r.isFounded founded).size?_of_contents_nil (by rw [bound]; rfl)
  have size_eq := s.types.size_bind forward id
  refine ⟨.of_size (.nameForward added hi' rfl kind first ⟨rfl, rfl, exports⟩) (keeps_idents functions) rfl,
    .of_size (.bind found rfl rfl kind) (keeps_types _ _ _) size_eq,
    ⟨?_, fun other hk => ?_, r.isFounded founded, r.isSized founded sized size⟩,
    fun other _ hs => ?_, ⟨?_, id, _, bound, found, rfl, rfl, rfl⟩⟩
  · exact (valid.insert added hi).bind hf ⟨_, found, rfl, rfl⟩
  · rw [kinds] at hk
    split at hk
    · cases hk
    · rename_i hne
      exact others other hne hk
  · refine (kinds other).trans (if_neg ?_)
    rintro rfl
    rw [kind] at hs
    cases hs
  · exact ⟨by rw [size_eq]; exact usable.has, usable.closed⟩

/-- A name is declared with a forward type before it is known what the name stands for. -/
theorem meets_declareForward {name : String} {exported : Bool} {span : Span} (h : s.Ready U)
    (hn : name ∈ s.names.texts) :
    (declareForward name exported span).Meets setup {.idents} U (Foreseen U s name) s := by
  apply meets_of_ensures
  have fresh : TypeKind.Valid U s (.forward none) := .of_nil rfl rfl
  refine ⟨changes_addType h fresh nofun rfl trivial trivial, ?_⟩
  have r := h.replaces_add fresh
  obtain ⟨n, size⟩ := h.size?_add h.founded fresh rfl
  have valid := h.toValid.addType (fun _ hi => .inl hi) h.bound _ fresh nofun
  refine (ensures_nameForward valid (r.isFounded h.founded) (r.isSized h.founded h.sized size)
    h.usable_new (s.types.kind_add_self _) (fun id hne => ?_) (fun id i hi he => ?_) hn).mono
    (fun _ _ => id) (fun _ _ => id)
    fun type t ht => ⟨ht.1, (preserves_addType U s _).trans ht.2.1, ?_⟩
  · rw [TypeTable.kind_add_of_ne _ fun he => hne (TypeId.ext he)]
    exact h.bound id
  · have known := (h.idents id i hi).type.has
    rw [he] at known
    exact Nat.lt_irrefl _ known
  · exact ⟨ht.2.2.usable, ht.2.2.declared⟩

theorem meets_namedTarget {name : Past stream String} (h : s.Ready U) (hk : s.Knows stream)
    (hn : stream.name? = some name) :
    (namedTarget stream name).Meets setup {.idents} U (fun past t => t.Usable U past.value) s := by
  unfold namedTarget
  refine meets_isUndeclared fun b => ?_
  cases b with
  | true =>
    refine (meets_declareForward h (hk.name hn)).bind fun type t ht _ hf => ?_
    exact meets_pure ht hf.usable
  | false => exact meets_typeReference h fun past _ hu => meets_pure h hu

/-! ### Structures -/

/-- A structure that is being read gains a field and is still being read. -/
theorem meets_addField {owner type : TypeId} {name : String} {offset : Int64} {types : TypeTable}
    (h : s.Ready (insert owner U)) (hb : Building U s owner) (ht : s.Solid (insert owner U) type)
    (hn : name ∈ s.names.texts) (fresh : s.types.findField? owner name = none)
    (added : s.types.addField owner name type = some (offset, types)) :
    (set { s with types } : Action PUnit).Meets setup may U
      (fun _ t => t.Ready (insert owner U)) s := by
  have mem := Set.mem_insert owner U
  have other : type ≠ owner := fun he => ht.usable.closed (he ▸ mem)
  have change : s.Change { s with types } :=
    .addField h.bound added hb.structured fresh (h.unreferenced mem) other
      (ht.usable.mono (Set.empty_subset _)) ht.solid hn
      fun id i hi he => (h.idents id i hi).type.closed (he ▸ mem)
  obtain ⟨_, size, kinds⟩ := TypeTable.addField_eq_some added
  have ready := h.addField added mem hb.structured ht.usable ht.solid hn
  refine meets_change (.of_size change (keeps_types _ _ _) size)
    (ready.weaken (Set.subset_insert owner U)) (fun id hi _ => ?_) ready
  refine (kinds id).trans (if_neg ?_)
  rintro rfl
  exact hb.usable.closed hi

theorem meets_addStructField {owner type : TypeId} {field : DeclaredName}
    (h : s.Ready (insert owner U)) (hb : Building U s owner) (ht : s.Solid (insert owner U) type)
    (hn : field.name ∈ s.names.texts) :
    (addStructField owner type field).Meets setup may U
      (fun _ t => t.Ready (insert owner U)) s := by
  unfold addStructField
  simp only [fail_bind]
  split
  · exact meets_fail rfl
  rw [meets_get]
  split
  · exact meets_fail rfl
  rename_i fresh
  split
  · rename_i added
    exact meets_addField h hb ht hn (by simpa using fresh) added
  · exact meets_fail rfl

theorem meets_addStructFields {owner type : TypeId} {fields : List DeclaredName}
    (h : s.Ready (insert owner U)) (hb : Building U s owner) (ht : s.Solid (insert owner U) type)
    (hn : ∀ d ∈ fields, d.name ∈ s.names.texts) :
    (fields.forM (addStructField owner type)).Meets setup may U
      (fun _ t => t.Ready (insert owner U)) s := by
  have ready := h.weaken (Set.subset_insert owner U)
  refine meets_forM (I := fun t => t.Ready (insert owner U)) ready h fun field hf t _ e ht' => ?_
  exact meets_addStructField ht' (hb.evolves e) (ht.evolves e) (e.grows.names _ (hn field hf))

/-- A structure without fields is added, and its fields are to be read. -/
theorem meets_addStructure {kind : TypeKind} {f : TypeId → Action α} (h : s.Ready U)
    (structured : kind.isStructure = true) (empty : kind.fields = [])
    (hf : ∀ owner t, t.Ready (insert owner U) → s.Evolves may t → t.types.kind owner = kind →
      Building U t owner → (f owner).Meets setup may U Q t) :
    (addType kind >>= f).Meets setup may U Q s := by
  have solid := TypeKind.isForward_of_isStructure structured
  have added : (addType kind).Meets setup ∅ U (Added U kind) s := by
    cases kind with
    | struct fields =>
      obtain rfl : fields = [] := empty
      exact meets_addType h (.of_nil rfl rfl) rfl rfl trivial trivial
    | interface fields =>
      obtain rfl : fields = [] := empty
      exact meets_addType h (.of_nil rfl rfl) rfl rfl trivial trivial
    | _ => cases structured
  refine (added.allow (Set.empty_subset may)).bind fun owner t _ e ha => ?_
  exact hf owner t ha.unreferenced e ha.kind ⟨ha.usable, by rw [ha.kind]; exact structured⟩

theorem meets_addInterface {f : TypeId → Action α} (h : s.Ready U)
    (hf : ∀ owner t, t.Ready (insert owner U) → s.Evolves may t → Building U t owner →
      (f owner).Meets setup may U Q t) :
    (addInterface >>= f).Meets setup may U Q s := by
  unfold addInterface
  rw [bind_assoc]
  refine meets_addStructure h rfl rfl fun owner t ht e hk hb => ?_
  obtain ⟨solid, pointer⟩ := anyPointer_solid ht.toValid
  obtain ⟨offset, types, added⟩ := TypeTable.addField_self hk pointer
  have fresh : t.types.findField? owner selfName = none := by
    rw [TypeTable.findField?, TypeTable.fields, hk]
    rfl
  have self : (modify (withSelf owner) : Action PUnit).Meets setup may U
      (fun _ t => t.Ready (insert owner U)) t := by
    show (set (withSelf owner t) : Action PUnit).Meets _ _ _ _ _
    rw [withSelf, added]
    exact meets_addField ht hb solid ht.reserved.1 fresh added
  rw [bind_assoc]
  refine self.bind fun _ u _ e' hu => ?_
  exact hf owner u hu (e.trans e') (hb.evolves e')

/-! ### Signatures -/

theorem meets_methodSignature {V : Set TypeId} {f : Signature → Action α} (h : s.Ready V)
    (hf : ∀ signature, signature.Fits V s → (f signature).Meets setup may U Q s) :
    (methodSignature >>= f).Meets setup may U Q s :=
  hf _ (Signature.fits_empty.getD_addParameter (anyPointer_solid h.toValid).1 h.reserved.1)

theorem meets_addMethod {owner : TypeId} {name : String} {signature : Signature} {span : Span}
    (h : s.Ready (insert owner U)) (hb : Building U s owner)
    (hs : signature.Fits (insert owner U) s) (hn : name ∈ s.names.texts)
    (fresh : s.types.findField? owner name = none) :
    (addMethod owner name signature span).Meets setup may U
      (fun _ t => t.Ready (insert owner U)) s := by
  unfold addMethod
  rw [meets_get]
  split
  · exact meets_fail rfl
  rename_i offset _
  have valid : TypeKind.Valid (insert owner U) s
      (.function { signature with isMethod := true, offsetFromSelf := offset }) :=
    ⟨hs.valid.refs, hs.valid.parts, hs.valid.names⟩
  refine ((meets_addType h valid rfl rfl trivial hs.defaults).nested (Set.empty_subset may)
    (Set.subset_insert owner U)).bind ?_
  rintro type t _ e ⟨ht, preserves, ha⟩
  rw [meets_get]
  split
  · rename_i added
    have solid : t.Solid (insert owner U) type :=
      ⟨ha.usable, by rw [TypeTable.isForward_eq, ha.kind]; rfl⟩
    exact meets_addField ht (hb.evolves e) solid (e.grows.names _ hn) (hb.fresh preserves fresh) added
  · exact meets_fail rfl

theorem meets_addParameter {type : TypeId} {default? : Option Constant} {signature : Signature}
    {parameter : DeclaredName} (h : s.Ready U) (hs : signature.Fits U s) (ht : s.Solid U type)
    (hn : parameter.name ∈ s.names.texts) (hd : s.Holds type default?) :
    (addParameter type default? signature parameter).Meets setup may U
      (fun signature t => signature.Fits U t) s := by
  unfold addParameter
  simp only [fail_bind]
  split
  · exact meets_fail rfl
  rw [meets_get]
  split
  · rename_i added
    exact meets_pure h (hs.addParameter ht hn hd added)
  · exact meets_fail rfl

theorem meets_addParameters {type : TypeId} {default? : Option Constant} {signature : Signature}
    {parameters : List DeclaredName} (h : s.Ready U) (hs : signature.Fits U s)
    (ht : s.Solid U type) (hn : ∀ p ∈ parameters, p.name ∈ s.names.texts)
    (hd : s.Holds type default?) :
    (parameters.foldlM (addParameter type default?) signature).Meets setup may U
      (fun signature t => signature.Fits U t) s := by
  induction parameters generalizing signature s with
  | nil => exact meets_pure h hs
  | cons p parameters ih =>
    rw [List.foldlM_cons]
    have known := hn p List.mem_cons_self
    refine (meets_addParameter h hs ht known hd).bind fun signature t ht' e hs => ?_
    have others := fun q hq => e.grows.names _ (hn q (List.mem_cons_of_mem p hq))
    exact ih ht' hs (ht.evolves e) others (hd.grows e.grows ht.usable)

/-- A default value is of the kind of its parameter. -/
theorem meets_defaultValue {names defaults : Nat} {type : TypeId} (h : s.Ready U) :
    (defaultValue names type defaults stream).Meets setup may U
      (fun rest t => t.Holds type rest.value) s := by
  unfold defaultValue
  simp only [fail_bind]
  split
  · split
    · exact meets_fail rfl
    refine ((meets_constantExpression h).allow (Set.empty_subset may)).bind fun r t ht _ hv => ?_
    rw [meets_get]
    split
    · exact meets_fail rfl
    exact meets_checkCompatible fun hc => meets_pure ht (holds_widenConstant hv hc)
  · split
    · exact meets_fail rfl
    · exact meets_pure h (s.holds_none type)

theorem meets_addResult {signature : Signature} {type : TypeId} {span : Span} (h : s.Ready U)
    (hs : signature.Fits U s) (ht : s.Solid U type) :
    (addResult signature type span).Meets setup may U (fun signature t => signature.Complete U t)
      s := by
  unfold addResult
  have fits := hs.withResult ht
  rw [meets_get]
  split
  · rename_i plain
    have plain : s.types.isStructured type = false := by simpa using plain
    have settles : s.Settles type :=
      ⟨inUse_of_not_structure ht.usable.has (TypeTable.isStructure_eq_false plain), ht.solid⟩
    exact meets_pure h ⟨fits, type, rfl, settles, fun hs => absurd (plain.symm.trans hs) nofun⟩
  rename_i structured
  have structured : s.types.isStructured type = true := by simpa using structured
  refine ((meets_newType h (.pointer ht.usable) rfl rfl trivial trivial).allow (Set.empty_subset may)).bind ?_
  rintro pointer t ht' e ⟨ha, others⟩
  rw [meets_get]
  split
  · rename_i complete added
    have solid : t.Solid U pointer := ⟨ha.usable, by rw [TypeTable.isForward_eq, ha.kind]; rfl⟩
    have named := e.grows.names _ h.reserved.2
    refine meets_pure ht' ⟨(fits.evolves e).addParameter solid named (t.holds_none pointer) added,
      type, ?_⟩
    -- The pointer refers to the result, which is in use from here on.
    have settles : t.Settles type :=
      ⟨ht'.toValid.inUse_ref (by rw [ha.kind]; exact List.mem_singleton_self type),
        (ht.evolves e).solid⟩
    have structured : t.types.isStructured type = true := by
      have kept : t.types.kind type = s.types.kind type := by
        rw [others]
        exact TypeTable.kind_add_of_ne _ (Nat.ne_of_lt ht.usable.has)
      rw [TypeTable.isStructured_congr (congrArg _ kept), structured]
    obtain ⟨total, rfl⟩ := TypeTable.addParameter?_eq_some added
    exact ⟨rfl, settles, fun _ => ⟨_, List.getLast?_concat, rfl, structured, ha.kind⟩⟩
  · exact meets_fail rfl

end Action

end FrontEnd
