import FrontEnd.Proofs.Invariance.Module
import FrontEnd.Proofs.TypeExpression.Signatures

/-!
Interfaces. Each begins with a pointer to the object itself, and its methods, which take that
pointer as their first parameter, know where their fields lie. The offset is written down before the
field is there; it is right since nothing changes an interface while its methods are read. What
completes a forward type is a copy of an interface, and its methods are the same.
-/

namespace FrontEnd

/-- The parameter for the object itself. -/
structure Parameter.IsSelf (p : Parameter) : Prop where
  name : p.name = selfName
  type : p.type = .anyPointer
  offset : p.offset = 0

/-- A method of an interface, the field of which lies at `offset`. -/
structure Signature.IsMethodAt (offset : Int64) (c : Signature) : Prop where
  isMethod : c.isMethod = true
  self : ∃ p, c.parameters.head? = some p ∧ p.IsSelf
  offset : c.offsetFromSelf = offset

namespace TypeTable

/-- The first field is a pointer to the object itself, the others are methods. -/
structure Presents (t : TypeTable) (fields : List Field) : Prop where
  self : ∃ f, fields.head? = some f ∧ f.name = selfName ∧ f.type = .anyPointer ∧ f.offset = 0
  methods : ∀ f ∈ fields.tail, ∃ c, t.kind f.type = .function c ∧ c.IsMethodAt f.offset

/-- All interfaces are of this form. -/
def HasInterfaces (t : TypeTable) : Prop :=
  ∀ id fields, t.kind id = .interface fields → t.Presents fields

variable {t u : TypeTable} {fields : List Field}

theorem Presents.mono (h : t.Presents fields)
    (functions : ∀ id c, t.kind id = .function c → u.kind id = .function c) :
    u.Presents fields where
  self := h.self
  methods f hf := by
    obtain ⟨c, hk, method⟩ := h.methods f hf
    exact ⟨c, functions _ c hk, method⟩

/-- Another method stands behind the fields that there are. -/
theorem Presents.concat (h : t.Presents fields) {f : Field} {c : Signature}
    (kind : t.kind f.type = .function c) (method : c.IsMethodAt f.offset) :
    t.Presents (fields ++ [f]) := by
  obtain ⟨self, first, named⟩ := h.self
  obtain ⟨others, rfl⟩ := List.head?_eq_some_iff.1 first
  refine ⟨⟨self, rfl, named⟩, fun g hg => ?_⟩
  rcases List.mem_append.1 hg with hg | hg
  · exact h.methods g hg
  · rw [List.mem_singleton.1 hg]
    exact ⟨c, kind, method⟩

theorem hasInterfaces_initial : TypeTable.initial.HasInterfaces := by
  have plain : ∀ i < TypeTable.initial.size,
      (TypeTable.initial.kind ⟨i⟩).isStructure = false := by decide
  intro id fields hk
  have structured : (TypeTable.initial.kind id).isStructure = true := by rw [hk]; rfl
  exact absurd (structured.symm.trans (plain id.index (index_lt_of_isStructure structured))) nofun

theorem HasInterfaces.add (h : t.HasInterfaces) {kind : TypeKind}
    (plain : ∀ fields, kind = .interface fields → (t.add kind).2.Presents fields) :
    (t.add kind).2.HasInterfaces := by
  intro id fields hk
  rw [kind_add] at hk
  split at hk
  · exact plain fields hk
  · refine (h id fields hk).mono fun other c hc => ?_
    have known : other.index < t.size := index_lt_of_kind_ne (by rw [hc]; exact nofun)
    rw [kind_add_of_ne kind known.ne, hc]

/-- What is completed was no interface, and becomes a copy of one or of another type. -/
theorem HasInterfaces.complete (h : t.HasInterfaces) {forward type : TypeId}
    (pending : t.isForward forward = true) : (t.complete forward type).HasInterfaces := by
  have kinds (id : TypeId) := kind_complete type id (index_lt_of_isForward pending)
  have functions (id : TypeId) (c : Signature) (hc : t.kind id = .function c) :
      (t.complete forward type).kind id = .function c := by
    rw [kinds, if_neg, hc]
    rintro rfl
    rw [isForward_eq, hc] at pending
    cases pending
  intro id fields hk
  rw [kinds] at hk
  split at hk
  · exact (h type fields hk).mono functions
  · exact (h id fields hk).mono functions

theorem HasInterfaces.bind (h : t.HasInterfaces) (forward : TypeId) (ident : IdentId) :
    (t.bind forward ident).HasInterfaces := by
  by_cases pending : t.isForward forward = true
  · have kinds (id : TypeId) := kind_bind ident id pending
    intro id fields hk
    rw [kinds] at hk
    split at hk
    · cases hk
    · refine (h id fields hk).mono fun other c hc => ?_
      rw [kinds, if_neg, hc]
      rintro rfl
      rw [isForward_eq, hc] at pending
      cases pending
  · rw [TypeTable.bind, if_neg pending]
    exact h

/-- Only the structure that gains a field has to be looked at. -/
theorem HasInterfaces.addField (h : t.HasInterfaces) {owner type : TypeId} {name : String}
    {offset : Int64} (added : t.addField owner name type = some (offset, u))
    (structured : (t.kind owner).isStructure = true)
    (gains : ∀ fields, t.kind owner = .interface fields →
      t.Presents (fields ++ [⟨name, type, offset⟩])) : u.HasInterfaces := by
  obtain ⟨_, _, kinds⟩ := addField_eq_some added
  have functions (id : TypeId) (c : Signature) (hc : t.kind id = .function c) :
      u.kind id = .function c := by
    rw [kinds, if_neg, hc]
    rintro rfl
    rw [hc] at structured
    cases structured
  intro id fields hk
  rw [kinds] at hk
  split at hk
  · cases owned : t.kind owner with
    | interface before =>
      rw [owned] at hk
      cases hk
      exact (gains before owned).mono functions
    | struct before =>
      rw [owned] at hk
      cases hk
    | _ =>
      rw [owned] at structured
      cases structured
  · exact (h id fields hk).mono functions

theorem size?_of_no_fields {id : TypeId} (h : t.kind id = .interface []) : t.size? id = some 0 := by
  rw [size?, sizeWithin, sizeFrom, h]
  rfl

/-- A new interface that has gained the pointer to the object itself. -/
theorem HasInterfaces.addInterface (h : t.HasInterfaces) {offset : Int64}
    (added : (t.add (.interface [])).2.addField ⟨t.size⟩ selfName .anyPointer = some (offset, u)) :
    u.HasInterfaces := by
  have empty : (t.add (.interface [])).2.kind ⟨t.size⟩ = .interface [] := t.kind_add_self _
  obtain ⟨size, _, kinds⟩ := addField_eq_some added
  obtain rfl : offset = 0 := Option.some_inj.1 (size.symm.trans (size?_of_no_fields empty))
  have before (id : TypeId) (hi : id ≠ ⟨t.size⟩) : u.kind id = t.kind id := by
    rw [kinds, if_neg hi]
    exact kind_add_of_ne _ fun he => hi (TypeId.ext he)
  intro id fields hk
  by_cases hi : id = ⟨t.size⟩
  · rw [kinds, if_pos hi, empty] at hk
    cases hk
    exact ⟨⟨_, rfl, rfl, rfl, rfl⟩, nofun⟩
  · rw [before id hi] at hk
    refine (h id fields hk).mono fun other c hc => ?_
    rw [before other, hc]
    rintro rfl
    have known : TypeId.index ⟨t.size⟩ < t.size := index_lt_of_kind_ne (by rw [hc]; exact nofun)
    exact Nat.lt_irrefl _ known

end TypeTable

namespace Action

open Session

/-- What keeps the form of interfaces. -/
def KeepsInterfaces (s t : Session) : Prop := s.types.HasInterfaces → t.types.HasInterfaces

variable {setup : Setup} {root : String} {s t : Session} {stream : Stream}

theorem invariance_interfaces (setup : Setup) (run : List Session) :
    Invariance setup run (fun _ _ => True) KeepsInterfaces where
  refl _ := id
  trans h h' := h' ∘ h
  failsHere _ := trivial
  failsBehind _ _ := trivial
  code _ _ := id
  idents _ _ := id
  newType s kind plain h := h.add fun fields hk => by
    rw [hk] at plain
    cases plain
  complete _ _ _ _ pending _ h := h.complete pending

/-! ### Structures and interfaces -/

/-- A field of a structure leaves interfaces alone. -/
theorem keeps_addStructField {run : List Session} {owner type : TypeId} {field : DeclaredName}
    {before : List Field} (owned : s.types.kind owner = .struct before)
    (h : (addStructField owner type field).PassesIn setup run s () t) :
    KeepsInterfaces s t ∧ ∃ after, t.types.kind owner = .struct after := by
  unfold addStructField at h
  simp only [fail_bind] at h
  split at h
  · exact absurd h not_passes_fail
  rw [passes_get] at h
  split at h
  · exact absurd h not_passes_fail
  split at h
  · rename_i offset types added
    cases h.yields
    have structured : (s.types.kind owner).isStructure = true := by rw [owned]; rfl
    have gained : types.kind owner = .struct (before ++ [⟨field.name, type, offset⟩]) := by
      rw [(TypeTable.addField_eq_some added).2.2, if_pos rfl, owned]
      rfl
    refine ⟨fun hs => hs.addField added structured fun fields hk => ?_, _, gained⟩
    rw [owned] at hk
    cases hk
  · exact absurd h not_passes_fail

theorem keeps_addStructFields {run : List Session} {owner type : TypeId}
    {fields : List DeclaredName} {before : List Field}
    (owned : s.types.kind owner = .struct before)
    (h : (fields.forM (addStructField owner type)).PassesIn setup run s ⟨⟩ t) :
    KeepsInterfaces s t ∧ ∃ after, t.types.kind owner = .struct after := by
  induction fields generalizing s before with
  | nil =>
    obtain ⟨_, rfl⟩ := passes_pure h
    exact ⟨id, before, owned⟩
  | cons field fields ih =>
    obtain ⟨_, u, first, more⟩ := passes_bind h
    obtain ⟨keeps, after, owned⟩ := keeps_addStructField owned first
    obtain ⟨keeps', after'⟩ := ih owned more
    exact ⟨keeps' ∘ keeps, after'⟩

theorem keeps_addInterface {owner : TypeId}
    (h : addInterface.PassesIn setup (history setup root) s owner t) :
    KeepsInterfaces s t ∧ ∃ fields, t.types.kind owner = .interface fields := by
  unfold addInterface at h
  obtain ⟨_, u, added, h⟩ := passes_bind h
  have points := (anyPointer_solid (valid_of_mem_history added.last_mem)).2
  obtain ⟨rfl, rfl⟩ := yields_addType added.yields
  obtain ⟨_, w, gained, h⟩ := passes_bind h
  obtain ⟨rfl, rfl⟩ := passes_pure h
  cases gained.yields
  have empty : (s.types.add (.interface [])).2.kind ⟨s.types.size⟩ = .interface [] :=
    s.types.kind_add_self _
  obtain ⟨offset, types, added⟩ := TypeTable.addField_self empty points
  have gained : types.kind ⟨s.types.size⟩ = .interface [⟨selfName, .anyPointer, offset⟩] := by
    rw [(TypeTable.addField_eq_some added).2.2, if_pos rfl, empty]
    rfl
  unfold withSelf
  simp only [added]
  exact ⟨fun hs => hs.addInterface added, _, gained⟩

/-- A method is told the size of the interface so far. Its own type makes no difference to that, so
its field comes to lie there. -/
theorem keeps_addMethod {owner : TypeId} {name : String} {c : Signature} {span : Span}
    {before : List Field} (owned : s.types.kind owner = .interface before)
    (self : ∃ p, c.parameters.head? = some p ∧ p.IsSelf)
    (h : (addMethod owner name c span).PassesIn setup (history setup root) s () t) :
    KeepsInterfaces s t ∧ ∃ fields, t.types.kind owner = .interface fields := by
  unfold addMethod at h
  rw [passes_get] at h
  split at h
  · exact absurd h not_passes_fail
  rename_i offset here
  obtain ⟨type, u, new, h⟩ := passes_bind h
  have known : owner.index < s.types.size :=
    TypeTable.index_lt_of_isStructure (by rw [owned]; rfl)
  have extends_ := (extends_addsType (P := fun _ => False) (Nat.le_refl _) new.yields).1
  have same := size?_of_kinds new.first_mem new.last_mem (Nat.le_refl _) extends_.kinds known
  have kept := (extends_.kinds owner known).trans owned
  obtain ⟨rfl, rfl⟩ := yields_addType new.yields
  rw [passes_get] at h
  split at h
  · rename_i offset' types added
    cases h.yields
    obtain ⟨there, _, kinds⟩ := TypeTable.addField_eq_some added
    obtain rfl : offset' = offset := Option.some_inj.1 (there.symm.trans (same.trans here))
    have gained : types.kind owner = .interface (before ++ [⟨name, ⟨s.types.size⟩, offset'⟩]) := by
      rw [kinds, if_pos rfl, kept]
      rfl
    refine ⟨fun hs => ?_, _, gained⟩
    have more (method : Signature) : (s.types.add (.function method)).2.HasInterfaces :=
      hs.add nofun
    refine (more _).addField added (by rw [kept]; rfl) fun fields hk => ?_
    exact (more _ owner fields hk).concat (s.types.kind_add_self _) ⟨rfl, self, rfl⟩
  · exact absurd h not_passes_fail

/-! ### Type expressions -/

/-- The first parameter of a method is the object itself. -/
theorem self_signature {start : Signature} {past : Past stream Signature}
    (begins : methodSignature.Yields setup s start s)
    (h : (signature start stream).PassesIn setup (history setup root) s past t) :
    ∃ p, past.value.parameters.head? = some p ∧ p.IsSelf := by
  obtain ⟨_, offsets, items⟩ := opens_method h.first_mem begins
  obtain ⟨groups, result, hidden, _, _, _, _, laid⟩ := completes_signature offsets h
  have listed := laid.items
  rw [items] at listed
  cases parameters : past.value.parameters with
  | nil =>
    rw [parameters] at listed
    cases listed
  | cons p others =>
    rw [parameters] at listed
    obtain ⟨name, type, _⟩ : p.name = selfName ∧ p.type = .anyPointer ∧ p.default? = none := by
      simpa [Parameter.item] using (List.cons.inj listed).1
    have first := laid.offset 0 p (by rw [parameters]; rfl)
    exact ⟨p, rfl, name, type, Int64.toInt_inj.1 first⟩

section Types

variable {run : List Session}

theorem keeps_declareForward {name : String} {exported : Bool} {span : Span} {type : TypeId}
    (h : (declareForward name exported span).PassesIn setup run s type t) :
    KeepsInterfaces s t := by
  have c := invariance_interfaces setup run
  unfold declareForward at h
  obtain ⟨_, u, added, h⟩ := passes_bind h
  obtain ⟨id, w, declared, h⟩ := passes_bind h
  obtain ⟨_, x, modified, h⟩ := passes_bind h
  obtain ⟨_, rfl⟩ := passes_pure h
  have adds := ((c.addType rfl).of_passes added).1
  have declares := ((c.declareType _ _ _ _).of_passes declared).1
  cases modified.yields
  exact fun hs => (declares (adds hs)).bind _ id

theorem keeps_namedTarget {name : Past stream String} {past : Past stream TypeId}
    (h : (namedTarget stream name).PassesIn setup (history setup root) s past t) :
    KeepsInterfaces s t := by
  unfold namedTarget isUndeclared at h
  rw [bind_assoc, passes_get] at h
  obtain ⟨undeclared, _, asked, chosen⟩ := passes_bind h
  obtain ⟨_, rfl⟩ := passes_pure asked
  split at chosen
  · obtain ⟨_, w, declared, done⟩ := passes_bind chosen
    obtain ⟨_, rfl⟩ := passes_pure done
    exact keeps_declareForward declared
  · obtain ⟨_, w, referred, done⟩ := passes_bind chosen
    obtain ⟨_, rfl⟩ := passes_pure done
    obtain ⟨_, rfl⟩ := passes_typeReference referred
    exact id

/-- The type expressions behind the current word keep interfaces. -/
def InnerTypesKeep (setup : Setup) (root : String) (stream : Stream) : Prop :=
  (invariance_interfaces setup (history setup root)).TypesBehind stream

variable (ht : InnerTypesKeep setup root stream)

include ht

theorem keeps_pointerType {past : Past stream TypeId}
    (h : (pointerType stream).PassesIn setup (history setup root) s past t) :
    KeepsInterfaces s t := by
  have c := invariance_interfaces setup (history setup root)
  rw [pointerType] at h
  obtain ⟨first, _, h⟩ := passes_eat_bind h
  obtain ⟨_, u, read, h⟩ := passes_bind h
  obtain ⟨_, v, added, h⟩ := passes_bind h
  obtain ⟨_, rfl⟩ := passes_pure h
  have adds := ((c.addType rfl).of_passes added).1
  rw [pointerTarget] at read
  split at read
  · exact adds ∘ keeps_namedTarget read
  · exact adds ∘ ((ht _ s first.lt).of_passes read).1

theorem keeps_arrayType {past : Past stream TypeId}
    (h : (arrayType stream).PassesIn setup (history setup root) s past t) :
    KeepsInterfaces s t := by
  have c := invariance_interfaces setup (history setup root)
  rw [arrayType] at h
  obtain ⟨first, _, h⟩ := passes_eat_bind h
  obtain ⟨⟨length, s₂, h₂⟩, u, measured, h⟩ := passes_bind h
  obtain ⟨⟨⟨⟩, s₃, h₃⟩, _, h⟩ := passes_eat_bind h
  obtain ⟨_, w, read, h⟩ := passes_bind h
  obtain ⟨_, x, added, h⟩ := passes_bind h
  have adds := ((c.addType rfl).of_passes added).1
  have reads := ((ht s₃ u ((h₃.of_within h₂).trans first.lt)).of_passes read).1
  simp only [fail_bind] at h
  rw [passes_get] at h
  split at h
  · exact absurd h not_passes_fail
  · obtain ⟨_, rfl⟩ := passes_pure h
    exact adds ∘ reads ∘ ((c.arrayLength _).of_passes measured).1

theorem keeps_functionType {past : Past stream TypeId}
    (h : (functionType stream).PassesIn setup (history setup root) s past t) :
    KeepsInterfaces s t := by
  have c := invariance_interfaces setup (history setup root)
  rw [functionType] at h
  obtain ⟨first, _, h⟩ := passes_eat_bind h
  obtain ⟨_, u, read, h⟩ := passes_bind h
  obtain ⟨_, v, added, h⟩ := passes_bind h
  obtain ⟨_, rfl⟩ := passes_pure h
  have reads := ((c.signature (ht.within first.lt.within) .empty).of_passes read).1
  exact ((c.addType rfl).of_passes added).1 ∘ reads

omit ht in
theorem keeps_structFields {owner : TypeId} (stream : Stream) {s t : Session} {rest : Kept stream}
    {before : List Field} (ht : InnerTypesKeep setup root stream)
    (owned : s.types.kind owner = .struct before)
    (h : (structFields owner stream).PassesIn setup (history setup root) s rest t) :
    KeepsInterfaces s t := by
  have c := invariance_interfaces setup (history setup root)
  rw [structFields] at h
  split at h
  · obtain ⟨_, rfl⟩ := passes_pure h
    exact id
  obtain ⟨⟨⟨names, type⟩, s₁, h₁⟩, u, read, h⟩ := passes_bind h
  obtain ⟨_, w, added, h⟩ := passes_bind h
  obtain ⟨⟨⟨⟩, s₂, h₂⟩, h⟩ := passes_separator_bind h
  have behind := h₂.behind h₁
  have hlt := behind.2
  obtain ⟨_, x, more, h⟩ := passes_bind h
  obtain ⟨_, rfl⟩ := passes_pure h
  have known : owner.index < s.types.size :=
    TypeTable.index_lt_of_isStructure (by rw [owned]; rfl)
  have kept := (extends_typedNames stream ⟨Nat.le_refl _, rfl⟩ read).1.kinds owner known
  have reads := ((c.typedNames ht maxFields).of_passes read).1
  obtain ⟨adds, _, owned⟩ := keeps_addStructFields (kept.trans owned) added
  exact keeps_structFields s₂ (ht.within behind.within) owned more ∘ adds ∘ reads
termination_by stream.size

omit ht in
theorem keeps_interfaceMethods {owner : TypeId} (stream : Stream) {s t : Session}
    {rest : Kept stream} {before : List Field} (ht : InnerTypesKeep setup root stream)
    (owned : s.types.kind owner = .interface before)
    (h : (interfaceMethods owner stream).PassesIn setup (history setup root) s rest t) :
    KeepsInterfaces s t := by
  have c := invariance_interfaces setup (history setup root)
  rw [interfaceMethods] at h
  split at h
  · obtain ⟨_, rfl⟩ := passes_pure h
    exact id
  rename_i name s₁ h₁ _
  simp only [fail_bind] at h
  rw [passes_get] at h
  split at h
  · exact absurd h not_passes_fail
  obtain ⟨start, u, begins, next⟩ := passes_bind h
  obtain ⟨rfl, _⟩ := opens_method begins.first_mem begins.yields
  obtain ⟨⟨complete, s₂, h₂⟩, w, read, h⟩ := passes_bind next
  obtain ⟨_, x, added, h⟩ := passes_bind h
  obtain ⟨⟨⟨⟩, s₃, h₃⟩, h⟩ := passes_separator_bind h
  have behind := (h₃.behind h₂).trans h₁
  have hlt := behind.2
  obtain ⟨_, y, more, h⟩ := passes_bind h
  obtain ⟨_, rfl⟩ := passes_pure h
  have known : owner.index < u.types.size :=
    TypeTable.index_lt_of_isStructure (by rw [owned]; rfl)
  have kept := (extends_signature s₁ ⟨Nat.le_refl _, rfl⟩ read).kinds owner known
  have reads := ((c.signature (ht.within h₁.within) start).of_passes read).1
  have self := self_signature begins.yields read
  obtain ⟨adds, _, owned⟩ := keeps_addMethod (kept.trans owned) self added
  exact keeps_interfaceMethods s₃ (ht.within behind.within) owned more ∘ adds ∘ reads
termination_by stream.size

theorem keeps_structType {past : Past stream TypeId}
    (h : (structType stream).PassesIn setup (history setup root) s past t) :
    KeepsInterfaces s t := by
  rw [structType] at h
  obtain ⟨first, _, h⟩ := passes_eat_bind h
  obtain ⟨second, _, h⟩ := passes_eat_bind h
  obtain ⟨owner, u, added, h⟩ := passes_bind h
  obtain ⟨_, w, read, h⟩ := passes_bind h
  obtain ⟨_, _, h⟩ := passes_eat_bind h
  obtain ⟨_, rfl⟩ := passes_pure h
  obtain ⟨rfl, rfl⟩ := yields_addType added.yields
  have behind := second.lt.trans first.lt
  have reads := keeps_structFields _ (ht.within behind.within) (s.types.kind_add_self _) read
  exact fun hs => reads (hs.add nofun)

theorem keeps_interfaceType {past : Past stream TypeId}
    (h : (interfaceType stream).PassesIn setup (history setup root) s past t) :
    KeepsInterfaces s t := by
  rw [interfaceType] at h
  obtain ⟨first, _, h⟩ := passes_eat_bind h
  obtain ⟨second, _, h⟩ := passes_eat_bind h
  obtain ⟨owner, u, added, h⟩ := passes_bind h
  obtain ⟨_, w, read, h⟩ := passes_bind h
  obtain ⟨_, _, h⟩ := passes_eat_bind h
  obtain ⟨_, rfl⟩ := passes_pure h
  obtain ⟨adds, _, owned⟩ := keeps_addInterface added
  have behind := second.lt.trans first.lt
  exact keeps_interfaceMethods _ (ht.within behind.within) owned read ∘ adds

omit ht in
/-- Whatever type expression is read, interfaces keep their form. -/
theorem conserves_typeExpression (stream : Stream) (s : Session) :
    (invariance_interfaces setup (history setup root)).Conserves (typeExpression stream) Past.Moved
      s := by
  -- By induction on the words: all inner type expressions begin behind the current one.
  have inner : InnerTypesKeep setup root stream := fun m s behind => by
    have shorter := behind.2
    exact conserves_typeExpression m s
  refine ends_of_passes fun past t h => ⟨?_, ?_⟩
  · rw [typeExpression] at h
    split at h
    · obtain ⟨rfl, _⟩ := extends_namedType h
      exact id
    · exact keeps_pointerType inner h
    · exact keeps_arrayType inner h
    · exact (((invariance_interfaces setup _).textType stream).of_passes h).1
    · exact keeps_structType inner h
    · exact keeps_interfaceType inner h
    · exact keeps_functionType inner h
    · exact absurd h not_passes_fail
  · exact (Ensures.of_run_ok (defines_typeExpression stream s) h.yields).passes.inside
termination_by stream.size

end Types

theorem conservation_interfaces (setup : Setup) (root : String) :
    Conservation setup (history setup root) (fun _ _ => True) KeepsInterfaces where
  toInvariance := invariance_interfaces setup (history setup root)
  typeExpression := conserves_typeExpression
  names _ _ := id
  globals _ _ := id
  frame _ _ _ _ _ := id
  imports _ _ _ := id
  leaveBlock h := h
  failInBlock _ := trivial
  leaveBody _ _ h := h
  failInBody _ _ _ := trivial
  leaveFile _ _ _ _ _ h := h
  failInFile _ _ _ _ _ := trivial

end Action

/-- In a program that compiles every interface, whether it was written down or copied into the place
of a forward type, begins with a pointer to the object itself. Its other fields are methods that take
the object as their first parameter and know the offset of their field; all fields have distinct
names. -/
theorem compile_interfaces {setup : Setup} {root : String} {s : Session}
    (h : compile setup root = .ok s) :
    s.types.kind .anyPointer = .pointer .void ∧
      ∀ id fields, s.types.kind id = .interface fields →
        s.types.Presents fields ∧ (fields.map (·.name)).Nodup := by
  have reached := List.mem_of_getLast? (getLast?_history_of_compile h)
  have program := (Action.conservation_interfaces setup root).program root
    (.initial setup.settings)
  have interfaces := (program.of_passes (passes_of_compile h)).1 TypeTable.hasInterfaces_initial
  refine ⟨(anyPointer_solid (valid_of_mem_history reached)).2, fun id fields hk => ?_⟩
  have laid := (laidOut_of_mem_history reached).fields id
  rw [hk] at laid
  exact ⟨interfaces id fields hk, laid.names⟩

/-- A program in which an interface is used in front of its declaration. -/
def shapeProgram : Setup where
  settings := .standard
  sources := ⟨fun _ => .ok
    "type drawing = ^shape\ntype shape = interface \x7barea(): int; name(padded: bool)\x7d\nfn main() \x7b\x7d\n"⟩
  hosts := ⟨[]⟩

theorem shapeProgram_interfaces : ∃ s, compile shapeProgram "main.um" = .ok s ∧
    (∀ i ∈ ([15, 17] : List Nat), (s.types.fields ⟨i⟩).map (·.name) = [selfName, "area", "name"]) ∧
    s.types.kind .anyPointer = .pointer .void ∧
      ∀ id fields, s.types.kind id = .interface fields →
        s.types.Presents fields ∧ (fields.map (·.name)).Nodup := by
  have compiles : (match compile shapeProgram "main.um" with
    | .ok s => decide (∀ i ∈ ([15, 17] : List Nat),
      (s.types.fields ⟨i⟩).map (·.name) = [selfName, "area", "name"])
    | .error _ => false) = true := by decide +kernel
  cases h : compile shapeProgram "main.um" with
  | ok s =>
    rw [h] at compiles
    exact ⟨s, rfl, of_decide_eq_true compiles, compile_interfaces h⟩
  | error d =>
    rw [h] at compiles
    cases compiles

end FrontEnd
