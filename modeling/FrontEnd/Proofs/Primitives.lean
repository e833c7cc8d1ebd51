import FrontEnd.Proofs.Meets

/-!
The steps from which the readers are built: adding types, declaring names, making room for
variables, emitting code.
-/

namespace FrontEnd

namespace IdentTable

variable {t : IdentTable}

theorem mem_toList {i : Ident} : i ∈ t.toList ↔ ∃ id, t.get? id = some i := by
  unfold toList
  rw [Array.mem_toList_iff, Array.mem_iff_getElem?]
  exact ⟨fun ⟨n, hn⟩ => ⟨⟨n⟩, hn⟩, fun ⟨id, hi⟩ => ⟨id.index, hi⟩⟩

theorem mem_functions {i : Ident} :
    i ∈ t.functions ↔ i.kind = .function ∧ ∃ id, t.get? id = some i := by
  unfold functions
  rw [List.mem_filter, decide_eq_true_iff, mem_toList, and_comm]

theorem functions_push (i : Ident) :
    IdentTable.functions ⟨t.idents.push i⟩ =
      if i.kind = .function then t.functions ++ [i] else t.functions := by
  unfold functions toList
  rw [Array.toList_push, List.filter_append]
  split
  · rename_i hk
    simp [hk]
  · rename_i hk
    simp [hk]

/-- Changing what is not a function keeps the functions. -/
theorem functions_modify {id : IdentId} {i : Ident} (h : t.get? id = some i)
    (hk : i.kind ≠ .function) (f : Ident → Ident) (hf : (f i).kind = i.kind) :
    (t.modify id f).functions = t.functions := by
  obtain ⟨hlt, he⟩ := Array.getElem?_eq_some_iff.1 h
  unfold functions toList modify
  rw [Array.toList_modify, List.modify_eq_take_cons_drop hlt]
  conv_rhs => rw [← List.take_append_drop id.index t.idents.toList, List.drop_eq_getElem_cons hlt]
  have hi : t.idents.toList[id.index] = i := he
  simp [List.filter_append, hi, hf, hk]

end IdentTable

namespace Session

variable {U : Set TypeId} {s t : Session} {may : Set Part}

theorem Valid.current_lt (h : s.Valid U) : s.blocks.current.index < s.blocks.next := by
  unfold Blocks.current
  split
  · rename_i block rest he
    exact (h.blocks block (by rw [he]; exact List.mem_cons_self)).id
  · exact h.next

/-- A type that has just been added is in no set of types that are being read. -/
theorem Valid.usable_new (h : s.Valid U) {kind : TypeKind} :
    Usable U { s with types := (s.types.add kind).2 } ⟨s.types.size⟩ where
  has := by rw [TypeTable.size_add]; exact Nat.lt_succ_self _
  closed hu := Nat.lt_irrefl _ (h.building _ hu)

/-- A name of the current scope. -/
def ident (s : Session) (name : String) (kind : IdentKind) (exported : Bool) (type : TypeId)
    (payload : Payload) (span : Span) : Ident :=
  { name, kind, exported, type, payload, module := s.blocks.module, block := s.blocks.current,
    receiver? := none, span }

theorem Valid.ident (h : s.Valid U) {name : String} {kind : IdentKind} {exported : Bool}
    {type : TypeId} {payload : Payload} {span : Span} (ht : s.Usable U type)
    (hs : kind ≠ .type → s.types.isForward type = false) (hn : name ∈ s.names.texts)
    (hc : (s.ident name kind exported type payload span).Carries s) :
    (s.ident name kind exported type payload span).Valid U s :=
  ⟨ht, hs, hn, h.module, h.current_lt, nofun, fun _ => rfl, hc⟩

/-- All names of the words ahead are in the table of names. -/
def Knows (s : Session) (stream : Stream) : Prop :=
  ∀ token ∈ stream.ahead, ∀ name, token.kind.name? = some name → name ∈ s.names.texts

theorem Knows.within {stream rest : Stream} (h : s.Knows stream) (hr : rest.Within stream) :
    s.Knows rest :=
  fun token ht => h token (hr.1.subset ht)

theorem Knows.behind {stream rest : Stream} (h : s.Knows stream) (hr : rest.Behind stream) :
    s.Knows rest :=
  h.within hr.within

theorem Knows.evolves {stream : Stream} (h : s.Knows stream) (e : s.Evolves may t) :
    t.Knows stream :=
  fun token ht name hn => e.grows.names name (h token ht name hn)

/-- A type that can be referred to and whose declaration has been reached. -/
structure Solid (U : Set TypeId) (s : Session) (id : TypeId) : Prop where
  usable : s.Usable U id
  solid : s.types.isForward id = false

theorem Solid.evolves {id : TypeId} (h : s.Solid U id) (e : s.Evolves may t) : t.Solid U id :=
  ⟨h.usable.grows e.grows, e.grows.solid h.usable h.solid⟩

theorem Usable.evolves {id : TypeId} (h : s.Usable U id) (e : s.Evolves may t) : t.Usable U id :=
  h.grows e.grows

end Session

namespace Action

open Session

variable {setup : Setup} {may : Set Part} {U : Set TypeId} {s : Session}

/-! ### Types and code -/

/-- What is known about a type that has just been added. Nothing refers to it yet. -/
structure Added (U : Set TypeId) (kind : TypeKind) (type : TypeId) (t : Session) : Prop where
  kind : t.types.kind type = kind
  usable : t.Usable U type
  unreferenced : t.Ready (insert type U)

/-- Adding a type is a change, whether it turns out to have a size or not. -/
theorem changes_addType {kind : TypeKind} (h : s.Ready U) (valid : kind.Valid U s)
    (unnamed : ∀ ident, kind ≠ .forward (some ident)) (fieldless : kind.fields = [])
    (measured : kind.Measured setup.settings) (defaults : s.HoldsDefaults kind) :
    Changes setup may s { s with types := (s.types.add kind).2 } := by
  have valid := valid.transport (.refl s) fun _ hr => hr.mono (Set.empty_subset U)
  refine ⟨.addType h.bound valid unnamed fieldless defaults, keeps_types _ _ _, fun id hi => ?_⟩
  rw [TypeTable.kind_add]
  split
  · exact measured
  · rw [TypeTable.kind_of_size_le hi]
    trivial

/-- A type that has just been added and has a size. -/
theorem added_addType {kind : TypeKind} (h : s.Ready U) (valid : kind.Valid U s)
    (solid : kind.isForward = false) {n : Int64}
    (size : (s.types.add kind).2.size? ⟨s.types.size⟩ = some n) :
    Added U kind ⟨s.types.size⟩ { s with types := (s.types.add kind).2 } :=
  ⟨s.types.kind_add_self kind, h.usable_new, h.addType valid solid size⟩

/-- Adding a type leaves everything else as it was. -/
theorem meets_newType {kind : TypeKind} (h : s.Ready U) (valid : kind.Valid U s)
    (solid : kind.isForward = false) (hc : kind.contents = [])
    (measured : kind.Measured setup.settings) (defaults : s.HoldsDefaults kind) :
    (addType kind).Meets setup ∅ U (fun type t =>
      Added U kind type t ∧ t = { s with types := (s.types.add kind).2 }) s := by
  have unnamed (ident : IdentId) : kind ≠ .forward (some ident) := by
    rintro rfl
    cases solid
  obtain ⟨n, size⟩ := h.size?_add h.founded valid hc
  have added := added_addType h valid solid size
  exact meets_change
    (changes_addType h valid unnamed (TypeKind.fields_of_contents_nil hc) measured defaults)
    (added.unreferenced.weaken (Set.subset_insert _ _)) (preserves_addType U s kind) ⟨added, rfl⟩

theorem meets_addType {kind : TypeKind} (h : s.Ready U) (valid : kind.Valid U s)
    (solid : kind.isForward = false) (hc : kind.contents = [])
    (measured : kind.Measured setup.settings) (defaults : s.HoldsDefaults kind) :
    (addType kind).Meets setup ∅ U (Added U kind) s :=
  (meets_newType h valid solid hc measured defaults).imp fun _ _ _ _ added => added.1

theorem meets_emit {i : Instruction} (h : s.Ready U) (valid : i.Valid U s)
    (plain : i.isPlain = true) :
    (emit i).Meets setup {.code} U (fun _ t => t = { s with code := s.code.emit i }) s := by
  have step : s.Step U _ := .emit valid (by rintro target rfl; cases plain)
  refine meets_write h step ?_ rfl
  exact { Keeps.refl {.code} s with
    functions := fun _ => ⟨rfl, .emit s.code plain, rfl⟩
    code := fun hm => absurd rfl hm }

theorem meets_typeName {α : Type} {type : TypeId} {f : String → Action α}
    {Q : α → Session → Prop} :
    (typeName type >>= f).Meets setup may U Q s ↔ (f (s.typeName type)).Meets setup may U Q s :=
  Iff.rfl

/-! ### Identifiers -/

theorem meets_newIdent {α : Type} {name : String} {kind : IdentKind} {type : TypeId} {span : Span}
    {f : Ident → Action α} {Q : α → Session → Prop} :
    (newIdent name kind type span >>= f).Meets setup may U Q s ↔
      (f (s.ident name kind false type .none span)).Meets setup may U Q s := Iff.rfl

/-- What is known about an identifier that has just been declared. -/
structure Declared (s : Session) (i : Ident) (id : IdentId) (t : Session) : Prop where
  found : t.idents.get? id = some i
  fresh : ∀ other j, s.idents.get? other = some j → j.key ≠ i.key
  functions : t.idents.functions =
    if i.kind = .function then s.idents.functions ++ [i] else s.idents.functions
  others : t = { s with idents := t.idents }

theorem keeps_idents {idents : IdentTable} (h : idents.functions = s.idents.functions) :
    s.Keeps {.idents} { s with idents } :=
  { Keeps.refl {.idents} s with
    idents := fun hm => absurd rfl hm
    functions := fun _ => ⟨h, .refl _, rfl⟩ }

theorem exports_of_not_local {i : Ident}
    (h : ¬ (i.exported && decide (i.block ≠ .moduleScope)) = true) (he : i.exported = true) :
    i.block = .moduleScope := by
  by_contra hb
  exact h (Bool.and_eq_true_iff.2 ⟨he, decide_eq_true hb⟩)

theorem meets_declare {i : Ident} (h : s.Ready U) (valid : i.Valid U s)
    (solid : s.types.isForward i.type = false) (module : i.module = s.blocks.module)
    (block : i.block = s.blocks.current) (receives : ∀ base ∈ i.receiver?, s.Receives base i.name)
    (hm : .idents ∈ may) (hf : i.kind = .function → .functions ∈ may) :
    (declare i).Meets setup may U (Declared s i) s := by
  unfold declare
  simp only [fail_bind]
  split
  · exact meets_fail rfl
  rename_i ho
  have placed : s.Places i := ⟨module, block, exports_of_not_local ho⟩
  rw [meets_get]
  split
  · rename_i id idents hi
    have functions : idents.functions =
        if i.kind = .function then s.idents.functions ++ [i] else s.idents.functions := by
      obtain ⟨_, rfl, _⟩ := IdentTable.insert?_eq_some hi
      exact IdentTable.functions_push i
    refine meets_write h (.declare hi valid solid placed receives) ?_ ⟨?_, ?_, functions, rfl⟩
    · refine { Keeps.refl may s with idents := fun hn => absurd hm hn, functions := fun hn => ?_ }
      rw [functions, if_neg fun hk => hn (hf hk)]
      exact ⟨rfl, .refl _, rfl⟩
    · obtain ⟨rfl, rfl, _⟩ := IdentTable.insert?_eq_some hi
      rw [IdentTable.get?_push, if_pos rfl]
    · exact (IdentTable.insert?_eq_some hi).2.2
  · exact meets_fail rfl

end Action

end FrontEnd
