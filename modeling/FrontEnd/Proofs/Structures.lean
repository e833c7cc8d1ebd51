import FrontEnd.Proofs.History
import FrontEnd.Proofs.Number.Word
import Mathlib

/-!
The layout of structures. The offset of a field is found when the field is added, from the sizes that
types have at that time; it is still right in the end, since a type whose kind changes later lies
inside no other type.
-/

namespace FrontEnd

namespace TypeTable

/-- The bytes that a type takes. -/
def bytes (t : TypeTable) (id : TypeId) : Int := ((t.size? id).getD 0).toInt

/-- The field `g` starts where the field `f` ends. -/
def Follows (t : TypeTable) (f g : Field) : Prop :=
  (t.size? f.type).bind (Word.add? f.offset) = some g.offset

/-- Where another field would start. -/
def next? (t : TypeTable) (fields : List Field) : Option Int64 :=
  match fields.getLast? with
  | none => some 0
  | some last => (t.size? last.type).bind (Word.add? last.offset)

/-- Fields with distinct names that start at zero and follow each other without gaps. -/
structure LaysOut (t : TypeTable) (fields : List Field) : Prop where
  names : (fields.map (·.name)).Nodup
  first : ∀ f ∈ fields.head?, f.offset = 0
  chain : fields.IsChain t.Follows

variable {t u : TypeTable} {fields : List Field}

theorem laysOut_nil (t : TypeTable) : t.LaysOut [] := ⟨.nil, nofun, .nil⟩

theorem LaysOut.snoc (h : t.LaysOut fields) {field : Field}
    (fresh : field.name ∉ fields.map (·.name)) (next : t.next? fields = some field.offset) :
    t.LaysOut (fields ++ [field]) where
  names := by
    rw [List.map_append, List.map_singleton, ← List.concat_eq_append]
    exact h.names.concat fresh
  first f hf := by
    cases fields with
    | nil =>
      cases hf
      exact (Option.some_inj.1 next).symm
    | cons g fields => exact h.first f hf
  chain := by
    refine List.isChain_append.2 ⟨h.chain, .singleton field, fun last hl g hg => ?_⟩
    cases hg
    rw [next?, Option.mem_def.1 hl] at next
    exact next

theorem LaysOut.congr (h : t.LaysOut fields)
    (sizes : ∀ f ∈ fields, u.size? f.type = t.size? f.type) : u.LaysOut fields where
  names := h.names
  first := h.first
  chain := by
    refine h.chain.imp_of_mem_imp fun f g hf _ hg => ?_
    rw [Follows, sizes f hf]
    exact hg

/-- Without its last field a structure is laid out up to where that field starts. -/
theorem LaysOut.init {last : Field} (h : t.LaysOut (fields ++ [last])) :
    t.LaysOut fields ∧ t.next? fields = some last.offset := by
  obtain ⟨before, _, joined⟩ := List.isChain_append.1 h.chain
  have names := h.names
  rw [List.map_append] at names
  have first (f : Field) (hf : f ∈ fields.head?) : f.offset = 0 :=
    h.first f (by cases fields with | nil => cases hf | cons g fields => exact hf)
  refine ⟨⟨(List.nodup_append.1 names).1, first, before⟩, ?_⟩
  rw [next?]
  cases hl : fields.getLast? with
  | none =>
    rw [List.getLast?_eq_none_iff.1 hl] at h
    exact congrArg some (h.first last rfl).symm
  | some f => exact joined f hl last rfl

/-- The fields up to some place take as many bytes as the offset behind them says. -/
theorem LaysOut.toInt_next (h : t.LaysOut fields) {offset : Int64}
    (next : t.next? fields = some offset) :
    offset.toInt = (fields.map fun f => t.bytes f.type).sum := by
  -- By induction on the fields from the last one, which starts where those before it end.
  induction fields using List.reverseRecOn generalizing offset with
  | nil =>
    cases next
    rfl
  | append_singleton fields last ih =>
    obtain ⟨before, start⟩ := h.init
    have earlier := ih before start
    rw [next?, List.getLast?_concat] at next
    obtain ⟨size, hs, total⟩ := Option.bind_eq_some_iff.1 next
    rw [Word.add?_eq_some_iff.1 total, earlier, List.map_append, List.sum_append, List.map_singleton,
      List.sum_singleton, bytes, hs]
    rfl

theorem contains_field {id : TypeId} {f : Field} (hf : f ∈ (t.kind id).fields) :
    t.Contains id f.type := by
  have mem : f.type ∈ (t.kind id).fields.map (·.type) := List.mem_map_of_mem hf
  unfold Contains
  cases hk : t.kind id <;> rw [hk] at mem <;> first | exact mem | cases mem

/-- Structures stay laid out where the kind of one type is replaced. -/
theorem Replaces.laysOut {slot : TypeId} (r : t.Replaces u slot) (h : t.IsFounded)
    (laid : ∀ id, t.LaysOut (t.kind id).fields) (new : t.LaysOut (u.kind slot).fields) (id : TypeId) :
    u.LaysOut (u.kind id).fields := by
  have sizes (f : Field) (hf : f ∈ (u.kind id).fields) : u.size? f.type = t.size? f.type :=
    r.size?_eq h fun he => r.free' id (he ▸ contains_field hf)
  by_cases he : id = slot
  · subst he
    exact new.congr sizes
  · rw [r.others id he] at sizes ⊢
    exact (laid id).congr sizes

end TypeTable

namespace Session

variable {s t : Session}

/-- Every structure is laid out, and no type contains itself. -/
structure LaidOut (s : Session) : Prop where
  founded : s.types.IsFounded
  fields : ∀ id, s.types.LaysOut (s.types.kind id).fields

theorem laidOut_initial (settings : Settings) : (initial settings).LaidOut where
  founded := isFounded_initial
  fields id := by
    show TypeTable.initial.LaysOut (TypeTable.initial.kind id).fields
    rw [TypeKind.fields_of_contents_nil (contents_initial id)]
    exact TypeTable.laysOut_nil _

/-- A structure gains a field at its end. -/
theorem LaidOut.addField (h : s.LaidOut) {owner type : TypeId} {name : String} {offset : Int64}
    {types : TypeTable} (added : s.types.addField owner name type = some (offset, types))
    (structured : (s.types.kind owner).isStructure = true)
    (fresh : s.types.findField? owner name = none) :
    s.types.LaysOut (types.kind owner).fields := by
  obtain ⟨size, _, kinds⟩ := TypeTable.addField_eq_some added
  rw [kinds, if_pos rfl, TypeKind.fields_withField structured]
  refine (h.fields owner).snoc (fun hm => ?_) ?_
  · obtain ⟨f, hf, he⟩ := List.mem_map.1 hm
    rw [TypeTable.findField?, TypeTable.fields_eq] at fresh
    exact List.find?_eq_none.1 fresh f hf (decide_eq_true he)
  · rw [← size, h.founded.size?_of_fields structured]
    rfl

theorem Change.laidOut (h : s.Change t) (hs : s.Valid ∅) (hl : s.LaidOut) : t.LaidOut := by
  -- Every change replaces the kind of one type at most, and no other type holds that one.
  have replace {slot : TypeId} (r : s.types.Replaces t.types slot)
      (new : s.types.LaysOut (t.types.kind slot).fields) : t.LaidOut :=
    ⟨r.isFounded hl.founded, r.laysOut hl.founded hl.fields new⟩
  cases h with
  | step _ step =>
    obtain he | ⟨forward, concrete, pending, _, he⟩ := step.types
    · exact ⟨he ▸ hl.founded, fun id => he ▸ hl.fields id⟩
    · have new : s.types.LaysOut (t.types.kind forward).fields := by
        rw [he, TypeTable.kind_complete concrete forward (TypeTable.index_lt_of_isForward pending),
          if_pos rfl]
        exact hl.fields concrete
      exact replace (he ▸ hs.replaces_complete concrete pending) new
  | @addType kind _ valid _ fieldless =>
    refine replace (hs.replaces_add valid) ?_
    have new : (s.types.add kind).2.kind ⟨s.types.size⟩ = kind := s.types.kind_add_self kind
    rw [new, fieldless]
    exact TypeTable.laysOut_nil _
  | addField _ added structured fresh unreferenced other =>
    exact replace (replaces_addField added unreferenced other) (hl.addField added structured fresh)
  | nameForward => exact ⟨hl.founded, hl.fields⟩
  | @bind id _ forward _ _ _ waiting =>
    have pending := TypeTable.isForward_of_kind_eq waiting
    refine replace (hs.replaces_bind id pending) ?_
    have new : (s.types.bind forward id).kind forward = .forward (some id) := by
      rw [TypeTable.kind_bind id forward pending, if_pos rfl]
    rw [new]
    exact TypeTable.laysOut_nil _
  | leaveFile => exact ⟨hl.founded, hl.fields⟩

/-! ### Sizes are not negative -/

/-- All lengths are those that a program can give. -/
def Measured (settings : Settings) (s : Session) : Prop :=
  ∀ id, (s.types.kind id).Measured settings

theorem measured_of_isStructure {settings : Settings} {k : TypeKind} (h : k.isStructure = true) :
    k.Measured settings := by
  cases k with
  | struct => trivial
  | interface => trivial
  | _ => cases h

theorem measured_initial (settings : Settings) : (initial settings).Measured settings := by
  intro id
  show (TypeTable.initial.kind id).Measured settings
  by_cases hi : id.index < TypeTable.initial.size
  · have mem : TypeTable.initial.kind id ∈ Builtin.all.map TypeKind.builtin ++ [.pointer .void] := by
      unfold TypeTable.kind
      rw [Array.getElem?_eq_getElem hi]
      exact List.getElem_mem hi
    rcases List.mem_append.1 mem with hm | hm
    · obtain ⟨b, _, hb⟩ := List.mem_map.1 hm
      rw [← hb]
      trivial
    · rw [List.mem_singleton.1 hm]
      trivial
  · rw [TypeTable.kind_of_size_le (Nat.le_of_not_lt hi)]
    trivial

end Session

namespace Action

open Session

variable {setup : Setup} {may : Set Part} {s t : Session}

theorem Changes.measured_all (h : Changes setup may s t) (hm : s.Measured setup.settings) :
    t.Measured setup.settings := by
  intro id
  by_cases hi : s.types.size ≤ id.index
  · exact h.measured id hi
  -- A type that has been there before has its old kind, or the kind of another such type.
  have old : id.index ≠ s.types.size := by omega
  cases h.change with
  | step _ step =>
    obtain he | ⟨forward, concrete, pending, _, he⟩ := step.types
    · exact he ▸ hm id
    · rw [he, TypeTable.kind_complete concrete id (TypeTable.index_lt_of_isForward pending)]
      split
      · exact hm concrete
      · exact hm id
  | addType =>
    rw [TypeTable.kind_add_of_ne _ old]
    exact hm id
  | addField _ added structured =>
    rw [(TypeTable.addField_eq_some added).2.2]
    split
    · exact measured_of_isStructure ((TypeKind.isStructure_withField _ _).trans structured)
    · exact hm id
  | nameForward => exact hm id
  | bind _ _ _ waiting =>
    rw [TypeTable.kind_bind _ id (TypeTable.isForward_of_kind_eq waiting)]
    split
    · trivial
    · exact hm id
  | leaveFile => exact hm id

end Action

namespace TypeTable

variable {t : TypeTable}

theorem builtin_size_nonneg (b : Builtin) : 0 ≤ b.size.toInt := by
  cases b <;> decide

/-- Without negative lengths no type has a negative size. -/
theorem IsFounded.size?_nonneg (h : t.IsFounded) {settings : Settings}
    (laid : ∀ id, t.LaysOut (t.kind id).fields) (measured : ∀ id, (t.kind id).Measured settings)
    (given : 0 ≤ settings.defaultTextLength) (fits : settings.defaultTextLength < Int64.maxValue)
    {id : TypeId} {n : Int64} (hn : t.size? id = some n) : 0 ≤ n.toInt := by
  -- By induction on the types that a type holds.
  induction id using h.induction generalizing n with
  | _ id ih =>
    have structure_ (hs : (t.kind id).isStructure = true) : 0 ≤ n.toInt := by
      rw [h.size?_of_fields hs] at hn
      rw [(laid id).toInt_next hn]
      refine List.sum_nonneg fun size hm => ?_
      obtain ⟨f, hf, rfl⟩ := List.mem_map.1 hm
      unfold bytes
      cases hz : t.size? f.type with
      | none => exact Int.le_refl 0
      | some m => exact ih f.type (contains_field hf) hz
    have lengths := measured id
    have size := h.size?_eq id
    rw [hn, sizeFrom] at size
    cases hk : t.kind id with
    | array base length =>
      rw [hk] at lengths size
      dsimp only at size
      split at size
      · cases size
        decide
      · rename_i closed
        obtain ⟨m, hm, hmul⟩ := Option.bind_eq_some_iff.1 size.symm
        have inner : t.Contains id base := by
          rw [Contains, hk, TypeKind.contents, if_neg closed]
          exact List.mem_singleton_self base
        rw [Word.mul?_eq_some_iff.1 hmul]
        exact Int.mul_nonneg (Word.nonneg_iff.1 (lengths.resolve_left closed)) (ih base inner hm)
    | text capacity =>
      rw [hk] at lengths size
      cases size
      rcases lengths with known | rfl
      · exact Word.nonneg_iff.1 known
      · rw [Word.toInt_add_one fits]
        exact Int.add_nonneg (Word.nonneg_iff.1 given) (by decide)
    | struct fields => exact structure_ (by rw [hk]; rfl)
    | interface fields => exact structure_ (by rw [hk]; rfl)
    | builtin b =>
      rw [hk] at size
      cases size
      exact builtin_size_nonneg b
    | _ =>
      rw [hk] at size
      cases size
      decide

/-- The fields of a structure have distinct names and start at zero, and each ends where the next
one starts; the structure ends with the last one. -/
structure Packs (t : TypeTable) (id : TypeId) : Prop where
  names : ((t.fields id).map (·.name)).Nodup
  first : ∀ f ∈ (t.fields id).head?, f.offset = 0
  next : ∀ (i : Nat) f g, (t.fields id)[i]? = some f → (t.fields id)[i + 1]? = some g →
    g.offset.toInt = f.offset.toInt + t.bytes f.type
  total : t.bytes id = ((t.fields id).map fun f => t.bytes f.type).sum

theorem bytes_eq {id : TypeId} {n : Int64} (h : t.size? id = some n) : t.bytes id = n.toInt := by
  rw [bytes, h]
  rfl

theorem LaysOut.packs {id : TypeId} (laid : t.LaysOut (t.kind id).fields) (h : t.IsFounded)
    (sized : t.IsSized) (hs : (t.kind id).isStructure = true) : t.Packs id := by
  refine ⟨?_, ?_, fun i f g hf hg => ?_, ?_⟩
  · rw [fields_eq]
    exact laid.names
  · rw [fields_eq]
    exact laid.first
  · rw [fields_eq] at hf hg
    obtain ⟨_, rfl⟩ := List.getElem?_eq_some_iff.1 hf
    obtain ⟨bound, rfl⟩ := List.getElem?_eq_some_iff.1 hg
    obtain ⟨n, hn, hadd⟩ := Option.bind_eq_some_iff.1 (List.isChain_iff_getElem.1 laid.chain i bound)
    rw [Word.add?_eq_some_iff.1 hadd, bytes_eq hn]
  · obtain ⟨n, hn⟩ := sized id
    have next := hn
    rw [h.size?_of_fields hs] at next
    rw [fields_eq, bytes_eq hn]
    exact laid.toInt_next next

end TypeTable

open Session

theorem laidOut_of_mem_history {setup : Setup} {root : String} {s : Session}
    (h : s ∈ history setup root) : s.LaidOut :=
  (history_induction (laidOut_initial setup.settings) (fun _ _ hv hc => hc.change.laidOut hv) s h).2

/-- In a program that compiles no type has a negative size. -/
theorem size?_nonneg_of_compile {setup : Setup} {root : String} {s : Session}
    (h : compile setup root = .ok s) (given : 0 ≤ setup.settings.defaultTextLength)
    (fits : setup.settings.defaultTextLength < Int64.maxValue) (id : TypeId) :
    ∃ n, s.types.size? id = some n ∧ 0 ≤ n := by
  obtain ⟨⟨ready, _⟩, _⟩ := leads_of_compile h
  have reached := List.mem_of_getLast? (getLast?_history_of_compile h)
  have laid := laidOut_of_mem_history reached
  have measured : s.Measured setup.settings := (history_induction (measured_initial setup.settings)
    (fun _ _ _ hc => hc.measured_all) s reached).2
  obtain ⟨n, hn⟩ := ready.sized id
  have nonneg := ready.founded.size?_nonneg laid.fields measured given fits hn
  exact ⟨n, hn, Word.nonneg_iff.2 nonneg⟩

/-- In a program that compiles every structure is laid out without gaps, and every type has a size
that is not negative. -/
theorem compile_structures {setup : Setup} {root : String} {s : Session}
    (h : compile setup root = .ok s) (given : 0 ≤ setup.settings.defaultTextLength)
    (fits : setup.settings.defaultTextLength < Int64.maxValue) :
    (∀ id, (s.types.kind id).isStructure = true → s.types.Packs id) ∧
      ∀ id, ∃ n, s.types.size? id = some n ∧ 0 ≤ n := by
  obtain ⟨⟨ready, _⟩, _⟩ := leads_of_compile h
  have reached := List.mem_of_getLast? (getLast?_history_of_compile h)
  have laid := laidOut_of_mem_history reached
  exact ⟨fun id hs => (laid.fields id).packs ready.founded ready.sized hs,
    size?_nonneg_of_compile h given fits⟩

/-- A program with a list, the nodes of which are declared behind it. -/
def listProgram : Setup where
  settings := .standard
  sources := ⟨fun _ => .ok
    "type list = ^node\ntype node = struct \x7bvalue: int; next: list; mark: str\x7d\nfn main() \x7b\x7d\n"⟩
  hosts := ⟨[]⟩

theorem listProgram_structures : ∃ s, compile listProgram "main.um" = .ok s ∧
    (s.types.kind ⟨15⟩).isStructure = true ∧
    (∀ id, (s.types.kind id).isStructure = true → s.types.Packs id) ∧
    ∀ id, ∃ n, s.types.size? id = some n ∧ 0 ≤ n := by
  have compiles : (match compile listProgram "main.um" with
    | .ok s => (s.types.kind ⟨15⟩).isStructure
    | .error _ => false) = true := by decide +kernel
  cases h : compile listProgram "main.um" with
  | ok s =>
    rw [h] at compiles
    exact ⟨s, rfl, compiles, compile_structures h (by decide) (by decide)⟩
  | error d =>
    rw [h] at compiles
    cases compiles

end FrontEnd
