import FrontEnd.Proofs.Session.Types
import FrontEnd.Proofs.Symbols.Blocks
import FrontEnd.Proofs.Symbols.Module

/-!
The updates of a session, one table at a time. Each lets the session grow, and each keeps it valid
if what is new is valid.
-/

namespace FrontEnd

variable {U : Set TypeId} {s : Session}

namespace Session

/-- What is in `t` was in `s` or is valid in `r`, and `t` has the types of `s`. -/
structure Updates (U : Set TypeId) (s t r : Session) : Prop where
  grows : s.Grows t
  types : t.types = s.types
  idents : ∀ id i, t.idents.get? id = some i → s.idents.get? id = some i ∨ i.Valid U r
  keys : (∀ id id' i i', s.idents.get? id = some i → s.idents.get? id' = some i' →
      i.key = i'.key → id = id') →
    ∀ id id' i i', t.idents.get? id = some i → t.idents.get? id' = some i' →
      i.key = i'.key → id = id'
  globals : ∀ (slot : Nat) (v : Global), t.globals[slot]? = some v →
    s.globals[slot]? = some v ∨ v.Valid U r
  code : ∀ i ∈ t.code.instructions, i ∈ s.code.instructions ∨ i.Valid U r
  blocks : ∀ b ∈ t.blocks.stack, b ∈ s.blocks.stack ∨ b.Valid r
  module : t.blocks.module = s.blocks.module ∨ t.blocks.module.index < t.modules.size
  modules : ∀ id m, t.modules.get? id = some m → s.modules.get? id = some m ∨ m.Valid r
  unfinished : ∀ id ∈ t.modules.unfinished,
    id ∈ s.modules.unfinished ∨ id.index < t.modules.size
  names : s.names.Valid → t.names.Valid

theorem Updates.refl {r : Session} : s.Updates U s r where
  grows := .refl s
  types := rfl
  idents _ _ h := .inl h
  keys h := h
  globals _ _ h := .inl h
  code _ h := .inl h
  blocks _ h := .inl h
  module := .inl rfl
  modules _ _ h := .inl h
  unfinished _ h := .inl h
  names h := h

theorem Valid.update {t : Session} (h : s.Valid U) (u : s.Updates U t t) : t.Valid U := by
  have g := u.grows
  have hu (id : TypeId) (hr : s.Usable U id) : t.Usable U id := hr.grows g
  refine { building := ?_, builtins := ?_, kinds := ?_, forwards := ?_, newest := ?_,
           pending := ?_, idents := ?_, keys := u.keys h.keys, globals := ?_, code := ?_, blocks := ?_,
           next := Nat.lt_of_lt_of_le h.next g.blocks, module := ?_, modules := ?_,
           unfinished := ?_, names := u.names h.names,
           reserved := ⟨g.names _ h.reserved.1, g.names _ h.reserved.2⟩ }
  · rw [u.types]; exact h.building
  · rw [u.types]; exact h.builtins
  · intro id
    rw [u.types]
    exact (h.kinds id).transport g hu
  · intro id ident hk
    rw [u.types] at hk
    obtain ⟨j, hj, hjk, hjt⟩ := h.forwards id ident hk
    obtain ⟨j', hj', hk', ht'⟩ := g.ident hj
    exact ⟨j', hj', hk'.trans hjk, ht'.trans hjt⟩
  · rw [u.types]; exact h.newest
  · rw [u.types]; exact h.pending
  · intro id i hi
    exact (u.idents id i hi).elim (fun ho => (h.idents id i ho).transport g hu) fun hv => hv
  · intro slot v hv
    exact (u.globals slot v hv).elim (fun ho => (h.globals slot v ho).transport g hu) fun hn => hn
  · intro i hi
    exact (u.code i hi).elim (fun ho => (h.code i ho).transport g hu) fun hn => hn
  · intro b hb
    exact (u.blocks b hb).elim (fun ho => (h.blocks b ho).grows g) fun hn => hn
  · exact u.module.elim (fun he => he ▸ Nat.lt_of_lt_of_le h.module g.modules_size) fun hn => hn
  · intro id m hm
    exact (u.modules id m hm).elim (fun ho => (h.modules id m ho).grows g) fun hn => hn
  · intro id hi
    exact (u.unfinished id hi).elim
      (fun ho => Nat.lt_of_lt_of_le (h.unfinished id ho) g.modules_size) fun hn => hn

/-! ### Identifiers -/

theorem grows_insert {i : Ident} {id : IdentId} {idents : IdentTable}
    (h : s.idents.insert? i = some (id, idents)) : s.Grows { s with idents } := by
  obtain ⟨_, rfl, _⟩ := IdentTable.insert?_eq_some h
  refine { Grows.refl s with idents := fun id j hj => ⟨j.exported, j.span, ?_⟩ }
  rw [IdentTable.get?_push, if_neg (Nat.ne_of_lt (IdentTable.lt_of_get?_eq_some hj))]
  exact hj

theorem Valid.insert (h : s.Valid U) {i : Ident} {id : IdentId} {idents : IdentTable}
    (hi : s.idents.insert? i = some (id, idents)) (hv : i.Valid U s) :
    Session.Valid U { s with idents } := by
  have g := grows_insert hi
  obtain ⟨_, rfl, fresh⟩ := IdentTable.insert?_eq_some hi
  refine h.update { Updates.refl with
    grows := g
    idents := fun id j hj => ?_
    keys := fun hk a b j k hj hk' hjk => ?_ }
  · rw [IdentTable.get?_push] at hj
    split at hj
    · cases hj
      exact .inr (hv.transport g fun _ hr => hr.grows g)
    · exact .inl hj
  · rw [IdentTable.get?_push] at hj hk'
    split at hj <;> split at hk' <;> rename_i ha hb
    · exact IdentId.ext (ha.trans hb.symm)
    · cases hj; exact absurd hjk.symm (fresh b k hk')
    · cases hk'; exact absurd hjk (fresh a j hj)
    · exact hk a b j k hj hk' hjk

/-- A new export mark and a new place. -/
def remark (exported : Bool) (span : Span) (i : Ident) : Ident :=
  { i with exported := i.exported || exported, span }

theorem grows_remark (id : IdentId) (exported : Bool) (span : Span) :
    s.Grows { s with idents := s.idents.modify id (remark exported span) } := by
  refine { Grows.refl s with idents := fun other j hj => ?_ }
  rw [IdentTable.get?_modify, hj]
  split
  · exact ⟨_, _, rfl⟩
  · exact ⟨j.exported, j.span, rfl⟩

theorem Valid.remark (h : s.Valid U) (id : IdentId) (exported : Bool) (span : Span) :
    Session.Valid U { s with idents := s.idents.modify id (remark exported span) } := by
  have g := s.grows_remark id exported span
  have old (other : IdentId) (j : Ident)
      (hj : (s.idents.modify id (Session.remark exported span)).get? other = some j) :
      ∃ i, s.idents.get? other = some i ∧ i.key = j.key ∧ (i.Valid U s → j.Valid U s) := by
    rw [IdentTable.get?_modify] at hj
    split at hj
    · obtain ⟨i, hi, rfl⟩ := Option.map_eq_some_iff.1 hj
      exact ⟨i, hi, rfl, fun hv => { hv with carries := hv.carries }⟩
    · exact ⟨j, hj, rfl, fun hv => hv⟩
  refine h.update { Updates.refl with
    grows := g, idents := fun other j hj => .inr ?_, keys := fun hk a b j k hj hk' hjk => ?_ }
  · obtain ⟨i, hi, _, hv⟩ := old other j hj
    exact (hv (h.idents other i hi)).transport g fun _ hr => hr.grows g
  · obtain ⟨i, hi, hij, _⟩ := old a j hj
    obtain ⟨l, hl, hlk, _⟩ := old b k hk'
    exact hk a b i l hi hl (hij.trans (hjk.trans hlk.symm))

/-! ### Code -/

theorem grows_code {code : Code} (h : s.code.size ≤ code.size) : s.Grows { s with code } :=
  { Grows.refl s with code := h }

theorem Valid.withCode (h : s.Valid U) {code : Code} (hs : s.code.size ≤ code.size)
    (hc : ∀ i ∈ code.instructions, i ∈ s.code.instructions ∨ i.Valid U s) :
    Session.Valid U { s with code } :=
  h.update { Updates.refl with
    grows := grows_code hs
    code := fun i hi => (hc i hi).imp_right fun hv =>
      hv.transport (grows_code hs) fun _ hr => hr.grows (grows_code hs) }

theorem size_emit_le (c : Code) (i : Instruction) : c.size ≤ (c.emit i).size := by
  simp [Code.emit, Code.size]

theorem Valid.emit (h : s.Valid U) {i : Instruction} (hi : i.Valid U s) :
    Session.Valid U { s with code := s.code.emit i } := by
  refine h.withCode (size_emit_le s.code i) fun j hj => ?_
  rcases Array.mem_push.1 hj with hj | rfl
  · exact .inl hj
  · exact .inr hi

theorem patch?_eq_some {c code : Code} {address : Nat} {i : Instruction}
    (h : c.patch? address i = some code) :
    address < c.size ∧
      code = { c with instructions := c.instructions.setIfInBounds address i } := by
  unfold Code.patch? at h
  split at h
  · rename_i ha
    cases h
    exact ⟨ha, rfl⟩
  · cases h

theorem Valid.patch (h : s.Valid U) {address : Nat} {i : Instruction} {code : Code}
    (hp : s.code.patch? address i = some code) (hi : i.Valid U s) (defined : Bool) :
    Session.Valid U { s with code := { code with entryDefined := defined } } := by
  obtain ⟨_, rfl⟩ := patch?_eq_some hp
  refine h.withCode (by simp [Code.size]) fun j hj => ?_
  rcases Array.mem_or_eq_of_mem_setIfInBounds hj with hj | rfl
  · exact .inl hj
  · exact .inr hi

/-! ### Variables -/

theorem grows_allocateGlobal (v : Global) : s.Grows { s with globals := s.globals.push v } := by
  refine { Grows.refl s with globals := fun slot w hw => ⟨w.value?, ?_⟩ }
  rw [Array.getElem?_push]
  split
  · rename_i he
    rw [he, Array.getElem?_eq_none (Nat.le_refl _)] at hw
    cases hw
  · exact hw

theorem Valid.allocateGlobal (h : s.Valid U) {v : Global} (hv : v.Valid U s) :
    Session.Valid U { s with globals := s.globals.push v } := by
  have g := s.grows_allocateGlobal v
  refine h.update { Updates.refl with grows := g, globals := fun slot w hw => ?_ }
  rw [Array.getElem?_push] at hw
  split at hw
  · cases hw
    exact .inr (hv.transport g fun _ hr => hr.grows g)
  · exact .inl hw

theorem grows_setGlobal (slot : Nat) (value? : Option Constant) :
    s.Grows { s with globals := s.globals.modify slot fun g => { g with value? } } := by
  refine { Grows.refl s with globals := fun other w hw => ?_ }
  rw [Array.getElem?_modify, hw]
  split
  · exact ⟨value?, rfl⟩
  · exact ⟨w.value?, rfl⟩

theorem Valid.setGlobal (h : s.Valid U) (slot : Nat) (value? : Option Constant) :
    Session.Valid U { s with globals := s.globals.modify slot fun g => { g with value? } } := by
  have g := s.grows_setGlobal slot value?
  refine h.update { Updates.refl with grows := g, globals := fun other w hw => ?_ }
  rw [Array.getElem?_modify] at hw
  split at hw
  · obtain ⟨v, hv, rfl⟩ := Option.map_eq_some_iff.1 hw
    have hv := (h.globals other v hv).transport g fun _ hr => hr.grows g
    exact .inr ⟨hv.type, hv.solid, hv.name⟩
  · exact .inl hw

/-! ### Blocks -/

theorem grows_blocks {blocks : Blocks} (h : s.blocks.next ≤ blocks.next) :
    s.Grows { s with blocks } :=
  { Grows.refl s with blocks := h }

theorem Valid.enter (h : s.Valid U) {function? : Option IdentId}
    (hf : ∀ f ∈ function?, s.IsFunction f) :
    Session.Valid U { s with blocks := s.blocks.enter function? } := by
  have g : s.Grows { s with blocks := s.blocks.enter function? } := grows_blocks (Nat.le_succ _)
  refine h.update { Updates.refl with grows := g, blocks := fun b hb => ?_ }
  rcases List.mem_cons.1 hb with rfl | hb
  · refine .inr ⟨Nat.lt_succ_self _, ?_, fun f hf' => (hf f hf').grows g⟩
    intro he
    exact Nat.ne_of_gt h.next (congrArg BlockId.index he)
  · exact .inl hb

theorem Valid.leave (h : s.Valid U) : Session.Valid U { s with blocks := s.blocks.leave } :=
  h.update { Updates.refl with
    grows := grows_blocks (Nat.le_refl _)
    blocks := fun _ hb => .inl (List.mem_of_mem_drop hb) }

theorem grows_allocateLocal {size offset : Int64} {blocks : Blocks}
    (ha : s.blocks.allocate? size = some (offset, blocks)) : s.Grows { s with blocks } :=
  grows_blocks (Nat.le_of_eq (Blocks.allocate?_eq_some ha).2.symm)

theorem Valid.allocateLocal (h : s.Valid U) {size offset : Int64} {blocks : Blocks}
    (ha : s.blocks.allocate? size = some (offset, blocks)) : Session.Valid U { s with blocks } := by
  obtain ⟨hs, _⟩ := Blocks.allocate?_eq_some ha
  have g := grows_allocateLocal ha
  refine h.update { Updates.refl with
    grows := g
    blocks := fun b hb => .inr ?_
    module := .inl ?_ }
  · have hst : blocks.stack.map Block.scope = s.blocks.stack.map Block.scope :=
      congrArg Prod.snd hs
    have hm : b.scope ∈ s.blocks.stack.map Block.scope := by
      rw [← hst]
      exact List.mem_map_of_mem hb
    obtain ⟨c, hc, he⟩ := List.mem_map.1 hm
    have hv := (h.blocks c hc).grows g
    have hi : c.id = b.id := congrArg Prod.fst he
    have hf : c.function? = b.function? := congrArg Prod.snd he
    exact ⟨hi ▸ hv.id, hi ▸ hv.inner, hf ▸ hv.function⟩
  · exact congrArg Prod.fst hs

/-! ### Files -/

theorem grows_place (place : Place) (depth : Nat) :
    s.Grows { s with place, importDepth := depth } :=
  { Grows.refl s with }

theorem Valid.place (h : s.Valid U) (place : Place) (depth : Nat) :
    Session.Valid U { s with place, importDepth := depth } :=
  h.update { Updates.refl with grows := s.grows_place place depth }

theorem grows_leaveFile (outer : Frame) : s.Grows (s.leaveFile outer) :=
  { Grows.refl s with }

theorem Valid.leaveFile (h : s.Valid U) {outer : Frame}
    (ho : outer.module.index < s.modules.size) : (s.leaveFile outer).Valid U :=
  h.update { Updates.refl with grows := s.grows_leaveFile outer, module := .inr ho }

theorem grows_names {names : NameTable} (h : ∀ n ∈ s.names.texts, n ∈ names.texts) :
    s.Grows { s with names } :=
  { Grows.refl s with names := h }

theorem Valid.withNames (h : s.Valid U) {names : NameTable}
    (hg : ∀ n ∈ s.names.texts, n ∈ names.texts) (hv : names.Valid) :
    Session.Valid U { s with names } :=
  h.update { Updates.refl with grows := grows_names hg, names := fun _ => hv }

theorem grows_modules {modules : ModuleTable}
    (h : ∀ id m, s.modules.get? id = some m →
      ∃ imports, modules.get? id = some { m with imports }) : s.Grows { s with modules } :=
  { Grows.refl s with modules := h }

theorem grows_addImport (importer imported : ModuleId) :
    s.Grows { s with modules := s.modules.addImport importer imported } := by
  apply grows_modules
  intro id m hm
  rcases ModuleTable.get?_addImport importer imported hm with h | h
  · exact ⟨m.imports, h⟩
  · exact ⟨_, h⟩

theorem Valid.addImport (h : s.Valid U) (importer : ModuleId) {imported : ModuleId}
    (hi : imported.index < s.modules.size) :
    Session.Valid U { s with modules := s.modules.addImport importer imported } := by
  have g := s.grows_addImport importer imported
  refine h.update { Updates.refl with
    grows := g
    modules := fun id m hm => ?_
    unfinished := fun id hu => .inl ?_ }
  · obtain ⟨n, hn, he⟩ := ModuleTable.get?_of_addImport hm
    rcases he with rfl | rfl
    · exact .inl hn
    · have hv := (h.modules id n hn).grows g
      refine .inr ⟨hv.canonical, hv.folder, hv.name, fun other ho => ?_⟩
      rcases List.mem_append.1 ho with ho | ho
      · exact hv.imports other ho
      · rw [List.mem_singleton.1 ho]
        exact Nat.lt_of_lt_of_le hi g.modules_size
  · rwa [ModuleTable.unfinished_addImport] at hu

/-- The session in which a file's module has just been opened. -/
def openModule (s : Session) (path : String) : Session :=
  let name := Path.stem path
  let (id, modules) := s.modules.add path (Path.folder path) name
  { s with
    names := s.names.add name
    modules := modules.begin id
    blocks := { s.blocks with module := id } }

theorem grows_openModule (path : String) : s.Grows (s.openModule path) where
  types := .refl s.types
  idents _ i h := ⟨i.exported, i.span, h⟩
  names _ h := NameTable.mem_intern _ h
  globals _ g h := ⟨g.value?, h⟩
  modules id m hm := by
    refine ⟨m.imports, ?_⟩
    rw [openModule, ModuleTable.get?_begin, ModuleTable.get?_add,
      if_neg (Nat.ne_of_lt (ModuleTable.lt_of_get?_eq_some hm))]
    exact hm
  code := Nat.le_refl _
  blocks := Nat.le_refl _

theorem size_openModule (path : String) :
    (s.openModule path).modules.size = s.modules.size + 1 := by
  rw [openModule, ModuleTable.size_begin, ModuleTable.size_add]

theorem Valid.openModule (h : s.Valid U) {path : String} (canonical : Path.IsCanonical path) :
    (s.openModule path).Valid U := by
  have g := s.grows_openModule path
  refine h.update { Updates.refl with
    grows := g
    module := .inr ?_
    modules := fun id m hm => ?_
    unfinished := fun id hi => ?_
    names := fun hn => hn.intern _ }
  · rw [size_openModule]
    exact Nat.lt_succ_self _
  · rw [Session.openModule, ModuleTable.get?_begin, ModuleTable.get?_add] at hm
    split at hm
    · cases hm
      exact .inr ⟨canonical, rfl, NameTable.mem_intern_self h.names _, fun _ hi => nomatch hi⟩
    · exact .inl hm
  · rcases ModuleTable.mem_unfinished_begin hi with rfl | hi
    · right
      rw [size_openModule]
      exact Nat.lt_succ_self _
    · exact .inl hi

theorem grows_finish (id : ModuleId) : s.Grows { s with modules := s.modules.finish id } :=
  { Grows.refl s with }

theorem Valid.finish (h : s.Valid U) (id : ModuleId) :
    Session.Valid U { s with modules := s.modules.finish id } :=
  h.update { Updates.refl with
    grows := s.grows_finish id
    unfinished := fun _ hi => .inl (List.mem_filter.1 hi).1 }

end Session

end FrontEnd
