import FrontEnd.Proofs.Session.Grows
import FrontEnd.Proofs.Types.Containment
import FrontEnd.Proofs.Types.Constants
import FrontEnd.Proofs.Symbols.Ident
import FrontEnd.Proofs.Source.Path
import FrontEnd.Proofs.Names
import Mathlib.Data.Set.Insert

/-!
What holds of everything that a session stores. Each number that is stored is in its table, and each
name in the table of names; no type has a forward type as a part; and an identifier carries what its
kind asks for. While a structure is being read nothing refers to it yet: the types that are being
read are kept apart as a set `U`.
-/

namespace FrontEnd

theorem Constant.HasKind.grows {c : Constant} {k l : TypeKind} (h : c.HasKind k)
    (hg : k.Grows l) : c.HasKind l := by
  cases hg with
  | refl => exact h
  | _ => cases c <;> cases h

theorem Constant.HasKind.isForward {c : Constant} {k : TypeKind} (h : c.HasKind k) :
    k.isForward = false := by
  cases k <;> first | rfl | (cases c <;> cases h)

namespace Session

/-- A type that can be referred to. -/
structure Usable (U : Set TypeId) (s : Session) (id : TypeId) : Prop where
  has : id.index < s.types.size
  closed : id ∉ U

/-- No forward type is waiting for its identifier. -/
def Bound (s : Session) : Prop := ∀ id, s.types.kind id ≠ .forward none

theorem Usable.grows {U : Set TypeId} {s t : Session} {id : TypeId} (h : s.Usable U id)
    (g : s.Grows t) : t.Usable U id :=
  ⟨Nat.lt_of_lt_of_le h.has g.types.size, h.closed⟩

theorem Usable.mono {U V : Set TypeId} {s : Session} {id : TypeId} (h : s.Usable V id)
    (hU : U ⊆ V) : s.Usable U id :=
  ⟨h.has, fun hu => h.closed (hU hu)⟩

end Session

open Session

/-- What a kind of type may refer to. -/
structure TypeKind.Valid (U : Set TypeId) (s : Session) (k : TypeKind) : Prop where
  refs : ∀ r ∈ k.refs, s.Usable U r
  parts : ∀ r ∈ k.parts, s.types.isForward r = false
  names : ∀ n ∈ k.names, n ∈ s.names.texts

/-- What an identifier carries besides its type. -/
def Ident.Carries (s : Session) (i : Ident) : Prop :=
  match i.kind, i.payload with
  | .type, .none => True
  | .constant, .constant value => value.HasKind (s.types.kind i.type)
  | .function, .function entry reserved? =>
    (∃ signature, s.types.kind i.type = .function signature) ∧ entry ≤ s.code.size ∧
      (reserved? = none ∨ reserved? = some entry) ∧ i.block = .moduleScope
  | .var, .global slot => ∃ g, s.globals[slot]? = some g ∧ g.type = i.type ∧ g.name = i.name
  | .var, .local _ => True
  | _, _ => False

structure Ident.Valid (U : Set TypeId) (s : Session) (i : Ident) : Prop where
  type : s.Usable U i.type
  solid : i.kind ≠ .type → s.types.isForward i.type = false
  name : i.name ∈ s.names.texts
  module : i.module.index < s.modules.size
  block : i.block.index < s.blocks.next
  receiver : ∀ r ∈ i.receiver?, s.Usable U r
  plain : i.kind ≠ .function → i.receiver? = none
  carries : i.Carries s

structure Global.Valid (U : Set TypeId) (s : Session) (g : Global) : Prop where
  type : s.Usable U g.type
  solid : s.types.isForward g.type = false
  name : g.name ∈ s.names.texts

/-- The types that an instruction refers to. -/
def Instruction.types : Instruction → List TypeId
  | load type | store type | storeSwapped type => [type]
  | convert source target => [source, target]
  | _ => []

/-- The global variables that an instruction refers to. -/
def Instruction.slots : Instruction → List Nat
  | globalAddress slot => [slot]
  | _ => []

structure Instruction.Valid (U : Set TypeId) (s : Session) (i : Instruction) : Prop where
  types : ∀ r ∈ i.types, s.Usable U r
  slots : ∀ slot ∈ i.slots, slot < s.globals.size

theorem TypeKind.Valid.of_nil {U : Set TypeId} {s : Session} {k : TypeKind} (hr : k.refs = [])
    (hn : k.names = []) : k.Valid U s where
  refs r h := by rw [hr] at h; cases h
  parts r h := by
    have hm := mem_refs_of_mem_parts h
    rw [hr] at hm
    cases hm
  names n h := by rw [hn] at h; cases h

/-- A pointer holds no type within itself. -/
theorem TypeKind.Valid.pointer {U : Set TypeId} {s : Session} {base : TypeId}
    (h : s.Usable U base) : (TypeKind.pointer base).Valid U s where
  refs r hr := by rw [List.mem_singleton.1 hr]; exact h
  parts r hr := absurd hr List.not_mem_nil
  names n hn := absurd hn List.not_mem_nil

theorem Instruction.Valid.of_types {U : Set TypeId} {s : Session} {i : Instruction}
    (ht : ∀ r ∈ i.types, s.Usable U r) (hs : i.slots = []) : i.Valid U s where
  types := ht
  slots slot h := by rw [hs] at h; cases h

theorem Instruction.Valid.of_nil {U : Set TypeId} {s : Session} {i : Instruction}
    (ht : i.types = []) (hs : i.slots = []) : i.Valid U s :=
  .of_types (fun r h => by rw [ht] at h; cases h) hs

/-- A function whose type is that of a function. -/
def Session.IsFunction (s : Session) (id : IdentId) : Prop :=
  ∃ i, s.idents.get? id = some i ∧ i.kind = .function ∧
    ∃ signature, s.types.kind i.type = .function signature

structure Block.Valid (s : Session) (b : Block) : Prop where
  id : b.id.index < s.blocks.next
  inner : b.id ≠ .moduleScope
  function : ∀ f ∈ b.function?, s.IsFunction f

structure Module.Valid (s : Session) (m : Module) : Prop where
  canonical : Path.IsCanonical m.path
  folder : m.folder = Path.folder m.path
  name : m.name ∈ s.names.texts
  imports : ∀ id ∈ m.imports, id.index < s.modules.size

/-! ### What stays valid while a session grows -/

section Grows

variable {U V : Set TypeId} {s t : Session}

theorem Session.Grows.solid (g : s.Grows t) {id : TypeId} (h : s.Usable U id)
    (hf : s.types.isForward id = false) : t.types.isForward id = false :=
  g.types.isForward h.has hf

theorem Session.Grows.signature (g : s.Grows t) {id : TypeId} {signature : Signature}
    (h : s.types.kind id = .function signature) : t.types.kind id = .function signature := by
  have hi : id.index < s.types.size := TypeTable.index_lt_of_kind_ne (by simp [h])
  have hk := g.types.kind id hi (by rw [TypeTable.isForward_eq, h]; rfl)
  rw [h] at hk
  generalize t.types.kind id = k at hk
  cases hk
  rfl

theorem Session.Grows.hasKind (g : s.Grows t) {c : Constant} {id : TypeId} (h : s.Usable U id)
    (hc : c.HasKind (s.types.kind id)) : c.HasKind (t.types.kind id) :=
  hc.grows (g.types.kind id h.has (by rw [TypeTable.isForward_eq]; exact hc.isForward))

theorem Ident.Carries.grows {i : Ident} (h : i.Carries s) (ht : s.Usable U i.type)
    (g : s.Grows t) : i.Carries t := by
  unfold Ident.Carries at h ⊢
  split at h
  · trivial
  · exact g.hasKind ht h
  · obtain ⟨⟨signature, hs⟩, he, hr⟩ := h
    exact ⟨⟨signature, g.signature hs⟩, Nat.le_trans he g.code, hr⟩
  · obtain ⟨v, hv, ht, hn⟩ := h
    obtain ⟨value?, hw⟩ := g.globals _ v hv
    exact ⟨_, hw, ht, hn⟩
  · trivial
  · exact h.elim

/-- What has reserved an instruction is a function whose code starts there. -/
theorem Ident.Carries.reserved {i : Ident} (h : i.Carries s) {slot : Nat}
    (hr : i.reserved? = some slot) :
    i.kind = .function ∧ i.payload = .function slot (some slot) ∧
      ∃ signature, s.types.kind i.type = .function signature := by
  unfold Ident.reserved? at hr
  split at hr
  · rename_i entry reserved? hp
    subst hr
    unfold Ident.Carries at h
    rw [hp] at h
    cases hk : i.kind with
    | function =>
      rw [hk] at h
      obtain ⟨hs, _, hr, _⟩ := h
      rcases hr with hr | hr
      · cases hr
      · cases hr
        exact ⟨rfl, hp, hs⟩
    | _ => rw [hk] at h; exact h.elim
  · cases hr

theorem Session.IsFunction.grows {id : IdentId} (h : s.IsFunction id) (g : s.Grows t) :
    t.IsFunction id := by
  obtain ⟨i, hi, hk, signature, hs⟩ := h
  obtain ⟨j, hj, hjk, hjt⟩ := g.ident hi
  exact ⟨j, hj, hjk.trans hk, signature, by rw [hjt]; exact g.signature hs⟩

theorem Block.Valid.grows {b : Block} (h : b.Valid s) (g : s.Grows t) : b.Valid t where
  id := Nat.lt_of_lt_of_le h.id g.blocks
  inner := h.inner
  function f hf := (h.function f hf).grows g

theorem Module.Valid.grows {m : Module} (h : m.Valid s) (g : s.Grows t) : m.Valid t where
  canonical := h.canonical
  folder := h.folder
  name := g.names _ h.name
  imports id hi := Nat.lt_of_lt_of_le (h.imports id hi) g.modules_size

/-! While a session grows, the types that are being read can become others. -/

theorem TypeKind.Valid.transport {k : TypeKind} (h : k.Valid U s) (g : s.Grows t)
    (hu : ∀ id, s.Usable U id → t.Usable V id) : k.Valid V t where
  refs r hr := hu r (h.refs r hr)
  parts r hr := g.solid (h.refs r (mem_refs_of_mem_parts hr)) (h.parts r hr)
  names n hn := g.names n (h.names n hn)

theorem Ident.Valid.transport {i : Ident} (h : i.Valid U s) (g : s.Grows t)
    (hu : ∀ id, s.Usable U id → t.Usable V id) : i.Valid V t where
  type := hu _ h.type
  solid hk := g.solid h.type (h.solid hk)
  name := g.names _ h.name
  module := Nat.lt_of_lt_of_le h.module g.modules_size
  block := Nat.lt_of_lt_of_le h.block g.blocks
  receiver r hr := hu r (h.receiver r hr)
  plain := h.plain
  carries := h.carries.grows h.type g

theorem Global.Valid.transport {v : Global} (h : v.Valid U s) (g : s.Grows t)
    (hu : ∀ id, s.Usable U id → t.Usable V id) : v.Valid V t where
  type := hu _ h.type
  solid := g.solid h.type h.solid
  name := g.names _ h.name

theorem Instruction.Valid.transport {i : Instruction} (h : i.Valid U s) (g : s.Grows t)
    (hu : ∀ id, s.Usable U id → t.Usable V id) : i.Valid V t where
  types r hr := hu r (h.types r hr)
  slots slot hs := Nat.lt_of_lt_of_le (h.slots slot hs) g.globals_size

end Grows

/-- A session in which the types `U` are being read. -/
structure Session.Valid (U : Set TypeId) (s : Session) : Prop where
  building : ∀ id ∈ U, id.index < s.types.size
  builtins : TypeTable.initial.size ≤ s.types.size ∧
    ∀ id : TypeId, id.index < TypeTable.initial.size →
      id ∉ U ∧ s.types.kind id = TypeTable.initial.kind id
  kinds : ∀ id, (s.types.kind id).Valid U s
  forwards : ∀ id ident, s.types.kind id = .forward (some ident) →
    ∃ i, s.idents.get? ident = some i ∧ i.kind = .type ∧ i.type = id
  newest : ∀ id, s.types.kind id = .forward none → id.index + 1 = s.types.size
  pending : ∀ id ∈ s.types.pending, id.index < s.types.size
  idents : ∀ id i, s.idents.get? id = some i → i.Valid U s
  keys : ∀ id id' i i', s.idents.get? id = some i → s.idents.get? id' = some i' →
    i.key = i'.key → id = id'
  globals : ∀ (slot : Nat) (g : Global), s.globals[slot]? = some g → g.Valid U s
  code : ∀ i ∈ s.code.instructions, i.Valid U s
  blocks : ∀ b ∈ s.blocks.stack, b.Valid s
  next : 0 < s.blocks.next
  module : s.blocks.module.index < s.modules.size
  modules : ∀ id m, s.modules.get? id = some m → m.Valid s
  unfinished : ∀ id ∈ s.modules.unfinished, id.index < s.modules.size
  names : s.names.Valid
  reserved : selfName ∈ s.names.texts ∧ resultName ∈ s.names.texts

/-- The builtin types are where they were put at first, and identifiers are valid. -/
structure Session.Grounded (U : Set TypeId) (s : Session) : Prop where
  builtins : TypeTable.initial.size ≤ s.types.size ∧
    ∀ id : TypeId, id.index < TypeTable.initial.size →
      id ∉ U ∧ s.types.kind id = TypeTable.initial.kind id
  idents : ∀ id i, s.idents.get? id = some i → i.Valid U s

theorem Session.Valid.grounded {U : Set TypeId} {s : Session} (h : s.Valid U) : s.Grounded U :=
  ⟨h.builtins, h.idents⟩

/-- A session between two declarations or parts of one. Every forward type has its identifier, and
every type a size. -/
structure Session.Ready (U : Set TypeId) (s : Session) : Prop extends Session.Valid U s where
  bound : s.Bound
  founded : s.types.IsFounded
  sized : s.types.IsSized

end FrontEnd
