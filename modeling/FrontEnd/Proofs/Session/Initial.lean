import FrontEnd.Proofs.Layout
import Mathlib.Data.List.Nodup

/-!
The session in which a compilation starts.
-/

namespace FrontEnd.Session

variable {settings : Settings}

theorem initial_kind_valid (i : Nat) (hi : i < TypeTable.initial.size) :
    (∀ r ∈ (TypeTable.initial.kind ⟨i⟩).refs, r = .void) ∧
      (TypeTable.initial.kind ⟨i⟩).parts = [] ∧ (TypeTable.initial.kind ⟨i⟩).names = [] := by
  revert i
  decide

theorem initial_kinds (id : TypeId) : (TypeTable.initial.kind id).Valid ∅ (initial settings) := by
  by_cases hi : id.index < TypeTable.initial.size
  · obtain ⟨refs, parts, names⟩ := initial_kind_valid id.index hi
    refine ⟨fun r hr => ?_, fun r hr => ?_, fun n hn => ?_⟩
    · rw [refs r hr]
      have void : TypeId.void.index < TypeTable.initial.size := by decide
      exact ⟨void, nofun⟩
    · rw [parts] at hr
      cases hr
    · rw [names] at hn
      cases hn
  · rw [TypeTable.kind_of_size_le (Nat.le_of_not_lt hi)]
    exact .of_nil rfl rfl

theorem initial_not_forward (id : TypeId) (ident? : Option IdentId) :
    TypeTable.initial.kind id ≠ .forward ident? := by
  intro hk
  have hi : id.index < TypeTable.initial.size :=
    TypeTable.index_lt_of_kind_ne fun hn => by rw [hn] at hk; cases hk
  have plain := (initial_kind_plain id.index hi).1
  rw [hk] at plain
  cases plain

/-- The predeclared names are different. -/
theorem nodup_predeclared : (predeclaredIdents.map (·.name)).Nodup := by
  decide

theorem get?_initial {id : IdentId} {i : Ident} (h : (initial settings).idents.get? id = some i) :
    predeclaredIdents[id.index]? = some i := by
  rw [← h]
  exact (initial settings).idents.getElem?_toList id

theorem names_initial_valid : (initial settings).names.Valid := by
  unfold initial
  dsimp only
  exact NameTable.valid_addAll_empty (reservedNames settings)

theorem mem_names_initial {name : String} (h : name ∈ reservedNames settings) :
    name ∈ (initial settings).names.texts := by
  unfold initial
  dsimp only
  exact NameTable.mem_addAll_self NameTable.valid_empty h

/-- What is predeclared is a type or a constant of a builtin type. -/
theorem predeclared_builtin : ∀ i ∈ predeclaredIdents, i.type.index < TypeTable.initial.size ∧
    i.module = .predeclared ∧ i.block = .moduleScope ∧ i.receiver? = none := by
  decide

theorem predeclared_carries {i : Ident} (h : i ∈ predeclaredIdents) :
    i.Carries (initial settings) := by
  rcases List.mem_append.1 h with h | h
  · obtain ⟨_, _, rfl⟩ := List.mem_map.1 h
    trivial
  · obtain ⟨p, hp, rfl⟩ := List.mem_map.1 h
    have kinds : ∀ p ∈ predeclaredConstants, p.2.2.HasKind (TypeTable.initial.kind p.2.1) := by
      rintro p (_ | ⟨_, _ | ⟨_, _ | ⟨_, ⟨⟩⟩⟩⟩) <;> trivial
    exact kinds p hp

theorem initial_idents {id : IdentId} {i : Ident} (h : (initial settings).idents.get? id = some i) :
    i.Valid ∅ (initial settings) := by
  have hm := List.mem_of_getElem? (get?_initial h)
  obtain ⟨type, module, block, receiver⟩ := predeclared_builtin i hm
  refine ⟨⟨type, nofun⟩, fun _ => ?_, ?_, ?_, ?_, ?_, fun _ => receiver, predeclared_carries hm⟩
  · exact TypeTable.isForward_eq _ _ ▸ (initial_kind_plain i.type.index type).1
  · exact mem_names_initial (List.mem_append_right _ (List.mem_map_of_mem hm))
  · rw [module]
    exact Nat.zero_lt_one
  · rw [block]
    exact Nat.zero_lt_one
  · rw [receiver]
    nofun

theorem initial_keys {id id' : IdentId} {i i' : Ident}
    (h : (initial settings).idents.get? id = some i)
    (h' : (initial settings).idents.get? id' = some i') (hk : i.key = i'.key) : id = id' := by
  have hn : i.name = i'.name := congrArg (fun k => k.2.2.2) hk
  have hi := get?_initial h
  have hi' := get?_initial h'
  obtain ⟨hlt, _⟩ := List.getElem?_eq_some_iff.1 hi
  have names : (predeclaredIdents.map (·.name))[id.index]? =
      (predeclaredIdents.map (·.name))[id'.index]? := by
    rw [List.getElem?_map, List.getElem?_map, hi, hi', Option.map_some, Option.map_some, hn]
  have bound : id.index < (predeclaredIdents.map (·.name)).length := by rwa [List.length_map]
  exact IdentId.ext ((List.getElem?_inj bound nodup_predeclared).1 names)

theorem initial_modules {id : ModuleId} {m : Module}
    (h : (initial settings).modules.get? id = some m) : m.Valid (initial settings) := by
  unfold initial at h
  rw [ModuleTable.get?_add] at h
  split at h
  · cases h
    have folder : "" = Path.folder predeclaredPath := by decide
    exact ⟨Path.isCanonical_predeclared, folder, mem_names_initial (by simp [reservedNames]), nofun⟩
  · cases h

theorem contents_initial (id : TypeId) : (TypeTable.initial.kind id).contents = [] := by
  by_cases hi : id.index < TypeTable.initial.size
  · apply List.eq_nil_iff_forall_not_mem.2
    intro part hc
    have parts := TypeKind.mem_parts_of_mem_contents hc
    have none := (initial_kind_valid id.index hi).2.1
    exact absurd (none ▸ parts) List.not_mem_nil
  · rw [TypeTable.kind_of_size_le (Nat.le_of_not_lt hi)]
    rfl

theorem isFounded_initial : TypeTable.initial.IsFounded := by
  refine ⟨fun id => ⟨_, fun part hc => ?_⟩⟩
  rw [TypeTable.Contains, contents_initial] at hc
  cases hc

theorem isSized_initial : TypeTable.initial.IsSized :=
  fun id => isFounded_initial.size?_of_contents_nil (contents_initial id)

theorem initial_ready (settings : Settings) : (initial settings).Ready ∅ where
  building := nofun
  builtins := ⟨Nat.le_refl _, fun _ _ => ⟨nofun, rfl⟩⟩
  kinds := initial_kinds
  forwards id ident hk := absurd hk (initial_not_forward id _)
  newest id hk := absurd hk (initial_not_forward id _)
  pending := nofun
  idents _ _ hi := initial_idents hi
  keys _ _ _ _ hi hi' hk := initial_keys hi hi' hk
  globals := nofun
  code := nofun
  blocks := nofun
  next := Nat.zero_lt_one
  module := Nat.zero_lt_one
  modules _ _ hm := initial_modules hm
  unfinished := nofun
  names := names_initial_valid
  reserved := ⟨mem_names_initial (by simp [reservedNames]), mem_names_initial (by simp [reservedNames])⟩
  bound id := initial_not_forward id _
  founded := isFounded_initial
  sized := isSized_initial

end FrontEnd.Session
