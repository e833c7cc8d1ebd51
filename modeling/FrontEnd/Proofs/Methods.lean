import FrontEnd.Proofs.Passes
import FrontEnd.Proofs.Visibility

/-!
Methods. A method is declared on a structured type that a pointer points at, and none of whose fields
has the method's name. Such a type gains no more fields, so this stays true although it is checked
only once. Methods and plain identifiers have different keys; so they do not stand in each other's
way, and names find plain identifiers only.
-/

namespace FrontEnd

open Session

namespace Session

variable {s t : Session}

/-- Methods are declared on types that can receive them. -/
def ReceivesMethods (s : Session) : Prop :=
  ∀ id i, s.idents.get? id = some i → ∀ base ∈ i.receiver?, s.Receives base i.name

/-- Nothing but the identifiers that are added has to be looked at. -/
theorem ReceivesMethods.grows (h : s.ReceivesMethods) (g : s.Grows t) (f : s.Fixes t)
    (new : ∀ id i, t.idents.get? id = some i → ∀ base ∈ i.receiver?,
      t.Receives base i.name ∨ ∃ j, s.idents.get? id = some j ∧ j.receiver? = i.receiver? ∧
        j.name = i.name) : t.ReceivesMethods := by
  intro id i hi base hb
  rcases new id i hi base hb with hr | ⟨j, hj, receiver, name⟩
  · exact hr
  · rw [← receiver] at hb
    exact name ▸ (h id j hj base hb).grows g f

theorem ReceivesMethods.same (h : s.ReceivesMethods) (g : s.Grows t) (f : s.Fixes t)
    (idents : t.idents = s.idents) : t.ReceivesMethods :=
  h.grows g f fun _ i hi _ _ => .inr ⟨i, idents ▸ hi, rfl, rfl⟩

/-- A method is checked when it is declared. -/
theorem ReceivesMethods.insert (h : s.ReceivesMethods) {i : Ident} {id : IdentId}
    {idents : IdentTable} (added : s.idents.insert? i = some (id, idents))
    (receives : ∀ base ∈ i.receiver?, s.Receives base i.name) :
    ReceivesMethods { s with idents } := by
  have g := grows_insert (s := s) added
  have f : s.Fixes { s with idents } := g.fixes_same rfl
  refine h.grows g f fun other j hj base hb => ?_
  obtain ⟨_, rfl, _⟩ := IdentTable.insert?_eq_some added
  rw [IdentTable.get?_push] at hj
  split at hj
  · cases hj
    exact .inl ((receives base hb).grows g f)
  · exact .inr ⟨j, hj, rfl, rfl⟩

theorem Step.receivesMethods (step : s.Step ∅ t) (h : s.ReceivesMethods) : t.ReceivesMethods := by
  have g := step.grows
  have f := step.fixes
  cases step with
  | declare added _ _ _ receives => exact h.insert added receives
  | complete =>
    refine h.grows g f fun other j hj base hb => .inr ?_
    rw [IdentTable.get?_modify] at hj
    split at hj
    · obtain ⟨k, hk, rfl⟩ := Option.map_eq_some_iff.1 hj
      exact ⟨k, hk, rfl, rfl⟩
    · exact ⟨j, hj, rfl, rfl⟩
  | _ => exact h.same g f rfl

theorem Change.receivesMethods (change : s.Change t) (h : s.ReceivesMethods) :
    t.ReceivesMethods := by
  have g := change.grows
  have f := change.fixes
  cases change with
  | step _ step => exact step.receivesMethods h
  | nameForward added valid kind =>
    refine h.insert added fun base hb => ?_
    rw [valid.plain (by rw [kind]; nofun)] at hb
    cases hb
  | _ => exact h.same g f rfl

/-- A type has one method of a name in each module. -/
theorem Valid.single {U : Set TypeId} (h : s.Valid U) {id other : IdentId} {i j : Ident}
    {base : TypeId} (hi : s.idents.get? id = some i) (hj : s.idents.get? other = some j)
    (receiver : i.receiver? = some base) (receiver' : j.receiver? = some base)
    (module : j.module = i.module) (name : j.name = i.name) : other = id := by
  have block {id : IdentId} {i : Ident} (hi : s.idents.get? id = some i)
      (receiver : i.receiver? = some base) : i.block = .moduleScope := by
    have valid := h.idents id i hi
    have kind : i.kind = .function := by
      by_contra plain
      rw [valid.plain plain] at receiver
      cases receiver
    have carries := valid.carries
    unfold Ident.Carries at carries
    rw [kind] at carries
    split at carries
    · contradiction
    · contradiction
    · exact carries.2.2.2
    · contradiction
    · contradiction
    · exact carries.elim
  refine h.keys other id j i hj hi ?_
  rw [Ident.key, Ident.key, module, block hi receiver, block hj receiver', receiver, receiver',
    name]

end Session

namespace IdentTable

variable {t : IdentTable} {i : Ident}

/-- Only a plain identifier stands in the way of another one. -/
theorem isSome_insert?_of_plain (plain : i.receiver? = none) :
    (t.insert? i).isSome = true ↔
      ∀ id j, t.get? id = some j → j.receiver? = none → j.key ≠ i.key := by
  unfold insert?
  cases hf : t.findNamed? i.module i.block i.receiver? i.name with
  | none => exact ⟨fun _ id j hj _ => findNamed?_eq_none hf hj, fun _ => rfl⟩
  | some id =>
    obtain ⟨j, hj, key⟩ := findNamed?_eq_some hf
    have other : j.receiver? = none := (congrArg (·.2.2.1) key).trans plain
    exact ⟨nofun, fun free => absurd key (free id j hj other)⟩

theorem plain_of_findInScope? {module : ModuleId} {block : BlockId} {name : String} {id : IdentId}
    (h : t.findInScope? module block name = some id) (hi : t.get? id = some i) :
    i.receiver? = none := by
  obtain ⟨j, hj, key⟩ := findNamed?_eq_some h
  cases hi.symm.trans hj
  exact congrArg (·.2.2.1) key

end IdentTable

namespace Action

variable {setup : Setup} {s t : Session}

/-- What a name stands for, alone or behind that of a file, is not a method. -/
theorem plain_of_resolve {reference : Reference} {x : IdentId × Ident}
    (h : (resolve reference).Yields setup s x t) : x.2.receiver? = none := by
  cases reference with
  | plain name span =>
    obtain ⟨found, known, _⟩ := yields_resolve_plain.1 h
    obtain ⟨i, hi, visible⟩ := visible_of_find? found
    cases known.symm.trans hi
    exact visible.plain
  | member file span member =>
    obtain ⟨_, _, _, _, _, _, offered, _⟩ := yields_resolve_member.1 h
    exact IdentTable.plain_of_findInScope? offered.found offered.ident

end Action

/-! ### Compilations -/

namespace Session

/-- How methods stand beside fields and beside plain identifiers. -/
structure SetsMethodsApart (setup : Setup) (s : Session) : Prop where
  /-- The type of the receiver has no field of the method's name, and in one module no other method
  of that name. -/
  methods : ∀ id i base, s.idents.get? id = some i → i.receiver? = some base →
    s.types.isStructured base = true ∧ s.types.findField? base i.name = none ∧
      ∀ other j, s.idents.get? other = some j → j.receiver? = some base → j.module = i.module →
        j.name = i.name → other = id
  /-- No method stands in the way of a plain identifier. -/
  declares : ∀ i : Ident, i.receiver? = none →
    ((s.idents.insert? i).isSome = true ↔
      ∀ id j, s.idents.get? id = some j → j.receiver? = none → j.key ≠ i.key)
  /-- A name is looked up among the plain identifiers of a scope, whatever methods have it. -/
  finds : ∀ module block name id, s.idents.findInScope? module block name = some id ↔
    ∃ i, s.idents.get? id = some i ∧ i.key = (module, block, none, name)
  /-- No name, alone or behind that of a file, stands for a method. -/
  names : ∀ reference x t, (Action.resolve reference).Yields setup s x t → x.2.receiver? = none

end Session

variable {setup : Setup} {root : String} {s t : Session}

theorem receivesMethods_of_mem_history (hs : s ∈ history setup root) : s.ReceivesMethods := by
  refine (history_induction (P := ReceivesMethods) ?_
    (fun _ _ _ h hs => h.change.receivesMethods hs) s hs).2
  intro id i hi base hb
  have plain : ∀ i ∈ predeclaredIdents, i.receiver? = none := by decide
  have known : i ∈ predeclaredIdents.toArray := Array.mem_of_getElem? hi
  rw [plain i (List.mem_toArray.1 known)] at hb
  cases hb

/-- Throughout a compilation a method is declared on a structured type none of whose fields has its
name, and is the only one of its module on that type with the name. Plain identifiers of the name can
be declared besides, and only these are found by names. A type that a method has been declared on
stays as it is for the rest of the compilation, so it gains no field. -/
theorem history_methods (setup : Setup) (root : String) :
    (∀ s ∈ history setup root, s.SetsMethodsApart setup) ∧
      (history setup root).Pairwise fun s t => ∀ id i base, s.idents.get? id = some i →
        i.receiver? = some base → t.types.kind base = s.types.kind base := by
  constructor
  · intro s hs
    have valid := valid_of_mem_history hs
    refine ⟨fun id i base hi receiver => ?_, fun i => IdentTable.isSome_insert?_of_plain,
      fun module block name id => ⟨IdentTable.findNamed?_eq_some, ?_⟩,
      fun _ _ _ => Action.plain_of_resolve⟩
    · have receives := receivesMethods_of_mem_history hs id i hi base receiver
      exact ⟨receives.structured, receives.free,
        fun other j hj receiver' => valid.single hi hj receiver receiver'⟩
    · rintro ⟨i, hi, key⟩
      have found := IdentTable.findNamed?_of_get? valid.keys hi
      simp only [Ident.key, Prod.mk.injEq] at key
      obtain ⟨rfl, rfl, plain, rfl⟩ := key
      rwa [plain] at found
  · refine (pairwise_history setup root).imp_of_mem fun hs _ changes id i base hi receiver => ?_
    have receives := receivesMethods_of_mem_history hs id i hi base receiver
    exact receives.kind_eq (fixes_of_changes changes)

/-- A function and a method of the same name. -/
def areaProgram : Setup where
  settings := .standard
  sources := ⟨fun _ => .ok
    "type square = struct \x7bside: int\x7d\nfn (s: ^square) area(): int \x7breturn 1\x7d\nfn area(): int \x7breturn 2\x7d\nfn main() \x7b\x7d\n"⟩
  hosts := ⟨[]⟩

example : (match compile areaProgram "main.um" with
    | .ok s => (s.idents.toList.filter (·.name = "area")).map (·.receiver?.isSome)
    | .error _ => []) = [true, false] := by decide +kernel

end FrontEnd
