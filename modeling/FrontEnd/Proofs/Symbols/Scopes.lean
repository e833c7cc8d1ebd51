import FrontEnd.Proofs.Symbols.Ident
import FrontEnd.Proofs.Symbols.Blocks

/-!
A plain stack of scopes. Names are looked up from the innermost scope outwards, and scopes that are
closed are dropped. The table of identifiers drops nothing; what it finds is what the stack of its
open scopes holds.
-/

namespace FrontEnd

/-- What a module has declared under a name. -/
structure Binding where
  module : ModuleId
  name : String
  ident : IdentId
deriving DecidableEq, Repr

/-- The names of a scope in the order of their declaration. Only module scope is shared by several
modules. -/
abbrev Scope := List Binding

def Scope.find? (scope : Scope) (module : ModuleId) (name : String) : Option IdentId :=
  (List.find? (fun b => b.module = module && b.name = name) scope).map (·.ident)

/-- The open scopes and the module being read. -/
structure ScopeStack where
  /-- The scopes of the open blocks, innermost first. -/
  blocks : List Scope
  moduleScope : Scope
  module : ModuleId
deriving DecidableEq, Repr

namespace ScopeStack

/-- What a name stands for: the innermost open scope that has it, then the predeclared names. -/
def find? (s : ScopeStack) (name : String) : Option IdentId :=
  ((s.blocks ++ [s.moduleScope]).findSome? (·.find? s.module name)) <|>
    s.moduleScope.find? .predeclared name

def current (s : ScopeStack) : Scope := s.blocks.headD s.moduleScope

/-- Adds a name to the innermost scope. -/
def push (s : ScopeStack) (b : Binding) : ScopeStack :=
  match s.blocks with
  | scope :: rest => { s with blocks := (scope ++ [b]) :: rest }
  | [] => { s with moduleScope := s.moduleScope ++ [b] }

/-- What happens to a stack of scopes. -/
inductive Move
  | enter
  | leave
  | declare (name : String) (ident : IdentId)
  /-- Another module is read, or reading goes on in a module. -/
  | switch (module : ModuleId)
deriving DecidableEq, Repr

/-- A name is declared once in each scope; everything else always succeeds. -/
def move? (s : ScopeStack) : Move → Option ScopeStack
  | .enter => some { s with blocks := [] :: s.blocks }
  | .leave => some { s with blocks := s.blocks.drop 1 }
  | .declare name ident =>
    if (s.current.find? s.module name).isSome then none
    else some (s.push ⟨s.module, name, ident⟩)
  | .switch module => some { s with module }

theorem move?_declare (s : ScopeStack) (name : String) (ident : IdentId) :
    s.move? (.declare name ident) =
      if (s.current.find? s.module name).isSome then none
      else some (s.push ⟨s.module, name, ident⟩) := rfl

end ScopeStack

namespace IdentTable

/-- The binding of the `n`-th identifier in the scope of a block. Methods have none. -/
def binding? (block : BlockId) (key : ModuleId × BlockId × Option TypeId × String) (n : Nat) :
    Option Binding :=
  if key.2.1 = block && key.2.2.1 = none then some ⟨key.1, key.2.2.2, ⟨n⟩⟩ else none

/-- What has been declared in a block. -/
def scope (t : IdentTable) (block : BlockId) : Scope :=
  (t.toList.map Ident.key).zipIdx.filterMap fun (key, n) => binding? block key n

variable {t u : IdentTable}

theorem binding?_any {block : BlockId} {key : ModuleId × BlockId × Option TypeId × String} {n : Nat}
    {module : ModuleId} {name : String} :
    (binding? block key n).any (fun b => b.module = module && b.name = name) =
      decide (key = (module, block, none, name)) := by
  obtain ⟨m, c, receiver?, x⟩ := key
  unfold binding?
  by_cases hc : c = block <;> by_cases hr : receiver? = none <;> simp [hc, hr, Prod.ext_iff]

theorem binding?_self (module : ModuleId) (block : BlockId) (name : String) (n : Nat) :
    binding? block (module, block, none, name) n = some ⟨module, name, ⟨n⟩⟩ := by
  simp [binding?]

/-- The names of a scope are those that the table finds in it. -/
theorem find?_scope (t : IdentTable) (module : ModuleId) (block : BlockId) (name : String) :
    (t.scope block).find? module name = t.findInScope? module block name := by
  have named (i : Ident) : i.isNamed module block none name =
      decide (i.key = (module, block, none, name)) := by
    rw [Bool.eq_iff_iff, Ident.isNamed_iff, decide_eq_true_iff]
  have table : t.findInScope? module block name = (t.toList.findIdx?
      fun i => decide (i.key = (module, block, none, name))).map IdentId.mk := by
    obtain ⟨⟨idents⟩⟩ := t
    simp only [findInScope?, findNamed?, named, List.findIdx?_toArray, toList]
  rw [table, List.findIdx?_eq_fst_find?_zipIdx, Scope.find?, scope, List.find?_filterMap,
    List.zipIdx_map, List.find?_map]
  simp only [binding?_any, Function.comp_def, Prod.map_fst]
  cases hf : t.toList.zipIdx.find? fun x => decide (x.1.key = (module, block, none, name)) with
  | none => rfl
  | some found =>
    have key : found.1.key = (module, block, none, name) := by
      simpa using List.find?_some hf
    simp only [Option.map_some, Option.bind_some, Prod.map_fst, Prod.map_snd, id_eq, key,
      binding?_self]

theorem scope_congr (h : t.toList.map Ident.key = u.toList.map Ident.key) (block : BlockId) :
    t.scope block = u.scope block := by
  rw [scope, scope, h]

/-- Changing identifiers but not their names and scopes leaves all scopes as they are. -/
theorem scope_modify (id : IdentId) {f : Ident → Ident} (hf : ∀ i, (f i).key = i.key)
    (block : BlockId) : (t.modify id f).scope block = t.scope block := by
  refine scope_congr (List.ext_getElem? fun n => ?_) block
  unfold toList modify
  rw [Array.toList_modify, List.getElem?_map, List.getElem?_map, List.getElem?_modify]
  cases t.idents.toList[n]? with
  | none => simp
  | some i =>
    split <;> simp [hf]

theorem scope_push (i : Ident) (block : BlockId) :
    IdentTable.scope ⟨t.idents.push i⟩ block =
      t.scope block ++ (binding? block i.key t.size).toList := by
  unfold scope toList size
  rw [Array.toList_push, List.map_append, List.zipIdx_append, List.filterMap_append,
    List.length_map, Array.length_toList, Nat.zero_add]
  cases h : binding? block i.key t.idents.size <;> simp [h]

/-- A block in which nothing has been declared. -/
theorem scope_eq_nil {block : BlockId} (h : ∀ id i, t.get? id = some i → i.block ≠ block) :
    t.scope block = [] := by
  unfold scope
  rw [List.filterMap_eq_nil_iff]
  rintro ⟨key, n⟩ hm
  rw [List.mem_zipIdx_iff_getElem?, List.getElem?_map] at hm
  obtain ⟨i, hi, rfl⟩ := Option.map_eq_some_iff.1 hm
  have other : i.key.2.1 ≠ block := h ⟨n⟩ i ((t.getElem?_toList ⟨n⟩).symm.trans hi)
  simp [binding?, other]

end IdentTable

end FrontEnd
