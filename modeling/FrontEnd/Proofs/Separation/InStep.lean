import FrontEnd.Proofs.Separation.Renumbering
import FrontEnd.Proofs.Declaration.Extends

/-!
Two compilations in step. Both read the same words, each in a session of its own. As long as they
are in step, what each of them has added since is the same but for a renumbering that is known from
the start: the first numbers that the one gives away stand for the first ones that the other does.
-/

namespace FrontEnd

open Session Relator

/-- A passage of a compilation that comes to its end. -/
structure Passage where
  setup : Setup
  root : String
  sessions : List Session
  first : Session
  last : Session
  /-- What the compilation leaves behind. -/
  final : Session
  within : sessions <:+: history setup root
  ends : sessions.getLast? = some last
  finishes : (history setup root).getLast? = some final

/-- Every session of a chain of changes leads to its last one. -/
theorem changes_of_mem_chain {run : List Session} {s z : Session} (chain : run.IsChain Change)
    (h : s ∈ run) (last : run.getLast? = some z) : Relation.ReflTransGen Change s z := by
  obtain ⟨before, behind, rfl⟩ := List.append_of_mem h
  refine List.relationReflTransGen_of_exists_isChain_cons _ (List.isChain_append.1 chain).2.1 ?_
  rw [List.getLast?_append_of_ne_nil _ (List.cons_ne_nil s behind)] at last
  exact Option.some_inj.1 ((List.getLast?_eq_some_getLast _).symm.trans last)

namespace Passage

variable {α : Type} {p : Passage} {s t : Session} {action : Action α} {v : α}

/-- The step succeeds as a part of the passage. -/
def Passes (p : Passage) (action : Action α) (s : Session) (v : α) (t : Session) : Prop :=
  action.PassesIn p.setup p.sessions s v t

theorem reached (h : s ∈ p.sessions) : s ∈ history p.setup p.root := p.within.subset h

theorem valid (h : s ∈ p.sessions) : s.Valid ∅ := valid_of_mem_history (reached h)

theorem founded (h : s ∈ p.sessions) : s.types.IsFounded :=
  (laidOut_of_mem_history (reached h)).founded

theorem grows_last (h : s ∈ p.sessions) : s.Grows p.last :=
  grows_of_changes (changes_of_mem_chain (Action.isChain_part p.within) h p.ends)

theorem grows_final (h : s ∈ p.sessions) : s.Grows p.final :=
  grows_of_changes (changes_of_mem_history (reached h) p.finishes)

/-- A type that is no forward type is in the end that of a function only if it is one already. -/
theorem isFunction_final {id : TypeId} (hs : s ∈ p.sessions) (has : id.index < s.types.size)
    (solid : s.types.isForward id = false) :
    p.final.types.IsFunction id ↔ s.types.IsFunction id := by
  have grows := (grows_final hs).types.kind id has solid
  constructor
  · rintro ⟨signature, hf⟩
    rw [hf] at grows
    generalize hk : s.types.kind id = k at grows
    cases grows
    exact ⟨signature, hk⟩
  · rintro ⟨signature, hf⟩
    exact ⟨signature, (grows_final hs).signature hf⟩

theorem Passes.last_mem (h : p.Passes action s v t) : t ∈ p.sessions :=
  h.within.subset (List.mem_of_getLast? h.yields.getLast?)

theorem Passes.history (h : p.Passes action s v t) :
    action.PassesIn p.setup (history p.setup p.root) s v t :=
  ⟨h.yields, h.within.trans p.within⟩

theorem Passes.grows (h : p.Passes action s v t) : s.Grows t := h.history.grows

end Passage

/-- From `a` to `m` it is as far as from `b` to `n`. -/
def Apace (a b m n : Nat) : Prop :=
  ∃ k, m = a + k ∧ n = b + k

theorem Apace.add {a b m n : Nat} (h : Apace a b m n) (k : Nat) : Apace a b (m + k) (n + k) := by
  obtain ⟨j, rfl, rfl⟩ := h
  exact ⟨j + k, Nat.add_assoc .., Nat.add_assoc ..⟩

/-- The module that is being read imports the module `id`, which a name in front of a dot stands
for. -/
def Session.Refers (s : Session) (file : String) (id : ModuleId) : Prop :=
  s.modules.findImportedByName? s.blocks.module file = some id ∧
    s.modules.Imports s.blocks.module id

/-- Two passages in which the same words are read, and how the numbers of the left one are
renumbered in the right one. What is new in both is numbered in the same order. -/
structure Twins extends Renumbering where
  left : Passage
  right : Passage
  settings : left.setup.settings = right.setup.settings
  oneToOne : toRenumbering.OneToOne
  builtin : ∀ id : TypeId, id.index < TypeTable.initial.size → types id id
  moduleScope : blocks .moduleScope .moduleScope
  predeclared : modules .predeclared .predeclared
  module : modules left.first.blocks.module right.first.blocks.module
  newType : ∀ n, left.first.types.size + n < left.last.types.size →
    right.first.types.size + n < right.last.types.size →
    types ⟨left.first.types.size + n⟩ ⟨right.first.types.size + n⟩
  newIdent : ∀ n, left.first.idents.size + n < left.last.idents.size →
    right.first.idents.size + n < right.last.idents.size →
    idents ⟨left.first.idents.size + n⟩ ⟨right.first.idents.size + n⟩
  newSlot : ∀ n, left.first.globals.size + n < left.last.globals.size →
    right.first.globals.size + n < right.last.globals.size →
    slots (left.first.globals.size + n) (right.first.globals.size + n)
  newAddress : ∀ n, left.first.code.size + n < left.last.code.size →
    right.first.code.size + n < right.last.code.size →
    addresses (left.first.code.size + n) (right.first.code.size + n)
  newBlock : ∀ n, left.first.blocks.next + n < left.last.blocks.next →
    right.first.blocks.next + n < right.last.blocks.next →
    blocks ⟨left.first.blocks.next + n⟩ ⟨right.first.blocks.next + n⟩
  refers : ∀ file a b, left.first.Refers file a → right.first.Refers file b → modules a b
  left_refers : ∀ file a, left.first.Refers file a →
    left.first.isModule file = right.first.isModule file
  right_refers : ∀ file b, right.first.Refers file b →
    left.first.isModule file = right.first.isModule file

namespace Twins

variable (w : Twins)

/-- The types that the left compilation leaves behind. -/
abbrev final : TypeTable := w.left.final.types

/-- Two sessions that differ by the renumbering only, as far as it goes. -/
structure InStep (s t : Session) : Prop where
  left_mem : s ∈ w.left.sessions
  right_mem : t ∈ w.right.sessions
  left_modules : s.modules = w.left.first.modules
  right_modules : t.modules = w.right.first.modules
  left_module : s.blocks.module = w.left.first.blocks.module
  right_module : t.blocks.module = w.right.first.blocks.module
  types : Apace w.left.first.types.size w.right.first.types.size s.types.size t.types.size
  idents : Apace w.left.first.idents.size w.right.first.idents.size s.idents.size t.idents.size
  slots : Apace w.left.first.globals.size w.right.first.globals.size s.globals.size t.globals.size
  code : Apace w.left.first.code.size w.right.first.code.size s.code.size t.code.size
  blocks : Apace w.left.first.blocks.next w.right.first.blocks.next s.blocks.next t.blocks.next
  kinds : ∀ a b, w.toRenumbering.types a b → w.SameKind w.final (s.types.kind a) (t.types.kind b)
  ident : ∀ i j, w.toRenumbering.idents i j →
    Option.Rel (w.SameIdent w.final) (s.idents.get? i) (t.idents.get? j)
  left_ident : ∀ i x m, s.idents.get? i = some x → w.modules x.module m →
    ∃ j, w.toRenumbering.idents i j
  right_ident : ∀ j y m, t.idents.get? j = some y → w.modules m y.module →
    ∃ i, w.toRenumbering.idents i j
  globals : ∀ m n, w.toRenumbering.slots m n →
    Option.Rel (w.SameGlobal w.final) s.globals[m]? t.globals[n]?
  stack : List.Forall₂ w.SameBlock s.blocks.stack t.blocks.stack

end Twins

namespace Twins.InStep

variable {w : Twins} {s t : Session} {a b : TypeId}

/-! ### What is the same in step -/

theorem outline (h : w.InStep s t) (hab : w.toRenumbering.types a b) :
    (s.types.kind a).outline = (t.types.kind b).outline :=
  (h.kinds a b hab).outline

theorem isForward (h : w.InStep s t) (hab : w.toRenumbering.types a b) :
    s.types.isForward a = t.types.isForward b :=
  TypeTable.isForward_congr (h.outline hab)

theorem isStructured (h : w.InStep s t) (hab : w.toRenumbering.types a b) :
    s.types.isStructured a = t.types.isStructured b :=
  TypeTable.isStructured_congr (h.outline hab)

theorem widens {c d : TypeId} (h : w.InStep s t) (hab : w.toRenumbering.types a b)
    (hcd : w.toRenumbering.types c d) : s.types.widens a c = t.types.widens b d :=
  TypeTable.widens_congr (h.outline hab) (h.outline hcd)

theorem size? (h : w.InStep s t) (hab : w.toRenumbering.types a b) :
    s.types.size? a = t.types.size? b :=
  Renumbering.size?_eq (Passage.founded h.left_mem) (Passage.founded h.right_mem) h.kinds hab

theorem current (h : w.InStep s t) : w.toRenumbering.blocks s.blocks.current t.blocks.current := by
  have stack := h.stack
  unfold Blocks.current
  generalize s.blocks.stack = bs at stack ⊢
  generalize t.blocks.stack = cs at stack ⊢
  cases stack with
  | nil => exact w.moduleScope
  | cons top _ => exact top.id

theorem atModuleScope (h : w.InStep s t) : s.blocks.atModuleScope = t.blocks.atModuleScope := by
  have stack := h.stack
  unfold Blocks.atModuleScope
  generalize s.blocks.stack = bs at stack ⊢
  generalize t.blocks.stack = cs at stack ⊢
  cases stack <;> rfl

theorem scopes (h : w.InStep s t) :
    List.Forall₂ w.toRenumbering.blocks s.blocks.scopes t.blocks.scopes := by
  refine List.rel_append ?_ (.cons w.moduleScope .nil)
  rw [List.forall₂_map_left_iff, List.forall₂_map_right_iff]
  exact h.stack.imp fun _ _ same => same.id

theorem function? (h : w.InStep s t) :
    Option.Rel w.toRenumbering.idents s.blocks.function? t.blocks.function? :=
  rel_findSome? h.stack fun _ _ same => same.function

/-! ### Looking up names -/

/-- The modules that are being read are the same. -/
theorem module (h : w.InStep s t) : w.modules s.blocks.module t.blocks.module := by
  rw [h.left_module, h.right_module]
  exact w.module

/-- Receivers are renumbered one to one. -/
theorem receiver_unique : BiUnique (Option.Rel w.toRenumbering.types) := by
  constructor
  · rintro _ _ _ (h | _) (h' | _)
    · exact congrArg some (w.oneToOne.types.left h h')
    · rfl
  · rintro _ _ _ (h | _) (h' | _)
    · exact congrArg some (w.oneToOne.types.right h h')
    · rfl

section Lookup

variable {m m' : ModuleId} {block block' : BlockId} {r r' : Option TypeId}

theorem rel_findNamed? (h : w.InStep s t) (hm : w.modules m m')
    (hb : w.toRenumbering.blocks block block') (hr : Option.Rel w.toRenumbering.types r r')
    (name : String) : Option.Rel w.toRenumbering.idents (s.idents.findNamed? m block r name)
      (t.idents.findNamed? m' block' r' name) := by
  -- What is found on either side has a partner on the other one, with the same key.
  cases left : s.idents.findNamed? m block r name with
  | some i =>
    obtain ⟨x, hx, key⟩ := IdentTable.findNamed?_eq_some left
    simp only [Ident.key, Prod.mk.injEq] at key
    obtain ⟨rfl, rfl, rfl, rfl⟩ := key
    obtain ⟨j, hij⟩ := h.left_ident i x m' hx hm
    have same := h.ident i j hij
    rw [hx] at same
    cases hy : t.idents.get? j with
    | none =>
      rw [hy] at same
      cases same
    | some y =>
      rw [hy] at same
      cases same with
      | some same =>
        have found := IdentTable.findNamed?_of_get? (Passage.valid h.right_mem).keys hy
        rw [w.oneToOne.modules.right same.module hm, w.oneToOne.blocks.right same.block hb,
          receiver_unique.right same.receiver hr, ← same.name] at found
        rw [found]
        exact .some hij
  | none =>
    cases right : t.idents.findNamed? m' block' r' name with
    | none => exact .none
    | some j =>
      obtain ⟨y, hy, key⟩ := IdentTable.findNamed?_eq_some right
      simp only [Ident.key, Prod.mk.injEq] at key
      obtain ⟨rfl, rfl, rfl, rfl⟩ := key
      obtain ⟨i, hij⟩ := h.right_ident j y m hy hm
      have same := h.ident i j hij
      rw [hy] at same
      cases hx : s.idents.get? i with
      | none =>
        rw [hx] at same
        cases same
      | some x =>
        rw [hx] at same
        cases same with
        | some same =>
          have found := IdentTable.findNamed?_of_get? (Passage.valid h.left_mem).keys hx
          rw [w.oneToOne.modules.left same.module hm, w.oneToOne.blocks.left same.block hb,
            receiver_unique.left same.receiver hr, same.name, left] at found
          cases found

theorem rel_findInModule? (h : w.InStep s t) (hm : w.modules m m') (name : String) :
    Option.Rel w.toRenumbering.idents (s.idents.findInModule? m name)
      (t.idents.findInModule? m' name) :=
  h.rel_findNamed? hm w.moduleScope .none name

theorem rel_find? (h : w.InStep s t) (name : String) :
    Option.Rel w.toRenumbering.idents (s.idents.find? s.blocks name)
      (t.idents.find? t.blocks name) :=
  rel_append (rel_findSome? h.scopes fun _ _ hb => h.rel_findNamed? h.module hb .none name)
    (h.rel_findInModule? w.predeclared name)

theorem sameIdent {i j : IdentId} {x y : Ident} (h : w.InStep s t)
    (hij : w.toRenumbering.idents i j) (hx : s.idents.get? i = some x)
    (hy : t.idents.get? j = some y) : w.SameIdent w.final x y := by
  have same := h.ident i j hij
  rw [hx, hy] at same
  cases same with
  | some same => exact same

/-- A name that waits for its declaration on the left waits on the right. -/
theorem rel_forwardOf? (h : w.InStep s t) (name : String) :
    Option.Rel (fun x y => w.toRenumbering.idents x.1 y.1 ∧ w.toRenumbering.types x.2 y.2)
      (Action.forwardOf? s name) (Action.forwardOf? t name) := by
  have found := h.rel_findNamed? h.module h.current .none name
  unfold Action.forwardOf? IdentTable.findInScope?
  cases hi : s.idents.findNamed? s.blocks.module s.blocks.current none name <;>
    cases hj : t.idents.findNamed? t.blocks.module t.blocks.current none name <;>
    rw [hi, hj] at found <;> cases found
  · exact .none
  · rename_i i j hij
    have same := h.ident i j hij
    simp only [Option.bind_eq_bind, Option.bind_some]
    cases hx : s.idents.get? i <;> cases hy : t.idents.get? j <;> rw [hx, hy] at same <;> cases same
    · exact .none
    · rename_i x y same
      simp only [Option.bind_some, same.kind, h.isForward same.type]
      split
      · exact .some ⟨hij, same.type⟩
      · exact .none

end Lookup

end Twins.InStep

end FrontEnd
