import FrontEnd.Proofs.Separation.Partners

/-!
The phases of a file are in step. Where they begin, all that is known of the files that are
imported differs by the renumbering only, because the phases of those were in step when they ended
and nothing has changed since; so the phases of the file itself end in step.
-/

namespace FrontEnd

open Session Relation Relator

namespace TypeTable

/-- The first types are the builtin ones and the pointer to `void`. -/
theorem initial_kind {id : TypeId} (h : id.index < initial.size) :
    (∃ b, initial.kind id = .builtin b) ∨ initial.kind id = .pointer .void := by
  have mem : initial.kind id ∈ Builtin.all.map TypeKind.builtin ++ [TypeKind.pointer .void] := by
    rw [kind, Array.getElem?_eq_getElem h]
    exact Array.mem_toList_iff.2 (Array.getElem_mem h)
  rcases List.mem_append.1 mem with mem | mem
  · obtain ⟨b, _, hk⟩ := List.mem_map.1 mem
    exact .inl ⟨b, hk.symm⟩
  · exact .inr (List.mem_singleton.1 mem)

end TypeTable

namespace Session

/-- What a predeclared name stands for. -/
theorem predeclared_plain : ∀ i ∈ predeclaredIdents, i.module = .predeclared ∧
    i.block = .moduleScope ∧ i.receiver? = none ∧ i.type.index < TypeTable.initial.size ∧
    (match i.payload with | .none | .constant _ => true | _ => false) = true := by
  decide

end Session

namespace Run

variable {r : Run} {p : Phase} {s : Session} {a id : ModuleId} {file : String}

/-! ### Where a phase begins -/

theorem module_lt (hp : p ∈ r.phases) : p.module.index < p.first.modules.size := by
  rw [← (passed hp).module]
  exact (passed hp).begun.valid.module

theorem path_first (hp : p ∈ r.phases) :
    p.first.modules.path p.module = r.final.modules.path p.module := by
  obtain ⟨m, hm⟩ : ∃ m, p.first.modules.get? p.module = some m :=
    ⟨_, Array.getElem?_eq_getElem (module_lt hp)⟩
  obtain ⟨imports, hm', _⟩ := grows_modules hp _ m hm
  rw [ModuleTable.path_of_get? hm, ModuleTable.path_of_get? hm']

theorem name_first (hp : p ∈ r.phases) (lt : id.index < p.first.modules.size) :
    p.first.modules.name id = r.final.modules.name id := by
  obtain ⟨m, hm⟩ : ∃ m, p.first.modules.get? id = some m := ⟨_, Array.getElem?_eq_getElem lt⟩
  obtain ⟨imports, hm', _⟩ := grows_modules hp _ m hm
  rw [ModuleTable.name_of_get? hm, ModuleTable.name_of_get? hm']

/-- A module that is named in a phase is one that its own module imports. -/
theorem of_refers (hp : p ∈ r.phases) (h : p.first.Refers file a) :
    r.final.modules.Imports p.module a ∧ r.final.modules.name a = file := by
  obtain ⟨found, imports⟩ := h
  rw [(passed hp).module] at imports
  have lt := (passed hp).begun.valid.imported_lt imports
  exact ⟨imports.grows (grows_modules hp), (name_first hp lt).symm.trans
    (ModuleTable.name_of_findImportedByName? found)⟩

/-- The name of an imported module can stand in front of a dot, unless it is that of the predeclared
names. -/
theorem isModule_first (hp : p ∈ r.phases) (hi : r.final.modules.Imports p.module a)
    (name : r.final.modules.name a = file) :
    p.first.isModule file = true ↔ a ≠ .predeclared := by
  unfold Session.isModule
  constructor
  · rintro found rfl
    obtain ⟨id, found⟩ := Option.isSome_iff_exists.1 found
    obtain ⟨lt, same⟩ := ModuleTable.name_of_findByName? found
    rw [name_first hp lt, ← name] at same
    have lt := Nat.lt_of_lt_of_le lt (grows_final hp).modules_size
    obtain ⟨n, hn, he⟩ := Option.map_eq_some_iff.1 found
    have later := List.find?_some hn
    have file : id ≠ .predeclared := by
      rintro rfl
      obtain rfl : n = 0 := congrArg ModuleId.index he
      split at later <;> simp at later
    exact file <|
      eq_of_name (reachable lt file) (reachable_of_imports hi) lt r.known_predeclared same
  · intro other
    rcases r.course.imports p hp a hi with he | ⟨x, hx, rfl, leads⟩
    · exact absurd he other
    · have lt := Nat.lt_of_lt_of_le (module_lt hx)
        (((passed hx).leads.trans leads).grows.modules_size)
      obtain ⟨m, hm⟩ : ∃ m, p.first.modules.get? x.module = some m :=
        ⟨_, Array.getElem?_eq_getElem lt⟩
      refine ModuleTable.isSome_findByName? hm other ?_
      rw [← ModuleTable.name_of_get? hm, name_first hp lt, name]

/-- Each identifier is predeclared, or has been added by the phase of its module. -/
theorem phase_of_ident (grows : s.Grows r.final) {i : IdentId} {x : Ident}
    (hx : s.idents.get? i = some x) :
    x.module = .predeclared ∧ i.index < predeclaredIdents.length ∨
    ∃ p ∈ r.phases, x.module = p.module ∧ p.first.idents.size ≤ i.index ∧
      i.index < p.last.idents.size := by
  obtain ⟨exported, span, hx⟩ := grows.idents i x hx
  have known := r.course.idents i _ hx
  exact known

/-- The predeclared names stay. -/
theorem predeclared_get? (hp : p ∈ r.phases) {i : IdentId}
    (h : i.index < predeclaredIdents.length) :
    p.first.idents.get? i = predeclaredIdents[i.index]? := by
  rw [(r.course.starts p hp).leaves.idents i h]
  exact List.getElem?_toArray

/-- What holds of a phase if it holds of those of the modules that its own imports, directly or
through others, holds of each: no module imports itself. -/
theorem below_induction {C : (p : Phase) → p ∈ r.phases → Prop}
    (step : ∀ p hp, (∀ x hx, TransGen r.final.modules.Imports p.module x.module → C x hx) → C p hp)
    (hp : p ∈ r.phases) : C p hp := by
  let Before (x y : {p // p ∈ r.phases}) : Prop :=
    TransGen r.final.modules.Imports y.val.module x.val.module
  have : Finite {p // p ∈ r.phases} := List.finite_toSet r.phases
  have : IsTrans _ Before := ⟨fun _ _ _ hab hbc => hbc.trans hab⟩
  have : Std.Irrefl Before := ⟨fun x cycle => r.imported.acyclic _ cycle⟩
  have founded := Finite.wellFounded_of_trans_of_irrefl Before
  exact founded.induction (C := fun x => C x.val x.property) ⟨p, hp⟩ fun x ih =>
    step x.val x.property fun y hy below => ih ⟨y, hy⟩ below

/-- The part of the compilation in which the declarations of a module are read. -/
def passage (r : Run) (p : Phase) (hp : p ∈ r.phases) : Passage where
  setup := r.setup
  root := r.root
  sessions := p.first :: (Action.declarations p.stream).trace r.setup p.first
  first := p.first
  last := p.last
  final := r.final
  within := by
    obtain ⟨_, passes⟩ := (passed hp).passes
    exact passes.within
  ends := by
    obtain ⟨_, passes⟩ := (passed hp).passes
    exact passes.yields.getLast?
  finishes := r.ends

end Run

namespace Runs

variable {w : Runs} {top : ModuleId} {p q x y : Phase}

theorem name_eq {g h : ModuleId} (same : w.left.Same w.right g h) :
    w.left.final.modules.name g = w.right.final.modules.name h := by
  rw [Run.name_eq same.left, Run.name_eq same.right, same.path]

/-- What the modules of the same file import, they import in both compilations. -/
theorem Paired.exists_import {a : ModuleId} (h : w.Paired w.leftTop p q)
    (hi : w.left.final.modules.Imports p.module a) :
    ∃ e, w.right.final.modules.Imports q.module e ∧ w.left.Same w.right a e :=
  have file := (w.left.course.finished p h.left).2.2
  Run.exists_import h.same file (w.words _ h.below file) hi

theorem Paired.exists_import_left {e : ModuleId} (h : w.Paired w.leftTop p q)
    (hi : w.right.final.modules.Imports q.module e) :
    ∃ a, w.left.final.modules.Imports p.module a ∧ w.left.Same w.right a e := by
  have file := (w.left.course.finished p h.left).2.2
  have words := w.words _ h.below file
  obtain ⟨a, hi, same⟩ := Run.exists_import h.same.symm (h.same.file file)
    (h.same.path ▸ words.symm) hi
  exact ⟨a, hi, same.symm⟩

/-- The same declarations are read. -/
theorem Paired.stream (h : w.Paired w.leftTop p q) : p.stream = q.stream := by
  have left := (Run.passed h.left).behind
  have right := (Run.passed h.right).behind
  rw [Run.path_first h.left] at left
  rw [Run.path_first h.right, ← h.same.path] at right
  exact left.eq right (w.words _ h.below (w.left.course.finished p h.left).2.2)

/-- What is told apart by its number is renumbered one to one, if numbers are. -/
theorem biUnique_of_index {α : Type} {index : α → Nat} {R : Nat → Nat → Prop}
    (injective : Function.Injective index) (h : BiUnique R) :
    BiUnique fun a b => R (index a) (index b) :=
  ⟨fun _ _ _ hac hbc => injective (h.left hac hbc),
    fun _ _ _ hab hac => injective (h.right hab hac)⟩

theorem predeclared_le (r : Run) (p : Phase) (hp : p ∈ r.phases) :
    predeclaredIdents.length ≤ p.first.idents.size :=
  (r.course.starts p hp).grows.idents_size

/-- What `top` imports is renumbered one to one. -/
theorem oneToOne (w : Runs) (top : ModuleId) : (w.renumbering top).OneToOne where
  types := biUnique_of_index (fun _ _ => TypeId.ext) <| numbers_unique (fun _ _ g => g.types.size)
    fun _ _ hp => (Run.passed hp).begun.valid.builtins.1
  idents := biUnique_of_index (fun _ _ => IdentId.ext) <|
    numbers_unique (fun _ _ g => g.idents_size) predeclared_le
  slots := numbers_unique (fun _ _ g => g.globals_size) fun _ _ _ => Nat.zero_le _
  addresses := numbers_unique (fun _ _ g => g.code) fun _ _ _ => Nat.zero_le _
  blocks := biUnique_of_index (fun ⟨_⟩ ⟨_⟩ he => congrArg BlockId.mk he) <|
    numbers_unique (fun _ _ g => g.blocks) fun _ _ hp => (Run.passed hp).begun.valid.next
  modules := ⟨fun _ _ _ h h' => h.2.left_unique h'.2, fun _ _ _ h h' => h.2.right_unique h'.2⟩

/-- Names in front of dots stand for the same modules. -/
theorem Paired.refers (h : w.Paired w.leftTop p q) {file : String} {a b : ModuleId}
    (left : p.first.Refers file a) (right : q.first.Refers file b) :
    (w.renumbering p.module).modules a b := by
  obtain ⟨hi, rfl⟩ := Run.of_refers h.left left
  obtain ⟨hi', name⟩ := Run.of_refers h.right right
  obtain ⟨e, hi'', same⟩ := h.exists_import hi
  have he := Run.eq_of_name (Run.reachable_of_imports hi'') (Run.reachable_of_imports hi')
    same.right (Run.lt_of_imports hi').2 ((name_eq same).symm.trans name.symm)
  exact ⟨.inl (.single hi), he ▸ same⟩

/-- Names are those of modules on both sides or on neither. -/
theorem Paired.isModule (h : w.Paired w.leftTop p q) {file : String} {a e : ModuleId}
    (hi : w.left.final.modules.Imports p.module a) (hi' : w.right.final.modules.Imports q.module e)
    (same : w.left.Same w.right a e) (name : w.left.final.modules.name a = file) :
    p.first.isModule file = q.first.isModule file := by
  rw [Bool.eq_iff_iff, Run.isModule_first h.left hi name,
    Run.isModule_first h.right hi' ((name_eq same).symm.trans name)]
  exact not_congr same.predeclared

/-- The phases of a file, and how the numbers of what it imports are renumbered. -/
def twins (w : Runs) (h : w.Paired w.leftTop p q) : Twins where
  toRenumbering := w.renumbering p.module
  left := w.left.passage p h.left
  right := w.right.passage q h.right
  settings := w.settings
  oneToOne := w.oneToOne p.module
  builtin id hi := .inl ⟨hi, rfl⟩
  moduleScope := .inl ⟨Nat.zero_lt_one, rfl⟩
  predeclared := ⟨.inr rfl, w.left.same_predeclared w.right⟩
  module := by
    show (w.renumbering p.module).modules p.first.blocks.module q.first.blocks.module
    rw [(Run.passed h.left).module, (Run.passed h.right).module]
    exact ⟨.inl .refl, h.same⟩
  newType n last last' := .inr ⟨p, q, { h with below := .refl }, n, rfl, rfl, last, last'⟩
  newIdent n last last' := .inr ⟨p, q, { h with below := .refl }, n, rfl, rfl, last, last'⟩
  newSlot n last last' := .inr ⟨p, q, { h with below := .refl }, n, rfl, rfl, last, last'⟩
  newAddress n last last' := .inr ⟨p, q, { h with below := .refl }, n, rfl, rfl, last, last'⟩
  newBlock n last last' := .inr ⟨p, q, { h with below := .refl }, n, rfl, rfl, last, last'⟩
  refers _ _ _ left right := h.refers left right
  left_refers _ _ left := by
    obtain ⟨hi, name⟩ := Run.of_refers h.left left
    obtain ⟨e, hi', same⟩ := h.exists_import hi
    exact h.isModule hi hi' same name
  right_refers _ _ right := by
    obtain ⟨hi', name⟩ := Run.of_refers h.right right
    obtain ⟨a, hi, same⟩ := h.exists_import_left hi'
    exact h.isModule hi hi' same ((name_eq same).trans name)

/-! ### Where the phases of a file begin -/

/-- The phases of an imported file, which come before those of the file. -/
structure Earlier (w : Runs) (p q x y : Phase) : Prop where
  paired : w.Paired w.leftTop x y
  below : TransGen w.left.final.modules.Imports p.module x.module
  left : x.last.Leads p.first
  right : y.last.Leads q.first

theorem Paired.earlier (h : w.Paired w.leftTop p q) (paired : w.Paired p.module x y) (ne : x ≠ p) :
    w.Earlier p q x y := by
  obtain ⟨left, right⟩ := paired.leads h.below h.same h.left h.right ne
  refine ⟨paired.mono h.below, ?_, left, right⟩
  rcases reflTransGen_iff_eq_or_transGen.1 paired.below with he | below
  · exact absurd (Run.phase_eq paired.left h.left he) ne
  · exact below

/-- Which numbers stand for each other where the phases of a file begin. -/
theorem Numbers.cases {fixed m n : Nat} {c : Session → Nat} (h : w.Paired w.leftTop p q)
    (hn : w.Numbers p.module fixed c m n) :
    m < fixed ∧ m = n ∨ c p.first ≤ m ∧ c q.first ≤ n ∨
      ∃ x y, w.Earlier p q x y ∧ m < c x.last ∧ n < c y.last ∧
        w.Numbers x.module fixed c m n := by
  rcases hn with he | ⟨x, y, paired, k, hm, hn, last, last'⟩
  · exact .inl he
  · by_cases he : x = p
    · subst he
      obtain rfl := paired.right_unique h
      exact .inr (.inl ⟨hm ▸ Nat.le_add_right _ _, hn ▸ Nat.le_add_right _ _⟩)
    · exact .inr (.inr ⟨x, y, h.earlier paired he, last, last',
        .inr ⟨x, y, { paired with below := .refl }, k, hm, hn, last, last'⟩⟩)

section Apace

variable {fixed m n : Nat} {c : Session → Nat} (h : w.Paired top x y)
  (apace : Apace (c x.first) (c y.first) (c x.last) (c y.last))

include h apace

/-- What is given away in a phase stands for something, if its partner gives away as much. -/
theorem exists_number_right (first : c x.first ≤ m) (last : m < c x.last) :
    ∃ n, w.Numbers top fixed c m n := by
  obtain ⟨k, left, right⟩ := apace
  exact ⟨c y.first + (m - c x.first), .inr ⟨x, y, h, m - c x.first, by omega, rfl, last,
    by omega⟩⟩

theorem exists_number_left (first : c y.first ≤ n) (last : n < c y.last) :
    ∃ m, w.Numbers top fixed c m n := by
  obtain ⟨k, left, right⟩ := apace
  exact ⟨c x.first + (n - c y.first), .inr ⟨x, y, h, n - c y.first, rfl, by omega,
    by omega, last⟩⟩

end Apace

variable {final : TypeTable}

theorem sameKind_initial {a : TypeId} (h : a.index < TypeTable.initial.size) :
    (w.renumbering top).SameKind final (TypeTable.initial.kind a) (TypeTable.initial.kind a) := by
  rcases TypeTable.initial_kind h with ⟨b, hk⟩ | hk
  · rw [hk]
    exact .builtin b
  · rw [hk]
    exact .pointer (.inl ⟨by decide, rfl⟩)

/-- A predeclared name stands for the same in all compilations. -/
theorem sameIdent_predeclared {i : Ident} (h : i ∈ predeclaredIdents)
    (plain : ¬ final.IsFunction i.type) : (w.renumbering top).SameIdent final i i := by
  obtain ⟨module, block, receiver, type, payload⟩ := predeclared_plain i h
  refine ⟨rfl, rfl, rfl, .inl ⟨type, rfl⟩, ?_, ?_, ?_, ?_⟩
  · split at payload
    · rename_i hp
      rw [hp]
      exact .none
    · rename_i hp
      rw [hp]
      exact .constant ⟨fun hf => absurd hf plain, fun _ => rfl⟩
    · cases payload
  · rw [module]
    exact ⟨.inr rfl, w.left.same_predeclared w.right⟩
  · rw [block]
    exact .inl ⟨Nat.zero_lt_one, rfl⟩
  · rw [receiver]
    exact .none

theorem not_isFunction_initial {r : Run} {a : TypeId} (h : a.index < TypeTable.initial.size) :
    ¬ r.final.types.IsFunction a := by
  rintro ⟨f, hf⟩
  rw [((valid_of_mem_history r.reached).builtins.2 a h).2] at hf
  rcases TypeTable.initial_kind h with ⟨b, hk⟩ | hk <;> cases hk.symm.trans hf

/-- The phases of a file begin in step if those of the files that it imports have ended in step. -/
theorem inStep_first (h : w.Paired w.leftTop p q)
    (before : ∀ x y, w.Earlier p q x y → ∀ h' : w.Paired w.leftTop x y,
      (w.twins h').InStep x.last y.last) : (w.twins h).InStep p.first q.first where
  left_mem := List.mem_cons_self
  right_mem := List.mem_cons_self
  left_modules := rfl
  right_modules := rfl
  left_module := rfl
  right_module := rfl
  types := ⟨0, rfl, rfl⟩
  idents := ⟨0, rfl, rfl⟩
  slots := ⟨0, rfl, rfl⟩
  code := ⟨0, rfl, rfl⟩
  blocks := ⟨0, rfl, rfl⟩
  kinds a b hab := by
    rcases Numbers.cases (c := (·.types.size)) h hab with
      ⟨lt, he⟩ | ⟨new, new'⟩ | ⟨x, y, earlier, lt, lt', hab⟩
    · obtain rfl : a = b := TypeId.ext he
      rw [((Run.passed h.left).begun.valid.builtins.2 a lt).2,
        ((Run.passed h.right).begun.valid.builtins.2 a lt).2]
      exact sameKind_initial lt
    · rw [TypeTable.kind_of_size_le new, TypeTable.kind_of_size_le new']
      exact .builtin .void
    · rw [earlier.left.leaves.kinds a lt, earlier.right.leaves.kinds b lt']
      exact (w.within earlier.below.to_reflTransGen).kind
        ((before x y earlier earlier.paired).kinds a b hab)
  ident i j hij := by
    rcases Numbers.cases (c := (·.idents.size)) h hij with
      ⟨lt, he⟩ | ⟨new, new'⟩ | ⟨x, y, earlier, lt, lt', hij⟩
    · obtain rfl : i = j := IdentId.ext he
      rw [Run.predeclared_get? h.left lt, Run.predeclared_get? h.right lt,
        List.getElem?_eq_getElem lt]
      have mem := List.getElem_mem lt
      obtain ⟨_, _, _, type, _⟩ := predeclared_plain _ mem
      exact .some (sameIdent_predeclared mem (not_isFunction_initial type))
    · have absent {s : Session} {i : IdentId} (h : s.idents.size ≤ i.index) :
          s.idents.get? i = none := Array.getElem?_eq_none h
      rw [absent new, absent new']
      exact .none
    · rw [earlier.left.leaves.idents i lt, earlier.right.leaves.idents j lt']
      exact rel_imp ((before x y earlier earlier.paired).ident i j hij) fun _ _ =>
        (w.within earlier.below.to_reflTransGen).ident
  left_ident i x m hx hm := by
    rcases Run.phase_of_ident (Run.grows_final h.left) hx with ⟨_, lt⟩ | ⟨a, ha, he, first, last⟩
    · exact ⟨i, .inl ⟨lt, rfl⟩⟩
    · obtain ⟨below | file, _⟩ := he ▸ hm
      · obtain ⟨b, paired⟩ := w.exists_paired h.below ha below
        have ne : a ≠ p := by
          rintro rfl
          exact Nat.not_lt_of_le first (IdentTable.lt_of_get?_eq_some hx)
        have earlier := h.earlier paired ne
        obtain ⟨j, hij⟩ := exists_number_right (c := (·.idents.size)) paired
          (before a b earlier earlier.paired).idents first last
        exact ⟨⟨j⟩, hij⟩
      · exact absurd file (w.left.course.finished a ha).2.2
  right_ident j y m hy hm := by
    rcases Run.phase_of_ident (Run.grows_final h.right) hy with ⟨_, lt⟩ | ⟨b, hb, he, first, last⟩
    · exact ⟨j, .inl ⟨lt, rfl⟩⟩
    · obtain ⟨below, same⟩ := he ▸ hm
      have file := same.symm.file (w.right.course.finished b hb).2.2
      obtain ⟨a, ha, rfl⟩ := w.left.exists_phase same.left file
      have paired : w.Paired p.module a b := ⟨ha, hb, below.resolve_right file, same⟩
      have ne : a ≠ p := by
        rintro rfl
        obtain rfl := paired.right_unique h
        exact Nat.not_lt_of_le first (IdentTable.lt_of_get?_eq_some hy)
      have earlier := h.earlier paired ne
      obtain ⟨i, hij⟩ := exists_number_left (c := (·.idents.size)) paired
        (before a b earlier earlier.paired).idents first last
      exact ⟨⟨i⟩, hij⟩
  globals m n hmn := by
    rcases Numbers.cases (c := (·.globals.size)) h hmn with
      ⟨lt, _⟩ | ⟨new, new'⟩ | ⟨x, y, earlier, lt, lt', hmn⟩
    · exact absurd lt (Nat.not_lt_zero _)
    · rw [Array.getElem?_eq_none new, Array.getElem?_eq_none new']
      exact .none
    · rw [earlier.left.leaves.globals m lt, earlier.right.leaves.globals n lt']
      exact rel_imp ((before x y earlier earlier.paired).globals m n hmn) fun _ _ =>
        (w.within earlier.below.to_reflTransGen).global
  stack := by
    rw [(Run.passed h.left).begun.outside, (Run.passed h.right).begun.outside]
    exact .nil

/-- The phases of a file end in step if they begin in step. -/
theorem inStep_of_first (h : w.Paired w.leftTop p q)
    (first : (w.twins h).InStep p.first q.first) : (w.twins h).InStep p.last q.last := by
  obtain ⟨rest, read⟩ := (Run.passed h.left).passes
  obtain ⟨rest', read'⟩ : ∃ rest, (w.twins h).right.Passes (Action.declarations p.stream) q.first
      rest q.last := by
    obtain ⟨_, read⟩ := (Run.passed h.right).passes
    rw [h.stream]
    exact ⟨_, read.yields.passes⟩
  exact (Action.agree_declarations first p.stream rest p.last rest' q.last read.yields.passes
    read').1

/-- The phases of a file end in step: by induction on what the file imports, since those that it
imports have ended before it begins. -/
theorem inStep_last (h : w.Paired w.leftTop p q) : (w.twins h).InStep p.last q.last := by
  induction h.left using Run.below_induction generalizing q with
  | _ p hp ih => exact inStep_of_first h (inStep_first h fun x y earlier h' =>
      ih x earlier.paired.left earlier.below h')

end Runs

end FrontEnd
