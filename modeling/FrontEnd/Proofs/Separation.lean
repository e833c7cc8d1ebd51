import FrontEnd.Proofs.Separation.Lockstep

/-!
Separate compilation. What a file declares does not depend on the program that it is a part of: two
programs in which the file and all that it imports are the same agree on it but for numbers. A value
is such a number only if its type is that of a function.
-/

namespace FrontEnd

open Session Relation

/-- The identifier belongs to the module: it is declared in the file, outside of its functions, and
is not the name of a method. -/
structure IdentTable.Declares (t : IdentTable) (module : ModuleId) (id : IdentId) (i : Ident) :
    Prop where
  found : t.get? id = some i
  module : i.module = module
  block : i.block = .moduleScope
  receiver : i.receiver? = none

/-- The module `f` of the one session is the module `g` of the other, but for numbers. Types that
stand for each other are of the same kind and consist of types that do, and the names of the module
stand for each other with their kinds, their export marks, their types and their values. -/
structure Renumbering.SameModule (r : Renumbering) (s t : Session) (f g : ModuleId) : Prop where
  module : r.modules f g
  moduleScope : r.blocks .moduleScope .moduleScope
  builtin : ∀ id : TypeId, id.index < TypeTable.initial.size → r.types id id
  kinds : ∀ a b, r.types a b → r.SameKind s.types (s.types.kind a) (t.types.kind b)
  globals : ∀ m n, r.slots m n → Option.Rel (r.SameGlobal s.types) s.globals[m]? t.globals[n]?
  left : ∀ i x, s.idents.Declares f i x →
    ∃ j y, t.idents.Declares g j y ∧ r.idents i j ∧ r.SameIdent s.types x y
  right : ∀ j y, t.idents.Declares g j y →
    ∃ i x, s.idents.Declares f i x ∧ r.idents i j ∧ r.SameIdent s.types x y

namespace Renumbering.SameIdent

variable {r : Renumbering} {final : TypeTable} {s t : Session} {f g : ModuleId} {i j : IdentId}
  {x y : Ident}

/-- An identifier of a module stands for one of the module that stands for it. -/
theorem declares (same : r.SameIdent final x y) (unique : r.OneToOne) (module : r.modules f g)
    (moduleScope : r.blocks .moduleScope .moduleScope) (h : s.idents.Declares f i x)
    (found : t.idents.get? j = some y) : t.idents.Declares g j y where
  found
  module := unique.modules.right (h.module ▸ same.module) module
  block := unique.blocks.right (h.block ▸ same.block) moduleScope
  receiver := by
    have receiver := h.receiver ▸ same.receiver
    generalize y.receiver? = receiver? at receiver
    cases receiver
    rfl

theorem declares_left (same : r.SameIdent final x y) (unique : r.OneToOne) (module : r.modules f g)
    (moduleScope : r.blocks .moduleScope .moduleScope) (h : t.idents.Declares g j y)
    (found : s.idents.get? i = some x) : s.idents.Declares f i x where
  found
  module := unique.modules.left (h.module ▸ same.module) module
  block := unique.blocks.left (h.block ▸ same.block) moduleScope
  receiver := by
    have receiver := h.receiver ▸ same.receiver
    generalize x.receiver? = receiver? at receiver
    cases receiver
    rfl

end Renumbering.SameIdent

namespace Run

variable {r : Run} {p : Phase} {id : IdentId} {i : Ident}

/-- What a module declares is there when its phase ends. -/
theorem declared (hp : p ∈ r.phases) (h : r.final.idents.Declares p.module id i) :
    p.last.idents.get? id = some i := by
  rcases phase_of_ident (.refl _) h.found with ⟨he, _⟩ | ⟨q, hq, he, _, last⟩
  · exact absurd (h.module.symm.trans he) (r.course.finished p hp).2.2
  · obtain rfl := phase_eq hp hq (h.module.symm.trans he)
    rw [← (r.course.leads p hp).leaves.idents id last]
    exact h.found

theorem get?_final (hp : p ∈ r.phases) (h : p.last.idents.get? id = some i) :
    r.final.idents.get? id = some i := by
  rw [(r.course.leads p hp).leaves.idents id (IdentTable.lt_of_get?_eq_some h)]
  exact h

end Run

namespace Runs

variable {w : Runs} {p q : Phase}

/-- Nothing is added to a file, and to those that it imports, behind its phase. -/
theorem numbers_lt {fixed m n : Nat} {c : Session → Nat}
    (mono : ∀ s t, s.Grows t → c s ≤ c t)
    (before : ∀ r : Run, ∀ p ∈ r.phases, fixed ≤ c p.first) (h : w.Paired w.leftTop p q)
    (hn : w.Numbers p.module fixed c m n) : m < c p.last ∧ n < c q.last := by
  have left := mono _ _ (Run.grows h.left)
  have right := mono _ _ (Run.grows h.right)
  rcases hn with ⟨lt, rfl⟩ | ⟨x, y, paired, k, rfl, rfl, last, last'⟩
  · have := before _ p h.left
    have := before _ q h.right
    omega
  · by_cases he : x = p
    · subst he
      obtain rfl := paired.right_unique h
      exact ⟨last, last'⟩
    · have earlier := h.earlier paired he
      have := mono _ _ earlier.left.grows
      have := mono _ _ earlier.right.grows
      omega

/-- The module of a file is the same in both compilations. -/
theorem sameModule (h : w.Paired w.leftTop p q) : (w.renumbering p.module).SameModule
    w.left.final w.right.final p.module q.module := by
  have step := w.inStep_last h
  have unique := w.oneToOne p.module
  have module : (w.renumbering p.module).modules p.module q.module := ⟨.inl .refl, h.same⟩
  have left := (w.left.course.leads p h.left).leaves
  have right := (w.right.course.leads q h.right).leaves
  refine ⟨module, (w.twins h).moduleScope, (w.twins h).builtin, fun a b hab => ?_,
    fun m n hmn => ?_, fun i x hx => ?_, fun j y hy => ?_⟩
  · obtain ⟨lt, lt'⟩ := numbers_lt (c := (·.types.size)) (fun _ _ g => g.types.size)
      (fun _ _ hp => (Run.passed hp).begun.valid.builtins.1) h hab
    rw [left.kinds a lt, right.kinds b lt']
    exact step.kinds a b hab
  · obtain ⟨lt, lt'⟩ := numbers_lt (c := (·.globals.size)) (fun _ _ g => g.globals_size)
      (fun _ _ _ => Nat.zero_le _) h hmn
    rw [left.globals m lt, right.globals n lt']
    exact step.globals m n hmn
  · have found := Run.declared h.left hx
    obtain ⟨j, hij⟩ := step.left_ident i x q.module found (hx.module ▸ module)
    have same := step.ident i j hij
    rw [found] at same
    cases hy : q.last.idents.get? j with
    | none =>
      rw [hy] at same
      cases same
    | some y =>
      rw [hy] at same
      cases same with
      | some same => exact ⟨j, y, same.declares unique module (w.twins h).moduleScope hx
          (Run.get?_final h.right hy), hij, same⟩
  · have found := Run.declared h.right hy
    obtain ⟨i, hij⟩ := step.right_ident j y p.module found (hy.module ▸ module)
    have same := step.ident i j hij
    rw [found] at same
    cases hx : p.last.idents.get? i with
    | none =>
      rw [hx] at same
      cases same
    | some x =>
      rw [hx] at same
      cases same with
      | some same => exact ⟨i, x, same.declares_left unique module (w.twins h).moduleScope hy
          (Run.get?_final h.left hx), hij, same⟩

end Runs

/-- Separate compilation. If two programs compile with the same settings, and a file that is read in
both and all files that it imports, directly or through others, have the same text in both, then the
file declares the same in both but for numbers: there is one renumbering, of types, code addresses
and the rest, under which its names with their kinds, export marks, types and values are the same.
Values of other types than those of functions are equal. -/
theorem compile_separate {setup setup' : Setup} {root root' : String} {s t : Session}
    {f g : ModuleId} {path : Path} (hs : compile setup root = .ok s)
    (ht : compile setup' root' = .ok t) (settings : setup.settings = setup'.settings)
    (hf : s.modules.IsAt f path) (hg : t.modules.IsAt g path) (file : f ≠ .predeclared)
    (file' : g ≠ .predeclared)
    (texts : ∀ a, ReflTransGen s.modules.Imports f a → a ≠ .predeclared →
      setup.sources.read (s.modules.path a) = setup'.sources.read (s.modules.path a))
    (stems : s.modules.HasDistinctStems) (stems' : t.modules.HasDistinctStems) :
    ∃ r : Renumbering, r.OneToOne ∧ r.SameModule s t f g := by
  obtain ⟨phases, course⟩ := course_of_compile hs
  obtain ⟨phases', course'⟩ := course_of_compile ht
  obtain ⟨m, hm, hp⟩ := hf
  obtain ⟨n, hn, hp'⟩ := hg
  let w : Runs :=
    { left := ⟨setup, root, s, phases, hs, course, stems⟩
      right := ⟨setup', root', t, phases', ht, course', stems'⟩
      settings
      leftTop := f
      rightTop := g
      tops := ⟨ModuleTable.lt_of_get?_eq_some hm, ModuleTable.lt_of_get?_eq_some hn, by
        rw [ModuleTable.path_of_get? hm, ModuleTable.path_of_get? hn, hp, hp'],
        fun he => absurd he file, fun he => absurd he file'⟩
      words := fun a below file => by
        unfold Setup.words?
        rw [texts a below file] }
  obtain ⟨p, hp, rfl⟩ := w.left.exists_phase w.tops.left file
  obtain ⟨q, h⟩ := w.exists_paired .refl hp .refl
  obtain rfl := h.same.right_unique w.tops
  exact ⟨w.renumbering p.module, w.oneToOne p.module, w.sameModule h⟩

/-- Files have different names if all modules have. -/
theorem hasDistinctStems_of_compile {setup : Setup} {root : String} {s : Session}
    (h : compile setup root = .ok s)
    (apart : (s.modules.modules.toList.map fun m => Path.stem m.path).Nodup) :
    s.modules.HasDistinctStems := by
  have valid := valid_of_mem_history (List.mem_of_getLast? (getLast?_history_of_compile h))
  obtain ⟨m, hm, _⟩ := (wellImported_of_compile h).start
  have known {a : ModuleId} (reached : ReflTransGen s.modules.Imports .root a) :
      ∃ m, s.modules.get? a = some m := by
    cases reached with
    | refl => exact ⟨m, hm⟩
    | tail _ hi => exact ⟨_, Array.getElem?_eq_getElem (valid.imported_lt hi)⟩
  intro a b ha hb same
  obtain ⟨m, hm⟩ := known ha
  obtain ⟨n, hn⟩ := known hb
  rw [ModuleTable.path_of_get? hm, ModuleTable.path_of_get? hn] at same
  have stem {a : ModuleId} {m : Module} (hm : s.modules.get? a = some m) :
      (s.modules.modules.toList.map fun m => Path.stem m.path)[a.index]? =
        some (Path.stem m.path) := by
    rw [List.getElem?_map, Array.getElem?_toList]
    exact congrArg (Option.map _) hm
  have known : a.index < (s.modules.modules.toList.map fun m => Path.stem m.path).length := by
    rw [List.length_map]
    exact ModuleTable.lt_of_get?_eq_some hm
  exact ModuleId.ext ((List.getElem?_inj known apart).1 ((stem hm).trans (same ▸ (stem hn).symm)))

/-- Two programs with a library that imports a file of its own. -/
def libraryPrograms : Setup where
  settings := .standard
  sources := ⟨fun path => .ok <|
    if path = "base.um" then
      "type node* = struct \x7bnext: ^node; rank: int\x7d\nconst limit* = 3\n"
    else if path = "library.um" then
      "import \"base.um\"\nconst top* = base.limit + 1\nvar grid*: [top]base.node\n" ++
        "fn area*(n: int = 2): int \x7breturn n * top\x7d\nvar hook*: fn (n: int = 2): int = area\n"
    else if path = "other.um" then "type pair* = [2]real\nfn f*() \x7b\x7d\n"
    else if path = "small.um" then "import \"library.um\"\nfn main() \x7b\x7d\n"
    else "import (\"other.um\"; \"library.um\")\nfn main() \x7b\x7d\n"⟩
  hosts := ⟨[]⟩

/-- The variable `hook` of the library holds the address of a function, which is another one in the
larger program; the type of `grid` has another number there. -/
theorem libraryPrograms_separate : ∃ s t, compile libraryPrograms "small.um" = .ok s ∧
    compile libraryPrograms "large.um" = .ok t ∧
    s.globals.toList.map (fun g => (g.type.index, g.value?.bind (·.asInt?))) =
      [(18, none), (20, some 1)] ∧
    t.globals.toList.map (fun g => (g.type.index, g.value?.bind (·.asInt?))) =
      [(20, none), (22, some 2)] ∧
    ∃ r : Renumbering, r.OneToOne ∧ r.SameModule s t ⟨2⟩ ⟨3⟩ := by
  have small : (match compile libraryPrograms "small.um" with
    | .ok s => decide (s.globals.toList.map (fun g => (g.type.index, g.value?.bind (·.asInt?))) =
          [(18, none), (20, some 1)] ∧
        (s.modules.modules.toList.map fun m : Module => Path.stem m.path).Nodup ∧
        s.modules.path ⟨2⟩ = "library.um" ∧ 2 < s.modules.size)
    | .error _ => false) = true := by decide +kernel
  have large : (match compile libraryPrograms "large.um" with
    | .ok t => decide (t.globals.toList.map (fun g => (g.type.index, g.value?.bind (·.asInt?))) =
          [(20, none), (22, some 2)] ∧
        (t.modules.modules.toList.map fun m : Module => Path.stem m.path).Nodup ∧
        t.modules.path ⟨3⟩ = "library.um" ∧ 3 < t.modules.size)
    | .error _ => false) = true := by decide +kernel
  have at_library {t : ModuleTable} {id : ModuleId} (path : t.path id = "library.um")
      (lt : id.index < t.size) : t.IsAt id (Path.normalize "library.um") := by
    refine ⟨_, Array.getElem?_eq_getElem lt, ?_⟩
    rw [← ModuleTable.path_of_get? (Array.getElem?_eq_getElem lt), path]
    decide +kernel
  cases hs : compile libraryPrograms "small.um" with
  | error d =>
    rw [hs] at small
    cases small
  | ok s =>
    cases ht : compile libraryPrograms "large.um" with
    | error d =>
      rw [ht] at large
      cases large
    | ok t =>
      rw [hs] at small
      rw [ht] at large
      obtain ⟨globals, stems, path, lt⟩ := of_decide_eq_true small
      obtain ⟨globals', stems', path', lt'⟩ := of_decide_eq_true large
      exact ⟨s, t, rfl, rfl, globals, globals', compile_separate hs ht rfl (at_library path lt)
        (at_library path' lt') (by decide) (by decide) (fun _ _ _ => rfl)
        (hasDistinctStems_of_compile hs stems) (hasDistinctStems_of_compile ht stems')⟩

end FrontEnd
