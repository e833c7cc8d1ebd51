import FrontEnd.Proofs.Separation.Runs

/-!
Two compilations with a file in common, which imports the same files in both, directly or through
others. Each of these files has a module in either compilation, and a phase in which its
declarations are read; what is added in the one phase is numbered as in the other, shifted to where
that begins.
-/

namespace FrontEnd

open Session Relation Relator

namespace Run

variable {l r : Run} {g h a e : ModuleId}

/-- Modules of the same file in two compilations, or those of the predeclared names. -/
structure Same (l r : Run) (g h : ModuleId) : Prop where
  left : g.index < l.final.modules.size
  right : h.index < r.final.modules.size
  path : l.final.modules.path g = r.final.modules.path h
  predeclared : g = .predeclared ↔ h = .predeclared

theorem Same.symm (same : l.Same r g h) : r.Same l h g :=
  ⟨same.right, same.left, same.path.symm, same.predeclared.symm⟩

theorem known_predeclared (r : Run) : ModuleId.predeclared.index < r.final.modules.size :=
  ModuleTable.lt_of_get?_eq_some r.predeclared

theorem same_predeclared (l r : Run) : l.Same r .predeclared .predeclared :=
  ⟨l.known_predeclared, r.known_predeclared, by
    rw [ModuleTable.path_of_get? l.predeclared, ModuleTable.path_of_get? r.predeclared], .rfl⟩

/-- The predeclared names have no file. -/
theorem Same.file (same : l.Same r g h) (file : g ≠ .predeclared) : h ≠ .predeclared :=
  mt same.predeclared.2 file

theorem Same.right_unique (same : l.Same r g h) (same' : l.Same r g e) : h = e := by
  by_cases file : g = .predeclared
  · rw [same.predeclared.1 file, same'.predeclared.1 file]
  · exact eq_of_path same.right same'.right (same.file file) (same'.file file)
      (same.path.symm.trans same'.path)

theorem Same.left_unique (same : l.Same r g h) (same' : l.Same r a h) : g = a :=
  same.symm.right_unique same'.symm

/-- The file of an imported module tells whether it holds the predeclared names. -/
theorem predeclared_of_path (hi : r.final.modules.Imports g h)
    (path : r.final.modules.path h = predeclaredPath) : h = .predeclared := by
  have lt := (lt_of_imports hi).2
  rcases r.imported.reserved h _ (Array.getElem?_eq_getElem lt)
    ((ModuleTable.path_of_get? (Array.getElem?_eq_getElem lt)).symm.trans path) with he | rfl
  · exact he
  · exact (not_imports_root hi).elim

/-- Imported modules with the same path are those of the same file. -/
theorem same_of_imports (hi : l.final.modules.Imports g a) (hi' : r.final.modules.Imports h e)
    (path : l.final.modules.path a = r.final.modules.path e) : l.Same r a e := by
  refine ⟨(lt_of_imports hi).2, (lt_of_imports hi').2, path, ?_, ?_⟩
  · rintro rfl
    rw [ModuleTable.path_of_get? l.predeclared] at path
    exact predeclared_of_path hi' path.symm
  · rintro rfl
    rw [ModuleTable.path_of_get? r.predeclared] at path
    exact predeclared_of_path hi path

/-- Files with the same words import the same files. -/
theorem exists_import (same : l.Same r g h) (file : g ≠ .predeclared)
    (words : l.setup.words? (l.final.modules.path g) = r.setup.words? (l.final.modules.path g))
    (hi : l.final.modules.Imports g a) : ∃ e, r.final.modules.Imports h e ∧ l.Same r a e := by
  obtain ⟨m, hm, ha⟩ := ModuleTable.imports_iff.1 hi
  obtain ⟨n, hn⟩ : ∃ n, r.final.modules.get? h = some n :=
    ⟨_, Array.getElem?_eq_getElem same.right⟩
  have path : m.path = n.path := by
    rw [← ModuleTable.path_of_get? hm, ← ModuleTable.path_of_get? hn, same.path]
  have folder : m.folder = n.folder := by
    rw [(l.imported.canonical g m hm).2, (r.imported.canonical h n hn).2, path]
  obtain ⟨stream, known, imports, _⟩ := l.imported.imports g m file hm
  obtain ⟨stream', known', imports', every⟩ := r.imported.imports h n (same.file file) hn
  rw [ModuleTable.path_of_get? hm, known, path, known'] at words
  cases words
  obtain ⟨literal, hl, m', hm', hp⟩ := (imports a).1 ha
  obtain ⟨e, n', hn', hp'⟩ := every literal hl
  have hi' : r.final.modules.Imports h e :=
    ModuleTable.imports_iff.2 ⟨n, hn, (imports' e).2 ⟨literal, hl, n', hn', hp'⟩⟩
  refine ⟨e, hi', same_of_imports hi hi' ?_⟩
  rw [ModuleTable.path_of_get? hm', ModuleTable.path_of_get? hn', hp, hp', folder]

end Run

/-- Two compilations with the same settings, and in each the module `top` of a file. The file and
those that it imports, directly or through others, consist of the same words. -/
structure Runs where
  left : Run
  right : Run
  settings : left.setup.settings = right.setup.settings
  leftTop : ModuleId
  rightTop : ModuleId
  tops : left.Same right leftTop rightTop
  words : ∀ g, ReflTransGen left.final.modules.Imports leftTop g → g ≠ .predeclared →
    left.setup.words? (left.final.modules.path g) = right.setup.words? (left.final.modules.path g)

namespace Runs

variable {w : Runs} {top g h a e : ModuleId} {p q x y : Phase}

/-- The module is imported by `top` in the left compilation, directly or through others. -/
abbrev Below (w : Runs) (top g : ModuleId) : Prop := ReflTransGen w.left.final.modules.Imports top g

/-- What is imported on the left is imported on the right. -/
theorem exists_right (reached : w.Below w.leftTop g) (same : w.left.Same w.right g h)
    (below : w.Below g a) :
    ∃ e, ReflTransGen w.right.final.modules.Imports h e ∧ w.left.Same w.right a e := by
  induction below with
  | refl => exact ⟨h, .refl, same⟩
  | @tail b c below hi ih =>
    obtain ⟨e, below', same⟩ := ih
    have file : b ≠ .predeclared := by
      rintro rfl
      exact w.left.not_imports_predeclared hi
    obtain ⟨e', hi', same⟩ := Run.exists_import same file (w.words _ (reached.trans below) file) hi
    exact ⟨e', below'.tail hi', same⟩

/-! ### Phases of the same file -/

/-- The phases of a file that `top` imports, directly or through others. -/
structure Paired (w : Runs) (top : ModuleId) (p q : Phase) : Prop where
  left : p ∈ w.left.phases
  right : q ∈ w.right.phases
  below : w.Below top p.module
  same : w.left.Same w.right p.module q.module

theorem Paired.mono (h : w.Paired a p q) (below : w.Below top a) : w.Paired top p q :=
  { h with below := below.trans h.below }

theorem Paired.right_unique (h : w.Paired top p q) (h' : w.Paired a p x) : q = x :=
  Run.phase_eq h.right h'.right (h.same.right_unique h'.same)

theorem Paired.left_unique (h : w.Paired top p q) (h' : w.Paired a x q) : p = x :=
  Run.phase_eq h.left h'.left (h.same.left_unique h'.same)

/-- Each phase has its partner. -/
theorem exists_paired (reached : w.Below w.leftTop top) (hp : p ∈ w.left.phases)
    (below : w.Below top p.module) : ∃ q, w.Paired top p q := by
  obtain ⟨e, _, same⟩ := w.exists_right .refl w.tops (reached.trans below)
  obtain ⟨q, hq, rfl⟩ := w.right.exists_phase same.right
    (same.file (w.left.course.finished p hp).2.2)
  exact ⟨q, hp, hq, below, same⟩

/-- Of two modules the one comes first in both compilations, if it is imported by the other. -/
theorem Paired.leads (reached : w.Below w.leftTop p.module) (h : w.Paired p.module x y)
    (same : w.left.Same w.right p.module q.module) (hp : p ∈ w.left.phases)
    (hq : q ∈ w.right.phases) (ne : x ≠ p) : x.last.Leads p.first ∧ y.last.Leads q.first := by
  have trans {r : Run} {x p : Phase} (hx : x ∈ r.phases) (hp : p ∈ r.phases) (ne : x ≠ p)
      (below : ReflTransGen r.final.modules.Imports p.module x.module) : x.last.Leads p.first := by
    rcases reflTransGen_iff_eq_or_transGen.1 below with he | below
    · exact absurd (Run.phase_eq hx hp he) ne
    · exact Run.leads_of_below hp hx below
  refine ⟨trans h.left hp ne h.below, trans h.right hq (fun he => ?_) ?_⟩
  · subst he
    exact ne (Run.phase_eq h.left hp (h.same.left_unique same))
  · obtain ⟨e, below, same'⟩ := w.exists_right reached same h.below
    rwa [h.same.right_unique same']

/-! ### Numbers -/

/-- The first `fixed` numbers stand for themselves, and those that are given away in a phase for the
ones that are given away in its partner. -/
def Numbers (w : Runs) (top : ModuleId) (fixed : Nat) (c : Session → Nat) (m n : Nat) : Prop :=
  m < fixed ∧ m = n ∨ ∃ p q, w.Paired top p q ∧ ∃ k, m = c p.first + k ∧ n = c q.first + k ∧
    m < c p.last ∧ n < c q.last

theorem Numbers.mono {fixed m n : Nat} {c : Session → Nat} (below : w.Below top a)
    (h : w.Numbers a fixed c m n) : w.Numbers top fixed c m n :=
  h.imp_right fun ⟨p, q, paired, numbered⟩ => ⟨p, q, paired.mono below, numbered⟩

section Unique

variable {fixed : Nat} {c : Session → Nat} (mono : ∀ s t, s.Grows t → c s ≤ c t)
  (before : ∀ r : Run, ∀ p ∈ r.phases, fixed ≤ c p.first)

include mono before

theorem numbers_unique : BiUnique (w.Numbers top fixed c) := by
  constructor
  · rintro m n m' (⟨lt, rfl⟩ | ⟨p, q, paired, k, rfl, rfl, last, last'⟩)
      (⟨lt', rfl⟩ | ⟨x, y, paired', k', rfl, hn, last'', last'''⟩)
    · rfl
    · have := before _ y paired'.right
      omega
    · have := before _ q paired.right
      omega
    · obtain rfl := Run.phase_eq_of_number mono paired.right paired'.right (by omega) last'
        (by omega) (hn ▸ last''')
      obtain rfl := paired.left_unique paired'
      omega
  · rintro m n n' (⟨lt, rfl⟩ | ⟨p, q, paired, k, rfl, rfl, last, last'⟩)
      (⟨lt', rfl⟩ | ⟨x, y, paired', k', hm, rfl, last'', last'''⟩)
    · rfl
    · have := before _ x paired'.left
      omega
    · have := before _ p paired.left
      omega
    · obtain rfl := Run.phase_eq_of_number mono paired.left paired'.left (by omega) last
        (by omega) (hm ▸ last'')
      obtain rfl := paired.right_unique paired'
      omega

end Unique

/-- How the numbers of what `top` imports, directly or through others, are renumbered. -/
def renumbering (w : Runs) (top : ModuleId) : Renumbering where
  types a b := w.Numbers top TypeTable.initial.size (·.types.size) a.index b.index
  idents i j := w.Numbers top predeclaredIdents.length (·.idents.size) i.index j.index
  slots := w.Numbers top 0 (·.globals.size)
  addresses := w.Numbers top 0 (·.code.size)
  blocks b c := w.Numbers top 1 (·.blocks.next) b.index c.index
  modules g h := (w.Below top g ∨ g = .predeclared) ∧ w.left.Same w.right g h

theorem within (below : w.Below top a) : (w.renumbering a).Within (w.renumbering top) where
  types h := Numbers.mono (c := (·.types.size)) below h
  idents h := Numbers.mono (c := (·.idents.size)) below h
  slots h := Numbers.mono (c := (·.globals.size)) below h
  addresses h := Numbers.mono (c := (·.code.size)) below h
  blocks h := Numbers.mono (c := (·.blocks.next)) below h
  modules h := h.imp_left (Or.imp_left below.trans)

end Runs

end FrontEnd
