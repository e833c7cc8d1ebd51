import FrontEnd.Symbols.Blocks

/-!
The open blocks without their frames. Only opening and closing a block changes them.
-/

namespace FrontEnd

def Block.scope (b : Block) : BlockId × Option IdentId := (b.id, b.function?)

namespace Blocks

/-- Which blocks are open, and of which functions they are the bodies. -/
def scope (b : Blocks) : ModuleId × List (BlockId × Option IdentId) :=
  (b.module, b.stack.map Block.scope)

theorem scope_allocateIn {size offset : Int64} {stack stack' : List Block}
    (h : allocateIn size stack = some (offset, stack')) :
    stack'.map Block.scope = stack.map Block.scope := by
  induction stack generalizing offset stack' with
  | nil =>
    cases h
    rfl
  | cons b rest ih =>
    unfold allocateIn at h
    split at h
    · obtain ⟨_, _, he⟩ := Option.map_eq_some_iff.1 h
      cases he
      rfl
    · obtain ⟨⟨_, rest'⟩, hr, he⟩ := Option.map_eq_some_iff.1 h
      cases he
      rw [List.map_cons, List.map_cons, ih hr]

theorem allocate?_eq_some {b c : Blocks} {size offset : Int64}
    (h : b.allocate? size = some (offset, c)) : c.scope = b.scope ∧ c.next = b.next := by
  obtain ⟨⟨_, stack⟩, hs, he⟩ := Option.map_eq_some_iff.1 h
  cases he
  exact ⟨congrArg (Prod.mk b.module) (scope_allocateIn hs), rfl⟩

theorem atModuleScope_eq {b c : Blocks} (h : c.scope = b.scope) :
    c.atModuleScope = b.atModuleScope := by
  have hl := congrArg (fun p => p.2.isEmpty) h
  simpa [scope, atModuleScope] using hl

theorem current_of_atModuleScope {b : Blocks} (h : b.atModuleScope = true) :
    b.current = .moduleScope := by
  unfold current
  rw [List.isEmpty_iff.1 h]

theorem function?_eq {b c : Blocks} (h : c.scope = b.scope) : c.function? = b.function? := by
  have hf (d : Blocks) : d.function? = d.scope.2.findSome? (·.2) := by
    unfold function? scope
    rw [List.findSome?_map]
    rfl
  rw [hf, hf, h]

end Blocks

end FrontEnd
