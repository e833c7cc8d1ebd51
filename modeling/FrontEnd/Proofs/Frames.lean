import FrontEnd.Proofs.Passes
import FrontEnd.Proofs.Symbols.Gains
import FrontEnd.Proofs.Session.Checks

/-!
The frames of functions. Variables lie one behind the other in the order of their declaration, so
with sizes that are not negative no two of them share a byte. The frame belongs to the outermost
block of a function and is shared by all blocks within.
-/

namespace FrontEnd

/-! ### Sizes that stay -/

/-- Types have the same size in two tables that agree about them and about all that lies inside. -/
theorem TypeTable.IsFounded.size?_eq_of_kinds {t u : TypeTable} (h : t.IsFounded)
    (h' : u.IsFounded) {P : TypeId → Prop} (kinds : ∀ id, P id → u.kind id = t.kind id)
    (closed : ∀ id part, P id → t.Contains id part → P part) {id : TypeId} (hp : P id) :
    u.size? id = t.size? id := by
  induction id using h.induction with
  | _ id ih =>
    rw [h'.size?_eq id, h.size?_eq id]
    have same : u.sizeFrom u.size? id = t.sizeFrom u.size? id := by
      rw [sizeFrom, sizeFrom, kinds id hp]
    rw [same]
    exact sizeFrom_congr fun part hc => ih part hc (closed id part hp hc)

namespace Session

variable {U : Set TypeId} {s t : Session} {id : TypeId}

/-- What is in use and has been declared keeps its size. -/
theorem Fixes.size?_eq (f : s.Fixes t) (h : s.Valid U) (founded : s.types.IsFounded)
    (founded' : t.types.IsFounded) (settles : s.Settles id) :
    t.types.size? id = s.types.size? id := by
  refine founded.size?_eq_of_kinds founded' (fun _ => f.kind_eq) (fun id part _ hc => ?_) settles
  have part' := TypeKind.mem_parts_of_mem_contents hc
  exact ⟨h.inUse_ref (TypeKind.mem_refs_of_mem_parts part'), (h.kinds id).parts part part'⟩

end Session

/-- Types that are the same in two sessions of a compilation have the same size in both. -/
theorem size?_of_kinds {setup : Setup} {root : String} {s t : Session} {n : Nat}
    (hs : s ∈ history setup root) (ht : t ∈ history setup root) (hn : s.types.size ≤ n)
    (kinds : ∀ id : TypeId, id.index < n → t.types.kind id = s.types.kind id) {id : TypeId}
    (hi : id.index < n) : t.types.size? id = s.types.size? id := by
  refine (laidOut_of_mem_history hs).founded.size?_eq_of_kinds (laidOut_of_mem_history ht).founded
    (P := fun id => id.index < n) kinds (fun _ part _ hc => ?_) hi
  exact Nat.lt_of_lt_of_le ((valid_of_mem_history hs).usable_of_contains hc).has hn

/-- A type that is in use and has been declared takes in the end what it takes now. -/
theorem size?_of_settles {setup : Setup} {root : String} {s z : Session} {id : TypeId}
    (hs : s ∈ history setup root) (last : (history setup root).getLast? = some z)
    (settles : s.Settles id) : z.types.size? id = s.types.size? id :=
  (Session.fixes_of_changes (changes_of_mem_history hs last)).size?_eq (valid_of_mem_history hs)
    (laidOut_of_mem_history hs).founded (laidOut_of_mem_history (List.mem_of_getLast? last)).founded
    settles

/-- What an identifier other than a type takes, it takes in the end. -/
theorem size?_of_ident {setup : Setup} {root : String} {s z : Session} {n : IdentId} {i : Ident}
    (hs : s ∈ history setup root) (last : (history setup root).getLast? = some z)
    (found : s.idents.get? n = some i) (kind : i.kind ≠ .type) :
    z.types.size? i.type = s.types.size? i.type := by
  have valid := valid_of_mem_history hs
  exact size?_of_settles hs last ⟨valid.inUse_ident found, (valid.idents n i found).solid kind⟩

/-! ### Variables in a row -/

namespace TypeTable

/-- Variables that lie one behind the other, from the offset `first` up to `last`. -/
inductive Stacks (t : TypeTable) : Int64 → List Ident → Int64 → Prop
  | nil {first : Int64} : Stacks t first [] first
  | cons {first next last size : Int64} {i : Ident} {more : List Ident}
      (place : i.payload = .local first) (takes : t.size? i.type = some size)
      (fits : Word.add? first size = some next) (behind : Stacks t next more last) :
      Stacks t first (i :: more) last

variable {t : TypeTable} {first middle last : Int64} {row more : List Ident}

theorem Stacks.append (h : t.Stacks first row middle) (h' : t.Stacks middle more last) :
    t.Stacks first (row ++ more) last := by
  induction h with
  | nil => exact h'
  | cons place takes fits _ ih => exact .cons place takes fits (ih h')

theorem Stacks.le (nonneg : ∀ id n, t.size? id = some n → 0 ≤ n.toInt)
    (h : t.Stacks first row last) : ∀ i ∈ row, ∃ offset, i.payload = .local offset ∧
      first.toInt ≤ offset.toInt := by
  induction h with
  | nil => nofun
  | @cons first next last size i more place takes fits _ ih =>
    have step := Word.add?_eq_some_iff.1 fits
    have sized := nonneg _ _ takes
    rintro j (_ | ⟨_, hj⟩)
    · exact ⟨first, place, Int.le_refl _⟩
    · obtain ⟨offset, there, le⟩ := ih j hj
      exact ⟨offset, there, by omega⟩

/-- Where variables of these types end that lie one behind the other from `first` on. -/
def ends? (t : TypeTable) (first : Int64) (types : List TypeId) : Option Int64 :=
  types.foldlM (fun offset id => (t.size? id).bind (Word.add? offset)) first

theorem ends?_concat (t : TypeTable) (first : Int64) (types : List TypeId) (id : TypeId) :
    t.ends? first (types ++ [id]) =
      (t.ends? first types).bind fun offset => (t.size? id).bind (Word.add? offset) := by
  unfold ends?
  rw [List.foldlM_append]
  cases types.foldlM (fun offset id => (t.size? id).bind (Word.add? offset)) first with
  | none => rfl
  | some offset => exact bind_pure (m := Option) _

theorem ends?_congr {u : TypeTable} {types : List TypeId}
    (sizes : ∀ id ∈ types, u.size? id = t.size? id) :
    u.ends? first types = t.ends? first types := by
  unfold ends?
  induction types generalizing first with
  | nil => rfl
  | cons id types ih =>
    rw [List.foldlM_cons, List.foldlM_cons, sizes id List.mem_cons_self]
    have more := fun (offset : Int64) => @ih offset fun id hi =>
      sizes id (List.mem_cons_of_mem _ hi)
    simp only [more]

/-- Each variable of a row lies where those before it end. -/
theorem Stacks.offset (h : t.Stacks first row last) {k : Nat} {i : Ident} (hi : row[k]? = some i) :
    ∃ offset, i.payload = .local offset ∧
      t.ends? first ((row.take k).map (·.type)) = some offset := by
  induction h generalizing k with
  | nil => cases hi
  | @cons first next last size j more place takes fits _ ih =>
    cases k with
    | zero =>
      cases hi
      exact ⟨first, place, rfl⟩
    | succ k =>
      obtain ⟨offset, there, ends⟩ := ih hi
      refine ⟨offset, there, ?_⟩
      rw [List.take_succ_cons, List.map_cons, ends?, List.foldlM_cons, takes, Option.bind_some,
        fits]
      exact ends

end TypeTable

/-! ### Signatures -/

/-- The parameters lie one behind the other from zero on. -/
structure Signature.Offsets (s : Signature) (t : TypeTable) : Prop where
  known : ∀ p ∈ s.parameters, p.type.index < t.size
  offset : ∀ (k : Nat) p, s.parameters[k]? = some p →
    t.ends? 0 ((s.parameters.take k).map (·.type)) = some p.offset
  total : t.ends? 0 (s.parameters.map (·.type)) = some s.parametersSize

namespace Signature.Offsets

variable {s s' : Signature} {t u : TypeTable}

theorem of_nil (none : s.parameters = []) (empty : s.parametersSize = 0) : s.Offsets t where
  known := by rw [none]; nofun
  offset := by rw [none]; nofun
  total := by rw [none, empty]; rfl

/-- Only the parameters and what they take matter. -/
theorem same (h : s.Offsets t) (parameters : s'.parameters = s.parameters)
    (size : s'.parametersSize = s.parametersSize) : s'.Offsets t where
  known := parameters ▸ h.known
  offset := parameters ▸ h.offset
  total := by rw [parameters, size]; exact h.total

theorem congr (h : s.Offsets t) (size : t.size ≤ u.size)
    (sizes : ∀ p ∈ s.parameters, u.size? p.type = t.size? p.type) : s.Offsets u where
  known p hp := Nat.lt_of_lt_of_le (h.known p hp) size
  offset k p hp := by
    rw [← h.offset k p hp]
    refine TypeTable.ends?_congr fun id hi => ?_
    obtain ⟨q, hq, rfl⟩ := List.mem_map.1 hi
    exact sizes q (List.mem_of_mem_take hq)
  total := by
    rw [← h.total]
    refine TypeTable.ends?_congr fun id hi => ?_
    obtain ⟨q, hq, rfl⟩ := List.mem_map.1 hi
    exact sizes q hq

theorem addParameter? (h : s.Offsets t) {name : String} {type : TypeId} {default? : Option Constant}
    (known : type.index < t.size) (added : t.addParameter? s name type default? = some s') :
    s'.Offsets t := by
  unfold TypeTable.addParameter? at added
  simp only [Option.bind_eq_bind, Option.bind_eq_some_iff] at added
  obtain ⟨size, takes, total, fits, added⟩ := added
  cases added
  refine ⟨fun p hp => ?_, fun k p hp => ?_, ?_⟩
  · rcases List.mem_append.1 hp with hp | hp
    · exact h.known p hp
    · exact List.mem_singleton.1 hp ▸ known
  · rcases Nat.lt_or_ge k s.parameters.length with hk | hk
    · rw [List.getElem?_append_left hk] at hp
      rw [List.take_append_of_le_length (Nat.le_of_lt hk)]
      exact h.offset k p hp
    · rw [List.getElem?_append_right hk] at hp
      obtain ⟨bound, rfl⟩ := List.getElem?_eq_some_iff.1 hp
      have he : k = s.parameters.length := by
        rw [List.length_singleton] at bound
        omega
      subst he
      rw [List.take_left]
      simpa using h.total
  · rw [List.map_append, List.map_singleton, TypeTable.ends?_concat, h.total, Option.bind_some,
      takes]
    exact fits

theorem addParameter?_getD (h : s.Offsets t) (name : String) {type : TypeId}
    (known : type.index < t.size) : ((t.addParameter? s name type none).getD s).Offsets t := by
  cases added : t.addParameter? s name type none with
  | none => exact h
  | some s' => exact h.addParameter? known added

theorem addParameters (h : s.Offsets t) {type : TypeId} {default? : Option Constant}
    {names : List DeclaredName} (known : type.index < t.size)
    (added : names.foldlM (fun s n => t.addParameter? s n.name type default?) s = some s') :
    s'.Offsets t := by
  induction names generalizing s with
  | nil =>
    cases added
    exact h
  | cons n names ih =>
    rw [List.foldlM_cons] at added
    obtain ⟨next, first, more⟩ := Option.bind_eq_some_iff.1 added
    exact ih (h.addParameter? known first) more

end Signature.Offsets

/-! ### The frame of the innermost function -/

namespace Blocks

/-- The bytes that the variables of the innermost function take. -/
def frameOf : List Block → Int64
  | [] => 0
  | block :: rest => if block.function?.isSome then block.frameSize else frameOf rest

def frame (b : Blocks) : Int64 := frameOf b.stack

theorem frame_enter_some (b : Blocks) (f : IdentId) : (b.enter (some f)).frame = 0 := rfl

theorem frame_enter_none (b : Blocks) : (b.enter none).frame = b.frame := rfl

/-- Leaving a block inside a function keeps the frame. -/
theorem frame_leave {b : Blocks} {block : Block} {rest : List Block} (h : b.stack = block :: rest)
    (inner : block.function? = none) : b.leave.frame = b.frame := by
  unfold frame leave
  rw [h, frameOf, inner]
  rfl

/-- The block that was opened last belongs to the function around it. -/
theorem stack_of_enter {b c : Blocks} (h : c.scope = (b.enter none).scope) :
    ∃ block rest, c.stack = block :: rest ∧ block.function? = none := by
  have scopes := congrArg Prod.snd h
  cases hs : c.stack with
  | nil =>
    rw [scope, hs] at scopes
    cases scopes
  | cons block rest =>
    rw [scope, hs] at scopes
    exact ⟨block, rest, rfl, congrArg Prod.snd (List.cons.inj scopes).1⟩

/-- A variable lies where the frame ends. -/
theorem allocateIn_frameOf {size offset : Int64} {stack stack' : List Block}
    (inside : (stack.findSome? (·.function?)).isSome = true)
    (h : allocateIn size stack = some (offset, stack')) :
    offset = frameOf stack ∧ Word.add? offset size = some (frameOf stack') := by
  induction stack generalizing offset stack' with
  | nil => cases inside
  | cons block rest ih =>
    unfold allocateIn at h
    split at h
    · rename_i function
      obtain ⟨total, fits, he⟩ := Option.map_eq_some_iff.1 h
      cases he
      rw [frameOf, frameOf, if_pos function, if_pos function]
      exact ⟨rfl, fits⟩
    · rename_i inner
      obtain ⟨⟨offset', rest'⟩, allocated, he⟩ := Option.map_eq_some_iff.1 h
      cases he
      rw [List.findSome?_cons, Option.not_isSome_iff_eq_none.1 inner] at inside
      rw [frameOf, frameOf, if_neg inner, if_neg inner]
      exact ih inside allocated

theorem allocate?_frame {b c : Blocks} {size offset : Int64} (inside : b.function?.isSome = true)
    (h : b.allocate? size = some (offset, c)) :
    offset = b.frame ∧ Word.add? offset size = some c.frame := by
  obtain ⟨⟨_, stack⟩, allocated, he⟩ := Option.map_eq_some_iff.1 h
  cases he
  exact allocateIn_frameOf inside allocated

end Blocks

end FrontEnd
