import FrontEnd.Session
import FrontEnd.Proofs.Types.Constants
import FrontEnd.Proofs.Types.Checks
import FrontEnd.Proofs.Types.Containment
import FrontEnd.Proofs.Symbols.Ident
import Mathlib.Data.List.Forall2
import Mathlib.Logic.Relator

/-!
Renumberings. Two compilations give the same things different numbers; a renumbering says which
numbers of the first stand for which numbers of the second. What refers to other things by their
numbers is the same in both if it differs by the numbers only, those of code among its values.
-/

namespace FrontEnd

open Relator

/-- Which numbers of one compilation stand for which numbers of another. -/
structure Renumbering where
  types : TypeId → TypeId → Prop
  idents : IdentId → IdentId → Prop
  slots : Nat → Nat → Prop
  addresses : Nat → Nat → Prop
  blocks : BlockId → BlockId → Prop
  modules : ModuleId → ModuleId → Prop

/-- Different numbers stand for different ones. -/
structure Renumbering.OneToOne (r : Renumbering) : Prop where
  types : BiUnique r.types
  idents : BiUnique r.idents
  slots : BiUnique r.slots
  addresses : BiUnique r.addresses
  blocks : BiUnique r.blocks
  modules : BiUnique r.modules

/-- The type of a function, whose values are code addresses. -/
def TypeTable.IsFunction (t : TypeTable) (id : TypeId) : Prop :=
  ∃ signature, t.kind id = .function signature

namespace Renumbering

variable (r : Renumbering) (types : TypeTable)

/-- The same value of a type: addresses are renumbered, and all other values are equal. -/
structure SameValue (type : TypeId) (v w : Constant) : Prop where
  address : types.IsFunction type →
    ∃ a b, r.addresses a b ∧ v = .int (Int64.ofNat a) ∧ w = .int (Int64.ofNat b)
  plain : ¬ types.IsFunction type → v = w

structure SameParameter (p q : Parameter) : Prop where
  name : p.name = q.name
  type : r.types p.type q.type
  offset : p.offset = q.offset
  default : Option.Rel (r.SameValue types p.type) p.default? q.default?

structure SameSignature (f g : Signature) : Prop where
  parameters : List.Forall₂ (r.SameParameter types) f.parameters g.parameters
  defaults : f.defaults = g.defaults
  isMethod : f.isMethod = g.isMethod
  offsetFromSelf : f.offsetFromSelf = g.offsetFromSelf
  results : List.Forall₂ r.types f.results g.results
  parametersSize : f.parametersSize = g.parametersSize

structure SameField (f g : Field) : Prop where
  name : f.name = g.name
  type : r.types f.type g.type
  offset : f.offset = g.offset

/-- The same kind of type. What a forward type waits for is left open. -/
inductive SameKind : TypeKind → TypeKind → Prop
  | builtin (b : Builtin) : SameKind (.builtin b) (.builtin b)
  | pointer {a b : TypeId} (base : r.types a b) : SameKind (.pointer a) (.pointer b)
  | array {a b : TypeId} (base : r.types a b) (length : Int64) :
    SameKind (.array a length) (.array b length)
  | text (capacity : Int64) : SameKind (.text capacity) (.text capacity)
  | struct {fs gs : List Field} (fields : List.Forall₂ r.SameField fs gs) :
    SameKind (.struct fs) (.struct gs)
  | interface {fs gs : List Field} (fields : List.Forall₂ r.SameField fs gs) :
    SameKind (.interface fs) (.interface gs)
  | function {f g : Signature} (signature : r.SameSignature types f g) :
    SameKind (.function f) (.function g)
  | forward (i j : Option IdentId) : SameKind (.forward i) (.forward j)

/-- What identifiers of type `type` carry. -/
inductive SamePayload (type : TypeId) : Payload → Payload → Prop
  | none : SamePayload type .none .none
  | constant {v w : Constant} (value : r.SameValue types type v w) :
    SamePayload type (.constant v) (.constant w)
  | function {a b : Nat} {reserved? reserved?' : Option Nat} (entry : r.addresses a b) :
    SamePayload type (.function a reserved?) (.function b reserved?')
  | global {m n : Nat} (slot : r.slots m n) : SamePayload type (.global m) (.global n)
  | local (offset : Int64) : SamePayload type (.local offset) (.local offset)

structure SameIdent (i j : Ident) : Prop where
  name : i.name = j.name
  kind : i.kind = j.kind
  exported : i.exported = j.exported
  type : r.types i.type j.type
  payload : r.SamePayload types i.type i.payload j.payload
  module : r.modules i.module j.module
  block : r.blocks i.block j.block
  receiver : Option.Rel r.types i.receiver? j.receiver?

structure SameGlobal (g h : Global) : Prop where
  name : g.name = h.name
  type : r.types g.type h.type
  value : Option.Rel (r.SameValue types g.type) g.value? h.value?

structure SameBlock (b c : Block) : Prop where
  id : r.blocks b.id c.id
  function : Option.Rel r.idents b.function? c.function?
  frameSize : b.frameSize = c.frameSize

end Renumbering

/-! ### Larger renumberings -/

/-- The one renumbering is a part of the other. -/
structure Renumbering.Within (r r' : Renumbering) : Prop where
  types : ∀ {a b}, r.types a b → r'.types a b
  idents : ∀ {i j}, r.idents i j → r'.idents i j
  slots : ∀ {m n}, r.slots m n → r'.slots m n
  addresses : ∀ {a b}, r.addresses a b → r'.addresses a b
  blocks : ∀ {b c}, r.blocks b c → r'.blocks b c
  modules : ∀ {m n}, r.modules m n → r'.modules m n

section Lists

variable {α β γ δ : Type} {R S : α → β → Prop} {as : List α} {bs : List β}

theorem rel_imp {x : Option α} {y : Option β} (h : Option.Rel R x y) (hRS : ∀ a b, R a b → S a b) :
    Option.Rel S x y := by
  cases h with
  | some h => exact .some (hRS _ _ h)
  | none => exact .none

theorem rel_getLast? (h : List.Forall₂ R as bs) : Option.Rel R as.getLast? bs.getLast? := by
  rw [List.getLast?_eq_head?_reverse, List.getLast?_eq_head?_reverse]
  have reversed := List.rel_reverse h
  generalize as.reverse = xs at reversed ⊢
  generalize bs.reverse = ys at reversed ⊢
  cases reversed with
  | nil => exact .none
  | cons h _ => exact .some h

theorem rel_findSome? {f : α → Option γ} {g : β → Option δ} {Q : γ → δ → Prop}
    (h : List.Forall₂ R as bs) (hfg : ∀ a b, R a b → Option.Rel Q (f a) (g b)) :
    Option.Rel Q (as.findSome? f) (bs.findSome? g) := by
  induction h with
  | nil => exact .none
  | @cons a b as bs hab _ ih =>
    rw [List.findSome?_cons, List.findSome?_cons]
    cases hf : f a <;> cases hg : g b <;> have here := hfg a b hab <;> rw [hf, hg] at here
    · exact ih
    · cases here
    · cases here
    · exact here

theorem rel_append {x x' : Option α} {y y' : Option β} (h : Option.Rel R x y)
    (h' : Option.Rel R x' y') : Option.Rel R (x <|> x') (y <|> y') := by
  cases h with
  | some h => exact .some h
  | none => exact h'

end Lists

namespace Renumbering.Within

variable {r r' : Renumbering} {final : TypeTable}

theorem value {type : TypeId} {v w : Constant} (h : r.Within r')
    (same : r.SameValue final type v w) : r'.SameValue final type v w where
  address hf :=
    have ⟨a, b, hab, hv, hw⟩ := same.address hf
    ⟨a, b, h.addresses hab, hv, hw⟩
  plain := same.plain

theorem parameter {p q : Parameter} (h : r.Within r') (same : r.SameParameter final p q) :
    r'.SameParameter final p q :=
  { same with
    type := h.types same.type
    default := rel_imp same.default fun _ _ => h.value }

theorem signature {f g : Signature} (h : r.Within r') (same : r.SameSignature final f g) :
    r'.SameSignature final f g :=
  { same with
    parameters := same.parameters.imp fun _ _ => h.parameter
    results := same.results.imp fun _ _ => h.types }

theorem field {f g : Field} (h : r.Within r') (same : r.SameField f g) : r'.SameField f g :=
  { same with type := h.types same.type }

theorem kind {k l : TypeKind} (h : r.Within r') (same : r.SameKind final k l) :
    r'.SameKind final k l := by
  cases same with
  | builtin b => exact .builtin b
  | pointer base => exact .pointer (h.types base)
  | array base length => exact .array (h.types base) length
  | text capacity => exact .text capacity
  | struct fields => exact .struct (fields.imp fun _ _ => h.field)
  | interface fields => exact .interface (fields.imp fun _ _ => h.field)
  | function signature => exact .function (h.signature signature)
  | forward i j => exact .forward i j

theorem payload {type : TypeId} {p q : Payload} (h : r.Within r')
    (same : r.SamePayload final type p q) : r'.SamePayload final type p q := by
  cases same with
  | none => exact .none
  | constant value => exact .constant (h.value value)
  | function entry => exact .function (h.addresses entry)
  | global slot => exact .global (h.slots slot)
  | «local» offset => exact .local offset

theorem ident {i j : Ident} (h : r.Within r') (same : r.SameIdent final i j) :
    r'.SameIdent final i j :=
  { same with
    type := h.types same.type
    payload := h.payload same.payload
    module := h.modules same.module
    block := h.blocks same.block
    receiver := rel_imp same.receiver fun _ _ => h.types }

theorem «global» {g g' : Global} (h : r.Within r') (same : r.SameGlobal final g g') :
    r'.SameGlobal final g g' :=
  { same with
    type := h.types same.type
    value := rel_imp same.value fun _ _ => h.value }

end Renumbering.Within

/-! ### Sizes -/

namespace Renumbering

variable {r : Renumbering} {final t u : TypeTable} {a b : TypeId}

theorem SameKind.outline {k l : TypeKind} (h : r.SameKind final k l) : k.outline = l.outline := by
  cases h <;> rfl

/-- Types that are the same take the same room. -/
theorem size?_eq (ht : t.IsFounded) (hu : u.IsFounded)
    (kinds : ∀ a b, r.types a b → r.SameKind final (t.kind a) (u.kind b)) (h : r.types a b) :
    t.size? a = u.size? b := by
  induction a using ht.induction generalizing b with
  | _ a ih =>
    have fields (structured : (t.kind a).isStructure = true)
        (structured' : (u.kind b).isStructure = true)
        (contents : (t.kind a).contents = (t.kind a).fields.map (·.type))
        (same : List.Forall₂ r.SameField (t.kind a).fields (u.kind b).fields) :
        t.size? a = u.size? b := by
      rw [ht.size?_of_fields structured, hu.size?_of_fields structured']
      have last := rel_getLast? same
      cases hf : (t.kind a).fields.getLast? with
      | none =>
        rw [hf] at last
        cases hg : (u.kind b).fields.getLast? with
        | none => rfl
        | some g =>
          rw [hg] at last
          cases last
      | some f =>
        rw [hf] at last
        cases hg : (u.kind b).fields.getLast? with
        | none =>
          rw [hg] at last
          cases last
        | some g =>
          rw [hg] at last
          cases last with
          | some last =>
            have part : t.Contains a f.type := by
              rw [TypeTable.Contains, contents]
              exact List.mem_map_of_mem (List.mem_of_getLast? hf)
            dsimp only
            rw [ih f.type part last.type, last.offset]
    have same := kinds a b h
    cases ha : t.kind a <;> cases hb : u.kind b <;> rw [ha, hb] at same <;> cases same
    case struct.struct.struct same =>
      rw [ha, hb] at fields
      exact fields rfl rfl rfl same
    case interface.interface.interface same =>
      rw [ha, hb] at fields
      exact fields rfl rfl rfl same
    all_goals rw [ht.size?_eq a, hu.size?_eq b, TypeTable.sizeFrom, TypeTable.sizeFrom, ha, hb]
    case array.array.array base =>
      rename_i part _ _
      dsimp only
      split
      · rfl
      · rename_i closed
        have contains : t.Contains a part := by
          rw [TypeTable.Contains, ha, TypeKind.contents, if_neg closed]
          exact List.mem_singleton_self _
        rw [ih part contains base]

/-- A parameter is added to both signatures or to neither. -/
theorem rel_addParameter? {f g : Signature} {default? default?' : Option Constant} (name : String)
    (size : t.size? a = u.size? b) (same : r.SameSignature final f g) (type : r.types a b)
    (default : Option.Rel (r.SameValue final a) default? default?') :
    Option.Rel (r.SameSignature final) (t.addParameter? f name a default?)
      (u.addParameter? g name b default?') := by
  unfold TypeTable.addParameter?
  rw [size, same.parametersSize]
  cases u.size? b with
  | none => exact .none
  | some n =>
    simp only [Option.bind_eq_bind, Option.bind_some]
    cases Word.add? g.parametersSize n with
    | none => exact .none
    | some total =>
      refine .some { same with parameters := ?_, parametersSize := rfl }
      exact List.rel_append same.parameters (.cons ⟨rfl, type, rfl, default⟩ .nil)

/-- Two signatures without parameters are the same. -/
theorem SameSignature.empty : r.SameSignature final .empty .empty :=
  ⟨.nil, rfl, rfl, rfl, .nil, rfl⟩

end Renumbering

end FrontEnd
