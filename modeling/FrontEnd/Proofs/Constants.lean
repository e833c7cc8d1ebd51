import FrontEnd.Proofs.Expression.Folding
import FrontEnd.Proofs.History

/-!
Constants and their types. The rules for types look at the numbers of types, and folding looks at
constants; both stay in step, since each constant that a session keeps is of the kind of the type it
is kept with. So folding finds the operands that the checks have promised, in any expression and
through any chain of named constants.
-/

namespace FrontEnd

namespace Session

variable {s t : Session}

/-- The values of global variables and the default values of parameters are of the kinds of their
types. -/
structure HoldsValues (s : Session) : Prop where
  globals : ∀ (slot : Nat) g, s.globals[slot]? = some g → s.Holds g.type g.value?
  defaults : ∀ id, s.HoldsDefaults (s.types.kind id)

/-- Each constant that is kept with a type is of the kind of the type. -/
structure HoldsConstants (s : Session) : Prop extends s.HoldsValues where
  constants : ∀ id i, s.idents.get? id = some i → i.kind = .constant →
    ∃ value, i.payload = .constant value ∧ value.HasKind (s.types.kind i.type)

/-- A constant identifier carries a constant of the kind of its type. -/
theorem HoldsValues.holdsConstants (h : s.HoldsValues) (hs : s.Valid ∅) : s.HoldsConstants := by
  refine ⟨h, fun id i found kind => ?_⟩
  have carries := (hs.idents id i found).carries
  unfold Ident.Carries at carries
  rw [kind] at carries
  split at carries
  · rename_i hk _
    cases hk
  · rename_i value _ payload
    exact ⟨value, payload, carries⟩
  · rename_i hk _
    cases hk
  · rename_i hk _
    cases hk
  · rename_i hk _
    cases hk
  · exact carries.elim

/-- Where the variables stay and all functions have been there before, the values are still of the
kinds of their types. -/
theorem HoldsValues.grows (h : s.HoldsValues) (hs : s.Valid ∅) (g : s.Grows t)
    (globals : t.globals = s.globals)
    (functions : ∀ id signature, t.types.kind id = .function signature →
      ∃ before, s.types.kind before = .function signature) : t.HoldsValues where
  globals slot v hv := by
    rw [globals] at hv
    exact (h.globals slot v hv).grows g (hs.globals slot v hv).type
  defaults id := by
    cases hk : t.types.kind id with
    | function signature =>
      obtain ⟨before, hb⟩ := functions id signature hk
      rw [← hb]
      exact (h.defaults before).grows g (hs.kinds before)
    | _ => trivial

theorem Step.holdsValues (h : s.Step ∅ t) (hs : s.Valid ∅) (values : s.HoldsValues) :
    t.HoldsValues := by
  have grows := h.grows
  cases h with
  | @complete _ _ forward concrete _ _ _ _ _ pending =>
    refine values.grows hs grows rfl fun id signature hk => ?_
    have hk : (s.types.complete forward concrete).kind id = .function signature := hk
    rw [TypeTable.kind_complete concrete id (TypeTable.index_lt_of_isForward pending)] at hk
    split at hk
    · exact ⟨concrete, hk⟩
    · exact ⟨id, hk⟩
  | @allocateGlobal v _ holds =>
    refine ⟨fun slot g hg => ?_, values.defaults⟩
    have hg : (s.globals.push v)[slot]? = some g := hg
    rw [Array.getElem?_push] at hg
    split at hg
    · cases hg
      exact holds
    · exact values.globals slot g hg
  | @setGlobal slot value? holds =>
    refine ⟨fun other g hg => ?_, values.defaults⟩
    have hg : (s.globals.modify slot fun g => { g with value? })[other]? = some g := hg
    rw [Array.getElem?_modify] at hg
    split at hg
    · rename_i he
      obtain ⟨v, hv, rfl⟩ := Option.map_eq_some_iff.1 hg
      exact holds v (he ▸ hv)
    · exact values.globals other g hg
  | _ => exact values.grows hs grows rfl fun id _ hk => ⟨id, hk⟩

theorem Change.holdsValues (h : s.Change t) (hs : s.Valid ∅) (values : s.HoldsValues) :
    t.HoldsValues := by
  have grows := h.grows
  cases h with
  | step _ step => exact step.holdsValues hs values
  | @addType kind _ valid _ _ defaults =>
    refine ⟨fun slot g hg => (values.globals slot g hg).grows grows (hs.globals slot g hg).type,
      fun id => ?_⟩
    show HoldsDefaults _ ((s.types.add kind).2.kind id)
    rw [TypeTable.kind_add]
    split
    · exact defaults.grows grows valid
    · exact (values.defaults id).grows grows (hs.kinds id)
  | @addField owner type name offset types _ added structured =>
    refine values.grows hs grows rfl fun id signature hk => ?_
    have hk : types.kind id = .function signature := hk
    rw [(TypeTable.addField_eq_some added).2.2] at hk
    split at hk
    · have kept := TypeKind.isStructure_withField (s.types.kind owner) ⟨name, type, offset⟩
      rw [hk, structured] at kept
      cases kept
    · exact ⟨id, hk⟩
  | nameForward => exact values.grows hs grows rfl fun id _ hk => ⟨id, hk⟩
  | @bind ident _ forward _ _ _ waiting =>
    refine values.grows hs grows rfl fun id signature hk => ?_
    have hk : (s.types.bind forward ident).kind id = .function signature := hk
    rw [TypeTable.kind_bind ident id (TypeTable.isForward_of_kind_eq waiting)] at hk
    split at hk
    · cases hk
    · exact ⟨id, hk⟩
  | leaveFile => exact values.grows hs grows rfl fun id _ hk => ⟨id, hk⟩

/-- There are no variables at the start, and no functions. -/
theorem holdsValues_initial (settings : Settings) : (initial settings).HoldsValues := by
  refine ⟨nofun, fun id => ?_⟩
  have none : ∀ i < TypeTable.initial.size, (TypeTable.initial.signature? ⟨i⟩).isNone := by decide
  show HoldsDefaults _ (TypeTable.initial.kind id)
  cases hk : TypeTable.initial.kind id with
  | function signature =>
    have known : id.index < TypeTable.initial.size :=
      TypeTable.index_lt_of_kind_ne fun he => by
        rw [hk] at he
        cases he
    have found := none id.index known
    rw [TypeTable.signature?, hk] at found
    cases found
  | _ => trivial

end Session

/-! ### Folding -/

namespace Expression

variable {setup : Setup} {s t : Session} {tree part : Expression}

/-- The operator at the root of a tree is applied to known operands, and folding it is supported if
the operands have passed the checks; only comparisons of reals are an exception, if one of them is no
number. -/
def SupportsFold (setup : Setup) (s : Session) : Expression → Prop
  | unary op _ operand => ∀ v t, (operand.evaluate .constant).Yields setup s v t →
      t.types.hasUnaryOperator op v.type = true →
      ∃ a, v.constant? = some a ∧ a.foldUnary op ≠ .error .unsupported
  | binary op _ left right => ∀ v t w u, (left.evaluate .constant).Yields setup s v t →
      (right.evaluate .constant).Yields setup t w u →
      u.types.compatible v.type (w.widened u.types v.type).type = true →
      u.types.hasOperator op v.type = true →
      ∃ a b, v.constant? = some a ∧ (w.widened u.types v.type).constant? = some b ∧
        (a.foldBinary op b = .error .unsupported → op.isComparison = true ∧
          ∃ x y, a = .real x ∧ b = .real y ∧ (x.isNaN = true ∨ y.isNaN = true))
  | _ => True

theorem supportsFold_of_grounded (g : s.Grounded ∅) : part.SupportsFold setup s := by
  cases part with
  | unary op span operand =>
    intro v t yields ho
    have e := Action.evaluates_of_yields g yields
    obtain ⟨a, ha⟩ := e.fits.known rfl
    have hb : t.types.kind .bool = .builtin .bool := (e.grounded.builtin (by decide) rfl).2
    exact ⟨a, ha, TypeTable.foldUnary_supported hb (e.fits.constant a ha) ho⟩
  | binary op span left right =>
    intro v t w u yields yields' hc ho
    have el := Action.evaluates_of_yields g yields
    have er := Action.evaluates_of_yields el.grounded yields'
    have fl := el.fits.evolves er.evolves
    have fr := (er.widened fl.usable).fits
    obtain ⟨a, ha⟩ := fl.known rfl
    obtain ⟨b, hb⟩ := fr.known rfl
    have ka := fl.constant a ha
    have kb := TypeTable.hasKind_of_compatible hc (fr.constant b hb)
    have bool : u.types.kind .bool = .builtin .bool := (er.grounded.builtin (by decide) rfl).2
    have char : u.types.kind .char = .builtin .char := (er.grounded.builtin (by decide) rfl).2
    refine ⟨a, b, ha, hb, fun unsupported => ?_⟩
    obtain ⟨comparison, x, y, rfl, rfl, unordered⟩ :=
      TypeTable.foldBinary_supported bool char (ka.alike kb) ka ho unsupported
    exact ⟨comparison, x, y, rfl, rfl, Constant.realOrder?_eq_none unordered⟩
  | _ => trivial

/-- The builtin types and the identifiers are in place wherever constant mode comes to. -/
theorem Reaches.grounded (h : Reaches setup tree s part t) (g : s.Grounded ∅) : t.Grounded ∅ := by
  induction h with
  | here => exact g
  | group _ ih => exact ih g
  | unary _ ih => exact ih g
  | left _ ih => exact ih g
  | right yields _ ih => exact ih (Action.evaluates_of_yields g yields).grounded

end Expression

/-! ### Compilations -/

variable {setup : Setup} {root : String} {s : Session}

/-- In every session of a compilation, constants are of the kinds of their types, and in every
constant expression that is evaluated there, folding is supported wherever the operands have passed
the checks. -/
theorem history_constants (hs : s ∈ history setup root) : s.HoldsConstants ∧
    ∀ tree part t, Expression.Reaches setup tree s part t → part.SupportsFold setup t := by
  obtain ⟨valid, values⟩ := history_induction (P := Session.HoldsValues)
    (Session.holdsValues_initial _) (fun _ _ valid c => c.change.holdsValues valid) s hs
  exact ⟨values.holdsConstants valid, fun _ _ _ reach =>
    Expression.supportsFold_of_grounded (reach.grounded valid.grounded)⟩

/-- A constant that is the address of a function, a default value that was turned into a real, and
the initial values of two global variables. -/
def constantsProgram : Setup where
  settings := .standard
  sources := ⟨fun _ => .ok ("fn f(x: real = 1): int \x7b return 1 \x7d\nconst c = f\n" ++
    "var r: real = 2\nvar p: ^int = null\nfn main() \x7b\x7d\n")⟩
  hosts := ⟨[]⟩

theorem constantsProgram_constants : ∃ s ∈ history constantsProgram "main.um",
    (s.globals.map (·.value?.isSome)).toList = [true, true] ∧
      s.HoldsConstants ∧ ∀ tree part t, Expression.Reaches constantsProgram tree s part t →
        part.SupportsFold constantsProgram t := by
  have checked : ∃ s ∈ history constantsProgram "main.um",
      (s.globals.map (·.value?.isSome)).toList = [true, true] := by decide +kernel
  obtain ⟨s, hs, values⟩ := checked
  exact ⟨s, hs, values, history_constants hs⟩

end FrontEnd
