import FrontEnd.Proofs.Phrases

/-!
What code does to a stack of which it may keep a part. Loads and stores act on the addresses of variables
in view, so that the types of what they read and write are those of declared variables.
-/

namespace FrontEnd

theorem Storage.address_ne_load (place : Storage) (type : TypeId) :
    place.address ≠ .load type := by
  cases place <;> nofun

namespace TypeTable

variable {t : TypeTable} {i : Instruction} {rest before after : List Operand} {place : Storage}

/-- What an instruction does to a stack it does on top of any other. -/
theorem Acts.frame (h : t.Acts rest i before after) (below : List Operand) :
    t.Acts (rest ++ below) i (before ++ below) (after ++ below) := by
  cases h with
  | push kind => exact .push kind
  | globalAddress slot => exact .globalAddress slot
  | localAddress offset => exact .localAddress offset
  | load place type => exact .load place type
  | unary operator => exact .unary operator
  | binary compatible operator => exact .binary compatible operator
  | convert widens => exact .convert widens

theorem Acts.of_address (h : t.Acts rest place.address before after) :
    after = .address place :: before := by
  cases place with
  | global slot =>
    cases h
    rfl
  | «local» offset =>
    cases h
    rfl

end TypeTable

theorem TypeTable.compatible_refl (t : TypeTable) (type : TypeId) : t.compatible type type = true :=
  compatible_of_equivalent (t.equivalent_refl type)

namespace Session

variable {s t : Session} {may : Set Part} {place : Storage} {type target source : TypeId}
  {code more : List Instruction} {below : List Operand}

/-! ### Variables in view -/

/-- The identifier is predeclared, or it belongs to an open scope of the module being read, or to the
scope of a module that this one imports. -/
def InView (s : Session) (i : Ident) : Prop :=
  i.module = .predeclared ∨ i.module = s.blocks.module ∧ i.block ∈ s.blocks.scopes ∨
    s.modules.Imports s.blocks.module i.module ∧ i.block = .moduleScope

/-- At `place` lies a variable in view that has been declared with the type. -/
def HasVariable (s : Session) (place : Storage) (type : TypeId) : Prop :=
  ∃ id i, s.idents.get? id = some i ∧ s.InView i ∧ Action.address? i = some place.address ∧
    i.type = type

theorem HasVariable.evolves (h : s.HasVariable place type) (e : s.Evolves may t)
    (scopes : .scopes ∉ may) (files : .files ∉ may) : t.HasVariable place type := by
  obtain ⟨id, i, hi, view, address, rfl⟩ := h
  obtain ⟨exported, span, hj⟩ := e.grows.idents id i hi
  obtain ⟨_, modules, module, _⟩ := e.keeps.files files
  have same : t.blocks.scopes = s.blocks.scopes := by
    have stack := congrArg (List.map Prod.fst) (e.keeps.scopes scopes)
    rw [Blocks.scopes, Blocks.scopes]
    simpa [Blocks.scope, Block.scope, Function.comp_def] using stack
  refine ⟨id, _, hj, ?_, address, rfl⟩
  unfold InView at view ⊢
  rw [modules, module, same]
  exact view

/-! ### Carrying code out -/

/-- What an instruction makes of the stack. Of the part `below` it pops nothing; what it loads or stores
lies at the address of a variable of that type. -/
inductive Acts (s : Session) (below : List Operand) :
    Instruction → List Operand → List Operand → Prop
  | evaluates {i : Instruction} {rest before after : List Operand}
      (acts : s.types.Acts rest i before after) (kept : below <:+ rest)
      (reads : ∀ type, i = .load type →
        ∃ place, before = .address place :: rest ∧ s.HasVariable place type) :
      Acts s below i before after
  | store {place : Storage} {target source : TypeId} {read? : Option Storage} {rest : List Operand}
      (has : s.HasVariable place target) (compatible : s.types.compatible target source = true)
      (kept : below <:+ rest) :
      Acts s below (.store target) (.value source read? :: .address place :: rest) rest
  | storeSwapped {place : Storage} {target source : TypeId} {read? : Option Storage}
      {rest : List Operand} (has : s.HasVariable place target)
      (compatible : s.types.compatible target source = true) (kept : below <:+ rest) :
      Acts s below (.storeSwapped target) (.address place :: .value source read? :: rest) rest

/-- What code makes of the stack, of which it leaves the part `below` as it is. -/
inductive Executes (s : Session) (below : List Operand) :
    List Instruction → List Operand → List Operand → Prop
  | nil (stack : List Operand) : Executes s below [] stack stack
  | cons {i : Instruction} {code : List Instruction} {before after final : List Operand}
      (acts : s.Acts below i before after) (executes : Executes s below code after final) :
      Executes s below (i :: code) before final

theorem Executes.append {before between after : List Operand}
    (h : s.Executes below code before between) (h' : s.Executes below more between after) :
    s.Executes below (code ++ more) before after := by
  induction h with
  | nil => exact h'
  | cons acts _ ih => exact .cons acts (ih h')

/-- A part of the stack that is kept is a part of a larger one that is kept. -/
theorem Executes.mono {kept before after : List Operand} (h : s.Executes kept code before after)
    (hb : below <:+ kept) : s.Executes below code before after := by
  induction h with
  | nil => exact .nil _
  | cons acts _ ih =>
    refine .cons ?_ ih
    cases acts with
    | evaluates acts kept reads => exact .evaluates acts (hb.trans kept) reads
    | store has compatible kept => exact .store has compatible (hb.trans kept)
    | storeSwapped has compatible kept => exact .storeSwapped has compatible (hb.trans kept)

/-- Each load stands behind the address of a variable of its type. -/
inductive ReadsVariables (s : Session) : List Instruction → Prop
  | nil : ReadsVariables s []
  | load {place : Storage} {type : TypeId} {code : List Instruction}
      (has : s.HasVariable place type) (reads : ReadsVariables s code) :
      ReadsVariables s (place.address :: .load type :: code)
  | other {i : Instruction} {code : List Instruction} (other : ∀ type, i ≠ .load type)
      (reads : ReadsVariables s code) : ReadsVariables s (i :: code)

theorem ReadsVariables.append (h : s.ReadsVariables code) (h' : s.ReadsVariables more) :
    s.ReadsVariables (code ++ more) := by
  induction h with
  | nil => exact h'
  | load has _ ih => exact .load has ih
  | other other _ ih => exact .other other ih

theorem ReadsVariables.imp (h : s.ReadsVariables code)
    (ht : ∀ place type, s.HasVariable place type → t.HasVariable place type) :
    t.ReadsVariables code := by
  induction h with
  | nil => exact .nil
  | load has _ ih => exact .load (ht _ _ has) ih
  | other other _ ih => exact .other other ih

theorem ReadsVariables.evolves (h : s.ReadsVariables code) (e : s.Evolves may t)
    (scopes : .scopes ∉ may) (files : .files ∉ may) : t.ReadsVariables code :=
  h.imp fun _ _ has => has.evolves e scopes files

theorem readsVariables_singleton {i : Instruction} (other : ∀ type, i ≠ .load type) :
    s.ReadsVariables [i] :=
  .other other .nil

/-- The code is carried out on top of any stack as on an empty one. -/
theorem ReadsVariables.executes {before after : List Operand} (h : s.ReadsVariables code)
    (runs : s.types.Runs code before after) (below : List Operand) :
    s.Executes below code (before ++ below) (after ++ below) := by
  induction h generalizing before with
  | nil =>
    cases runs
    exact .nil _
  | load has _ ih =>
    cases runs with
    | cons acts runs =>
      obtain rfl := acts.of_address
      cases runs with
      | cons acts' runs =>
        refine .cons (.evaluates (acts.frame below) (List.suffix_append _ _) ?_)
          (.cons (.evaluates (acts'.frame below) (List.suffix_append _ _) ?_) (ih runs))
        · exact fun type he => absurd he (Storage.address_ne_load _ type)
        · intro type he
          cases he
          cases acts'
          exact ⟨_, rfl, has⟩
  | other other _ ih =>
    cases runs with
    | cons acts runs =>
      refine .cons (.evaluates (acts.frame below) (List.suffix_append _ _) ?_) (ih runs)
      exact fun type he => absurd he (other type)

/-- The code leaves one value of a type on top of any stack, of which it pops nothing. -/
def Pushes (s : Session) (code : List Instruction) (type : TypeId) : Prop :=
  ∀ below, ∃ read?, s.Executes below code below (.value type read? :: below)

theorem pushes_of_readsVariables (h : s.types.Pushes code type) (reads : s.ReadsVariables code) :
    s.Pushes code type := by
  intro below
  obtain ⟨read?, runs⟩ := h []
  exact ⟨read?, reads.executes runs below⟩

/-- The code gives a value to a variable: it ends by storing a value of a type that is compatible with
that of the variable, whose address has been pushed in front of the value or behind it. -/
inductive GivesValue (s : Session) : List Instruction → Prop
  | assign {place : Storage} {target source : TypeId} {value : List Instruction}
      (has : s.HasVariable place target) (pushes : s.Pushes value source)
      (compatible : s.types.compatible target source = true) :
      GivesValue s ([place.address] ++ value ++ [.store target])
  | declare {place : Storage} {target source : TypeId} {value : List Instruction}
      (has : s.HasVariable place target) (pushes : s.Pushes value source)
      (compatible : s.types.compatible target source = true) :
      GivesValue s (value ++ [place.address, .storeSwapped target])

theorem acts_address (s : Session) (place : Storage) {stack : List Operand} (kept : below <:+ stack) :
    s.Acts below place.address stack (.address place :: stack) :=
  .evaluates (.address place) kept fun type he => absurd he (place.address_ne_load type)

/-- Giving a value to a variable leaves the stack as it was. -/
theorem GivesValue.executes (h : s.GivesValue code) (below : List Operand) :
    s.Executes below code below below := by
  cases h with
  | @assign place target source _ has pushes compatible =>
    obtain ⟨read?, value⟩ := pushes (.address place :: below)
    have address : s.Executes below [place.address] below (.address place :: below) :=
      .cons (s.acts_address place (List.suffix_refl _)) (.nil _)
    have stored : s.Acts below (.store target) (.value source read? :: .address place :: below)
        below := .store has compatible (List.suffix_refl below)
    exact (address.append (value.mono (List.suffix_cons _ _))).append (.cons stored (.nil _))
  | @declare place target source _ has pushes compatible =>
    obtain ⟨read?, value⟩ := pushes below
    have address := s.acts_address place (List.suffix_cons (.value source read?) below)
    have stored : s.Acts below (.storeSwapped target)
        (.address place :: .value source read? :: below) below :=
      .storeSwapped has compatible (List.suffix_refl below)
    exact value.append (.cons address (.cons stored (.nil _)))

/-! ### Appended code -/

/-- Code with the property `P` has been appended since `s`. -/
def Adds (s t : Session) (P : List Instruction → Prop) : Prop :=
  ∃ more, s.code.Appends t.code more ∧ P more

variable {P Q R : List Instruction → Prop} {u : Session}

theorem adds_nil (h : t.code = s.code) (hP : P []) : s.Adds t P :=
  ⟨[], ⟨by rw [h], by rw [h, List.append_nil]⟩, hP⟩

theorem Adds.append (h : s.Adds t P) (h' : t.Adds u Q)
    (hR : ∀ code more, P code → Q more → R (code ++ more)) : s.Adds u R := by
  obtain ⟨code, appends, holds⟩ := h
  obtain ⟨more, appends', holds'⟩ := h'
  exact ⟨code ++ more, appends.trans appends', hR code more holds holds'⟩

theorem adds_emit (s : Session) (i : Instruction) :
    s.Adds { s with code := s.code.emit i } (· = [i]) :=
  ⟨[i], Code.appends_emit s.code i, rfl⟩

/-- There is just one way in which code has been appended. -/
theorem Adds.and (h : s.Adds t P) (h' : s.Adds t Q) : s.Adds t fun code => P code ∧ Q code := by
  obtain ⟨code, appends, holds⟩ := h
  obtain ⟨more, appends', holds'⟩ := h'
  have same := appends.instructions.symm.trans appends'.instructions
  exact ⟨code, appends, holds, List.append_cancel_left same ▸ holds'⟩

theorem Adds.emit {i : Instruction} (h : s.Adds t t.ReadsVariables) (other : ∀ type, i ≠ .load type) :
    s.Adds { t with code := t.code.emit i }
      (Session.ReadsVariables { t with code := t.code.emit i }) := by
  refine h.append (adds_emit t i) fun code _ reads he => ?_
  rw [he]
  exact .append (reads.imp fun _ _ has => has) (readsVariables_singleton other)

theorem adds_executes (h : s.Adds t t.GivesValue) :
    s.Adds t fun code => t.GivesValue code ∧ ∀ below, t.Executes below code below below := by
  obtain ⟨code, appends, gives⟩ := h
  exact ⟨code, appends, gives, gives.executes⟩

/-- Variables have been declared since `s`, and they have been given a value or not. -/
def DeclaresItem (s t : Session) : Prop :=
  t.code = s.code ∨
    s.Adds t fun code => t.GivesValue code ∧ ∀ below, t.Executes below code below below

theorem evolves_emit (s : Session) {i : Instruction} (plain : i.isPlain = true) :
    s.Evolves {.code} { s with code := s.code.emit i } where
  grows := grows_code (size_emit_le s.code i)
  keeps := { Keeps.refl {.code} s with
    functions := fun _ => ⟨rfl, .emit s.code plain, rfl⟩
    code := fun hn => absurd rfl hn }
  fixes := s.fixes_code _

end Session

end FrontEnd
