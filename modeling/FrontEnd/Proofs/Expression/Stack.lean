import FrontEnd.Proofs.Expression.Machine
import FrontEnd.Proofs.Types.Constants

/-!
The stack as far as types tell. The code of an expression is carried out on the types of the values
instead of the values: an entry of the stack is the address of a variable or a value of a type.
-/

namespace FrontEnd

/-- Where a variable lies. -/
inductive Storage
  | global (slot : Nat)
  | local (offset : Int64)

/-- The instruction that pushes the address of a variable. -/
def Storage.address : Storage → Instruction
  | .global slot => .globalAddress slot
  | .local offset => .localAddress offset

inductive Operand
  | address (place : Storage)
  /-- A value of a type, and the variable that it has been read from, if it is the value of one. -/
  | value (type : TypeId) (read? : Option Storage)

/-- The instruction belongs to an expression: it neither stores a value nor goes elsewhere. -/
def Instruction.Evaluates : Instruction → Prop
  | push _ | globalAddress _ | localAddress _ | load _ | unary _ | binary _ | convert .. => True
  | _ => False

namespace TypeTable

variable {t : TypeTable} {code more : List Instruction} {stack stack' stack'' : List Operand}
  {type : TypeId}

/-- What an instruction of an expression makes of the stack. -/
inductive Acts (t : TypeTable) (stack : List Operand) : Instruction → List Operand → List Operand → Prop
  | push {value : Constant} {type : TypeId} (kind : value.HasKind (t.kind type)) :
      Acts t stack (.push value) stack (.value type none :: stack)
  | globalAddress (slot : Nat) :
      Acts t stack (.globalAddress slot) stack (.address (.global slot) :: stack)
  | localAddress (offset : Int64) :
      Acts t stack (.localAddress offset) stack (.address (.local offset) :: stack)
  | load (place : Storage) (type : TypeId) :
      Acts t stack (.load type) (.address place :: stack) (.value type (some place) :: stack)
  | unary {op : UnaryOperator} {type : TypeId} {read? : Option Storage}
      (operator : t.hasUnaryOperator op type = true) :
      Acts t stack (.unary op) (.value type read? :: stack) (.value type none :: stack)
  /-- The right operand lies on top of the left one. -/
  | binary {op : Operator} {left right : TypeId} {read? read?' : Option Storage}
      (compatible : t.compatible left right = true) (operator : t.hasOperator op left = true) :
      Acts t stack (.binary op) (.value right read?' :: .value left read? :: stack)
        (.value (op.resultType left) none :: stack)
  | convert {source target : TypeId} {read? : Option Storage}
      (widens : t.widens target source = true) :
      Acts t stack (.convert source target) (.value source read? :: stack)
        (.value target none :: stack)

/-- What the code of an expression makes of the stack. -/
inductive Runs (t : TypeTable) : List Instruction → List Operand → List Operand → Prop
  | nil (stack : List Operand) : Runs t [] stack stack
  | cons {i : Instruction} {code : List Instruction} {rest before after final : List Operand}
      (acts : t.Acts rest i before after) (runs : Runs t code after final) :
      Runs t (i :: code) before final

theorem Acts.address (place : Storage) : t.Acts stack place.address stack (.address place :: stack) := by
  cases place with
  | global slot => exact .globalAddress slot
  | «local» offset => exact .localAddress offset

theorem Runs.append (h : t.Runs code stack stack') (h' : t.Runs more stack' stack'') :
    t.Runs (code ++ more) stack stack'' := by
  induction h with
  | nil => exact h'
  | cons acts _ ih => exact .cons acts (ih h')

theorem Acts.runs {rest : List Operand} {i : Instruction} (h : t.Acts rest i stack stack') :
    t.Runs [i] stack stack' :=
  .cons h (.nil _)

theorem Runs.evaluates (h : t.Runs code stack stack') {i : Instruction} (hi : i ∈ code) :
    i.Evaluates := by
  induction h with
  | nil => cases hi
  | cons acts _ ih =>
    rcases List.mem_cons.1 hi with rfl | hi
    · cases acts <;> trivial
    · exact ih hi

/-- The code leaves one value of a type on top of any stack. -/
def Pushes (t : TypeTable) (code : List Instruction) (type : TypeId) : Prop :=
  ∀ stack, ∃ read?, t.Runs code stack (.value type read? :: stack)

theorem Pushes.evaluates (h : t.Pushes code type) {i : Instruction} (hi : i ∈ code) :
    i.Evaluates := by
  obtain ⟨_, runs⟩ := h []
  exact runs.evaluates hi

theorem pushes_push {value : Constant} (h : value.HasKind (t.kind type)) :
    t.Pushes [.push value] type :=
  fun _ => ⟨none, (Acts.push h).runs⟩

theorem pushes_load (place : Storage) (type : TypeId) :
    t.Pushes [place.address, .load type] type :=
  fun _ => ⟨some place, .cons (.address place) (Acts.load place type).runs⟩

theorem Pushes.unary (h : t.Pushes code type) {op : UnaryOperator}
    (ho : t.hasUnaryOperator op type = true) : t.Pushes (code ++ [.unary op]) type := by
  intro stack
  obtain ⟨read?, runs⟩ := h stack
  exact ⟨none, runs.append (Acts.unary ho).runs⟩

theorem Pushes.convert {source target : TypeId} (h : t.Pushes code source)
    (hw : t.widens target source = true) : t.Pushes (code ++ [.convert source target]) target := by
  intro stack
  obtain ⟨read?, runs⟩ := h stack
  exact ⟨none, runs.append (Acts.convert hw).runs⟩

theorem Pushes.binary {left right : TypeId} (h : t.Pushes code left) (h' : t.Pushes more right)
    {op : Operator} (hc : t.compatible left right = true) (ho : t.hasOperator op left = true) :
    t.Pushes (code ++ more ++ [.binary op]) (op.resultType left) := by
  intro stack
  obtain ⟨read?, runs⟩ := h stack
  obtain ⟨read?', runs'⟩ := h' (.value left read? :: stack)
  exact ⟨none, (runs.append runs').append (Acts.binary hc ho).runs⟩

end TypeTable

end FrontEnd
