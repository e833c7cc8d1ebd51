import FrontEnd.Code

/-!
A stack machine for the code of expressions without variables. An operator is carried out as it
folds, so that the machine is stuck where folding fails.
-/

namespace FrontEnd

/-- What an instruction makes of a stack; none where it cannot be carried out. -/
def Instruction.step? : Instruction → List Constant → Option (List Constant)
  | push value, stack => some (value :: stack)
  | unary op, a :: stack => (a.foldUnary op).toOption.map (· :: stack)
  | binary op, b :: a :: stack => (a.foldBinary op b).toOption.map (· :: stack)
  | convert _ _, a :: stack => a.toReal?.map (· :: stack)
  | _, _ => none

/-- Carries out instructions one after the other. -/
def execute : List Instruction → List Constant → Option (List Constant)
  | [], stack => some stack
  | i :: rest, stack => (i.step? stack).bind (execute rest)

theorem execute_append (is js : List Instruction) (stack : List Constant) :
    execute (is ++ js) stack = (execute is stack).bind (execute js) := by
  induction is generalizing stack with
  | nil => rfl
  | cons i is ih =>
    show (i.step? stack).bind (execute (is ++ js)) = ((i.step? stack).bind (execute is)).bind _
    rw [Option.bind_assoc]
    congr 1
    funext rest
    exact ih rest

theorem execute_snoc (is : List Instruction) (i : Instruction) (stack : List Constant) :
    execute (is ++ [i]) stack = (execute is stack).bind i.step? := by
  rw [execute_append]
  congr 1
  funext rest
  show (i.step? rest).bind (execute []) = i.step? rest
  cases i.step? rest <;> rfl

namespace Code

/-- Behind `c` stand in `d` the instructions `more`. -/
structure Appends (c d : Code) (more : List Instruction) : Prop where
  defined : d.entryDefined = c.entryDefined
  instructions : d.instructions.toList = c.instructions.toList ++ more

variable {c d e : Code} {more rest : List Instruction} {a b r : Constant}

theorem Appends.trans (h : c.Appends d more) (h' : d.Appends e rest) :
    c.Appends e (more ++ rest) where
  defined := h'.defined.trans h.defined
  instructions := by rw [h'.instructions, h.instructions, List.append_assoc]

theorem appends_emit (c : Code) (i : Instruction) : c.Appends (c.emit i) [i] :=
  ⟨rfl, Array.toList_push⟩

/-- The code behind `c` in `d` leaves the constant `a` on top of any stack. -/
def Computes (c d : Code) (a : Constant) : Prop :=
  ∃ more, c.Appends d more ∧ ∀ stack, execute more stack = some (a :: stack)

theorem computes_push (c : Code) (a : Constant) : c.Computes (c.emit (.push a)) a :=
  ⟨[.push a], appends_emit c _, fun _ => rfl⟩

theorem Computes.convert (h : c.Computes d a) (hr : a.toReal? = some r) (source target : TypeId) :
    c.Computes (d.emit (.convert source target)) r := by
  obtain ⟨more, appends, run⟩ := h
  refine ⟨_, appends.trans (appends_emit d _), fun stack => ?_⟩
  rw [execute_snoc, run]
  show a.toReal?.map _ = _
  rw [hr]
  rfl

theorem Computes.unary {op : UnaryOperator} (h : c.Computes d a) (hr : a.foldUnary op = .ok r) :
    c.Computes (d.emit (.unary op)) r := by
  obtain ⟨more, appends, run⟩ := h
  refine ⟨_, appends.trans (appends_emit d _), fun stack => ?_⟩
  rw [execute_snoc, run]
  show (a.foldUnary op).toOption.map _ = _
  rw [hr]
  rfl

theorem Computes.binary {op : Operator} (h : c.Computes d a) (h' : d.Computes e b)
    (hr : a.foldBinary op b = .ok r) : c.Computes (e.emit (.binary op)) r := by
  obtain ⟨more, appends, run⟩ := h
  obtain ⟨rest, appends', run'⟩ := h'
  refine ⟨_, (appends.trans appends').trans (appends_emit e _), fun stack => ?_⟩
  -- The right operand lies on top of the left one.
  have both : execute (more ++ rest) stack = some (b :: a :: stack) := by
    rw [execute_append, run]
    exact run' (a :: stack)
  rw [execute_snoc, both]
  show (a.foldBinary op b).toOption.map _ = _
  rw [hr]
  rfl

end Code

end FrontEnd
