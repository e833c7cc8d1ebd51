import FrontEnd.Proofs.Layout
import FrontEnd.Proofs.Phrases

/-!
The bodies of the functions that have been declared. Each lies where its function starts, and goes on
up to the next function; what it does is judged by the types of any later session.
-/

namespace FrontEnd

namespace Code

variable {c d : Code} {more : List Instruction}

/-- The instructions stand in the code from the address `first` on. -/
def Holds (c : Code) (first : Nat) (code : List Instruction) : Prop :=
  ∀ (k : Nat) (i : Instruction), code[k]? = some i → c.instructions[first + k]? = some i

theorem Appends.holds (h : c.Appends d more) : d.Holds c.size more := by
  intro k i hi
  rw [← Array.getElem?_toList, h.instructions]
  have hs : c.instructions.toList.length = c.size := Array.length_toList
  rw [List.getElem?_append_right (by omega), hs, Nat.add_sub_cancel_left]
  exact hi

theorem Appends.size (h : c.Appends d more) : d.size = c.size + more.length := by
  have length := congrArg List.length h.instructions
  rw [List.length_append] at length
  exact length

end Code

/-- From `first` to `stop` there stand statements, and behind them the return that ends a body. -/
def TypeTable.Performs (t : TypeTable) (signature : Signature) (c : Code) (first stop : Nat) : Prop :=
  ∃ code, t.Phrases signature code ∧ c.Holds first (code ++ [.leave signature.parametersSize]) ∧
    stop = first + code.length + 1

/-- The return at the end of a body is emitted behind its statements. -/
theorem Code.Appends.performs {t : TypeTable} {signature : Signature} {c d : Code}
    {code : List Instruction} (h : c.Appends d code) (phrases : t.Phrases signature code) :
    t.Performs signature (d.emit (.leave signature.parametersSize)) c.size
      (d.emit (.leave signature.parametersSize)).size := by
  have whole := h.trans (Code.appends_emit d (.leave signature.parametersSize))
  refine ⟨code, phrases, whole.holds, ?_⟩
  rw [whole.size, List.length_append, List.length_singleton, Nat.add_assoc]

theorem TypeTable.Performs.retains {t : TypeTable} {signature : Signature} {c d : Code}
    {first stop : Nat} (h : t.Performs signature c first stop)
    (hc : ∀ (x : Nat) i, first ≤ x → x < stop → c.instructions[x]? = some i →
      d.instructions[x]? = some i) : t.Performs signature d first stop := by
  obtain ⟨code, phrases, holds, rfl⟩ := h
  refine ⟨code, phrases, fun k i hi => ?_, rfl⟩
  obtain ⟨bound, _⟩ := List.getElem?_eq_some_iff.1 hi
  rw [List.length_append, List.length_singleton] at bound
  exact hc _ i (by omega) (by omega) (holds k i hi)

namespace Session

variable {s t : Session} {f : Ident} {ends : Nat → Nat}

/-- The code from `first` to `stop` is the body of the function `f`, if its hidden parameter can be
told by its name. -/
def Performs (s : Session) (f : Ident) (first stop : Nat) : Prop :=
  ∃ signature result, s.types.kind f.type = .function signature ∧ s.Returns signature result ∧
    ∀ u, s.Fixes u → (result ≠ .void → u.types.ReservesName signature result) →
      u.types.Performs signature s.code first stop

theorem Performs.retains {first stop : Nat} (h : s.Performs f first stop) (g : s.Grows t)
    (x : s.Fixes t) (hc : ∀ (x : Nat) i, first ≤ x → x < stop → s.code.instructions[x]? = some i →
      t.code.instructions[x]? = some i) : t.Performs f first stop := by
  obtain ⟨signature, result, kind, returns, performs⟩ := h
  exact ⟨signature, result, g.signature kind, x.returns returns,
    fun u y reserves => (performs u (x.trans y) reserves).retains hc⟩

/-- The code of all functions, each of which has the body that was read for it. -/
structure Answers (s : Session) (ends : Nat → Nat) : Prop where
  segments : s.code.Segments s.idents.functions 1 s.code.size ends
  bodies : ∀ f ∈ s.idents.functions, ∀ a, f.payload = .function a none → s.Performs f a (ends a)

theorem Answers.same (h : s.Answers ends) (g : s.Grows t) (x : s.Fixes t)
    (hf : t.idents.functions = s.idents.functions) (hc : t.code = s.code) : t.Answers ends where
  segments := by
    rw [hf, hc]
    exact h.segments
  bodies f hm a ha := by
    rw [hf] at hm
    exact (h.bodies f hm a ha).retains g x fun _ _ _ _ hi => by rw [hc]; exact hi

/-- The bodies before stay where they are when the code of a function follows. -/
theorem Answers.snoc {next : Nat} (h : s.Answers ends) (g : s.Grows t) (x : s.Fixes t)
    (hf : t.idents.functions = s.idents.functions ++ [f])
    (segments : t.code.Segments (s.idents.functions ++ [f]) 1 t.code.size
      (Function.update ends s.code.size next))
    (old : ∀ x : Nat, x ≠ 0 → x < s.code.size →
      t.code.instructions[x]? = s.code.instructions[x]?)
    {r : Option Nat} (hp : f.payload = .function s.code.size r)
    (new : r = none → t.Performs f s.code.size next) :
    t.Answers (Function.update ends s.code.size next) where
  segments := by
    rw [hf]
    exact segments
  bodies f' hm a ha := by
    rw [hf] at hm
    rcases List.mem_append.1 hm with hm | hm
    · obtain ⟨first, nonempty, stop⟩ := h.segments.within f' hm a _ ha
      rw [Function.update_of_ne (by omega)]
      refine (h.bodies f' hm a ha).retains g x fun x i hx hx' hi => ?_
      rw [old x (by omega) (by omega)]
      exact hi
    · rw [List.mem_singleton.1 hm] at ha ⊢
      have same := hp.symm.trans ha
      injection same with here none
      subst here
      rw [Function.update_self]
      exact new none

/-- A function without a body reserves an instruction. -/
theorem Answers.reserve (h : s.Answers ends) (g : s.Grows t) (x : s.Fixes t) (hs : 0 < s.code.size)
    (hf : t.idents.functions = s.idents.functions ++ [f]) (hc : t.code = s.code.emit .nop)
    (hp : f.payload = .function s.code.size (some s.code.size)) : ∃ ends, t.Answers ends := by
  have segments := h.segments.reserve hs hp
  rw [← Code.size_emit s.code .nop, ← hc] at segments
  refine ⟨_, h.snoc g x hf segments (fun a _ ha => ?_) hp nofun⟩
  rw [hc, Code.getElem?_emit, if_neg (Nat.ne_of_lt ha)]

/-- A function with a body has its code behind that of the others. -/
theorem Answers.compile {entry : Bool} (h : s.Answers ends) (g : s.Grows t) (x : s.Fixes t)
    (hs : 0 < s.code.size) (hf : t.idents.functions = s.idents.functions ++ [f])
    (hp : f.payload = .function s.code.size none) (hc : s.code.Compiles entry t.code)
    (performs : t.Performs f s.code.size t.code.size) : ∃ ends, t.Answers ends :=
  ⟨_, h.snoc g x hf (h.segments.compile hs hp hc) hc.others hp fun _ => performs⟩

end Session

end FrontEnd
