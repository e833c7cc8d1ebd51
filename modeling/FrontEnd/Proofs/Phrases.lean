import FrontEnd.Proofs.Expression.Pushes
import FrontEnd.Proofs.Primitives
import FrontEnd.Proofs.Session.Result

/-!
The code of statements. Each statement finds the stack empty and leaves it empty: it stores a value
in a variable, or it returns. What a return statement hands over depends on the result type of the
function.
-/

namespace FrontEnd

namespace TypeTable

variable {t : TypeTable} {signature : Signature} {code more : List Instruction}

/-- The code leaves a value on the stack that can be assigned to a place of a type. -/
def Supplies (t : TypeTable) (target : TypeId) (code : List Instruction) : Prop :=
  ∃ type, t.Pushes code type ∧ t.compatible target type = true

/-- The code of a return statement in front of the return itself. -/
inductive Hands (t : TypeTable) (signature : Signature) : List Instruction → Prop
  | nothing (void : signature.result? = some .void) : Hands t signature []
  | value {result : TypeId} {code : List Instruction} (returns : signature.result? = some result)
      (value : result ≠ .void) (plain : t.isStructured result = false)
      (supplies : t.Supplies result code) : Hands t signature code
  | stored {result : TypeId} {parameter : Parameter} {code : List Instruction}
      (returns : signature.result? = some result) (hides : t.Hides signature parameter result)
      (supplies : t.Supplies result code) :
      Hands t signature
        ([.localAddress parameter.offset, .load parameter.type] ++ code ++ [.store result])

/-- The code of statements one after the other. -/
inductive Phrases (t : TypeTable) (signature : Signature) : List Instruction → Prop
  | nil : Phrases t signature []
  | assign {place : Storage} {target : TypeId} {code rest : List Instruction}
      (supplies : t.Supplies target code) (phrases : Phrases t signature rest) :
      Phrases t signature ([place.address] ++ code ++ [.store target] ++ rest)
  | declare {offset : Int64} {type : TypeId} {code rest : List Instruction}
      (pushes : t.Pushes code type) (phrases : Phrases t signature rest) :
      Phrases t signature (code ++ [.localAddress offset, .storeSwapped type] ++ rest)
  | returns {code rest : List Instruction} (hands : t.Hands signature code)
      (phrases : Phrases t signature rest) :
      Phrases t signature (code ++ [.leave signature.parametersSize] ++ rest)

theorem Phrases.append (h : t.Phrases signature code) (h' : t.Phrases signature more) :
    t.Phrases signature (code ++ more) := by
  induction h with
  | nil => exact h'
  | assign supplies _ ih =>
    rw [List.append_assoc]
    exact .assign supplies ih
  | declare pushes _ ih =>
    rw [List.append_assoc]
    exact .declare pushes ih
  | returns hands _ ih =>
    rw [List.append_assoc]
    exact .returns hands ih

end TypeTable

namespace Session

variable {s t u : Session} {signature : Signature}

/-- The function whose body is being read has the signature. -/
def Encloses (s : Session) (signature : Signature) : Prop :=
  ∃ id i, s.blocks.function? = some id ∧ s.idents.get? id = some i ∧
    s.types.kind i.type = .function signature

/-- The body of a function with the signature is being read, and its hidden parameter can be told by
its name. -/
structure InBody (s : Session) (signature : Signature) : Prop where
  encloses : s.Encloses signature
  returns : ∃ result, s.Returns signature result ∧
    (result ≠ .void → s.types.ReservesName signature result)

theorem Encloses.unique {signature' : Signature} (h : s.Encloses signature)
    (h' : s.Encloses signature') : signature = signature' := by
  obtain ⟨id, i, hf, hi, hk⟩ := h
  obtain ⟨id', i', hf', hi', hk'⟩ := h'
  cases hf.symm.trans hf'
  cases hi.symm.trans hi'
  cases hk.symm.trans hk'
  rfl

theorem Encloses.grows (h : s.Encloses signature) (g : s.Grows t)
    (hs : t.blocks.scope = s.blocks.scope) : t.Encloses signature := by
  obtain ⟨id, i, hf, hi, hk⟩ := h
  obtain ⟨j, hj, _, type⟩ := g.ident hi
  exact ⟨id, j, by rw [Blocks.function?_eq hs, hf], hj, by rw [type]; exact g.signature hk⟩

theorem Encloses.kind (h : s.Encloses signature) : ∃ id, s.types.kind id = .function signature := by
  obtain ⟨_, i, _, _, hk⟩ := h
  exact ⟨i.type, hk⟩

theorem Valid.settles_result (h : s.Valid ∅) {id result : TypeId}
    (hk : s.types.kind id = .function signature) (hr : signature.result? = some result) :
    s.Settles result := by
  have part : result ∈ (s.types.kind id).parts := by
    rw [hk]
    exact List.mem_append_right _ (List.mem_of_mem_head? hr)
  exact ⟨h.inUse_ref (TypeKind.mem_refs_of_mem_parts part), (h.kinds id).parts result part⟩

theorem InBody.fixes (h : s.InBody signature) (f : s.Fixes t) (encloses : t.Encloses signature) :
    t.InBody signature where
  encloses
  returns := by
    obtain ⟨result, returns, reserves⟩ := h.returns
    exact ⟨result, f.returns returns, fun hv => (f.reservesName returns.settles).2 (reserves hv)⟩

theorem InBody.evolves (h : s.InBody signature) {may : Set Part} (e : s.Evolves may t)
    (scope : t.blocks.scope = s.blocks.scope) : t.InBody signature :=
  h.fixes e.fixes (h.encloses.grows e.grows scope)

/-- Statements that do not return have been read since `s`. -/
def Assigns (s t : Session) : Prop :=
  s.Emits t fun types code => ∀ signature, types.Phrases signature code

theorem assigns_same (h : t.code = s.code) : s.Assigns t :=
  emits_nil h fun _ _ => .nil

theorem Assigns.trans (h : s.Assigns t) (f : t.Fixes u) (h' : t.Assigns u) : s.Assigns u :=
  h.append f h' fun _ _ _ p p' signature => (p signature).append (p' signature)

/-- What statements leave behind: the scopes as they were, and their code. -/
structure Continues (s : Session) {β : Type} (_ : β) (t : Session) : Prop where
  scope : t.blocks.scope = s.blocks.scope
  phrases : ∀ signature, s.InBody signature → s.Emits t (·.Phrases signature ·)

theorem continues_refl (s : Session) {β : Type} (v : β) : s.Continues v s :=
  ⟨rfl, fun _ _ => emits_nil rfl fun _ => .nil⟩

theorem Continues.trans {β γ : Type} {v : β} {w : γ} {may more : Set Part} (h : s.Continues v t)
    (e : s.Evolves may t) (h' : t.Continues w u) (e' : t.Evolves more u) : s.Continues w u where
  scope := h'.scope.trans h.scope
  phrases signature hb := (h.phrases signature hb).append e'.fixes
    (h'.phrases signature (hb.evolves e h.scope)) fun _ _ _ => .append

theorem Assigns.continues {β : Type} {v : β} (h : s.Assigns t)
    (scope : t.blocks.scope = s.blocks.scope) : s.Continues v t :=
  ⟨scope, fun signature _ => h.imp fun _ _ p => p signature⟩

end Session

end FrontEnd
