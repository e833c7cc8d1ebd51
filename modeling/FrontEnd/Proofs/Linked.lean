import FrontEnd.Proofs.Rewriting
import Mathlib

/-!
The code of a program that has been compiled: where it starts, where the code of each function lies,
and how prototypes lead to host functions.
-/

namespace FrontEnd

open Session

/-- Segments belong to the functions one after another. -/
theorem Code.Segments.ordered_of_lt {c : Code} {s : Session} {first stop : Nat} {ends : Nat → Nat}
    (h : c.Segments s.idents.functions first stop ends) {id id' : IdentId} {f g : Ident}
    (hf : s.idents.get? id = some f) (hg : s.idents.get? id' = some g) (hlt : id.index < id'.index)
    (kf : f.kind = .function) (kg : g.kind = .function) {a b : Nat} {r r' : Option Nat}
    (pf : f.payload = .function a r) (pg : g.payload = .function b r') : ends a ≤ b := by
  have ordered := h.ordered
  rw [IdentTable.functions, List.pairwise_filter, List.pairwise_iff_getElem] at ordered
  rw [← IdentTable.getElem?_toList] at hf hg
  obtain ⟨bf, ef⟩ := List.getElem?_eq_some_iff.1 hf
  obtain ⟨bg, eg⟩ := List.getElem?_eq_some_iff.1 hg
  have pair := ordered id.index id'.index bf bg hlt
  rw [ef, eg] at pair
  exact pair (decide_eq_true kf) (decide_eq_true kg) a r b r' pf pg

namespace Session

/-- The code of functions with a body lies from their entry `a` to `ends a`, that of a prototype is
the reserved instruction. It fills the addresses from 1 to `stop`; behind it there are only calls of
host functions, each with its return. -/
structure Fills (s : Session) (ends : Nat → Nat) (stop : Nat) : Prop where
  bodies : ∀ id i, s.idents.get? id = some i → ∀ a, i.payload = .function a none →
    s.code.Body a (ends a)
  slots : ∀ id i, s.idents.get? id = some i → ∀ a slot, i.payload = .function a (some slot) →
    slot = a ∧ ends a = a + 1
  disjoint : ∀ id id' i i', s.idents.get? id = some i → s.idents.get? id' = some i' → id ≠ id' →
    ∀ a a' r r', i.payload = .function a r → i'.payload = .function a' r' →
      Disjoint (Set.Ico a (ends a)) (Set.Ico a' (ends a'))
  covered : ∀ x, 1 ≤ x → x < stop → ∃ id i, s.idents.get? id = some i ∧
    ∃ a r, i.payload = .function a r ∧ x ∈ Set.Ico a (ends a)
  calls : ∀ (x : Nat) i, stop ≤ x → s.code.instructions[x]? = some i →
    (∃ name, i = .callHost name) ∨ ∃ size, i = .leave size

/-- The code of a program that has been linked. -/
structure IsProgram (setup : Setup) (s : Session) : Prop where
  entry : ∃ id i a, s.idents.get? id = some i ∧ i.kind = .function ∧
    i.payload = .function a none ∧ s.IsEntry setup.settings i ∧
    s.code.instructions[0]? = some (.goto a)
  prototypes : ∀ id i, s.idents.get? id = some i → ∀ slot ∈ i.reserved?,
    s.IsLinked setup.hosts i slot
  complete : ∀ x : Nat, s.code.instructions[x]? ≠ some .nop
  jumps : ∀ x target : Nat, s.code.instructions[x]? = some (.goto target) → target < s.code.size
  distinct : ∀ id id' i i', s.idents.get? id = some i → s.idents.get? id' = some i' →
    ∀ a r r', i.payload = .function a r → i'.payload = .function a r' → id = id'
  segments : ∃ ends stop, s.Fills ends stop

variable {setup : Setup} {settings : Settings} {hosts : Hosts} {s t : Session} {stop : Nat}
  {ends : Nat → Nat}

/-- Only a function has code. -/
theorem Valid.kind_of_payload (h : s.Valid ∅) {id : IdentId} {i : Ident}
    (hi : s.idents.get? id = some i) {a : Nat} {r : Option Nat} (hp : i.payload = .function a r) :
    i.kind = .function := by
  have carries := (h.idents id i hi).carries
  unfold Ident.Carries at carries
  rw [hp] at carries
  cases hk : i.kind with
  | function => rfl
  | _ => rw [hk] at carries; exact carries.elim

theorem Linking.fills (h : Linking hosts s [] t) (ht : t.Valid ∅)
    (segments : s.code.Segments s.idents.functions 1 s.code.size ends) :
    t.Fills ends s.code.size := by
  rw [← h.idents] at segments
  have segments := segments.retains h.retains
  have function (id : IdentId) (i : Ident) (hi : t.idents.get? id = some i) (a : Nat)
      (r : Option Nat) (hp : i.payload = .function a r) : i ∈ t.idents.functions :=
    IdentTable.mem_functions.2 ⟨ht.kind_of_payload hi hp, id, hi⟩
  have apart (id id' : IdentId) (i i' : Ident) (hi : t.idents.get? id = some i)
      (hi' : t.idents.get? id' = some i') (hlt : id.index < id'.index) (a a' : Nat)
      (r r' : Option Nat) (hp : i.payload = .function a r) (hp' : i'.payload = .function a' r') :
      Disjoint (Set.Ico a (ends a)) (Set.Ico a' (ends a')) := by
    have hle := segments.ordered_of_lt hi hi' hlt (ht.kind_of_payload hi hp)
      (ht.kind_of_payload hi' hp') hp hp'
    rw [Set.disjoint_left]
    rintro x ⟨_, hx⟩ ⟨hx', _⟩
    omega
  refine ⟨?_, ?_, ?_, ?_, h.calls⟩
  · intro id i hi a hp
    exact segments.bodies i (function id i hi a _ hp) a hp
  · intro id i hi a slot hp
    exact segments.reserved i (function id i hi a _ hp) a slot hp
  · intro id id' i i' hi hi' hne a a' r r' hp hp'
    rcases Nat.lt_or_gt_of_ne fun he => hne (IdentId.ext he) with hlt | hgt
    · exact apart id id' i i' hi hi' hlt a a' r r' hp hp'
    · exact (apart id' id i' i hi' hi hgt a' a r' r hp' hp).symm
  · intro x hx hx'
    obtain ⟨i, hm, a, r, hp, hle, hlt⟩ := segments.covered x hx hx'
    obtain ⟨_, id, hi⟩ := IdentTable.mem_functions.1 hm
    exact ⟨id, i, hi, a, r, hp, hle, hlt⟩

/-- The code of a function is not empty. -/
theorem Fills.lt (h : t.Fills ends stop) {id : IdentId} {i : Ident}
    (hi : t.idents.get? id = some i) {a : Nat} {r : Option Nat} (hp : i.payload = .function a r) :
    a < ends a := by
  cases r with
  | none => exact (h.bodies id i hi a hp).nonempty
  | some slot =>
    have he := (h.slots id i hi a slot hp).2
    omega

/-- What stands in the code of a linked program. -/
theorem Fills.plain_or_jump (h : t.Fills ends stop) {a : Nat}
    (entry : t.code.instructions[0]? = some (.goto a)) (known : a < t.code.size)
    (prototypes : ∀ id i, t.idents.get? id = some i → ∀ slot ∈ i.reserved?, t.IsLinked hosts i slot)
    {x : Nat} {i : Instruction} (hx : t.code.instructions[x]? = some i) :
    i.isPlain = true ∨ (∃ name, i = .callHost name) ∨
      ∃ target, i = .goto target ∧ target < t.code.size := by
  by_cases h0 : x = 0
  · rw [h0, entry] at hx
    exact .inr (.inr ⟨a, (Option.some_inj.1 hx).symm, known⟩)
  by_cases hs : x < stop
  · obtain ⟨id, f, hf, b, r, hp, hle, hlt⟩ := h.covered x (by omega) hs
    cases r with
    | none =>
      obtain ⟨j, hj, plain⟩ := (h.bodies id f hf b hp).plain x hle hlt
      rw [hx] at hj
      cases hj
      exact .inl plain
    | some slot =>
      obtain ⟨rfl, he⟩ := h.slots id f hf b slot hp
      have hr : f.reserved? = some slot := by rw [Ident.reserved?, hp]
      obtain ⟨_, _, stub, _, _, _, hg, hc, _⟩ := prototypes id f hf slot hr
      have hxs : x = slot := by omega
      rw [hxs, hg] at hx
      exact .inr (.inr ⟨stub, (Option.some_inj.1 hx).symm, Code.getElem?_lt hc⟩)
  · rcases h.calls x i (by omega) hx with call | ⟨size, rfl⟩
    · exact .inr (.inl call)
    · exact .inl rfl

theorem Linking.isProgram (h : Linking setup.hosts s [] t) (ht : t.Valid ∅)
    (hl : s.Laid setup.settings) (hd : s.code.entryDefined = true) (g : s.Grows t) :
    t.IsProgram setup := by
  obtain ⟨ends, segments⟩ := hl.segments
  have fills := h.fills ht segments
  obtain ⟨f, hf, a, hp, entry, jump⟩ := hl.entry hd
  obtain ⟨kind, id, hi⟩ := IdentTable.mem_functions.1 hf
  have jump := h.retains 0 _ jump (by rintro ⟨⟩)
  rw [← h.idents] at hi
  have prototypes (id : IdentId) (i : Ident) (hi : t.idents.get? id = some i) (slot : Nat)
      (hr : slot ∈ i.reserved?) : t.IsLinked setup.hosts i slot := by
    obtain ⟨done, split_, linked⟩ := h.linked
    rw [List.append_nil] at split_
    have mem := IdentTable.mem_toList.2 ⟨id, hi⟩
    rw [h.idents, split_] at mem
    exact linked i mem slot hr
  -- The entry function has code, and behind that of all functions nothing is missing.
  have known : a < t.code.size := by
    obtain ⟨j, hj, _⟩ := (fills.bodies id f hi a hp).plain a (Nat.le_refl a) (fills.lt hi hp)
    exact Code.getElem?_lt hj
  refine ⟨⟨id, f, a, hi, kind, hp, entry.grows g, jump⟩, prototypes, ?_, ?_, ?_, ends, _, fills⟩
  · intro x hx
    rcases fills.plain_or_jump jump known prototypes hx with hi | ⟨_, hi⟩ | ⟨_, hi, _⟩ <;> cases hi
  · intro x target hx
    rcases fills.plain_or_jump jump known prototypes hx with hi | ⟨_, hi⟩ | ⟨_, hi, bound⟩
    · cases hi
    · cases hi
    · cases hi
      exact bound
  · intro id id' i i' hi hi' b r r' hp hp'
    by_contra hne
    have apart := fills.disjoint id id' i i' hi hi' hne b b r r' hp hp'
    exact Set.disjoint_left.1 apart ⟨Nat.le_refl b, fills.lt hi hp⟩
      ⟨Nat.le_refl b, fills.lt hi' hp'⟩

end Session

/-- In a compilation that succeeds each reserved instruction is replaced exactly once. -/
theorem existsUnique_rewritten_history {setup : Setup} {root : String} {s : Session}
    (h : compile setup root = .ok s) (hp : s.IsProgram setup) {a : Nat} (ha : s.Reserves a) :
    ∃! n, Rewritten a (history setup root) n := by
  have jump : ∃ target, s.code.instructions[a]? = some (.goto target) := by
    rcases ha with rfl | ⟨id, i, hi, hr⟩
    · obtain ⟨_, _, entry, _, _, _, _, jump⟩ := hp.entry
      exact ⟨entry, jump⟩
    · obtain ⟨_, _, stub, _, _, _, jump, _⟩ := hp.prototypes id i hi a hr
      exact ⟨stub, jump⟩
  obtain ⟨target, jump⟩ := jump
  exact existsUnique_rewritten (isChain_history setup root) (by rintro _ ⟨⟩)
    (getLast?_history_of_compile h) jump

/-- A program that compiles starts with its entry function, its prototypes are linked, and each
function has code of its own; on the way there, each instruction that was reserved for the entry
function or a prototype has been replaced once, and no other instruction ever. -/
theorem compile_code {setup : Setup} {root : String} {s : Session}
    (h : compile setup root = .ok s) :
    s.IsProgram setup ∧
      (history setup root).IsChain Session.Amends ∧
      ∀ a, s.Reserves a → ∃! n, Rewritten a (history setup root) n := by
  obtain ⟨u, arranged, defined, g, linking⟩ := (compiled_of_compile h).read
  have valid : s.Valid ∅ := valid_of_mem_history
    (List.mem_of_getLast? (getLast?_history_of_compile h))
  have program := linking.isProgram valid arranged.laid defined g
  refine ⟨program, ?_, fun a ha => existsUnique_rewritten_history h program ha⟩
  exact (isChain_history setup root).imp fun s t change => change.amends

/-- A program with a prototype and an entry function that does nothing. -/
def silentProgram : Setup where
  settings := .standard
  sources := ⟨fun _ => .ok "fn beep(pitch: int): bool\nfn main() \x7b\x7d\n"⟩
  hosts := ⟨[⟨"beep", 1, "sounds a tone"⟩]⟩

theorem silentProgram_code : ∃ s, compile silentProgram "main.um" = .ok s ∧
    s.IsProgram silentProgram ∧ (history silentProgram "main.um").IsChain Session.Amends ∧
    ∀ a, s.Reserves a → ∃! n, Rewritten a (history silentProgram "main.um") n := by
  have compiles : (compile silentProgram "main.um").isOk = true := by decide +kernel
  cases h : compile silentProgram "main.um" with
  | ok s => exact ⟨s, rfl, compile_code h⟩
  | error d =>
    rw [h] at compiles
    cases compiles

end FrontEnd
