import FrontEnd.Proofs.Primitives

/-!
How code is laid out. The first instruction belongs to the entry function, and behind it stands the
code of the functions in the order of their declaration. A function without a body has reserved one
instruction.
-/

namespace FrontEnd

namespace Code

variable {c d e : Code} {fs : List Ident} {first stop next : Nat} {ends : Nat → Nat}

/-- Instructions stay, except for those that reserve a place. -/
def Retains (c d : Code) : Prop :=
  ∀ (a : Nat) (i : Instruction), c.instructions[a]? = some i → i ≠ .nop →
    d.instructions[a]? = some i

theorem Retains.trans (h : c.Retains d) (h' : d.Retains e) : c.Retains e :=
  fun a i hi hn => h' a i (h a i hi hn) hn

theorem Extends.getElem? (h : c.Extends d) {a : Nat} (ha : a < c.size) :
    d.instructions[a]? = c.instructions[a]? := by
  obtain ⟨_, more, hm, _⟩ := h
  rw [← Array.getElem?_toList, ← Array.getElem?_toList, hm, List.getElem?_append_left ha]

theorem Extends.size_le (h : c.Extends d) : c.size ≤ d.size := by
  obtain ⟨_, more, hm, _⟩ := h
  have hl := congrArg List.length hm
  rw [List.length_append] at hl
  exact Nat.le.intro hl.symm

theorem Extends.plain (h : c.Extends d) {a : Nat} (hc : c.size ≤ a) (hd : a < d.size) :
    ∃ i, d.instructions[a]? = some i ∧ i.isPlain = true := by
  obtain ⟨_, more, hm, hp⟩ := h
  obtain ⟨i, hi⟩ : ∃ i, d.instructions[a]? = some i := ⟨_, Array.getElem?_eq_getElem hd⟩
  have hi' := hi
  rw [← Array.getElem?_toList, hm, List.getElem?_append_right hc] at hi'
  exact ⟨i, hi, hp i (List.mem_of_getElem? hi')⟩

theorem getElem?_emit (c : Code) (i : Instruction) (a : Nat) :
    (c.emit i).instructions[a]? = if a = c.size then some i else c.instructions[a]? := by
  unfold emit size
  rw [Array.getElem?_push]

theorem size_emit (c : Code) (i : Instruction) : (c.emit i).size = c.size + 1 :=
  Array.size_push _

theorem getElem?_lt {a : Nat} {i : Instruction} (h : c.instructions[a]? = some i) : a < c.size := by
  obtain ⟨ha, _⟩ := Array.getElem?_eq_some_iff.1 h
  exact ha

theorem retains_emit (c : Code) (i : Instruction) : c.Retains (c.emit i) := by
  intro a j hj _
  rw [getElem?_emit, if_neg (Nat.ne_of_lt (getElem?_lt hj))]
  exact hj

/-! ### Segments -/

/-- The code of a body: plain instructions, the last of which returns. -/
structure Body (c : Code) (first stop : Nat) : Prop where
  nonempty : first < stop
  plain : ∀ a, first ≤ a → a < stop → ∃ i, c.instructions[a]? = some i ∧ i.isPlain = true
  returns : ∃ size, c.instructions[stop - 1]? = some (.leave size)

theorem Body.retains (h : c.Body first stop) (hr : c.Retains d) : d.Body first stop where
  nonempty := h.nonempty
  plain a ha ha' := by
    obtain ⟨i, hi, hp⟩ := h.plain a ha ha'
    exact ⟨i, hr a i hi (by rintro rfl; cases hp), hp⟩
  returns := by
    obtain ⟨size, hs⟩ := h.returns
    exact ⟨size, hr _ _ hs nofun⟩

/-- The code of the functions `fs` fills the addresses from `first` to `stop`. What starts at `a`
goes to `ends a`. -/
structure Segments (c : Code) (fs : List Ident) (first stop : Nat) (ends : Nat → Nat) : Prop where
  bodies : ∀ f ∈ fs, ∀ a, f.payload = .function a none → c.Body a (ends a)
  reserved : ∀ f ∈ fs, ∀ a b, f.payload = .function a (some b) → b = a ∧ ends a = a + 1
  within : ∀ f ∈ fs, ∀ a r, f.payload = .function a r →
    first ≤ a ∧ a < ends a ∧ ends a ≤ stop
  ordered : fs.Pairwise fun f g => ∀ a r b r', f.payload = .function a r →
    g.payload = .function b r' → ends a ≤ b
  covered : ∀ x, first ≤ x → x < stop →
    ∃ f ∈ fs, ∃ a r, f.payload = .function a r ∧ a ≤ x ∧ x < ends a

theorem segments_nil (c : Code) (first : Nat) (ends : Nat → Nat) :
    c.Segments [] first first ends where
  bodies _ hf := absurd hf List.not_mem_nil
  reserved _ hf := absurd hf List.not_mem_nil
  within _ hf := absurd hf List.not_mem_nil
  ordered := .nil
  covered _ hx hx' := absurd hx (Nat.not_le_of_lt hx')

theorem Segments.retains (h : c.Segments fs first stop ends) (hr : c.Retains d) :
    d.Segments fs first stop ends :=
  { h with bodies := fun f hf a ha => (h.bodies f hf a ha).retains hr }

/-- The code of another function follows. -/
theorem Segments.snoc (h : c.Segments fs first stop ends) (hf : first ≤ stop) (hn : stop < next)
    {f : Ident} {r : Option Nat} (hp : f.payload = .function stop r)
    (hb : r = none → c.Body stop next) (hr : ∀ b ∈ r, b = stop ∧ next = stop + 1) :
    c.Segments (fs ++ [f]) first next (Function.update ends stop next) := by
  have old (g : Ident) (hg : g ∈ fs) (a : Nat) (r' : Option Nat)
      (ha : g.payload = .function a r') : Function.update ends stop next a = ends a := by
    have hw := h.within g hg a r' ha
    have hne : a ≠ stop := by omega
    exact Function.update_of_ne hne next ends
  have new : Function.update ends stop next stop = next := Function.update_self stop next ends
  refine ⟨?_, ?_, ?_, ?_, ?_⟩
  · intro g hg a ha
    rcases List.mem_append.1 hg with hg | hg
    · rw [old g hg a _ ha]
      exact h.bodies g hg a ha
    · rw [List.mem_singleton.1 hg, hp] at ha
      cases ha
      rw [new]
      exact hb rfl
  · intro g hg a b ha
    rcases List.mem_append.1 hg with hg | hg
    · rw [old g hg a _ ha]
      exact h.reserved g hg a b ha
    · rw [List.mem_singleton.1 hg, hp] at ha
      cases ha
      rw [new]
      exact hr b rfl
  · intro g hg a r' ha
    rcases List.mem_append.1 hg with hg | hg
    · rw [old g hg a _ ha]
      have hw := h.within g hg a r' ha
      omega
    · rw [List.mem_singleton.1 hg, hp] at ha
      cases ha
      rw [new]
      omega
  · refine List.pairwise_append.2 ⟨?_, List.pairwise_singleton _ f, ?_⟩
    · refine h.ordered.imp_of_mem fun {g g'} hg _ hl a r₁ b r₂ ha hb => ?_
      rw [old g hg a r₁ ha]
      exact hl a r₁ b r₂ ha hb
    · intro g hg g' hg' a r₁ b r₂ ha hb
      rw [List.mem_singleton.1 hg', hp] at hb
      cases hb
      rw [old g hg a r₁ ha]
      exact (h.within g hg a r₁ ha).2.2
  · intro x hx hx'
    by_cases hs : x < stop
    · obtain ⟨g, hg, a, r', ha, hle, hlt⟩ := h.covered x hx hs
      refine ⟨g, List.mem_append_left _ hg, a, r', ha, hle, ?_⟩
      rw [old g hg a r' ha]
      exact hlt
    · refine ⟨f, List.mem_append_right _ (List.mem_singleton_self f), stop, r, hp, by omega, ?_⟩
      rw [new]
      exact hx'

/-! ### Bodies -/

/-- The first instruction of `d` is the jump to the next address of `c`, if `entry` says so; all
other instructions are those of `c`. -/
structure Prepares (entry : Bool) (c d : Code) : Prop where
  size : d.size = c.size
  others : ∀ a, a ≠ 0 → d.instructions[a]? = c.instructions[a]?
  first : d.instructions[0]? = if entry then some (.goto c.size) else c.instructions[0]?
  defined : d.entryDefined = (c.entryDefined || entry)

theorem prepares_false (c : Code) : c.Prepares false c where
  size := rfl
  others _ _ := rfl
  first := rfl
  defined := (Bool.or_false _).symm

/-- The code of a function is made: a body behind `c`, and the jump to it where `entry` says so. -/
structure Compiles (entry : Bool) (c d : Code) : Prop where
  size : c.size ≤ d.size
  others : ∀ a, a ≠ 0 → a < c.size → d.instructions[a]? = c.instructions[a]?
  first : d.instructions[0]? = if entry then some (.goto c.size) else c.instructions[0]?
  defined : d.entryDefined = (c.entryDefined || entry)
  body : d.Body c.size d.size

theorem Prepares.compiles {entry : Bool} {size : Int64} (h : c.Prepares entry d) (hc : 0 < c.size)
    (he : d.Extends e) : c.Compiles entry (e.emit (.leave size)) := by
  have hs := he.size_le
  rw [h.size] at hs
  have old (a : Nat) (ha : a < c.size) :
      (e.emit (.leave size)).instructions[a]? = d.instructions[a]? := by
    rw [getElem?_emit, if_neg (by omega), he.getElem? (by rw [h.size]; exact ha)]
  refine ⟨?_, fun a ha hlt => ?_, ?_, ?_, ⟨?_, fun a ha ha' => ?_, size, ?_⟩⟩
  · rw [size_emit]
    omega
  · rw [old a hlt, h.others a ha]
  · rw [old 0 hc, h.first]
  · exact he.1.trans h.defined
  · rw [size_emit]
    omega
  · rw [size_emit] at ha'
    rw [getElem?_emit]
    split
    · exact ⟨_, rfl, rfl⟩
    · exact he.plain (by rw [h.size]; exact ha) (by omega)
  · rw [size_emit, Nat.add_sub_cancel, getElem?_emit, if_pos rfl]

theorem Segments.reserve {f : Ident} (h : c.Segments fs 1 c.size ends) (hc : 0 < c.size)
    (hp : f.payload = .function c.size (some c.size)) :
    (c.emit .nop).Segments (fs ++ [f]) 1 (c.size + 1) (Function.update ends c.size (c.size + 1)) :=
  (h.retains (retains_emit c .nop)).snoc hc (Nat.lt_succ_self _) hp nofun
    fun _ hb => ⟨(Option.some_inj.1 hb).symm, rfl⟩

theorem Segments.compile {entry : Bool} {f : Ident} (h : c.Segments fs 1 c.size ends)
    (hc : 0 < c.size) (hp : f.payload = .function c.size none) (hd : c.Compiles entry d) :
    d.Segments (fs ++ [f]) 1 d.size (Function.update ends c.size d.size) := by
  have old : d.Segments fs 1 c.size ends := by
    refine { h with bodies := fun g hg a ha => ?_ }
    have hw := h.within g hg a _ ha
    obtain ⟨nonempty, plain, size, hr⟩ := h.bodies g hg a ha
    refine ⟨nonempty, fun x hx hx' => ?_, size, ?_⟩
    · rw [hd.others x (by omega) (by omega)]
      exact plain x hx hx'
    · rw [hd.others _ (by omega) (by omega)]
      exact hr
  exact old.snoc hc hd.body.nonempty hp (fun _ => hd.body) nofun

end Code

namespace Session

/-- The function that a program starts with. -/
structure IsEntry (settings : Settings) (s : Session) (i : Ident) : Prop where
  key : i.key = (.root, .moduleScope, none, settings.entryFunction)
  signature : ∃ signature, s.types.kind i.type = .function signature ∧
    signature.parameters = [] ∧ signature.result? = some .void

/-- All code belongs to the functions that have been declared. No prototype has been linked, and the
first instruction is a jump as soon as the entry function has a body. -/
structure Laid (settings : Settings) (s : Session) : Prop where
  first : 0 < s.code.size
  segments : ∃ ends, s.code.Segments s.idents.functions 1 s.code.size ends
  slots : ∀ f ∈ s.idents.functions, ∀ a ∈ f.reserved?, s.code.instructions[a]? = some .nop
  stub : s.code.entryDefined = false → s.code.instructions[0]? = some .nop
  entry : s.code.entryDefined = true → ∃ f ∈ s.idents.functions, ∃ a,
    f.payload = .function a none ∧ s.IsEntry settings f ∧ s.code.instructions[0]? = some (.goto a)

variable {settings : Settings} {s t : Session} {f : Ident}

theorem IsEntry.grows (h : s.IsEntry settings f) (g : s.Grows t) : t.IsEntry settings f :=
  { h with
    signature := h.signature.imp fun _ hs => ⟨g.signature hs.1, hs.2⟩ }

theorem Laid.same (h : s.Laid settings) (g : s.Grows t)
    (hf : t.idents.functions = s.idents.functions) (hc : t.code = s.code) : t.Laid settings := by
  obtain ⟨first, segments, slots, stub, entry⟩ := h
  refine ⟨hc ▸ first, ?_, ?_, hc ▸ stub, fun hd => ?_⟩
  · rw [hf, hc]
    exact segments
  · rw [hf, hc]
    exact slots
  · rw [hc] at hd
    obtain ⟨f, hm, a, ha, he, hi⟩ := entry hd
    rw [hf, hc]
    exact ⟨f, hm, a, ha, he.grows g, hi⟩

/-- The entry function has no body yet if its name is free. -/
theorem Laid.unentered (h : s.Laid settings)
    (fresh : ∀ id i, s.idents.get? id = some i →
      i.key ≠ (.root, .moduleScope, none, settings.entryFunction)) :
    s.code.entryDefined = false := by
  cases hd : s.code.entryDefined with
  | false => rfl
  | true =>
    obtain ⟨f, hm, _, _, he, _⟩ := h.entry hd
    obtain ⟨_, id, hi⟩ := IdentTable.mem_functions.1 hm
    exact absurd he.key (fresh id f hi)

theorem Laid.slot_lt (h : s.Laid settings) (hf : f ∈ s.idents.functions) {a : Nat}
    (ha : a ∈ f.reserved?) : 0 < a ∧ a < s.code.size := by
  obtain ⟨ends, hs⟩ := h.segments
  have hr : f.reserved? = some a := ha
  unfold Ident.reserved? at hr
  split at hr
  · rename_i b r hp
    cases hr
    obtain ⟨rfl, _⟩ := hs.reserved f hf b a hp
    have hw := hs.within f hf a _ hp
    omega
  · cases hr

/-- A function without a body reserves an instruction. -/
theorem Laid.reserve (h : s.Laid settings) (g : s.Grows t)
    (hf : t.idents.functions = s.idents.functions ++ [f]) (hc : t.code = s.code.emit .nop)
    (hp : f.payload = .function s.code.size (some s.code.size)) : t.Laid settings := by
  have old (a : Nat) (ha : a < s.code.size) :
      t.code.instructions[a]? = s.code.instructions[a]? := by
    rw [hc, Code.getElem?_emit, if_neg (Nat.ne_of_lt ha)]
  have size : t.code.size = s.code.size + 1 := by rw [hc, Code.size_emit]
  have defined : t.code.entryDefined = s.code.entryDefined := by rw [hc]; rfl
  refine ⟨by omega, ?_, fun f' hm a ha => ?_, fun hd => ?_, fun hd => ?_⟩
  · obtain ⟨ends, hs⟩ := h.segments
    rw [hf, size, hc]
    exact ⟨_, hs.reserve h.first hp⟩
  · rw [hf] at hm
    rcases List.mem_append.1 hm with hm | hm
    · rw [old a (h.slot_lt hm ha).2]
      exact h.slots f' hm a ha
    · have hr : f'.reserved? = some s.code.size := by
        rw [List.mem_singleton.1 hm, Ident.reserved?, hp]
      cases hr.symm.trans ha
      rw [hc, Code.getElem?_emit, if_pos rfl]
  · rw [old 0 h.first]
    exact h.stub (defined.symm.trans hd)
  · obtain ⟨f', hm, a, ha, he, hi⟩ := h.entry (defined.symm.trans hd)
    rw [old 0 h.first, hf]
    exact ⟨f', List.mem_append_left _ hm, a, ha, he.grows g, hi⟩

/-- A function with a body has its code behind that of the others. -/
theorem Laid.compile {entry : Bool} (h : s.Laid settings) (g : s.Grows t)
    (hf : t.idents.functions = s.idents.functions ++ [f])
    (hp : f.payload = .function s.code.size none) (hc : s.code.Compiles entry t.code)
    (he : entry = true → s.code.entryDefined = false ∧ t.IsEntry settings f) : t.Laid settings := by
  have alone (hd : s.code.entryDefined = true) : entry = false := by
    cases entry with
    | false => rfl
    | true => rw [(he rfl).1] at hd; cases hd
  refine ⟨Nat.lt_of_lt_of_le h.first hc.size, ?_, fun f' hm a ha => ?_, fun hd => ?_, fun hd => ?_⟩
  · obtain ⟨ends, hs⟩ := h.segments
    rw [hf]
    exact ⟨_, hs.compile h.first hp hc⟩
  · rw [hf] at hm
    rcases List.mem_append.1 hm with hm | hm
    · obtain ⟨hpos, hlt⟩ := h.slot_lt hm ha
      rw [hc.others a (Nat.ne_of_gt hpos) hlt]
      exact h.slots f' hm a ha
    · have hr : f'.reserved? = none := by rw [List.mem_singleton.1 hm, Ident.reserved?, hp]
      rw [hr] at ha
      cases ha
  · rw [hc.defined, Bool.or_eq_false_iff] at hd
    rw [hc.first, hd.2]
    exact h.stub hd.1
  · rw [hf, hc.first]
    cases hs : s.code.entryDefined with
    | true =>
      obtain ⟨f', hm, a, ha, he', hi⟩ := h.entry hs
      rw [alone hs]
      exact ⟨f', List.mem_append_left _ hm, a, ha, he'.grows g, hi⟩
    | false =>
      rw [hc.defined, hs, Bool.false_or] at hd
      rw [hd]
      exact ⟨f, List.mem_append_right _ (List.mem_singleton_self f), _, hp, (he hd).2, rfl⟩

end Session

end FrontEnd
