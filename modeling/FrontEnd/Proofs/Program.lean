import FrontEnd.Proofs.Import
import FrontEnd.Program

/-!
Whole programs. Linking gives every prototype its own call of a host function behind the code of all
functions, and leaves nothing reserved.
-/

namespace FrontEnd

namespace Code

/-- Links a prototype: behind the code stands a call of `name`, to which the reserved instruction
jumps. -/
def link (c : Code) (slot : Nat) (name : String) (size : Int64) : Code :=
  let called := (c.emit (.callHost name)).emit (.leave size)
  { called with instructions := called.instructions.setIfInBounds slot (.goto c.size) }

variable {c : Code} {slot : Nat} {name : String} {size : Int64}

theorem getElem?_link (h : slot < c.size) (a : Nat) :
    (c.link slot name size).instructions[a]? =
      if a = slot then some (.goto c.size)
      else if a = c.size then some (.callHost name)
      else if a = c.size + 1 then some (.leave size)
      else c.instructions[a]? := by
  unfold link
  have bound : slot < ((c.emit (.callHost name)).emit (.leave size)).instructions.size := by
    rw [← Code.size, size_emit, size_emit]
    omega
  dsimp only
  rw [Array.getElem?_setIfInBounds, getElem?_emit, getElem?_emit, size_emit, if_pos bound]
  by_cases hs : slot = a
  · rw [if_pos hs, if_pos hs.symm]
  · rw [if_neg hs, if_neg (Ne.symm hs)]
    by_cases hc : a = c.size
    · rw [if_neg (by omega), if_pos hc, if_pos hc]
    · rw [if_neg hc, if_neg hc]

theorem retains_link (h : c.instructions[slot]? = some .nop) :
    c.Retains (c.link slot name size) := by
  intro a i hi hn
  have hlt := getElem?_lt hi
  have hne : a ≠ slot := by
    rintro rfl
    rw [h] at hi
    exact hn (Option.some_inj.1 hi).symm
  rw [getElem?_link (getElem?_lt h), if_neg hne, if_neg (by omega), if_neg (by omega), hi]

end Code

namespace Session

/-- The instruction reserved for the prototype `f` jumps to a call of the host function of its name,
which takes as many arguments as `f` has parameters. -/
def IsLinked (hosts : Hosts) (s : Session) (f : Ident) (slot : Nat) : Prop :=
  ∃ signature host stub, s.types.kind f.type = .function signature ∧
    hosts.find? f.name = some host ∧ host.arity = signature.parameters.length ∧
    s.code.instructions[slot]? = some (.goto stub) ∧
    s.code.instructions[stub]? = some (.callHost f.name) ∧
    s.code.instructions[stub + 1]? = some (.leave signature.parametersSize)

variable {hosts : Hosts} {s t u : Session} {f : Ident} {slot : Nat}

theorem IsLinked.retains (h : s.IsLinked hosts f slot) (ht : t.types = s.types)
    (hr : s.code.Retains t.code) : t.IsLinked hosts f slot := by
  obtain ⟨signature, host, stub, hk, hh, ha, hg, hc, hl⟩ := h
  exact ⟨signature, host, stub, ht ▸ hk, hh, ha, hr _ _ hg nofun, hr _ _ hc nofun, hr _ _ hl nofun⟩

/-- What linking has done to `s` when it has come to the identifiers `rest`. -/
structure Linking (hosts : Hosts) (s : Session) (rest : List Ident) (t : Session) : Prop where
  types : t.types = s.types
  idents : t.idents = s.idents
  defined : t.code.entryDefined = s.code.entryDefined
  retains : s.code.Retains t.code
  calls : ∀ a i, s.code.size ≤ a → t.code.instructions[a]? = some i →
    (∃ name, i = .callHost name) ∨ ∃ size, i = .leave size
  waiting : ∀ f ∈ rest, ∀ a ∈ f.reserved?, t.code.instructions[a]? = some .nop
  linked : ∃ done, s.idents.toList = done ++ rest ∧
    ∀ f ∈ done, ∀ a ∈ f.reserved?, t.IsLinked hosts f a

/-- One prototype after another is linked. -/
theorem Linking.step {signature : Signature} {host : HostFunction}
    {rest : List Ident} (h : Linking hosts s (f :: rest) t)
    (hf : f.reserved? = some slot) (hs : slot < s.code.size)
    (other : ∀ g ∈ rest, ∀ a ∈ g.reserved?, a ≠ slot)
    (hk : t.types.kind f.type = .function signature) (hh : hosts.find? f.name = some host)
    (ha : host.arity = signature.parameters.length)
    (hu : u = { t with code := t.code.link slot f.name signature.parametersSize }) :
    Linking hosts s rest u := by
  have nop : t.code.instructions[slot]? = some .nop := h.waiting f List.mem_cons_self slot hf
  have slot_lt := Code.getElem?_lt nop
  have retains : t.code.Retains u.code := by rw [hu]; exact Code.retains_link nop
  have get (a : Nat) : u.code.instructions[a]? =
      if a = slot then some (.goto t.code.size)
      else if a = t.code.size then some (.callHost f.name)
      else if a = t.code.size + 1 then some (.leave signature.parametersSize)
      else t.code.instructions[a]? := by
    rw [hu]
    exact Code.getElem?_link slot_lt a
  refine ⟨?_, ?_, ?_, h.retains.trans retains, fun a i hle hi => ?_, fun g hg a ha => ?_, ?_⟩
  · rw [hu]
    exact h.types
  · rw [hu]
    exact h.idents
  · rw [hu]
    exact h.defined
  · rw [get, if_neg (by omega)] at hi
    split at hi
    · cases hi
      exact .inl ⟨_, rfl⟩
    · split at hi
      · cases hi
        exact .inr ⟨_, rfl⟩
      · exact h.calls a i hle hi
  · have waiting := h.waiting g (List.mem_cons_of_mem f hg) a ha
    have hlt := Code.getElem?_lt waiting
    rw [get, if_neg (other g hg a ha), if_neg (by omega), if_neg (by omega)]
    exact waiting
  · obtain ⟨done, split, linked⟩ := h.linked
    refine ⟨done ++ [f], by rw [List.append_assoc]; exact split, fun g hg a hr => ?_⟩
    rcases List.mem_append.1 hg with hg | hg
    · exact (linked g hg a hr).retains (by rw [hu]) retains
    · rw [List.mem_singleton.1 hg] at hr ⊢
      cases hf.symm.trans hr
      refine ⟨signature, host, t.code.size, ?_, hh, ha, ?_, ?_, ?_⟩
      · rw [hu]
        exact hk
      · rw [get, if_pos rfl]
      · rw [get, if_neg (by omega), if_pos rfl]
      · rw [get, if_neg (by omega), if_neg (by omega), if_pos rfl]

end Session

namespace Action

open Session

variable {setup : Setup} {s : Session} {f : Ident} {slot : Nat}

theorem throw_bind {α β : Type} (d : Diagnostic) (f : α → Action β) :
    ((throw d : Action α) >>= f) = throw d := rfl

theorem meets_linkCall {id : IdentId} {size : Int64} (h : s.Ready ∅)
    (hi : s.idents.get? id = some f) (hr : f.reserved? = some slot)
    (hn : s.code.instructions[slot]? = some .nop) :
    (linkCall slot f.name size).Meets setup moduleParts ∅
      (fun _ t => t = { s with code := s.code.link slot f.name size }) s := by
  unfold linkCall
  apply (meets_append h (.of_nil rfl rfl) (by nofun)).bind
  rintro stub t ht _ ⟨hs, he⟩
  apply (meets_append ht (.of_nil rfl rfl) (by nofun)).bind
  rintro _ u hu _ ⟨_, he'⟩
  have code : u.code = (s.code.emit (.callHost f.name)).emit (.leave size) := by rw [he', he]
  have idents : u.idents = s.idents := by rw [he', he]
  have slot_lt := Code.getElem?_lt hn
  have reserved : u.code.instructions[slot]? = some .nop := by
    rw [code, Code.getElem?_emit, Code.getElem?_emit, Code.size_emit, if_neg (by omega),
      if_neg (by omega), hn]
  rw [meets_get]
  split
  · rename_i patched hp
    have step : u.Step ∅ { u with code := { patched with entryDefined := patched.entryDefined } } :=
      .patch reserved (.inr ⟨id, f, idents ▸ hi, hr⟩) hp
    refine meets_write hu step (keeps_moduleParts rfl rfl rfl rfl rfl) ?_
    rw [(patch?_eq_some hp).2, code, he', he, hs]
    rfl
  · rename_i hp
    unfold Code.patch? at hp
    rw [if_pos (Code.getElem?_lt reserved)] at hp
    cases hp

theorem meets_linkPrototype {id : IdentId} (h : s.Ready ∅) (hi : s.idents.get? id = some f)
    (hr : f.reserved? = some slot) (hn : s.code.instructions[slot]? = some .nop) :
    (linkPrototype f slot).Meets setup moduleParts ∅ (fun _ t => ∃ signature host,
      s.types.kind f.type = .function signature ∧ setup.hosts.find? f.name = some host ∧
      host.arity = signature.parameters.length ∧
      t = { s with code := s.code.link slot f.name signature.parametersSize }) s := by
  obtain ⟨_, _, signature, hs⟩ := (h.idents id f hi).carries.reserved hr
  unfold linkPrototype
  rw [meets_get]
  dsimp only
  rw [signature?_of_kind hs]
  dsimp only
  rw [meets_read]
  split
  · exact meets_throw (of_decide_eq_false rfl)
  · rename_i host hh
    simp only [throw_bind]
    split
    · exact meets_throw (of_decide_eq_false rfl)
    · rename_i ha
      exact (meets_linkCall h hi hr hn).imp fun _ t _ _ ht =>
        ⟨signature, host, hs, hh, not_not.1 ha, ht⟩

/-- What reserves an instruction is a function. -/
theorem reserved_of_mem (h : s.Valid ∅) (hm : f ∈ s.idents.toList) (hr : f.reserved? = some slot) :
    f ∈ s.idents.functions ∧ f.payload = .function slot (some slot) := by
  obtain ⟨id, hi⟩ := IdentTable.mem_toList.1 hm
  obtain ⟨hk, hp, _⟩ := (h.idents id f hi).carries.reserved hr
  exact ⟨IdentTable.mem_functions.2 ⟨hk, id, hi⟩, hp⟩

/-- Different prototypes have reserved different instructions. -/
theorem ne_slot (hl : s.Laid setup.settings) (h : s.Valid ∅) {done rest : List Ident} {g : Ident}
    {a : Nat} (hs : s.idents.toList = done ++ f :: rest) (hf : f.reserved? = some slot)
    (hg : g ∈ rest) (ha : g.reserved? = some a) : a ≠ slot := by
  obtain ⟨ends, segments⟩ := hl.segments
  have mem (x : Ident) (hx : x ∈ f :: rest) : x ∈ s.idents.toList := by
    rw [hs]
    exact List.mem_append_right done hx
  obtain ⟨hf, pf⟩ := reserved_of_mem h (mem f List.mem_cons_self) hf
  obtain ⟨hg', pg⟩ := reserved_of_mem h (mem g (List.mem_cons_of_mem f hg)) ha
  have ordered := segments.ordered
  rw [IdentTable.functions, List.pairwise_filter, hs, List.pairwise_append,
    List.pairwise_cons] at ordered
  have kind (x : Ident) (hx : x ∈ s.idents.functions) : decide (x.kind = .function) = true :=
    decide_eq_true (IdentTable.mem_functions.1 hx).1
  have hle := ordered.2.1.1 g hg (kind f hf) (kind g hg') _ _ _ _ pf pg
  have hlt := (segments.within f hf _ _ pf).2.1
  omega

theorem meets_linkPrototypes (h : s.Ready ∅) (hl : s.Laid setup.settings) :
    linkPrototypes.Meets setup moduleParts ∅ (fun _ t => Linking setup.hosts s [] t) s := by
  unfold linkPrototypes
  rw [meets_get]
  have start : Linking setup.hosts s s.idents.toList s := by
    refine ⟨rfl, rfl, rfl, fun _ _ hi _ => hi, fun a i ha hi => ?_, fun f hf a ha => ?_, [], rfl, nofun⟩
    · exact absurd (Code.getElem?_lt hi) (Nat.not_lt_of_le ha)
    · exact hl.slots f (reserved_of_mem h.toValid hf ha).1 a ha
  refine meets_forM_left h start fun f rest t ht e hi => ?_
  obtain ⟨done, split_, _⟩ := hi.linked
  have mem : f ∈ s.idents.toList := by
    rw [split_]
    exact List.mem_append_right done List.mem_cons_self
  obtain ⟨id, hid⟩ := IdentTable.mem_toList.1 mem
  split
  · rename_i slot hr
    have nop : t.code.instructions[slot]? = some .nop := hi.waiting f List.mem_cons_self slot hr
    have slot_lt := (hl.slot_lt (reserved_of_mem h.toValid mem hr).1 hr).2
    refine (meets_linkPrototype ht (hi.idents ▸ hid) hr nop).imp fun _ u _ _ hu => ?_
    obtain ⟨signature, host, hk, hh, ha, hu⟩ := hu
    exact hi.step hr slot_lt (fun g hg a ha => ne_slot hl h.toValid split_ hr hg ha) hk hh ha hu
  · rename_i hr
    refine meets_pure ht { hi with
      waiting := fun g hg => hi.waiting g (List.mem_cons_of_mem f hg)
      linked := ?_ }
    obtain ⟨done, split_, linked⟩ := hi.linked
    refine ⟨done ++ [f], by rw [List.append_assoc]; exact split_, fun g hg a ha => ?_⟩
    rcases List.mem_append.1 hg with hg | hg
    · exact linked g hg a ha
    · rw [List.mem_singleton.1 hg] at ha
      exact absurd (hr ▸ ha) (Option.not_mem_none a)

/-- The program of a root file that has been read and linked since `s`. -/
structure Compiled (setup : Setup) (root : String) (s t : Session) : Prop where
  read : ∃ u, u.Arranged setup.settings ∧ u.code.entryDefined = true ∧ u.Grows t ∧
    Linking setup.hosts u [] t
  resolved : t.types.firstForward? = none
  modules : s.modules.Obtains setup (Path.normalize root) .root t.modules

theorem meets_program {root : String} (h : s.Ready ∅) (hm : s.modules.size = 1)
    (hs : Session.Arranged setup.settings { s with code := s.code.emit .nop }) :
    (program root).Meets setup Set.univ ∅ (fun _ t => Compiled setup root s t) s := by
  unfold program
  apply ((meets_append h (.of_nil rfl rfl) (by nofun)).allow (Set.subset_univ _)).bind
  rintro _ t ht e ⟨_, he⟩
  have modules : t.modules = s.modules := by rw [he]
  have only : t.modules.size = 1 := modules ▸ hm
  rw [← he] at hs
  rw [meets_read]
  have load : Loads setup (readModule (setup.settings.maxImportDepth - 1)) := loads_readModule _
  have opens : t.CanOpen (Path.normalize root) :=
    ⟨⟨root, rfl⟩, fun more => absurd only (Nat.ne_of_gt more)⟩
  apply (load (Path.normalize root) t ht hs opens).bind
  rintro id u hu e' ⟨new, loaded⟩
  obtain rfl : id = .root := by rw [new, only]; rfl
  dsimp only
  rw [if_neg (not_not.2 rfl)]
  apply ((meets_checkForwards hu).allow (Set.empty_subset Set.univ)).bind
  rintro _ v hv _ ⟨rfl, resolved⟩
  have laid := loaded.arranged.laid
  refine ((meets_linkPrototypes hv laid).recall (Set.subset_univ _)).bind fun _ w hw e' hw' => ?_
  obtain ⟨e'', hw'⟩ := hw'
  rw [meets_get]
  split
  · exact meets_throw (of_decide_eq_false rfl)
  · rename_i defined
    have defined : w.code.entryDefined = true := by simpa using defined
    refine meets_pure hw ⟨⟨v, loaded.arranged, hw'.defined.symm.trans defined, e'.grows, hw'⟩, ?_, ?_⟩
    · rw [hw'.types]
      exact resolved
    · rw [(e''.keeps.files fun hm => hm rfl).2.1, ← modules]
      exact loaded.obtains

end Action

end FrontEnd
