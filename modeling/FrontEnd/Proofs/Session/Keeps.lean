import FrontEnd.Proofs.Session.InUse

/-!
What a change leaves as it is. The parts of a session besides its types are named, so that the parts
that a step may change are a set of them.
-/

namespace FrontEnd

/-- The parts of a session that a step may change besides the types. -/
inductive Part
  | idents
  /-- The identifiers of functions, and reserved instructions. -/
  | functions
  | code
  | globals
  /-- The room for the variables of functions. -/
  | frames
  /-- The open blocks. -/
  | scopes
  /-- The modules and the file being read. -/
  | files
deriving DecidableEq, Repr

/-- The identifiers of functions in the order of their declaration. -/
def IdentTable.functions (t : IdentTable) : List Ident :=
  t.toList.filter (·.kind = .function)

/-- An instruction that stands in the middle of a function: it neither reserves a place nor leaves
the function without returning. -/
def Instruction.isPlain : Instruction → Bool
  | nop | goto _ | callHost _ => false
  | _ => true

/-- Plain instructions have been appended to `c`. -/
def Code.Extends (c d : Code) : Prop :=
  d.entryDefined = c.entryDefined ∧ ∃ more : List Instruction,
    d.instructions.toList = c.instructions.toList ++ more ∧ ∀ i ∈ more, i.isPlain = true

namespace Code.Extends

theorem refl (c : Code) : c.Extends c :=
  ⟨rfl, [], (List.append_nil _).symm, nofun⟩

theorem trans {c d e : Code} (h : c.Extends d) (h' : d.Extends e) : c.Extends e := by
  obtain ⟨he, more, hm, hp⟩ := h
  obtain ⟨he', rest, hr, hp'⟩ := h'
  refine ⟨he'.trans he, more ++ rest, ?_, fun i hi => ?_⟩
  · rw [hr, hm, List.append_assoc]
  · exact (List.mem_append.1 hi).elim (hp i) (hp' i)

theorem emit (c : Code) {i : Instruction} (hi : i.isPlain = true) : c.Extends (c.emit i) := by
  refine ⟨rfl, [i], Array.toList_push, fun j hj => ?_⟩
  rw [List.mem_singleton.1 hj]
  exact hi

end Code.Extends

namespace Session

/-- Only the parts `may` have changed. -/
structure Keeps (may : Set Part) (s t : Session) : Prop where
  idents : .idents ∉ may → t.idents = s.idents
  functions : .functions ∉ may →
    t.idents.functions = s.idents.functions ∧ s.code.Extends t.code ∧
      t.place.function? = s.place.function?
  code : .code ∉ may → t.code = s.code
  globals : .globals ∉ may → t.globals = s.globals
  frames : .frames ∉ may → .scopes ∉ may → .files ∉ may → t.blocks = s.blocks
  scopes : .scopes ∉ may → t.blocks.scope.2 = s.blocks.scope.2
  files : .files ∉ may →
    t.names = s.names ∧ t.modules = s.modules ∧ t.blocks.module = s.blocks.module ∧
      t.importDepth = s.importDepth ∧ t.place.file = s.place.file

/-- Only the types have changed. -/
theorem keeps_types (may : Set Part) (s : Session) (types : TypeTable) :
    s.Keeps may { s with types } where
  idents _ := rfl
  functions _ := ⟨rfl, .refl _, rfl⟩
  code _ := rfl
  globals _ := rfl
  frames _ _ _ := rfl
  scopes _ := rfl
  files _ := ⟨rfl, rfl, rfl, rfl, rfl⟩

namespace Keeps

variable {may more : Set Part} {s t u : Session}

theorem refl (may : Set Part) (s : Session) : s.Keeps may s := keeps_types may s s.types

theorem trans (h : s.Keeps may t) (h' : t.Keeps may u) : s.Keeps may u where
  idents hm := (h'.idents hm).trans (h.idents hm)
  functions hm :=
    ⟨(h'.functions hm).1.trans (h.functions hm).1, (h.functions hm).2.1.trans (h'.functions hm).2.1,
      (h'.functions hm).2.2.trans (h.functions hm).2.2⟩
  code hm := (h'.code hm).trans (h.code hm)
  globals hm := (h'.globals hm).trans (h.globals hm)
  frames hm hm' hm'' := (h'.frames hm hm' hm'').trans (h.frames hm hm' hm'')
  scopes hm := (h'.scopes hm).trans (h.scopes hm)
  files hm := by
    obtain ⟨hn, hm', hb, hd, hp⟩ := h.files hm
    obtain ⟨hn', hm'', hb', hd', hp'⟩ := h'.files hm
    exact ⟨hn'.trans hn, hm''.trans hm', hb'.trans hb, hd'.trans hd, hp'.trans hp⟩

theorem mono (h : s.Keeps may t) (hm : may ⊆ more) : s.Keeps more t where
  idents hn := h.idents fun hp => hn (hm hp)
  functions hn := h.functions fun hp => hn (hm hp)
  code hn := h.code fun hp => hn (hm hp)
  globals hn := h.globals fun hp => hn (hm hp)
  frames hn hn' hn'' := h.frames (fun hp => hn (hm hp)) (fun hp => hn' (hm hp)) fun hp => hn'' (hm hp)
  scopes hn := h.scopes fun hp => hn (hm hp)
  files hn := h.files fun hp => hn (hm hp)

theorem scope (h : s.Keeps may t) (hs : .scopes ∉ may) (hf : .files ∉ may) :
    t.blocks.scope = s.blocks.scope :=
  Prod.ext (h.files hf).2.2.1 (h.scopes hs)

end Keeps

/-- What can have become of `s` after changes of the parts `may`. -/
structure Evolves (may : Set Part) (s t : Session) : Prop where
  grows : s.Grows t
  keeps : s.Keeps may t
  fixes : s.Fixes t

namespace Evolves

variable {may more : Set Part} {s t u : Session}

theorem refl (may : Set Part) (s : Session) : s.Evolves may s := ⟨.refl s, .refl may s, .refl s⟩

theorem trans (h : s.Evolves may t) (h' : t.Evolves may u) : s.Evolves may u :=
  ⟨h.grows.trans h'.grows, h.keeps.trans h'.keeps, h.fixes.trans h'.fixes⟩

theorem mono (h : s.Evolves may t) (hm : may ⊆ more) : s.Evolves more t :=
  ⟨h.grows, h.keeps.mono hm, h.fixes⟩

end Evolves

variable {U V : Set TypeId} {s t : Session}

/-- Structures that are being read keep their fields. -/
def Preserves (U : Set TypeId) (s t : Session) : Prop :=
  ∀ id ∈ U, (s.types.kind id).isStructure = true → t.types.kind id = s.types.kind id

namespace Preserves

variable {u : Session}

theorem refl (U : Set TypeId) (s : Session) : s.Preserves U s := fun _ _ _ => rfl

theorem trans (h : s.Preserves U t) (h' : t.Preserves U u) : s.Preserves U u := by
  intro id hi hs
  have kept := h id hi hs
  exact (h' id hi (kept ▸ hs)).trans kept

theorem mono (h : s.Preserves V t) (hU : U ⊆ V) : s.Preserves U t :=
  fun id hi => h id (hU hi)

end Preserves

theorem Step.preserves (h : s.Step V t) (U : Set TypeId) : s.Preserves U t := by
  intro id _ hs
  obtain he | ⟨forward, concrete, pending, _, he⟩ := h.types
  · rw [he]
  · have other : id ≠ forward := by
      rintro rfl
      rw [TypeTable.isForward_eq, TypeKind.isForward_of_isStructure hs] at pending
      cases pending
    rw [he, TypeTable.kind_complete concrete id (TypeTable.index_lt_of_isForward pending),
      if_neg other]

theorem preserves_addType (U : Set TypeId) (s : Session) (kind : TypeKind) :
    s.Preserves U { s with types := (s.types.add kind).2 } := by
  intro id _ hs
  have known := TypeTable.index_lt_of_isStructure hs
  exact TypeTable.kind_add_of_ne kind (Nat.ne_of_lt known)

end Session

end FrontEnd
