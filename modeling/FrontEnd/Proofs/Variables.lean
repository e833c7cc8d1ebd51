import FrontEnd.Proofs.TypeExpression

/-!
Declaring types and variables, and making room for them. At module scope a variable gets a slot,
inside a function a place in the frame.
-/

namespace FrontEnd

/-- The parts of a session that the declaration of anything but a function changes, inside a
function or outside. -/
def itemParts (inside : Bool) : Set Part :=
  {part | part = .idents ∨ part = .globals ∨ part = .frames ∨ (part = .code ∧ inside = true)}

theorem code_subset_itemParts : ({.code} : Set Part) ⊆ itemParts true := by
  rintro part rfl
  exact .inr (.inr (.inr ⟨rfl, rfl⟩))

theorem idents_subset_itemParts (inside : Bool) : ({.idents} : Set Part) ⊆ itemParts inside := by
  rintro part rfl
  exact .inl rfl

theorem globals_subset_itemParts (inside : Bool) : ({.globals} : Set Part) ⊆ itemParts inside := by
  rintro part rfl
  exact .inr (.inl rfl)

namespace Session

variable {U : Set TypeId} {s t : Session} {may : Set Part} {inside : Bool}

/-- Whether a function is being read. -/
abbrev At (s : Session) (inside : Bool) : Prop := s.blocks.atModuleScope = !inside

theorem Evolves.scope (e : s.Evolves (itemParts inside) t) : t.blocks.scope = s.blocks.scope :=
  e.keeps.scope (by simp [itemParts]) (by simp [itemParts])

theorem At.evolves (h : s.At inside) (e : s.Evolves (itemParts inside) t) : t.At inside :=
  (Blocks.atModuleScope_eq e.scope).trans h

/-- Where the variable `name` lives. -/
def Stores (s : Session) (inside : Bool) (name : String) (type : TypeId) : Payload → Prop
  | .global slot => inside = false ∧ ∃ g, s.globals[slot]? = some g ∧ g.type = type ∧ g.name = name
  | .local _ => inside = true
  | _ => False

theorem Stores.evolves {name : String} {type : TypeId} {payload : Payload}
    (h : s.Stores inside name type payload) (e : s.Evolves may t) :
    t.Stores inside name type payload := by
  cases payload with
  | global slot =>
    obtain ⟨hi, g, hg, ht, hn⟩ := h
    obtain ⟨value?, hv⟩ := e.grows.globals slot g hg
    exact ⟨hi, _, hv, ht, hn⟩
  | «local» offset => exact h
  | _ => exact h.elim

end Session

namespace Action

open Session

variable {α : Type} {setup : Setup} {U : Set TypeId} {s : Session} {may : Set Part} {inside : Bool}

/-! ### Types -/

theorem forwardOf?_eq_some {name : String} {id : IdentId} {forward : TypeId}
    (h : forwardOf? s name = some (id, forward)) :
    ∃ i, s.idents.get? id = some i ∧ i.kind = .type ∧ i.type = forward ∧
      s.types.isForward forward = true := by
  unfold forwardOf? at h
  simp only [Option.bind_eq_bind, Option.bind_eq_some_iff] at h
  obtain ⟨id', _, i, hi, h⟩ := h
  split at h
  · rename_i hk
    cases h
    obtain ⟨hk, hf⟩ := Bool.and_eq_true_iff.1 hk
    exact ⟨i, hi, of_decide_eq_true hk, rfl, hf⟩
  · cases h

theorem meets_declareType {name : String} {exported : Bool} {type : TypeId} {span : Span}
    (h : s.Ready U) (ht : s.Solid U type) (hn : name ∈ s.names.texts) :
    (declareType name exported type span).Meets setup {.idents} U (fun _ _ => True) s := by
  unfold declareType
  rw [meets_get, if_neg (by rw [ht.solid]; nofun)]
  split
  · rename_i id forward hf
    obtain ⟨i, hi, hk, htype, hforward⟩ := forwardOf?_eq_some hf
    refine meets_write h (.complete hi hk htype hforward ht.solid) ?_ trivial
    have functions := IdentTable.functions_modify hi (by rw [hk]; nofun) (remark exported span) rfl
    exact (keeps_idents functions).trans (keeps_types _ _ (s.types.complete forward type))
  · rw [meets_newIdent]
    have valid : (s.ident name .type exported type .none span).Valid U s :=
      h.ident ht.usable (fun hk => absurd rfl hk) hn trivial
    exact (meets_declare h valid ht.solid rfl rfl nofun (Set.mem_singleton _) nofun).imp fun _ _ _ _ _ => trivial

/-! ### Variables -/

theorem meets_allocate {name : String} {type : TypeId} {span : Span} (h : s.Ready U)
    (hin : s.At inside) (ht : s.Solid U type) (hn : name ∈ s.names.texts) :
    (allocate name type span).Meets setup (itemParts inside) U
      (fun payload t => t.Stores inside name type payload ∧ t.code = s.code) s := by
  unfold allocate
  rw [meets_get]
  split
  · rename_i hm
    have valid : Global.Valid U s ⟨name, type, none⟩ := ⟨ht.usable, ht.solid, hn⟩
    refine meets_write h (.allocateGlobal valid nofun) ?_
      ⟨⟨?_, _, Array.getElem?_push_size, rfl, rfl⟩, rfl⟩
    · exact { Keeps.refl (itemParts inside) s with
        globals := fun hg => absurd (globals_subset_itemParts inside rfl) hg }
    · cases inside <;> first | rfl | exact absurd (hm.symm.trans hin) nofun
  · rename_i hm
    split
    · rename_i offset blocks hb
      obtain ⟨size, _, hb⟩ := Option.bind_eq_some_iff.1 hb
      obtain ⟨hs, _⟩ := Blocks.allocate?_eq_some hb
      refine meets_write h (.allocateLocal hb) ?_ ⟨?_, rfl⟩
      · exact { Keeps.refl (itemParts inside) s with
          frames := fun hf => absurd (.inr (.inr (.inl rfl))) hf
          scopes := fun _ => congrArg Prod.snd hs
          files := fun _ => ⟨rfl, rfl, congrArg Prod.fst hs, rfl, rfl⟩ }
      · cases inside <;> first | rfl | exact absurd hin hm
    · exact meets_fail rfl

theorem meets_declareVariable {name : String} {exported : Bool} {type : TypeId} {span : Span}
    (h : s.Ready U) (hin : s.At inside) (ht : s.Solid U type) (hn : name ∈ s.names.texts) :
    (declareVariable name exported type span).Meets setup (itemParts inside) U
      (fun r t => t.Stores inside name type r.2 ∧ t.IsNamed type ∧ t.code = s.code) s := by
  unfold declareVariable
  refine (meets_allocate h hin ht hn).bind fun payload t ht' e hp => ?_
  obtain ⟨hp, code⟩ := hp
  rw [meets_newIdent]
  have carries : (t.ident name .var exported type payload span).Carries t := by
    cases payload with
    | global slot => exact hp.2
    | «local» offset => trivial
    | _ => exact hp
  have valid := ht'.ident (ht.usable.evolves e) (fun _ => (ht.evolves e).solid)
    (e.grows.names _ hn) carries
  have hm := idents_subset_itemParts inside rfl
  refine (meets_declare ht' valid (ht.evolves e).solid rfl rfl nofun hm nofun).bind fun id u hu e' hd => ?_
  refine meets_pure hu ⟨hp.evolves e', ⟨id, _, hd.found, rfl⟩, ?_⟩
  rw [hd.others]
  exact code

theorem meets_setGlobal {slot : Nat} {value : Constant} (h : s.Ready U)
    {g : Global} (hg : s.globals[slot]? = some g) (hv : s.Holds g.type (some value)) :
    (setGlobal slot value).Meets setup {.globals} U (fun _ _ => True) s := by
  unfold setGlobal
  rw [meets_get, if_pos (Array.getElem?_eq_some_iff.1 hg).1]
  have holds (other : Global) (ho : s.globals[slot]? = some other) :
      s.Holds other.type (some value) := by
    obtain rfl := Option.some.inj (hg.symm.trans ho)
    exact hv
  refine meets_write h (.setGlobal holds) ?_ trivial
  exact { Keeps.refl {.globals} s with globals := fun hg => absurd rfl hg }

end Action

end FrontEnd
