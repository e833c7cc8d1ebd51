import FrontEnd.Proofs.Variables
import FrontEnd.Proofs.Phrases

/-!
Giving values to variables. Folding changes global variables only, and emitting code appends to the
code only: the code of a value leaves it on the stack, and that of an assignment stores it in a
variable.
-/

namespace FrontEnd.Action

open Session

variable {setup : Setup} {U : Set TypeId} {s : Session} {stream : Stream} {inside : Bool}

theorem meets_emitTypes {i : Instruction} (h : s.Ready U) (ht : ∀ r ∈ i.types, s.Usable U r)
    (hs : i.slots = []) (hp : i.isPlain = true) :
    (emit i).Meets setup {.code} U (fun _ t => s.Emits t fun _ code => code = [i]) s :=
  (meets_emit h (.of_types ht hs) hp).imp fun _ t _ _ ht => by
    rw [ht]
    exact emits_emit rfl fun _ _ => rfl

theorem meets_fold {slot : Nat} {g : Global} (h : s.Ready U) (hg : s.globals[slot]? = some g) :
    (fold g.type slot stream).Meets setup {.globals} U (fun _ _ => True) s := by
  unfold fold
  refine ((meets_constantExpression h).allow (Set.empty_subset _)).bind fun r t ht e hv => ?_
  rw [meets_get]
  refine meets_checkCompatible fun hc => ?_
  obtain ⟨value?, hg⟩ := e.grows.globals slot g hg
  refine (meets_setGlobal ht hg (holds_widenConstant hv hc)).bind fun _ u hu _ _ => ?_
  exact meets_pure hu trivial

theorem meets_widenOnStack {target source : TypeId} (h : s.Ready U) (ht : s.Usable U target)
    (hs : s.Usable U source) :
    (widenOnStack target source).Meets setup {.code} U (fun _ _ => True) s := by
  unfold widenOnStack
  rw [meets_get]
  split
  · exact (meets_emitConvert h hs ht).bind fun _ t ht _ _ => meets_pure ht trivial
  · exact meets_pure h trivial

theorem meets_runtimeValue {target : TypeId} (h : s.Ready U) (ht : s.Usable U target)
    (hs : s.Settles target) :
    (runtimeValue target stream).Meets setup {.code} U
      (fun _ t => s.Emits t (·.Supplies target ·)) s := by
  unfold runtimeValue
  apply (meets_pushed h).bind
  rintro ⟨v, s', h'⟩ t ht' e ⟨hv, pushed⟩
  refine ((meets_widenOnStack ht' (ht.evolves e) hv.usable).and_yields fun _ _ hy =>
    yields_widenOnStack.1 hy).bind fun source u hu e' hw => ?_
  obtain ⟨_, rfl, rfl⟩ := hw
  obtain ⟨settles, more, appends, holds⟩ := pushed.widen (v := ⟨v.type, none⟩) (ht.evolves e)
  refine meets_checkCompatible fun hc => meets_pure hu ⟨more, appends, fun w f => ?_⟩
  have target := (e.fixes.trans e'.fixes).settles hs
  exact ⟨_, holds w f, f.compatible hu.toValid target settles hc⟩

theorem meets_store {target : TypeId} (h : s.Ready U) (ht : s.Usable U target)
    (hs : s.Settles target) :
    (store target stream).Meets setup {.code} U (fun _ t => s.Emits t fun types code =>
      ∃ value, types.Supplies target value ∧ code = value ++ [.store target]) s := by
  unfold store
  refine (meets_runtimeValue h ht hs).bind fun rest t ht' e supplied => ?_
  have types (r : TypeId) (hr : r ∈ (Instruction.store target).types) : t.Usable U r := by
    rw [List.mem_singleton.1 hr]
    exact ht.evolves e
  refine (meets_emitTypes ht' types rfl rfl).bind fun _ u hu e' stored => meets_pure hu ?_
  refine supplied.append e'.fixes stored fun types value _ supplies hv => ?_
  exact ⟨value, supplies, by rw [hv]⟩

/-- Nothing is emitted outside of functions. -/
theorem assigns_outside {t : Session} (e : s.Evolves (itemParts false) t) : s.Assigns t :=
  assigns_same (e.keeps.code (by simp [itemParts]))

theorem Meets.assigns {α : Type} {action : Action α}
    (h : action.Meets setup (itemParts inside) U (fun _ t => inside = true → s.Assigns t) s) :
    action.Meets setup (itemParts inside) U (fun _ t => s.Assigns t) s := by
  refine h.imp fun _ t _ e assigned => ?_
  cases inside with
  | false => exact assigns_outside e
  | true => exact assigned rfl

/-- The value of a local variable is stored at its address. -/
theorem meets_storeAt {target : TypeId} (place : Storage) {t : Session} (ht : t.Ready U)
    (hu : t.Usable U target) (hs : t.Settles target)
    (addressed : s.Emits t fun _ code => code = [place.address]) :
    (store target stream).Meets setup {.code} U (fun _ u => s.Assigns u) t := by
  refine (meets_store ht hu hs).imp fun _ u _ e stored => ?_
  refine addressed.append e.fixes stored fun types code more he hm signature => ?_
  obtain ⟨value, supplies, rfl⟩ := hm
  rw [he, ← List.append_assoc, ← List.append_nil (_ ++ value ++ _)]
  exact .assign supplies .nil

/-- What is known about the value of a variable that takes its type from it. -/
structure Inferred (U : Set TypeId) (t : Session) (inside : Bool) (value : TypedValue) : Prop where
  solid : t.Solid U value.type
  holds : t.Holds value.type value.constant?
  known : inside = false → ∃ c, value.constant? = some c
  unknown : inside = true → value.constant? = none

theorem meets_inferredValue (h : s.Ready U) (hin : s.At inside) :
    (inferredValue stream).Meets setup (itemParts inside) U
      (fun r t => Inferred U t inside r.value ∧ (inside = true → Pushed s r.value.type t)) s := by
  unfold inferredValue
  rw [meets_get]
  cases inside with
  | false =>
    have hm : s.blocks.atModuleScope = true := hin
    rw [if_pos hm]
    refine ((meets_constantExpression h).allow (Set.empty_subset _)).bind fun r t ht _ hv => ?_
    obtain ⟨⟨value, type⟩, s', hs⟩ := r
    exact meets_pure ht ⟨⟨⟨hv.usable, hv.solid⟩, hv.constant, fun _ => ⟨value, rfl⟩, nofun⟩, nofun⟩
  | true =>
    have hm : s.blocks.atModuleScope = false := hin
    rw [hm]
    refine ((meets_pushed h).allow code_subset_itemParts).bind fun r t ht _ hv => ?_
    exact meets_pure ht ⟨⟨⟨hv.1.usable, hv.1.solid⟩, nofun, nofun, fun _ => rfl⟩, fun _ => hv.2⟩

theorem meets_storeInferred {name : String} {payload : Payload} {value : TypedValue}
    (h : s.Ready U) (hp : s.Stores inside name value.type payload)
    (hv : Inferred U s inside value) :
    (storeInferred payload value).Meets setup (itemParts inside) U (fun _ t => inside = true →
      s.Emits t fun _ code => ∃ offset, code = [.localAddress offset, .storeSwapped value.type]) s := by
  unfold storeInferred
  cases payload with
  | global slot =>
    obtain ⟨rfl, g, hg, type, _⟩ := hp
    obtain ⟨c, hc⟩ := hv.known rfl
    have holds := hv.holds
    rw [hc, ← type] at holds
    rw [hc]
    refine ((meets_setGlobal h hg holds).allow (globals_subset_itemParts false)).imp ?_
    exact fun _ _ _ _ _ => nofun
  | «local» offset =>
    obtain rfl : inside = true := hp
    rw [hv.unknown rfl]
    have address : (emit (.localAddress offset)).Meets setup {.code} U _ s :=
      meets_emitTypes h nofun rfl rfl
    refine (address.allow code_subset_itemParts).bind fun _ t ht e addressed => ?_
    have types (r : TypeId) (hr : r ∈ (Instruction.storeSwapped value.type).types) :
        t.Usable U r := by
      rw [List.mem_singleton.1 hr]
      exact hv.solid.usable.evolves e
    have stored : (emit (.storeSwapped value.type)).Meets setup {.code} U _ t :=
      meets_emitTypes ht types rfl rfl
    refine (stored.allow code_subset_itemParts).bind fun _ u hu e' stored => meets_pure hu fun _ => ?_
    exact addressed.append e'.fixes stored fun _ _ _ he hm => ⟨offset, by rw [he, hm]; rfl⟩
  | _ => exact hp.elim

theorem meets_declareInferred {declared : DeclaredName} (h : s.Ready U) (hin : s.At inside)
    (hn : declared.name ∈ s.names.texts) :
    (declareInferred declared stream).Meets setup (itemParts inside) U (fun _ t => s.Assigns t) s := by
  unfold declareInferred
  apply Meets.assigns
  apply (meets_inferredValue h hin).bind
  rintro ⟨value, s', hs⟩ t ht e ⟨hv, pushed⟩
  simp only [fail_bind]
  split
  · rw [meets_typeName]
    exact meets_fail rfl
  have hn := e.grows.names _ hn
  refine (meets_declareVariable ht (hin.evolves e) hv.solid hn).bind fun r u hu e' hp => ?_
  obtain ⟨id, payload⟩ := r
  obtain ⟨stores, _, code⟩ := hp
  have hv : Inferred U u inside value :=
    ⟨hv.solid.evolves e', hv.holds.grows e'.grows hv.solid.usable, hv.known, hv.unknown⟩
  refine (meets_storeInferred hu stores hv).bind fun _ v hv e'' stored => meets_pure hv fun hi => ?_
  -- Between the value and its storing only the variable has been declared.
  have emitted := (stored hi).of_code code.symm
  refine (pushed hi).emits.append (e'.fixes.trans e''.fixes) emitted fun types code more hc hm signature => ?_
  obtain ⟨offset, rfl⟩ := hm
  rw [← List.append_nil (_ ++ _)]
  exact .declare hc .nil

theorem address_valid {id : IdentId} {i : Ident} {address : Instruction} (h : s.Valid U)
    (hi : s.idents.get? id = some i) (ha : address? i = some address) :
    address.Valid U s ∧ address.isPlain = true := by
  have carries := (h.idents id i hi).carries
  unfold address? at ha
  split at ha
  · rename_i slot hk hp
    cases ha
    rw [Ident.Carries, hk, hp] at carries
    obtain ⟨g, hg, _⟩ := carries
    obtain ⟨hs, _⟩ := Array.getElem?_eq_some_iff.1 hg
    refine ⟨⟨fun _ hr => absurd hr List.not_mem_nil, fun n hn => ?_⟩, rfl⟩
    rw [List.mem_singleton.1 hn]
    exact hs
  · cases ha
    exact ⟨.of_nil rfl rfl, rfl⟩
  · cases ha

/-- The address of a variable is pushed. -/
theorem address_of_address? {i : Ident} {address : Instruction} (ha : address? i = some address) :
    i.kind = .var ∧ ∃ place : Storage, address = place.address := by
  unfold address? at ha
  split at ha
  · rename_i slot hk _
    cases ha
    exact ⟨hk, .global slot, rfl⟩
  · rename_i offset hk _
    cases ha
    exact ⟨hk, .local offset, rfl⟩
  · cases ha

theorem meets_assignment (h : s.Ready U) :
    (assignment stream).Meets setup {.code} U (fun _ t => s.Assigns t) s := by
  unfold assignment
  apply meets_reference
  rintro ⟨⟨id, i⟩, s₁, h₁⟩ hi
  dsimp only
  split
  · exact meets_fail rfl
  · rename_i address ha
    obtain ⟨valid, plain⟩ := address_valid h.toValid hi ha
    obtain ⟨kind, place, rfl⟩ := address_of_address? ha
    refine (meets_emit h valid plain).bind fun _ t ht e addressed => ?_
    refine meets_eat fun rest => ?_
    have hv := h.idents id i hi
    have settles : s.Settles i.type := ⟨h.inUse_ident hi, hv.solid (by rw [kind]; nofun)⟩
    have addressed : s.Emits t fun _ code => code = [place.address] := by
      rw [addressed]
      exact emits_emit rfl fun _ _ => rfl
    refine (meets_storeAt _ ht (hv.type.evolves e) (e.fixes.settles settles) addressed).bind ?_
    exact fun _ u hu _ assigned => meets_pure hu assigned

end FrontEnd.Action
