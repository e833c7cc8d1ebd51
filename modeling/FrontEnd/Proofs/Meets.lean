import FrontEnd.Proofs.Yields
import FrontEnd.Proofs.Session.Keeps

/-!
What the readers of the front end are shown to do. A step that `Meets` its description changes only
the parts of the session that it may change, never fails with a fault of the front end itself, and
leaves a session behind that is ready for the next step.
-/

namespace FrontEnd

/-- A fault of a program, not of the front end. -/
abbrev Diagnostic.IsProper (d : Diagnostic) : Prop := d.category ≠ .internal

/-- The length of an array or a text is not negative. An open array has a length of its own, and a
text without a length the default one. -/
def TypeKind.Measured (settings : Settings) : TypeKind → Prop
  | .array _ length => length = openLength ∨ 0 ≤ length
  | .text capacity => 0 ≤ capacity ∨ capacity = settings.defaultTextLength + 1
  | _ => True

namespace Action

variable {α β : Type}

/-- A change of no other parts than `may`. The lengths of a new type are those that a program can
give. -/
structure Changes (setup : Setup) (may : Set Part) (s t : Session) : Prop where
  change : s.Change t
  keeps : s.Keeps may t
  measured : ∀ id : TypeId, s.types.size ≤ id.index → (t.types.kind id).Measured setup.settings

/-- What a step that has come to its end has done to a session in which the types `U` are being
read. -/
structure Leads (may : Set Part) (U : Set TypeId) (s t : Session) : Prop where
  ready : t.Ready U
  evolves : s.Evolves may t
  preserves : s.Preserves U t

def Meets (action : Action α) (setup : Setup) (may : Set Part) (U : Set TypeId)
    (Q : α → Session → Prop) (s : Session) : Prop :=
  action.Ensures setup (Changes setup may) (fun d t => d.IsProper ∧ s.Evolves may t)
    (fun v t => Leads may U s t ∧ Q v t) s

variable {setup : Setup} {may more : Set Part} {U V : Set TypeId} {P Q : α → Session → Prop}
  {s : Session}

theorem Changes.evolves {t u : Session} (h : Changes setup may t u) : t.Evolves may u :=
  ⟨h.change.grows, h.keeps, h.change.fixes⟩

theorem Changes.mono {t u : Session} (h : Changes setup may t u) (hm : may ⊆ more) :
    Changes setup more t u :=
  { h with keeps := h.keeps.mono hm }

/-- A change that adds no type. -/
theorem Changes.of_size {t u : Session} (change : t.Change u) (keeps : t.Keeps may u)
    (size : u.types.size = t.types.size) : Changes setup may t u := by
  refine ⟨change, keeps, fun id hi => ?_⟩
  rw [TypeTable.kind_of_size_le (size ▸ hi)]
  trivial

theorem Leads.refl (may : Set Part) (h : s.Ready U) : Leads may U s s :=
  ⟨h, .refl may s, .refl U s⟩

theorem Leads.trans {t u : Session} (h : Leads may U s t) (h' : Leads may U t u) :
    Leads may U s u :=
  ⟨h'.ready, h.evolves.trans h'.evolves, h.preserves.trans h'.preserves⟩

theorem Leads.mono {t : Session} (h : Leads may V s t) (hm : may ⊆ more) (hU : U ⊆ V) :
    Leads more U s t :=
  ⟨h.ready.weaken hU, h.evolves.mono hm, h.preserves.mono hU⟩

/-- It is enough to show what a step ensures; that the session has evolved follows from it. -/
theorem meets_of_ensures {action : Action α}
    (h : action.Ensures setup (Changes setup may) (fun d _ => d.IsProper)
      (fun v t => t.Ready U ∧ s.Preserves U t ∧ Q v t) s) : action.Meets setup may U Q s :=
  (h.along (Session.Evolves may) (.refl may) .trans fun _ _ => Changes.evolves).mono
    (fun _ _ => id) (fun _ _ => id) fun _ _ hQ => ⟨⟨hQ.1.1, hQ.2, hQ.1.2.1⟩, hQ.1.2.2⟩

theorem meets_pure {v : α} (h : s.Ready U) (hQ : Q v s) :
    (pure v : Action α).Meets setup may U Q s :=
  ⟨.refl may h, hQ⟩

theorem meets_throw {d : Diagnostic} (h : d.IsProper) :
    (throw d : Action α).Meets setup may U Q s :=
  ⟨h, .refl may s⟩

theorem meets_failAt {fault : Fault} (h : fault.cause.category ≠ .internal) :
    (failAt fault : Action α).Meets setup may U Q s :=
  ⟨h, .refl may s⟩

theorem meets_fail {cause : Cause} {span : Span} (h : decide (cause.category = .internal) = false) :
    (fail cause span : Action α).Meets setup may U Q s :=
  ⟨of_decide_eq_false h, .refl may s⟩

theorem meets_get {f : Session → Action α} :
    (get >>= f).Meets setup may U Q s ↔ (f s).Meets setup may U Q s := Iff.rfl

theorem meets_read {f : Setup → Action α} :
    (read >>= f).Meets setup may U Q s ↔ (f setup).Meets setup may U Q s := Iff.rfl

/-- A change that is written at once. -/
theorem meets_change {t : Session} {v : α} (change : Changes setup may s t)
    (ready : t.Ready U) (preserves : s.Preserves U t) (hQ : Q v t) :
    (write t (pure v) : Action α).Meets setup may U Q s :=
  ⟨change, ⟨ready, change.evolves, preserves⟩, hQ⟩

theorem meets_write {t : Session} {v : α} (h : s.Ready U) (step : s.Step U t)
    (keeps : s.Keeps may t) (hQ : Q v t) :
    (write t (pure v) : Action α).Meets setup may U Q s :=
  meets_change (.of_size (.step h.bound (step.mono (Set.empty_subset U))) keeps step.size)
    (step.ready h) (step.preserves U) hQ

theorem Meets.mono {action : Action α} (h : action.Meets setup may V P s) (hm : may ⊆ more)
    (hU : U ⊆ V) (hQ : ∀ v t, t.Ready V → s.Evolves may t → P v t → Q v t) :
    action.Meets setup more U Q s :=
  Ensures.mono h (fun _ _ hc => hc.mono hm) (fun _ _ he => ⟨he.1, he.2.mono hm⟩)
    fun v t hv => ⟨hv.1.mono hm hU, hQ v t hv.1.ready hv.1.evolves hv.2⟩

/-- Allows more changes. -/
theorem Meets.allow {action : Action α} (h : action.Meets setup may U Q s) (hm : may ⊆ more) :
    action.Meets setup more U Q s :=
  h.mono hm (Set.Subset.refl U) fun _ _ _ _ => id

/-- Allows more changes, and still knows what has changed. -/
theorem Meets.recall {action : Action α} (h : action.Meets setup may U Q s) (hm : may ⊆ more) :
    action.Meets setup more U (fun v t => s.Evolves may t ∧ Q v t) s :=
  h.mono hm (Set.Subset.refl U) fun _ _ _ e hQ => ⟨e, hQ⟩

/-- What is read while more types are being read leaves these as they were. -/
theorem Meets.nested {action : Action α} (h : action.Meets setup may V Q s) (hm : may ⊆ more)
    (hU : U ⊆ V) :
    action.Meets setup more U (fun v t => t.Ready V ∧ s.Preserves V t ∧ Q v t) s :=
  Ensures.mono h (fun _ _ hc => hc.mono hm) (fun _ _ he => ⟨he.1, he.2.mono hm⟩)
    fun _ _ hv => ⟨hv.1.mono hm hU, hv.1.ready, hv.1.preserves, hv.2⟩

theorem Meets.imp {action : Action α} (h : action.Meets setup may U P s)
    (hQ : ∀ v t, t.Ready U → s.Evolves may t → P v t → Q v t) : action.Meets setup may U Q s :=
  h.mono (Set.Subset.refl may) (Set.Subset.refl U) hQ

theorem Meets.and_yields {action : Action α} (h : action.Meets setup may U P s)
    (hQ : ∀ v t, action.Yields setup s v t → Q v t) :
    action.Meets setup may U (fun v t => P v t ∧ Q v t) s :=
  (Ensures.and_yields h hQ).mono (fun _ _ => id) (fun _ _ => id) fun _ _ hv =>
    ⟨hv.1.1, hv.1.2, hv.2⟩

/-- Goes through a step and what follows it. -/
theorem Meets.bind {action : Action α} {f : α → Action β} {Q : β → Session → Prop}
    (h : action.Meets setup may U P s)
    (hf : ∀ v t, t.Ready U → s.Evolves may t → P v t → (f v).Meets setup may U Q t) :
    (action >>= f).Meets setup may U Q s :=
  ensures_bind.2 <| Ensures.mono h (fun _ _ => id) (fun _ _ => id) fun v t hv =>
    Ensures.mono (hf v t hv.1.ready hv.1.evolves hv.2) (fun _ _ => id)
      (fun _ _ he => ⟨he.1, hv.1.evolves.trans he.2⟩) fun _ _ hw => ⟨hv.1.trans hw.1, hw.2⟩

/-- Goes through the entries of a list. `I` says what holds in front of the entries that are left. -/
theorem meets_forM_left {xs : List β} {f : β → Action PUnit} {I : List β → Session → Prop}
    (h : s.Ready U) (hI : I xs s)
    (hf : ∀ x rest t, t.Ready U → s.Evolves may t → I (x :: rest) t →
      (f x).Meets setup may U (fun _ u => I rest u) t) :
    (xs.forM f).Meets setup may U (fun _ t => I [] t) s := by
  induction xs generalizing s with
  | nil => exact meets_pure h hI
  | cons x xs ih =>
    refine (hf x xs s h (.refl may s) hI).bind fun _ t ht e hI => ih ht hI ?_
    exact fun y rest u hu e' hI => hf y rest u hu (e.trans e') hI

/-- Goes through the entries of a list, each of which keeps `I`. -/
theorem meets_forM {xs : List β} {f : β → Action PUnit} {I : Session → Prop} (h : s.Ready U)
    (hI : I s) (hf : ∀ x ∈ xs, ∀ t, t.Ready U → s.Evolves may t → I t →
      (f x).Meets setup may U (fun _ u => I u) t) :
    (xs.forM f).Meets setup may U (fun _ t => I t) s := by
  have left := meets_forM_left (I := fun rest t => rest ⊆ xs ∧ I t) h ⟨fun _ => id, hI⟩
    fun x rest t ht e ⟨hx, hI⟩ => (hf x (hx List.mem_cons_self) t ht e hI).imp
      fun _ u _ _ hI => ⟨fun _ hy => hx (List.mem_cons_of_mem x hy), hI⟩
  exact left.imp fun _ _ _ _ hI => hI.2

end Action

end FrontEnd
