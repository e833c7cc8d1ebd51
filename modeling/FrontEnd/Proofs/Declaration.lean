import FrontEnd.Proofs.Assignment
import FrontEnd.Declaration

/-!
Declarations of types, constants and variables. A declaration is understood by what it does wherever
it stands, so that groups of declarations follow by induction on the words ahead.
-/

namespace FrontEnd.Action

open Session

variable {setup : Setup} {s : Session} {stream : Stream} {inside : Bool}

/-- What the declaration of anything but a function does to a session. -/
def Declares (setup : Setup) (inside : Bool) (item : (s : Stream) → Action (Shorter s)) : Prop :=
  ∀ (stream : Stream) (s : Session), s.Ready ∅ → s.At inside → s.Knows stream →
    (item stream).Meets setup (itemParts inside) ∅ (fun _ t => s.Assigns t) s

theorem meets_groupItems {item : (s : Stream) → Action (Shorter s)}
    (hitem : Declares setup inside item) (stream : Stream) (s : Session) (h : s.Ready ∅)
    (hin : s.At inside) (hk : s.Knows stream) :
    (groupItems item stream).Meets setup (itemParts inside) ∅ (fun _ t => s.Assigns t) s := by
  rw [groupItems]
  split
  · exact meets_pure h (assigns_same rfl)
  apply (hitem stream s h hin hk).bind
  rintro ⟨⟨⟩, s₁, h₁⟩ t ht e assigned
  apply meets_separator
  rintro ⟨⟨⟩, s₂, h₂⟩
  have h₂ := h₂.behind h₁
  have hlt := h₂.2
  have more := meets_groupItems hitem s₂ t ht (hin.evolves e) ((hk.behind h₂).evolves e)
  exact more.bind fun _ u hu e' others => meets_pure hu (assigned.trans e'.fixes others)
termination_by stream.size

theorem declares_group {item : (s : Stream) → Action (Shorter s)}
    (hitem : Declares setup inside item) : Declares setup inside (group item) := by
  intro stream s h hin hk
  unfold group
  split
  · exact hitem stream s h hin hk
  · rename_i s₁ h₁ _
    refine (meets_groupItems hitem s₁ s h hin (hk.behind h₁)).bind fun _ t ht _ assigned => ?_
    exact meets_eat fun _ => meets_pure ht assigned

theorem declares_keywordGroup {keyword : Symbol} {item : (s : Stream) → Action (Shorter s)}
    (hitem : Declares setup inside item) : Declares setup inside (keywordGroup keyword item) := by
  intro stream s h hin hk
  unfold keywordGroup
  apply meets_eat
  rintro ⟨⟨⟩, s₁, h₁⟩
  refine (declares_group hitem s₁ s h hin (hk.behind h₁)).bind fun _ t ht _ assigned => ?_
  exact meets_pure ht assigned

/-! ### Groups that succeed -/

section Groups

variable {item : (s : Stream) → Action (Shorter s)} {I : Stream → Session → Prop}
  {R : Session → Session → Prop}

theorem yields_eat {wanted : Symbol} {rest : Shorter stream} {t : Session} :
    (eat wanted stream).Yields setup s rest t ↔ stream.skip? wanted = some rest ∧ t = s := by
  unfold eat
  constructor
  · intro h
    split at h
    · rename_i rest' hs
      obtain ⟨rfl, rfl⟩ := yields_pure.1 h
      exact ⟨hs, rfl⟩
    · exact absurd h not_yields_fail
  · rintro ⟨hs, rfl⟩
    rw [hs]
    exact yields_pure.2 ⟨rfl, rfl⟩

theorem yields_separator {closing : Symbol} {rest : Kept stream} {t : Session}
    (h : (separator closing stream).Yields setup s rest t) : t = s := by
  unfold separator at h
  split at h
  · exact (yields_pure.1 h).2
  · obtain ⟨_, _, eaten, done⟩ := yields_bind.1 h
    obtain ⟨_, rfl⟩ := yields_eat.1 eaten
    exact (yields_pure.1 done).2

variable {run : List Session}

theorem passes_eat_bind {α : Type} {wanted : Symbol} {f : Shorter stream → Action α} {v : α}
    {t : Session} (h : (eat wanted stream >>= f).PassesIn setup run s v t) :
    ∃ rest, stream.skip? wanted = some rest ∧ (f rest).PassesIn setup run s v t := by
  obtain ⟨rest, u, eaten, next⟩ := passes_bind h
  obtain ⟨skipped, rfl⟩ := yields_eat.1 eaten.yields
  exact ⟨rest, skipped, next⟩

theorem passes_separator_bind {α : Type} {closing : Symbol} {f : Kept stream → Action α} {v : α}
    {t : Session} (h : (separator closing stream >>= f).PassesIn setup run s v t) :
    ∃ rest, (f rest).PassesIn setup run s v t := by
  obtain ⟨rest, u, separated, next⟩ := passes_bind h
  obtain rfl := yields_separator separated.yields
  exact ⟨rest, next⟩

/-- What each item does, which leads to a place where another can be read, the whole group does. -/
theorem of_passes_groupItems (within : ∀ s stream rest, I stream s → rest.Within stream → I rest s)
    (hitem : ∀ stream s rest t, I stream s → (item stream).PassesIn setup run s rest t →
      I rest.stream t ∧ R s t)
    (refl : ∀ s, R s s) (trans : ∀ s t u, R s t → R t u → R s u) (stream : Stream) (s t : Session)
    (rest : Kept stream) (h : I stream s)
    (hy : (groupItems item stream).PassesIn setup run s rest t) : I rest.stream t ∧ R s t := by
  rw [groupItems] at hy
  split at hy
  · obtain ⟨rfl, rfl⟩ := passes_pure hy
    exact ⟨h, refl t⟩
  obtain ⟨⟨⟨⟩, s₁, h₁⟩, u, read, separates⟩ := passes_bind hy
  obtain ⟨first, item⟩ := hitem stream s _ u h read
  obtain ⟨⟨⟨⟩, s₂, h₂⟩, continues⟩ := passes_separator_bind separates
  obtain ⟨others, _, read, done⟩ := passes_bind continues
  obtain ⟨rfl, rfl⟩ := passes_pure done
  have hlt := (h₂.behind h₁).2
  obtain ⟨last, items⟩ := of_passes_groupItems within hitem refl trans s₂ _ _ others
    (within _ _ _ first h₂) read
  exact ⟨last, trans _ _ _ item items⟩
termination_by stream.size

theorem of_passes_keywordGroup {keyword : Symbol}
    (within : ∀ s stream rest, I stream s → rest.Within stream → I rest s)
    (hitem : ∀ stream s rest t, I stream s → (item stream).PassesIn setup run s rest t →
      I rest.stream t ∧ R s t)
    (refl : ∀ s, R s s) (trans : ∀ s t u, R s t → R t u → R s u) {t : Session}
    {rest : Shorter stream} (h : I stream s)
    (hy : (keywordGroup keyword item stream).PassesIn setup run s rest t) :
    I rest.stream t ∧ R s t := by
  unfold keywordGroup at hy
  obtain ⟨⟨⟨⟩, s₁, h₁⟩, _, grouped⟩ := passes_eat_bind hy
  obtain ⟨⟨⟨⟩, s₂, h₂⟩, _, read, done⟩ := passes_bind grouped
  obtain ⟨rfl, rfl⟩ := passes_pure done
  have h := within _ _ _ h h₁.within
  show I s₂ _ ∧ R _ _
  unfold group at read
  split at read
  · exact hitem s₁ _ _ _ h read
  · rename_i s₃ h₃ _
    obtain ⟨⟨⟨⟩, s₄, h₄⟩, _, items, closed⟩ := passes_bind read
    obtain ⟨⟨⟨⟩, s₅, h₅⟩, _, done⟩ := passes_eat_bind closed
    obtain ⟨he, rfl⟩ := passes_pure done
    obtain ⟨last, all⟩ := of_passes_groupItems within hitem refl trans s₃ _ _ _
      (within _ _ _ h h₃.within) items
    cases he
    exact ⟨within _ _ _ last h₅.within, all⟩

end Groups

/-! ### Types -/

/-- A forward type that is waiting has its identifier. -/
theorem forward_named {id? : Option IdentId} (h : s.Ready ∅)
    (hf : s.types.firstForward? = some id?) :
    ∃ id i, id? = some id ∧ s.idents.get? id = some i := by
  unfold TypeTable.firstForward? at hf
  obtain ⟨type, _, hf⟩ := List.exists_of_findSome?_eq_some hf
  split at hf
  · rename_i hk
    cases hf
    cases id? with
    | none => exact absurd hk (h.bound type)
    | some id =>
      obtain ⟨i, hi, _⟩ := h.forwards type id hk
      exact ⟨id, i, rfl, hi⟩
  · cases hf

theorem meets_checkForwards {may : Set Part} (h : s.Ready ∅) :
    checkForwards.Meets setup may ∅ (fun _ t => t = s ∧ s.types.firstForward? = none) s := by
  unfold checkForwards
  rw [meets_get]
  split
  · rename_i hf
    exact meets_pure h ⟨rfl, hf⟩
  · rename_i id? hf
    obtain ⟨id, i, rfl, hi⟩ := forward_named h hf
    rw [Option.bind_some, hi]
    exact meets_throw (of_decide_eq_false rfl)

/-- What changes identifiers only emits nothing. -/
theorem Meets.item {α : Type} {action : Action α}
    (h : action.Meets setup {.idents} ∅ (fun _ _ => True) s) :
    action.Meets setup (itemParts inside) ∅ (fun _ t => s.Assigns t) s :=
  h.mono (idents_subset_itemParts inside) (Set.Subset.refl _) fun _ _ _ e _ =>
    assigns_same (e.keeps.code nofun)

theorem meets_typeItem (h : s.Ready ∅) (hk : s.Knows stream) :
    (typeItem stream).Meets setup {.idents} ∅ (fun _ _ => True) s := by
  unfold typeItem
  apply (reads_declaredName hk).meets
  rintro ⟨declared, s₁, h₁⟩ hn
  apply meets_eat
  rintro ⟨⟨⟩, s₂, h₂⟩
  have hk := hk.behind (h₂.trans h₁)
  apply (meets_typeExpression h hk).bind
  rintro ⟨type, s₃, h₃⟩ t ht e hs
  have hn := e.grows.names _ hn
  exact (meets_declareType ht hs hn).bind fun _ u hu _ _ => meets_pure hu trivial

theorem declares_typeItem : Declares setup inside typeItem :=
  fun _ _ h _ hk => (meets_typeItem h hk).item

/-- At the end of a run of type declarations all forward types have been completed. -/
theorem meets_typeDeclaration (h : s.Ready ∅) (hin : s.At inside) (hk : s.Knows stream) :
    (typeDeclaration stream).Meets setup (itemParts inside) ∅ (fun rest t =>
      s.Assigns t ∧ (runGoesOn rest.stream = false → t.types.firstForward? = none)) s := by
  unfold typeDeclaration
  refine (declares_keywordGroup declares_typeItem stream s h hin hk).bind fun rest t ht _ assigned => ?_
  split
  · refine (meets_checkForwards ht).bind fun _ u hu _ hc => meets_pure hu ?_
    rw [hc.1]
    exact ⟨assigned, fun _ => hc.2⟩
  · rename_i more
    refine meets_pure ht ⟨assigned, fun ended => absurd ?_ more⟩
    rw [ended]
    rfl

theorem declares_typeDeclaration : Declares setup inside typeDeclaration :=
  fun _ _ h hin hk => (meets_typeDeclaration h hin hk).imp fun _ _ _ _ ht => ht.1

/-! ### Constants -/

theorem meets_constantItem (h : s.Ready ∅) (hk : s.Knows stream) :
    (constantItem stream).Meets setup {.idents} ∅ (fun _ _ => True) s := by
  unfold constantItem
  apply (reads_declaredName hk).meets
  rintro ⟨declared, s₁, h₁⟩ hn
  apply meets_eat
  rintro ⟨⟨⟩, s₂, h₂⟩
  refine ((meets_constantExpression h).allow (Set.empty_subset _)).bind fun r t ht e hv => ?_
  obtain ⟨⟨value, type⟩, s₃, h₃⟩ := r
  rw [meets_newIdent]
  have valid : (t.ident declared.name .constant declared.exported type (.constant value)
      declared.span).Valid ∅ t :=
    ht.ident hv.usable (fun _ => hv.solid) (e.grows.names _ hn) (hv.constant value rfl)
  have hm : Part.idents ∈ ({.idents} : Set Part) := rfl
  exact (meets_declare ht valid hv.solid rfl rfl nofun hm nofun).bind fun _ u hu _ _ => meets_pure hu trivial

theorem declares_constantItem : Declares setup inside constantItem :=
  fun _ _ h _ hk => (meets_constantItem h hk).item

theorem declares_constantDeclaration : Declares setup inside constantDeclaration :=
  declares_keywordGroup declares_constantItem

/-! ### Variables -/

theorem meets_declareVariables {type : TypeId} {names : List DeclaredName} (h : s.Ready ∅)
    (hin : s.At inside) (ht : s.Solid ∅ type) (hne : names ≠ [])
    (hn : ∀ d ∈ names, d.name ∈ s.names.texts) :
    (declareVariables type names).Meets setup (itemParts inside) ∅
      (fun payload t => (∃ name, t.Stores inside name type payload) ∧ t.IsNamed type ∧
        t.code = s.code) s := by
  induction names generalizing s with
  | nil => exact absurd rfl hne
  | cons declared more ih =>
    rw [declareVariables]
    have known := hn declared List.mem_cons_self
    apply (meets_declareVariable h hin ht known).bind
    rintro ⟨id, payload⟩ t ht' e ⟨stores, named, code⟩
    dsimp only
    split
    · exact meets_pure ht' ⟨⟨declared.name, stores⟩, named, code⟩
    · rename_i hm
      have known (d : DeclaredName) (hd : d ∈ more) : d.name ∈ t.names.texts :=
        e.grows.names _ (hn d (List.mem_cons_of_mem declared hd))
      refine (ih ht' (hin.evolves e) (ht.evolves e) (by simpa using hm) known).imp ?_
      exact fun _ u _ _ hu => ⟨hu.1, hu.2.1, hu.2.2.trans code⟩

/-- An initial value is folded at module scope and stored by code inside a function. -/
theorem meets_assignStorage {name : String} {type : TypeId} {payload : Payload} (h : s.Ready ∅)
    (hp : s.Stores inside name type payload) (ht : s.Usable ∅ type) (hs : s.Settles type) :
    (prepareStorage payload >>= fun slot? => assign type slot? stream).Meets setup
      (itemParts inside) ∅ (fun _ t => s.Assigns t) s := by
  unfold prepareStorage
  cases payload with
  | global slot =>
    obtain ⟨rfl, g, hg, rfl, _⟩ := hp
    refine ((meets_fold h hg).allow (globals_subset_itemParts false)).imp fun _ t _ e _ => ?_
    exact assigns_outside e
  | «local» offset =>
    obtain rfl : inside = true := hp
    have address : (emit (.localAddress offset)).Meets setup {.code} ∅ _ s :=
      meets_emitTypes h nofun rfl rfl
    rw [bind_assoc]
    refine (address.bind fun _ t ht' e addressed => ?_).allow code_subset_itemParts
    exact meets_storeAt (.local offset) ht' (ht.evolves e) (e.fixes.settles hs) addressed
  | _ => exact hp.elim

theorem declares_variableItem : Declares setup inside variableItem := by
  intro stream s h hin hk
  unfold variableItem
  have idents := idents_subset_itemParts inside
  apply (((meets_typedNames h hk).recall idents)).bind
  rintro ⟨⟨names, type⟩, s₁, h₁⟩ t ht _ ⟨e, hn⟩
  have hin := hin.evolves (e.mono idents)
  have read : s.Assigns t := assigns_same (e.keeps.code nofun)
  refine (meets_declareVariables ht hin hn.solid hn.nonempty hn.known).bind fun payload u hu e' hp => ?_
  obtain ⟨⟨name, hp⟩, named, code⟩ := hp
  have read := read.trans e'.fixes (assigns_same code)
  dsimp only
  split
  · exact meets_pure hu read
  · simp only [fail_bind]
    split
    · exact meets_fail rfl
    · have solid := hn.solid.evolves e'
      have settles : u.Settles type := ⟨⟨solid.usable.has, fun _ => .inl named⟩, solid.solid⟩
      rw [← bind_assoc]
      refine (meets_assignStorage hu hp solid.usable settles).bind fun _ v hv e'' stored => ?_
      exact meets_pure hv (read.trans e''.fixes stored)

theorem declares_variableDeclaration : Declares setup inside variableDeclaration :=
  declares_keywordGroup declares_variableItem

theorem declares_shortDeclaration : Declares setup inside shortDeclaration := by
  intro stream s h hin hk
  unfold shortDeclaration
  apply (reads_declaredName hk).meets
  rintro ⟨declared, s₁, h₁⟩ hn
  apply meets_eat
  rintro ⟨⟨⟩, s₂, h₂⟩
  exact (meets_declareInferred h hin hn).bind fun _ t ht _ assigned => meets_pure ht assigned

end FrontEnd.Action
