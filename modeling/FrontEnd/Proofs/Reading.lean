import FrontEnd.Proofs.Primitives
import FrontEnd.Expression.Reference

/-!
Reading words and references. Reading a word leaves the session as it is, and what is read is in the
table of names.
-/

namespace FrontEnd

namespace Stream

theorem kind_of_name? {s : Stream} {past : Past s String} (h : s.name? = some past) :
    s.kind = .ident past.value := by
  unfold name? at h
  split at h
  · rename_i name hn
    cases h
    unfold ident? at hn
    cases hk : s.kind <;> rw [hk] at hn <;> cases hn
    rfl
  · cases h

theorem ahead_advance {s : Stream} {word : Token} {rest : List Token} (h : s.ahead = word :: rest) :
    s.advance.ahead = rest := by
  simp [advance, h]

theorem ahead_of_skip? {s : Stream} {wanted : Symbol} {rest : Shorter s}
    (h : s.skip? wanted = some rest) :
    ∃ word, s.ahead = word :: rest.stream.ahead ∧ word.kind.symbol? = some wanted := by
  unfold skip? at h
  split at h
  · rename_i word words hs
    split at h
    · rename_i hw
      cases h
      exact ⟨word, hs.trans (congrArg _ (ahead_advance hs).symm), hw⟩
    · cases h
  · cases h

/-- The current word, unless the text ends here. -/
theorem mem_ahead_of_kind {s : Stream} {kind : TokenKind} (h : s.kind = kind)
    (he : kind ≠ .symbol .endOfFile) : ∃ token ∈ s.ahead, token.kind = kind := by
  unfold Stream.kind at h
  split at h
  · rename_i token rest ha
    exact ⟨token, by rw [ha]; exact List.mem_cons_self, h⟩
  · exact absurd h.symm he

end Stream

theorem Session.Knows.kind {s : Session} {stream : Stream} (h : s.Knows stream) {name : String}
    (hn : stream.kind.name? = some name) : name ∈ s.names.texts := by
  obtain ⟨token, ht, hk⟩ := stream.mem_ahead_of_kind rfl fun he => by rw [he] at hn; cases hn
  exact h token ht name (by rw [hk]; exact hn)

theorem Session.Knows.name {s : Session} {stream : Stream} (h : s.Knows stream)
    {past : Past stream String} (hn : stream.name? = some past) : past.value ∈ s.names.texts :=
  h.kind (by rw [Stream.kind_of_name? hn]; rfl)

namespace Action

variable {α : Type} {setup : Setup} {may : Set Part} {U : Set TypeId} {Q : α → Session → Prop}
  {s : Session} {stream : Stream}

theorem meets_skip {wanted : Symbol} {f : Shorter stream → Action α}
    (hf : ∀ rest, stream.skip? wanted = some rest → (f rest).Meets setup may U Q s) :
    (eat wanted stream >>= f).Meets setup may U Q s := by
  unfold eat
  split
  · rename_i rest hs
    exact hf rest hs
  · exact meets_fail rfl

theorem meets_eat {wanted : Symbol} {f : Shorter stream → Action α}
    (hf : ∀ rest, (f rest).Meets setup may U Q s) :
    (eat wanted stream >>= f).Meets setup may U Q s :=
  meets_skip fun rest _ => hf rest

theorem meets_eatName {f : Past stream String → Action α} (hk : s.Knows stream)
    (hf : ∀ past, past.value ∈ s.names.texts → (f past).Meets setup may U Q s) :
    (eatName stream >>= f).Meets setup may U Q s := by
  unfold eatName
  split
  · rename_i past hn
    exact hf past (hk.name hn)
  · exact meets_fail rfl

theorem meets_separator {closing : Symbol} {f : Kept stream → Action α}
    (hf : ∀ rest, (f rest).Meets setup may U Q s) :
    (separator closing stream >>= f).Meets setup may U Q s := by
  unfold separator
  split
  · exact hf _
  · rw [bind_assoc]
    exact meets_eat fun rest => hf rest.rest

/-! ### Declared names -/

/-- What a declared name or a list of them is like, if there is one. -/
def Reads {β : Type} (P : β → Prop) : Except Fault β → Prop
  | .ok v => P v
  | .error fault => fault.cause.category ≠ .internal

theorem Reads.bind {β γ : Type} {P : β → Prop} {R : γ → Prop} {x : Except Fault β}
    {f : β → Except Fault γ} (h : Reads P x) (hf : ∀ v, P v → Reads R (f v)) : Reads R (x >>= f) := by
  cases x with
  | ok v => exact hf v h
  | error fault => exact h

theorem Reads.meets {β : Type} {P : β → Prop} {x : Except Fault β} {f : β → Action α}
    (h : Reads P x) (hf : ∀ v, P v → (f v).Meets setup may U Q s) :
    (ofExcept x >>= f).Meets setup may U Q s := by
  cases x with
  | ok v => exact hf v h
  | error fault => exact meets_failAt h

theorem reads_declaredName (hk : s.Knows stream) :
    Reads (fun past => past.value.name ∈ s.names.texts) (DeclaredName.read stream) := by
  unfold DeclaredName.read
  split
  · rename_i hn
    exact hk.name hn
  · exact nofun

theorem meets_atEnd {f : Unit → Action α} (hf : (f ()).Meets setup may U Q s) :
    (atEnd stream >>= f).Meets setup may U Q s := by
  unfold atEnd Stream.check
  split
  · exact hf
  · exact meets_fail rfl

theorem proper_of_checkIdent {fault : Fault} (h : stream.checkIdent = .error fault) :
    fault.cause.category ≠ .internal := by
  unfold Stream.checkIdent at h
  split at h <;> cases h
  nofun

theorem reads_declaredNames (hk : s.Knows stream) (capacity : Nat) :
    Reads (fun past => past.value ≠ [] ∧ ∀ d ∈ past.value, d.name ∈ s.names.texts)
      (DeclaredName.readList capacity stream) := by
  induction capacity generalizing stream with
  | zero =>
    unfold DeclaredName.readList
    split
    · rename_i hc
      exact proper_of_checkIdent hc
    · exact nofun
  | succ room ih =>
    unfold DeclaredName.readList
    split
    · rename_i hc
      exact proper_of_checkIdent hc
    · apply (reads_declaredName hk).bind
      rintro ⟨declared, s₁, h₁⟩ hd
      dsimp only
      split
      · exact ⟨nofun, by simpa using hd⟩
      · rename_i comma _
        refine (ih (hk.behind (comma.lt.trans h₁))).bind fun more hm => ?_
        exact ⟨nofun, by simpa using ⟨hd, hm.2⟩⟩

/-! ### References -/

end Action

/-- What stands behind the dot of a reference is a name or a fault of the grammar. -/
def Reference.IsProper : Reference → Prop
  | .plain .. => True
  | .member _ _ name => ∀ fault, name = .error fault → fault.cause.category = .grammar

theorem Reference.isProper_of_read {isModule : String → Bool} {stream : Stream}
    {past : Past stream Reference} (h : Reference.read? isModule stream = some past) :
    past.value.IsProper := by
  obtain ⟨⟨first, s₁, h₁⟩, _, rfl⟩ := Option.map_eq_some_iff.1 h
  unfold readFrom
  dsimp only
  split
  · split
    · split
      · exact nofun
      · rintro _ ⟨⟩
        rfl
    · trivial
  · trivial

namespace Action

variable {α : Type} {setup : Setup} {may : Set Part} {U : Set TypeId} {Q : α → Session → Prop}
  {s : Session} {stream : Stream}

theorem meets_found {id? : Option IdentId} {cause : Cause} {span : Span}
    {f : IdentId × Ident → Action α} (hc : cause.category ≠ .internal)
    (hf : ∀ id i, s.idents.get? id = some i → (f (id, i)).Meets setup may U Q s) :
    (found id? cause span >>= f).Meets setup may U Q s := by
  unfold found
  split
  · exact meets_failAt hc
  · rename_i id
    rw [bind_assoc, meets_get]
    split
    · rename_i i hi
      exact hf id i hi
    · exact meets_failAt hc

theorem meets_resolve {r : Reference} {f : IdentId × Ident → Action α} (hr : r.IsProper)
    (hf : ∀ id i, s.idents.get? id = some i → (f (id, i)).Meets setup may U Q s) :
    (resolve r >>= f).Meets setup may U Q s := by
  unfold resolve
  rw [bind_assoc, meets_get]
  cases r with
  | plain name span => exact meets_found nofun hf
  | member file span member =>
    dsimp only
    split
    · exact meets_fail rfl
    · simp only [fail_bind]
      split
      · exact meets_fail rfl
      · simp only [bind_assoc]
        have reads : Reads (fun _ => True) member := by
          cases member with
          | ok name => trivial
          | error fault => exact fun internal => nomatch (hr fault rfl).symm.trans internal
        apply reads.meets
        rintro ⟨name, span⟩ _
        refine meets_found nofun fun id i hi => ?_
        split
        · exact meets_fail rfl
        · exact hf id i hi

theorem meets_reference {f : Past stream (IdentId × Ident) → Action α}
    (hf : ∀ past, s.idents.get? past.value.1 = some past.value.2 →
      (f past).Meets setup may U Q s) : (reference stream >>= f).Meets setup may U Q s := by
  unfold reference
  rw [bind_assoc, meets_get]
  split
  · rename_i r s' h hr
    rw [bind_assoc]
    exact meets_resolve (Reference.isProper_of_read hr) fun id i hi => hf ⟨(id, i), s', h⟩ hi
  · exact meets_fail rfl

end Action

end FrontEnd
