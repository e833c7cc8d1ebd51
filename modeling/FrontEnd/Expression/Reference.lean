import FrontEnd.Reading

/-!
References to identifiers: a name, or a name in another module. Whether a name in front of a dot is
that of a module depends on the modules read so far; what a reference stands for, on the scopes.
-/

namespace FrontEnd

inductive Reference
  | plain (name : String) (span : Span)
  /-- The name behind the dot may be missing. -/
  | member (file : String) (span : Span) (name : Except Fault (String × Span))

namespace Reference

/-- Where a reference starts. -/
def span : Reference → Span
  | plain _ span => span
  | member _ span _ => span

/-- Reads a reference whose first name is `name`. -/
def readFrom (isModule : String → Bool) (s : Stream) (name : Past s String) : Past s Reference :=
  let ⟨first, s₁, h₁⟩ := name
  match s₁.skip? .dot with
  | some dot =>
    if isModule first then
      let ⟨(), s₂, h₂⟩ := dot.after h₁
      match s₂.name? with
      | some second =>
        let ⟨second, s₃, h₃⟩ := second.after h₂
        ⟨.member first s.span (.ok (second, s₂.span)), s₃, h₃⟩
      | none =>
        ⟨.member first s.span (.error ⟨.expected "identifier" s₂.kind.spelling, s₂.span⟩), s₂, h₂⟩
    else ⟨.plain first s.span, s₁, h₁⟩
  | none => ⟨.plain first s.span, s₁, h₁⟩

/-- Reads a reference, if the current word is a name. -/
def read? (isModule : String → Bool) (s : Stream) : Option (Past s Reference) :=
  s.name?.map (readFrom isModule s)

end Reference

namespace Session

/-- Whether a name is that of a module read so far. -/
def isModule (s : Session) (name : String) : Bool :=
  (s.modules.findByName? name).isSome

end Session

namespace Action

/-- An identifier that was found by name. -/
def found (id? : Option IdentId) (cause : Cause) (span : Span) : Action (IdentId × Ident) := do
  match id? with
  | none => fail cause span
  | some id =>
    match (← get).idents.get? id with
    | some ident => return (id, ident)
    | none => fail cause span

/-- What a reference stands for. Another module has to be imported by this one, and only its
exported identifiers can be referred to. -/
def resolve (r : Reference) : Action (IdentId × Ident) := do
  let s ← get
  match r with
  | .plain name span => found (s.idents.find? s.blocks name) (.unknownName name) span
  | .member file span member =>
    match s.modules.findImportedByName? s.blocks.module file with
    | none => fail (.unknownModule file) span
    | some module =>
      if !s.modules.imports s.blocks.module module then fail (.moduleNotImported file) span
      let (name, span) ← ofExcept member
      let (id, ident) ← found (s.idents.findInModule? module name) (.unknownMember file name) span
      if !ident.exported then fail (.memberNotExported file name) span
      return (id, ident)

/-- Reads a reference and finds what it stands for. -/
def reference (s : Stream) : Action (Past s (IdentId × Ident)) := do
  match Reference.read? (← get).isModule s with
  | some ⟨r, s', h⟩ => return ⟨← resolve r, s', h⟩
  | none => fail (.expected "identifier" s.kind.spelling) s.span

end Action

end FrontEnd
