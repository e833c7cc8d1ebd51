import FrontEnd.Action

/-!
Reading words in steps of the front end. What is read comes with the rest of the stream and a proof
that the rest is the end of the stream before, and shorter where something was read; this is why
every loop and every recursion over a stream ends.
-/

namespace FrontEnd

/-- A value read from `s` and what is left of `s`. -/
structure Rest (s : Stream) (α : Type) where
  value : α
  stream : Stream
  le : stream.Within s

/-- A value read from `s` and what is left of `s` behind it. -/
structure Past (s : Stream) (α : Type) where
  value : α
  stream : Stream
  lt : stream.Behind s

/-- What is left of `s`. -/
abbrev Kept (s : Stream) := Rest s Unit

/-- What is left of `s`, without its first word. -/
abbrev Shorter (s : Stream) := Past s Unit

namespace Past

/-- Forgets that something was read. -/
def rest {s : Stream} {α : Type} (p : Past s α) : Rest s α :=
  ⟨p.value, p.stream, p.lt.within⟩

/-- What was read from `t`, where `t` is what is left of `s` behind some word. -/
def after {s t : Stream} {α : Type} (p : Past t α) (h : t.Behind s) : Past s α :=
  ⟨p.value, p.stream, p.lt.trans h⟩

/-- What was read from `t`, where `t` is what is left of `s`. -/
def within {s t : Stream} {α : Type} (p : Past t α) (h : t.Within s) : Past s α :=
  ⟨p.value, p.stream, p.lt.of_within h⟩

end Past

namespace Rest

/-- A value for which nothing was read. -/
def here {α : Type} (s : Stream) (value : α) : Rest s α :=
  ⟨value, s, .refl s⟩

/-- What was read from `t`, where `t` is what is left of `s` behind some word. -/
def after {s t : Stream} {α : Type} (r : Rest t α) (h : t.Behind s) : Past s α :=
  ⟨r.value, r.stream, r.le.behind h⟩

/-- What was read from `t`, where `t` is what is left of `s`. -/
def within {s t : Stream} {α : Type} (r : Rest t α) (h : t.Within s) : Rest s α :=
  ⟨r.value, r.stream, r.le.trans h⟩

end Rest

namespace Stream

/-- The stream behind the current word, if that is `wanted`. Nothing is behind the end of the
file. -/
def skip? (s : Stream) (wanted : Symbol) : Option (Shorter s) :=
  match h : s.ahead with
  | token :: _ =>
    if token.kind.symbol? = some wanted then some ⟨(), s.advance, advance_behind_of_ahead h⟩
    else none
  | [] => none

/-- The current name with the stream behind it. -/
def name? (s : Stream) : Option (Past s String) :=
  match h : s.ident? with
  | some name => some ⟨name, s.advance, advance_behind_of_ident? h⟩
  | none => none

/-- Passes an export mark, if there is one, and says whether there was. -/
def exportMark (s : Stream) : Rest s Bool :=
  match s.skip? (.operator .multiply) with
  | some ⟨(), s', h⟩ => (⟨true, s', h⟩ : Past s Bool).rest
  | none => .here s false

end Stream

namespace Action

/-- Passes the word `wanted` or fails. -/
def eat (wanted : Symbol) (s : Stream) : Action (Shorter s) :=
  match s.skip? wanted with
  | some rest => return rest
  | none => fail (.expected wanted.spelling s.kind.spelling) s.span

/-- Passes a name or fails. -/
def eatName (s : Stream) : Action (Past s String) :=
  match s.name? with
  | some past => return past
  | none => fail (.expected "identifier" s.kind.spelling) s.span

/-- Passes the semicolon between two entries of a list, which may be missing before `closing`. -/
def separator (closing : Symbol) (s : Stream) : Action (Kept s) := do
  if s.isAt closing then return .here s ()
  return (← eat .semicolon s).rest

/-- Fails unless the text ends here. -/
def atEnd (s : Stream) : Action Unit :=
  ofExcept (s.check .endOfFile)

end Action

/-- A name being declared, with its own export mark. -/
structure DeclaredName where
  name : String
  exported : Bool
  span : Span
deriving Repr, Inhabited

namespace DeclaredName

/-- A name with an optional export mark. -/
def read (s : Stream) : Except Fault (Past s DeclaredName) :=
  match s.name? with
  | some ⟨name, s₁, h₁⟩ =>
    let ⟨exported, s₂, h₂⟩ := s₁.exportMark.after h₁
    .ok ⟨⟨name, exported, s.span⟩, s₂, h₂⟩
  | none => .error ⟨.expected "identifier" s.kind.spelling, s.span⟩

/-- Names between commas, at most `capacity` of them. -/
def readList (capacity : Nat) (s : Stream) : Except Fault (Past s (List DeclaredName)) :=
  match s.checkIdent with
  | .error fault => .error fault
  | .ok _ =>
    match capacity with
    | 0 => .error ⟨.tooManyNames, s.span⟩
    | room + 1 => do
      let ⟨declared, s₁, h₁⟩ ← read s
      match s₁.skip? .comma with
      | none => return ⟨[declared], s₁, h₁⟩
      | some comma =>
        let ⟨(), s₂, h₂⟩ := comma.after h₁
        let ⟨more, s₃, h₃⟩ := (← readList room s₂).after h₂
        return ⟨declared :: more, s₃, h₃⟩

end DeclaredName

end FrontEnd
