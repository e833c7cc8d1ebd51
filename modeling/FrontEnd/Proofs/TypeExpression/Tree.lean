import FrontEnd.Proofs.Expression.Rendering

/-!
Type expressions as trees: how they are written, and what they stand for in a table of types. A tree
stands for a type that is built like it; only its names stand for types that were there before.
-/

namespace FrontEnd

mutual

/-- A type expression. -/
inductive TypeTree
  | name (reference : Reference)
  | pointer (base : TypeTree)
  /-- An open array has no length. -/
  | array (length? : Option Int64) (base : TypeTree)
  /-- A string type without a capacity of its own has the default one. -/
  | text (capacity? : Option Int64)
  | struct (fields : GroupTrees)
  | interface (methods : MethodTrees)
  | function (signature : SignatureTree)

/-- Groups of names, each with a common type: the fields of a structure, or parameters. -/
inductive GroupTrees
  | nil
  | cons (names : List String) (type : TypeTree) (others : GroupTrees)

inductive MethodTrees
  | nil
  | cons (name : String) (signature : SignatureTree) (others : MethodTrees)

inductive SignatureTree
  | procedure (parameters : GroupTrees)
  | function (parameters : GroupTrees) (result : TypeTree)

end

namespace GroupTrees

def names : GroupTrees → List String
  | nil => []
  | cons group _ others => group ++ others.names

end GroupTrees

namespace MethodTrees

def names : MethodTrees → List String
  | nil => []
  | cons name _ others => name :: others.names

end MethodTrees

/-! ### The words of a tree -/

/-- The words of a list of names. -/
inductive NamesWrittenAs : List String → List Token → Prop
  | single (name : String) (span : Span) : NamesWrittenAs [name] [⟨.ident name, span⟩]
  | cons (name : String) (span comma : Span) {names : List String} {words : List Token}
      (written : NamesWrittenAs names words) :
      NamesWrittenAs (name :: names) (⟨.ident name, span⟩ :: ⟨.symbol .comma, comma⟩ :: words)

/-- The words between the brackets of an array. -/
inductive LengthWrittenAs : Option Int64 → List Token → Prop
  | missing : LengthWrittenAs none []
  | given {n : Int64} (h : 0 ≤ n) (span : Span) : LengthWrittenAs (some n) [⟨.int n, span⟩]

mutual

inductive TypeTree.WrittenAs (isModule : String → Bool) : TypeTree → List Token → Prop
  | name {r : Reference} {words : List Token} (written : r.WrittenAs isModule words) :
      TypeTree.WrittenAs isModule (.name r) words
  | pointer {base : TypeTree} {words : List Token} (caret : Span)
      (written : base.WrittenAs isModule words) :
      TypeTree.WrittenAs isModule (.pointer base) (⟨.symbol .caret, caret⟩ :: words)
  | array {length? : Option Int64} {base : TypeTree} {inside words : List Token} (opening : Span)
      (measured : LengthWrittenAs length? inside) (closing : Span)
      (written : base.WrittenAs isModule words) :
      TypeTree.WrittenAs isModule (.array length? base)
        (⟨.symbol .openBracket, opening⟩ ::
          (inside ++ ⟨.symbol .closeBracket, closing⟩ :: words))
  | text (span : Span) : TypeTree.WrittenAs isModule (.text none) [⟨.symbol .strWord, span⟩]
  | textOf {n : Int64} {inside : List Token} (span opening : Span)
      (measured : LengthWrittenAs (some n) inside) (closing : Span) :
      TypeTree.WrittenAs isModule (.text (some n))
        (⟨.symbol .strWord, span⟩ :: ⟨.symbol .openBracket, opening⟩ ::
          (inside ++ [⟨.symbol .closeBracket, closing⟩]))
  | struct {fields : GroupTrees} {words : List Token} (span opening : Span)
      (written : fields.FieldsWrittenAs isModule words) (closing : Span) :
      TypeTree.WrittenAs isModule (.struct fields)
        (⟨.symbol .structWord, span⟩ :: ⟨.symbol .openCurly, opening⟩ ::
          (words ++ [⟨.symbol .closeCurly, closing⟩]))
  | interface {methods : MethodTrees} {words : List Token} (span opening : Span)
      (written : methods.WrittenAs isModule words) (closing : Span) :
      TypeTree.WrittenAs isModule (.interface methods)
        (⟨.symbol .interfaceWord, span⟩ :: ⟨.symbol .openCurly, opening⟩ ::
          (words ++ [⟨.symbol .closeCurly, closing⟩]))
  | function {signature : SignatureTree} {words : List Token} (span : Span)
      (written : signature.WrittenAs isModule words) :
      TypeTree.WrittenAs isModule (.function signature) (⟨.symbol .fnWord, span⟩ :: words)

/-- The words between the brackets of a structure. The semicolon behind the last group may be
missing. -/
inductive GroupTrees.FieldsWrittenAs (isModule : String → Bool) : GroupTrees → List Token → Prop
  | nil : GroupTrees.FieldsWrittenAs isModule .nil []
  | last {names : List String} {type : TypeTree} {before words : List Token}
      (named : NamesWrittenAs names before) (colon : Span)
      (written : type.WrittenAs isModule words) :
      GroupTrees.FieldsWrittenAs isModule (.cons names type .nil)
        (before ++ ⟨.symbol .colon, colon⟩ :: words)
  | cons {names : List String} {type : TypeTree} {others : GroupTrees}
      {before words behind : List Token} (named : NamesWrittenAs names before) (colon : Span)
      (written : type.WrittenAs isModule words) (semicolon : Span)
      (rest : others.FieldsWrittenAs isModule behind) :
      GroupTrees.FieldsWrittenAs isModule (.cons names type others)
        (before ++ ⟨.symbol .colon, colon⟩ :: (words ++ ⟨.symbol .semicolon, semicolon⟩ :: behind))

/-- The words of at least one group of parameters. -/
inductive GroupTrees.ParametersWrittenAs (isModule : String → Bool) :
    GroupTrees → List Token → Prop
  | last {names : List String} {type : TypeTree} {before words : List Token}
      (named : NamesWrittenAs names before) (colon : Span)
      (written : type.WrittenAs isModule words) :
      GroupTrees.ParametersWrittenAs isModule (.cons names type .nil)
        (before ++ ⟨.symbol .colon, colon⟩ :: words)
  | cons {names : List String} {type : TypeTree} {others : GroupTrees}
      {before words behind : List Token} (named : NamesWrittenAs names before) (colon : Span)
      (written : type.WrittenAs isModule words) (comma : Span)
      (rest : others.ParametersWrittenAs isModule behind) :
      GroupTrees.ParametersWrittenAs isModule (.cons names type others)
        (before ++ ⟨.symbol .colon, colon⟩ :: (words ++ ⟨.symbol .comma, comma⟩ :: behind))

/-- The words between the brackets of an interface. The semicolon behind the last method may be
missing. -/
inductive MethodTrees.WrittenAs (isModule : String → Bool) : MethodTrees → List Token → Prop
  | nil : MethodTrees.WrittenAs isModule .nil []
  | last {signature : SignatureTree} {words : List Token} (name : String) (span : Span)
      (written : signature.WrittenAs isModule words) :
      MethodTrees.WrittenAs isModule (.cons name signature .nil) (⟨.ident name, span⟩ :: words)
  | cons {signature : SignatureTree} {others : MethodTrees} {words behind : List Token}
      (name : String) (span : Span) (written : signature.WrittenAs isModule words)
      (semicolon : Span) (rest : others.WrittenAs isModule behind) :
      MethodTrees.WrittenAs isModule (.cons name signature others)
        (⟨.ident name, span⟩ :: (words ++ ⟨.symbol .semicolon, semicolon⟩ :: behind))

inductive SignatureTree.WrittenAs (isModule : String → Bool) : SignatureTree → List Token → Prop
  | procedure {parameters : GroupTrees} {words : List Token} (opening : Span)
      (written : parameters.ListWrittenAs isModule words) (closing : Span) :
      SignatureTree.WrittenAs isModule (.procedure parameters)
        (⟨.symbol .openParen, opening⟩ :: (words ++ [⟨.symbol .closeParen, closing⟩]))
  | function {parameters : GroupTrees} {result : TypeTree} {words behind : List Token}
      (opening : Span) (written : parameters.ListWrittenAs isModule words) (closing colon : Span)
      (answers : result.WrittenAs isModule behind) :
      SignatureTree.WrittenAs isModule (.function parameters result)
        (⟨.symbol .openParen, opening⟩ :: (words ++ ⟨.symbol .closeParen, closing⟩ ::
          ⟨.symbol .colon, colon⟩ :: behind))

/-- The words between the parentheses of a signature. -/
inductive GroupTrees.ListWrittenAs (isModule : String → Bool) : GroupTrees → List Token → Prop
  | nil : GroupTrees.ListWrittenAs isModule .nil []
  | some {parameters : GroupTrees} {words : List Token}
      (written : parameters.ParametersWrittenAs isModule words) :
      GroupTrees.ListWrittenAs isModule parameters words

end

mutual

/-- The symbol that would go on with a tree behind its words. -/
def TypeTree.goesOn? (isModule : String → Bool) : TypeTree → Option Symbol
  | .name r => r.plain?.bind fun name => if isModule name then some .dot else none
  | .pointer base => base.goesOn? isModule
  | .array _ base => base.goesOn? isModule
  | .text none => some .openBracket
  | .text (some _) => none
  | .struct _ => none
  | .interface _ => none
  | .function signature => signature.goesOn? isModule

def SignatureTree.goesOn? (isModule : String → Bool) : SignatureTree → Option Symbol
  | .procedure _ => some .colon
  | .function _ result => result.goesOn? isModule

end

mutual

theorem TypeTree.mem_goesOn? {isModule : String → Bool} {symbol : Symbol} (tree : TypeTree)
    (h : symbol ∈ tree.goesOn? isModule) : symbol ∈ [Symbol.dot, .openBracket, .colon] := by
  cases tree with
  | name r =>
    obtain ⟨name, _, h⟩ := Option.bind_eq_some_iff.1 h
    split at h
    · cases h
      decide
    · cases h
  | pointer base => exact base.mem_goesOn? h
  | array length? base => exact base.mem_goesOn? h
  | text capacity? =>
    cases capacity? with
    | none =>
      cases h
      decide
    | some n => cases h
  | struct fields => cases h
  | interface methods => cases h
  | function signature => exact signature.mem_goesOn? h

theorem SignatureTree.mem_goesOn? {isModule : String → Bool} {symbol : Symbol}
    (tree : SignatureTree) (h : symbol ∈ tree.goesOn? isModule) :
    symbol ∈ [Symbol.dot, .openBracket, .colon] := by
  cases tree with
  | procedure parameters =>
    cases h
    decide
  | function parameters result => exact result.mem_goesOn? h

end

/-! ### What a tree asks for -/

namespace Session

/-- The type that a reference stands for. -/
def typeOf? (setup : Setup) (s : Session) (r : Reference) : Option TypeId :=
  match (Action.resolve r).run setup s with
  | .ok (_, ident) _ => if ident.kind = .type then some ident.type else none
  | .error .. => none

end Session

/-- The room that a string type has; one more than the default length is for a terminator. -/
def textCapacity? (setup : Setup) : Option Int64 → Option Int64
  | some n => some n
  | none => Word.add? setup.settings.defaultTextLength 1

/-- The size of an array by that of its elements. -/
def arraySize? : Option Int64 → Int64 → Option Int64
  | some n, size => Word.mul? n size
  | none, _ => some openArraySize

/-- Where `count` entries of one size end, if the first one begins at `start`. -/
def Word.endOf? (size : Int64) : Nat → Int64 → Option Int64
  | 0, start => some start
  | count + 1, start => (Word.add? start size).bind (Word.endOf? size count)

variable (setup : Setup) (s : Session)

namespace TypeTree

/-- The tree is the name of a type, perhaps of one that is not declared yet. -/
def IsTypeName : TypeTree → Prop
  | name r => ∃ id, s.typeOf? setup r = some id
  | _ => False

def isStructured : TypeTree → Bool
  | name r => (s.typeOf? setup r).any s.types.isStructured
  | pointer _ => false
  | array .. => true
  | text _ => true
  | struct _ => true
  | interface _ => true
  | function _ => false

end TypeTree

mutual

/-- All names stand for types that have been declared, except directly behind `^`, where they may
stand for any type; names in a structure are distinct, and groups not too long. -/
def TypeTree.Proper : TypeTree → Prop
  | .name r => ∃ id, s.typeOf? setup r = some id ∧ s.types.isForward id = false
  | .pointer base => base.IsTypeName setup s ∨ base.Proper
  | .array _ base => base.Proper
  | .text _ => True
  | .struct fields => fields.Proper maxFields ∧ fields.names.Nodup
  | .interface methods => methods.Proper ∧ (selfName :: methods.names).Nodup
  | .function signature => signature.Proper

def GroupTrees.Proper : GroupTrees → Nat → Prop
  | .nil, _ => True
  | .cons names type others, capacity =>
    names.length ≤ capacity ∧ type.Proper ∧ others.Proper capacity

def MethodTrees.Proper : MethodTrees → Prop
  | .nil => True
  | .cons _ signature others => signature.Proper ∧ others.Proper

def SignatureTree.Proper : SignatureTree → Prop
  | .procedure parameters => parameters.Proper maxParameters
  | .function parameters result => parameters.Proper maxParameters ∧ result.Proper

end

mutual

/-- The bytes that a type takes, if its own size and all sizes in it are words. -/
def TypeTree.size? : TypeTree → Option Int64
  | .name r => (s.typeOf? setup r).bind s.types.size?
  | .pointer base => base.size?.map fun _ => pointerSize
  | .array length? base => base.size?.bind (arraySize? length?)
  | .text capacity? => textCapacity? setup capacity?
  | .struct fields => fields.end? 0
  | .interface methods => methods.end? pointerSize
  | .function signature => (signature.end? 0).map fun _ => pointerSize

/-- Where the entries of the groups end, if the first one begins at `start`. -/
def GroupTrees.end? : GroupTrees → Int64 → Option Int64
  | .nil, start => some start
  | .cons names type others, start => type.size?.bind fun size =>
    (Word.endOf? size names.length start).bind others.end?

def MethodTrees.end? : MethodTrees → Int64 → Option Int64
  | .nil, start => some start
  | .cons _ signature others, start => (signature.end? pointerSize).bind fun _ =>
    (Word.add? start pointerSize).bind others.end?

/-- Where the parameters end; the last one is hidden if the result is structured. -/
def SignatureTree.end? : SignatureTree → Int64 → Option Int64
  | .procedure parameters, start => parameters.end? start
  | .function parameters result, start => (parameters.end? start).bind fun stop =>
    result.size?.bind fun _ =>
      if result.isStructured setup s then Word.add? stop pointerSize else some stop

end

/-! ### What a tree stands for -/

/-- The name and the type of a field. -/
def Field.entry (f : Field) : String × TypeId := (f.name, f.type)

/-- The name and the type of a parameter. -/
def Parameter.entry (p : Parameter) : String × TypeId := (p.name, p.type)

namespace Signature

/-- The parameters of a signature, none of which has a default value, and its result. -/
structure Lists (c : Signature) (entries : List (String × TypeId)) (result : TypeId) : Prop where
  parameters : c.parameters.map Parameter.entry = entries
  plain : ∀ p ∈ c.parameters, p.default? = none
  defaults : c.defaults = 0
  results : c.results = [result]

/-- Behind the parameters stands a hidden one if the result is structured. It points at the
result. -/
def Answers (c : Signature) (first : Nat) (t : TypeTable) (entries : List (String × TypeId))
    (result : TypeId) : Bool → Prop
  | false => c.Lists entries result
  | true => ∃ pointer, first ≤ pointer.index ∧ t.kind pointer = .pointer result ∧
      c.Lists (entries ++ [(resultName, pointer)]) result

end Signature

variable (first : Nat) (t : TypeTable)

mutual

/-- The type `id` is built like the tree, from types with numbers from `first` on. Names stand for
what they stand for in `s`. -/
def TypeTree.Denotes : TypeTree → TypeId → Prop
  | .name r, id => s.typeOf? setup r = some id
  | .pointer base, id => first ≤ id.index ∧ ∃ b, t.kind id = .pointer b ∧ base.Denotes b
  | .array length? base, id => first ≤ id.index ∧
      ∃ b, t.kind id = .array b (length?.getD openLength) ∧ base.Denotes b
  | .text capacity?, id => first ≤ id.index ∧
      ∃ n, textCapacity? setup capacity? = some n ∧ t.kind id = .text n
  | .struct fields, id => first ≤ id.index ∧
      ∃ members, t.kind id = .struct members ∧ fields.Denotes (members.map Field.entry)
  | .interface methods, id => first ≤ id.index ∧
      ∃ members others, t.kind id = .interface members ∧
        members.map Field.entry = (selfName, .anyPointer) :: others ∧ methods.Denotes others
  | .function signature, id => first ≤ id.index ∧
      ∃ c, t.kind id = .function c ∧ c.isMethod = false ∧ signature.Denotes [] c

/-- The groups list the entries one after the other. -/
def GroupTrees.Denotes : GroupTrees → List (String × TypeId) → Prop
  | .nil, entries => entries = []
  | .cons names type others, entries => ∃ id rest, type.Denotes id ∧ others.Denotes rest ∧
      entries = names.map (·, id) ++ rest

/-- The methods have the entries as their types. The first parameter of each is the object
itself. -/
def MethodTrees.Denotes : MethodTrees → List (String × TypeId) → Prop
  | .nil, entries => entries = []
  | .cons name signature others, entries => ∃ id c rest, first ≤ id.index ∧
      t.kind id = .function c ∧ c.isMethod = true ∧
      signature.Denotes [(selfName, .anyPointer)] c ∧ others.Denotes rest ∧
      entries = (name, id) :: rest

/-- The signature has the parameters `before` and those of the tree. -/
def SignatureTree.Denotes : SignatureTree → List (String × TypeId) → Signature → Prop
  | .procedure parameters, before, c => ∃ own, parameters.Denotes own ∧
      c.Answers first t (before ++ own) .void false
  | .function parameters result, before, c => ∃ own id, parameters.Denotes own ∧
      result.Denotes id ∧ c.Answers first t (before ++ own) id (result.isStructured setup s)

end

/-! ### Other tables -/

/-- The types of `t` with numbers from `first` on have the same kinds in `u`. -/
def TypeTable.KeepsFrom (first : Nat) (t u : TypeTable) : Prop :=
  ∀ id : TypeId, first ≤ id.index → id.index < t.size → u.kind id = t.kind id

section Keeps

variable {setup : Setup} {s : Session} {first lower : Nat} {t u : TypeTable}

theorem TypeTable.KeepsFrom.kind (keeps : t.KeepsFrom first u) {id : TypeId} {kind : TypeKind}
    (from_ : first ≤ id.index) (hk : t.kind id = kind) (new : kind ≠ .builtin .void) :
    u.kind id = kind := by
  subst hk
  exact keeps id from_ (TypeTable.index_lt_of_kind_ne new)

theorem Signature.Answers.keeps {c : Signature} {entries : List (String × TypeId)}
    {result : TypeId} {structured : Bool} (h : c.Answers first t entries result structured)
    (keeps : t.KeepsFrom first u) (le : lower ≤ first) :
    c.Answers lower u entries result structured := by
  cases structured with
  | false => exact h
  | true =>
    obtain ⟨pointer, from_, kind, lists⟩ := h
    exact ⟨pointer, le.trans from_, keeps.kind from_ kind (by simp), lists⟩

mutual

/-- A tree stands for the same type wherever the new types have kept their kinds. -/
theorem TypeTree.Denotes.keeps {tree : TypeTree} {id : TypeId}
    (h : tree.Denotes setup s first t id) (keeps : t.KeepsFrom first u) (le : lower ≤ first) :
    tree.Denotes setup s lower u id := by
  cases tree with
  | name r => exact h
  | pointer base =>
    obtain ⟨from_, b, kind, h⟩ := h
    exact ⟨le.trans from_, b, keeps.kind from_ kind (by simp), h.keeps keeps le⟩
  | array length? base =>
    obtain ⟨from_, b, kind, h⟩ := h
    exact ⟨le.trans from_, b, keeps.kind from_ kind (by simp), h.keeps keeps le⟩
  | text capacity? =>
    obtain ⟨from_, n, room, kind⟩ := h
    exact ⟨le.trans from_, n, room, keeps.kind from_ kind (by simp)⟩
  | struct fields =>
    obtain ⟨from_, members, kind, h⟩ := h
    exact ⟨le.trans from_, members, keeps.kind from_ kind (by simp), h.keeps keeps le⟩
  | interface methods =>
    obtain ⟨from_, members, others, kind, self, h⟩ := h
    exact ⟨le.trans from_, members, others, keeps.kind from_ kind (by simp), self,
      h.keeps keeps le⟩
  | function signature =>
    obtain ⟨from_, c, kind, plain, h⟩ := h
    exact ⟨le.trans from_, c, keeps.kind from_ kind (by simp), plain, h.keeps keeps le⟩

theorem GroupTrees.Denotes.keeps {groups : GroupTrees} {entries : List (String × TypeId)}
    (h : groups.Denotes setup s first t entries) (keeps : t.KeepsFrom first u)
    (le : lower ≤ first) : groups.Denotes setup s lower u entries := by
  cases groups with
  | nil => exact h
  | cons names type others =>
    obtain ⟨id, rest, h, hr, split⟩ := h
    exact ⟨id, rest, h.keeps keeps le, hr.keeps keeps le, split⟩

theorem MethodTrees.Denotes.keeps {methods : MethodTrees} {entries : List (String × TypeId)}
    (h : methods.Denotes setup s first t entries) (keeps : t.KeepsFrom first u)
    (le : lower ≤ first) : methods.Denotes setup s lower u entries := by
  cases methods with
  | nil => exact h
  | cons name signature others =>
    obtain ⟨id, c, rest, from_, kind, method, h, hr, split⟩ := h
    exact ⟨id, c, rest, le.trans from_, keeps.kind from_ kind (by simp), method,
      h.keeps keeps le, hr.keeps keeps le, split⟩

theorem SignatureTree.Denotes.keeps {signature : SignatureTree}
    {before : List (String × TypeId)} {c : Signature}
    (h : signature.Denotes setup s first t before c) (keeps : t.KeepsFrom first u)
    (le : lower ≤ first) : signature.Denotes setup s lower u before c := by
  cases signature with
  | procedure parameters =>
    obtain ⟨own, h, answers⟩ := h
    exact ⟨own, h.keeps keeps le, answers.keeps keeps le⟩
  | function parameters result =>
    obtain ⟨own, id, h, hr, answers⟩ := h
    exact ⟨own, id, h.keeps keeps le, hr.keeps keeps le, answers.keeps keeps le⟩

end

end Keeps

end FrontEnd
