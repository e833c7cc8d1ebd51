import FrontEnd.Proofs.Calls.Declaration
import FrontEnd.Program

/-!
The tasks of a compilation: the program, its files and their imports, and the readers of
declarations. A task calls others as parts of its own run, and every step of it is its own or one of
a task that it calls.
-/

namespace FrontEnd

namespace Action

open Session

/-- An import clause, the imports of its group, or one of them. -/
inductive ImportPart
  | clause
  | items
  | item
deriving DecidableEq, Repr

/-- What is being done, from the session on that it starts with. A file and its imports may import
others `levels` deep. -/
inductive Task
  | program (root : String) (session : Session)
  | file (levels : Nat) (path : Path) (session : Session)
  | imports (part : ImportPart) (levels : Nat) (stream : Stream) (session : Session)
  | reading (reading : Reading)

namespace Task

def session : Task → Session
  | program _ s | file _ _ s | imports _ _ _ s => s
  | reading r => r.session

/-- The sessions that a task writes. -/
def trace (setup : Setup) : Task → List Session
  | program root s => (Action.program root).trace setup s
  | file levels path s => (readModule levels path).trace setup s
  | imports .clause levels stream s => (importClause (loader? levels) stream).trace setup s
  | imports .items levels stream s => (importItems (loader? levels) stream).trace setup s
  | imports .item levels stream s => (importItem (loader? levels) stream).trace setup s
  | reading r => r.nonterminal.trace setup r.stream r.session

/-- The sessions that a task goes through. -/
def sessions (c : Task) (setup : Setup) : List Session :=
  c.session :: c.trace setup

/-- Where a task calls another one. The hypotheses of each case say how what stands in front of that
place has been passed. -/
inductive Reads (setup : Setup) : Task → Task → Prop
  | root {root : String} {s t : Session} {a : Nat} (reserved : (emit .nop).Yields setup s a t) :
    Reads setup (.program root s)
      (.file (setup.settings.maxImportDepth - 1) (Path.normalize root) t)
  | clause {levels : Nat} {path : Path} {s t u : Session} {stream : Stream} {id : ModuleId}
    (opened : (openFile path.toText).Yields setup s stream t)
    (begun : (openModule path.toText).Yields setup (t.enterFile path.toText) id u)
    (word : stream.isAt .importWord = true) :
    Reads setup (.file levels path s) (.imports .clause levels stream u)
  | declarations {levels : Nat} {path : Path} {s t u v : Session} {stream : Stream} {id : ModuleId}
    {rest : Kept stream} (opened : (openFile path.toText).Yields setup s stream t)
    (begun : (openModule path.toText).Yields setup (t.enterFile path.toText) id u)
    (imported : (optionalImports (loader? levels) stream).Yields setup u rest v) :
    Reads setup (.file levels path s) (.reading ⟨.declarations, rest.stream, v⟩)
  | single {levels : Nat} {stream : Stream} {s : Session} {first : Shorter stream}
    (word : stream.skip? .importWord = some first) (alone : first.stream.skip? .openParen = none) :
    Reads setup (.imports .clause levels stream s) (.imports .item levels first.stream s)
  | group {levels : Nat} {stream : Stream} {s : Session} {first : Shorter stream}
    {paren : Shorter first.stream} (word : stream.skip? .importWord = some first)
    (opened : first.stream.skip? .openParen = some paren) :
    Reads setup (.imports .clause levels stream s) (.imports .items levels paren.stream s)
  | firstItem {levels : Nat} {stream : Stream} {s : Session}
    (given : (importLiteral? stream).isNone = false) :
    Reads setup (.imports .items levels stream s) (.imports .item levels stream s)
  | nextItems {levels : Nat} {stream : Stream} {s t u : Session} {first : Shorter stream}
    {rest : Kept first.stream} (given : (importLiteral? stream).isNone = false)
    (read : (importItem (loader? levels) stream).Yields setup s first t)
    (between : (separator .closeParen first.stream).Yields setup t rest u) :
    Reads setup (.imports .items levels stream s) (.imports .items levels rest.stream u)
  | file {levels : Nat} {stream : Stream} {s : Session} {literal : Past stream String}
    (given : importLiteral? stream = some literal)
    (unread : s.modules.findByPath?
      (Path.ofImport (s.modules.folder s.blocks.module) literal.value).toText = none) :
    Reads setup (.imports .item (levels + 1) stream s)
      (.file levels (Path.ofImport (s.modules.folder s.blocks.module) literal.value) s)
  | reading {r c : Reading} (h : Reading.Calls setup r c) :
    Reads setup (.reading r) (.reading c)

/-- While a task is at work it calls another one, whose run is a part of its own. -/
structure Calls (setup : Setup) (c d : Task) : Prop where
  reads : Reads setup c d
  within : d.sessions setup <:+: c.sessions setup

/-- What a task writes itself. Readers spare modules and finished structures; the other tasks spare
all types, and only a file is one import deeper than what it is imported by. -/
def Own (c : Task) (s t : Session) : Prop :=
  match c with
  | reading r => s.Spares r.owner? t
  | file _ _ outer =>
    t.types = s.types ∧ t.importDepth ≤ max s.importDepth (outer.importDepth + 1)
  | program .. | imports .. => t.types = s.types ∧ t.importDepth ≤ s.importDepth

end Task

variable {α : Type} {setup : Setup} {run : List Session} {R : Session → Session → Prop}
  {s : Session} {stream : Stream} {levels : Nat} {path : Path}

/-! ### The steps of a task -/

/-- Each step of a reader is one of its own or one of a reader that it calls. -/
theorem Reading.Makes.isChain {r : Reading} (h : r.Makes setup run R)
    (within : r.sessions setup <:+: run) : (r.sessions setup).IsChain R := by
  obtain ⟨nonterminal, stream, s⟩ := r
  cases nonterminal with
  | declarations => exact steps_declarations h within
  | declaration => exact steps_declaration h within
  | group => exact steps_group h within
  | items => exact steps_groupItems h within
  | item => exact steps_item h within
  | shortDeclaration => exact steps_shortDeclaration h within
  | functionDeclaration => exact steps_functionDeclaration h within
  | receiver => exact steps_receiver h within
  | functionBody => exact steps_functionBody h within
  | statements => exact steps_statements h within
  | statement => exact steps_statement h within
  | block => exact steps_block h within
  | blockBody => exact steps_blockBody h within
  | returnStatement => exact steps_returnStatement h within
  | assignment => exact steps_assignment h within
  | typeExpression => exact steps_typeExpression h within
  | pointerType => exact steps_pointerType h within
  | arrayType => exact steps_arrayType h within
  | textType => exact steps_textType h within
  | structType => exact steps_structType h within
  | structFields => exact steps_structFields h within
  | interfaceType => exact steps_interfaceType h within
  | interfaceMethods => exact steps_interfaceMethods h within
  | functionType => exact steps_functionType h within
  | typedNames => exact steps_typedNames h within
  | signature => exact steps_signature h within
  | parameterGroups => exact steps_parameterGroups h within
  | expression => exact steps_expression h within
  | names | above | operand | operators => exact .singleton s

/-- The steps of `R` are those that the task `c` makes itself and those of the tasks that it calls
as parts of `run`. -/
structure Task.Makes (c : Task) (setup : Setup) (run : List Session)
    (R : Session → Session → Prop) : Prop where
  own : ∀ t u, c.Own t u → R t u
  calls : ∀ d, Task.Reads setup c d → d.sessions setup <:+: run → (d.sessions setup).IsChain R

theorem readModule_eq (levels : Nat) : readModule levels = moduleFile (loader? levels) := by
  cases levels <;> rfl

theorem steps_linkPrototypes {root : String} {first : Session}
    (h : Task.Makes (.program root first) setup run R) : linkPrototypes.StepsIn setup run R s := by
  have own {t u : Session} (types : u.types = t.types) (depth : u.importDepth = t.importDepth) :
      R t u := h.own t u ⟨types, Nat.le_of_eq depth⟩
  unfold linkPrototypes
  rw [steps_get]
  generalize s.idents.toList = idents
  induction idents generalizing s with
  | nil => exact steps_pure
  | cons i idents ih =>
    refine steps_bind ?_ fun _ _ _ => ih
    dsimp only
    split
    · unfold linkPrototype linkCall
      rw [steps_get]
      dsimp only
      split
      · exact steps_failInternal
      rw [steps_read]
      split
      · exact steps_throw
      split
      · exact steps_throw
      refine steps_bind (steps_write (own rfl rfl) steps_pure) fun _ t _ => ?_
      refine steps_bind (steps_write (own rfl rfl) steps_pure) fun _ u _ => ?_
      rw [steps_get]
      split
      · exact steps_write (own rfl rfl) steps_pure
      · exact steps_failInternal
    · exact steps_pure

theorem steps_program {root : String} (h : Task.Makes (.program root s) setup run R) :
    (program root).StepsIn setup run R s := by
  unfold program
  refine steps_bind (steps_write (h.own _ _ ⟨rfl, Nat.le_refl _⟩) steps_pure) fun _ t reserved => ?_
  rw [steps_read]
  refine steps_bind (h.calls _ (.root reserved)) fun id u _ => ?_
  split
  · exact steps_of_trace_eq_nil rfl
  refine steps_bind steps_checkForwards fun _ v _ => ?_
  refine steps_bind (steps_linkPrototypes h) fun _ w _ => ?_
  rw [steps_get]
  split
  · exact steps_throw
  · exact steps_pure

theorem steps_openFile
    (h : ∀ t u : Session, u.types = t.types → u.importDepth = t.importDepth → R t u) (path : String) : (openFile path).StepsIn setup run R s := by
  unfold openFile
  rw [steps_read]
  split
  · exact steps_throw
  · split
    · exact steps_throw
    · exact steps_modify (h _ _ rfl rfl) steps_pure

theorem steps_optionalImports {outer : Session}
    (h : Task.Makes (.file levels path outer) setup run R)
    (call : stream.isAt .importWord = true →
      Task.Reads setup (.file levels path outer) (.imports .clause levels stream s)) :
    (optionalImports (loader? levels) stream).StepsIn setup run R s := by
  unfold optionalImports
  split
  · rename_i word
    refine steps_bind (h.calls _ (call word)) fun first t _ => ?_
    exact steps_eat fun _ _ => steps_pure
  · exact steps_pure

theorem steps_file (h : Task.Makes (.file levels path s) setup run R) :
    (readModule levels path).StepsIn setup run R s := by
  have own {t u : Session} (types : u.types = t.types) (depth : u.importDepth ≤ t.importDepth) :
      R t u := h.own t u ⟨types, Nat.le_trans depth (Nat.le_max_left ..)⟩
  rw [readModule_eq]
  unfold moduleFile
  refine steps_bind (steps_openFile (fun t u types depth => own types (Nat.le_of_eq depth)) _) ?_
  intro stream t opened
  unfold inFile
  rw [steps_get]
  obtain ⟨_, _, _, rfl⟩ := yields_openFile opened
  refine steps_modify (h.own _ _ ⟨rfl, Nat.le_max_right ..⟩) ?_
  refine steps_andFinally ?_ fun u _ => own rfl (Nat.sub_le _ _)
  unfold moduleBody
  refine steps_bind (steps_write (own rfl (Nat.le_refl _)) steps_pure) fun id u begun => ?_
  refine steps_bind (steps_optionalImports h (.clause opened begun)) fun rest v imported => ?_
  refine steps_bind (h.calls _ (.declarations opened begun imported)) fun last w _ => ?_
  refine steps_ofExcept fun _ _ => ?_
  exact steps_modify (own rfl (Nat.le_refl _)) steps_pure

theorem steps_importItem (h : Task.Makes (.imports .item levels stream s) setup run R) :
    (importItem (loader? levels) stream).StepsIn setup run R s := by
  have own {t u : Session} (types : u.types = t.types) (depth : u.importDepth = t.importDepth) :
      R t u := h.own t u ⟨types, Nat.le_of_eq depth⟩
  unfold importItem
  split
  · exact steps_fail
  rename_i literal s₁ h₁ given
  rw [steps_get]
  refine steps_bind ?_ fun imported t _ => steps_modify (own rfl rfl) steps_pure
  unfold importedModule
  rw [steps_get]
  simp only [fail_bind]
  split
  · split
    · exact steps_fail
    · exact steps_pure
  · rename_i unread
    unfold loadImport
    cases levels with
    | zero => exact steps_of_trace_eq_nil rfl
    | succ levels =>
      rw [loader?]
      dsimp only
      rw [steps_get]
      exact steps_mapError (h.calls _ (.file given unread))

theorem steps_importItems (h : Task.Makes (.imports .items levels stream s) setup run R) :
    (importItems (loader? levels) stream).StepsIn setup run R s := by
  rw [importItems]
  split
  · exact steps_pure
  rename_i given
  have given := Bool.eq_false_iff.2 given
  refine steps_bind (h.calls _ (.firstItem given)) fun first t read => ?_
  refine steps_bind (steps_separator _ _) fun rest u between => ?_
  exact steps_bind (h.calls _ (.nextItems given read between)) fun _ _ _ => steps_pure

theorem steps_importClause (h : Task.Makes (.imports .clause levels stream s) setup run R) :
    (importClause (loader? levels) stream).StepsIn setup run R s := by
  unfold importClause
  refine steps_eat fun first word => ?_
  dsimp only
  split
  · rename_i alone
    exact steps_bind (h.calls _ (.single word alone)) fun _ _ _ => steps_pure
  · rename_i paren opened
    refine steps_bind (h.calls _ (.group word opened)) fun rest t _ => ?_
    exact steps_eat fun _ _ => steps_pure

/-- Each step of a task is one of its own or one of a task that it calls. -/
theorem Task.Makes.isChain {c : Task} (h : c.Makes setup run R)
    (within : c.sessions setup <:+: run) : (c.sessions setup).IsChain R := by
  cases c with
  | program => exact steps_program h within
  | file => exact steps_file h within
  | imports part =>
    cases part with
    | clause => exact steps_importClause h within
    | items => exact steps_importItems h within
    | item => exact steps_importItem h within
  | reading r =>
    have makes : r.Makes setup run R := ⟨h.own, fun c hc => h.calls _ (.reading hc)⟩
    exact makes.isChain within

end Action

end FrontEnd
