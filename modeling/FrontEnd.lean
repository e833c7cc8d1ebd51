import FrontEnd.Main
import FrontEnd.Source.Files
import FrontEnd.Proofs.Action
import FrontEnd.Proofs.Session.Grows
import FrontEnd.Proofs.Types.References
import FrontEnd.Proofs.Session.Valid
import FrontEnd.Proofs.Session.Types
import FrontEnd.Proofs.Session.Update
import FrontEnd.Proofs.Session.Change
import FrontEnd.Proofs.Session.Keeps
import FrontEnd.Proofs.Meets
import FrontEnd.Proofs.Primitives
import FrontEnd.Proofs.Reading
import FrontEnd.Proofs.Expression.Syntax
import FrontEnd.Proofs.Expression.Evaluation
import FrontEnd.Proofs.TypeExpression.Parts
import FrontEnd.Proofs.TypeExpression
import FrontEnd.Proofs.Variables
import FrontEnd.Proofs.Assignment
import FrontEnd.Proofs.Declaration
import FrontEnd.Proofs.Statement
import FrontEnd.Proofs.Layout
import FrontEnd.Proofs.Function
import FrontEnd.Proofs.Token.Lexeme
import FrontEnd.Proofs.Token.Spelling
import FrontEnd.Proofs.Import
import FrontEnd.Proofs.Program
import FrontEnd.Proofs.Session.Initial
import FrontEnd.Proofs.History
import FrontEnd.Proofs.Integrity
import FrontEnd.Proofs.Types.Containment
import FrontEnd.Proofs.Containment
import FrontEnd.Proofs.Linked
import FrontEnd.Proofs.Expression.Machine
import FrontEnd.Proofs.Expression.Modes
import FrontEnd.Proofs.Expression.Agreement
import FrontEnd.Proofs.Types.Equivalence
import FrontEnd.Proofs.Expression.Folding
import FrontEnd.Proofs.Initializer
import FrontEnd.Proofs.Structures
import FrontEnd.Proofs.Forwards
import FrontEnd.Proofs.Modules
import FrontEnd.Proofs.NoFile
import FrontEnd.Proofs.Unreadable
import FrontEnd.Proofs.Exports
import FrontEnd.Proofs.Scopes
import FrontEnd.Proofs.Visibility
import FrontEnd.Proofs.StackEffect
import FrontEnd.Proofs.Returns
import FrontEnd.Proofs.Completion
import FrontEnd.Proofs.Passes
import FrontEnd.Proofs.Symbols.Gains
import FrontEnd.Proofs.Frames
import FrontEnd.Proofs.TypeExpression.Extends
import FrontEnd.Proofs.TypeExpression.Offsets
import FrontEnd.Proofs.Declaration.Extends
import FrontEnd.Proofs.Statement.Populates
import FrontEnd.Proofs.Function.Body
import FrontEnd.Proofs.Storage
import FrontEnd.Proofs.Verdicts
import FrontEnd.Proofs.Expression.Climbing
import FrontEnd.Proofs.TypeExpression.Defaults
import FrontEnd.Proofs.Spelling
import FrontEnd.Proofs.Constants
import FrontEnd.Proofs.TypeExpression.Productions
import FrontEnd.Proofs.Separation
import FrontEnd.Proofs.TypeExpression.Signatures
import FrontEnd.Proofs.Declaration.Writes
import FrontEnd.Proofs.Places
import FrontEnd.Proofs.Interfaces
import FrontEnd.Proofs.ImportChains
import FrontEnd.Proofs.Expression.Division
import FrontEnd.Proofs.FallThrough
import FrontEnd.Proofs.Interning
import FrontEnd.Proofs.Methods
import FrontEnd.Proofs.Termination
import FrontEnd.Proofs.TypeHistory
