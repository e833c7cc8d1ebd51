import FrontEnd.Diagnostic
import FrontEnd.Source.Folder

/-!
How a diagnostic is shown to a user: a heading for its category, the message, the line of source
text with the fault underlined, and a suggestion.
-/

namespace FrontEnd

namespace Diagnostic

/-- The heading of a category. The file is left out where there is none. -/
def heading (d : Diagnostic) : List String :=
  let framed (before after title : String) : List String :=
    (if d.scope = "" then [] else ["", before ++ d.scope ++ after]) ++ [title]
  match d.category with
  | .grammar => framed "(╯°□°)╯  🔥🔥 " " 🔥🔥  Σ(°△°;) " "Syntax"
  | .typing => framed "(ಠ_ಠ) " "" "Type Error"
  | .rule => framed "ヽ(˶°o°)ﾉ  🔥🔥🔥 " " 🔥🔥🔥  ╰(°□°╰) " "Rule"
  | .link => framed "(-_-)  🔗 " "" ("Link Error: " ++ d.message)
  | .file => ["🏚 Can't find/read file or directory: " ++ d.scope, d.message]
  | .settings => ["CONFIG FILE ISSUE - " ++ d.scope, d.message]
  | .internal => ["COMPILER BUG - ", "compiler developer skill issue (not your fault)"]

/-- Whether the place of a fault is shown. -/
def showsPlace (d : Diagnostic) : Bool :=
  match d.category with
  | .link | .file | .settings => false
  | _ => true

/-- The lines of a text without their line breaks; a carriage return in front of a line break goes
with it, and a line break at the end starts no further line. -/
def textLines (text : String) : List (List Char) :=
  let lines := go text.toList
  if lines.getLast? = some [] then lines.dropLast else lines
where
  go : List Char → List (List Char)
    | [] => [[]]
    | '\n' :: cs => [] :: go cs
    | '\r' :: '\n' :: cs => [] :: go cs
    | c :: cs =>
      match go cs with
      | [] => [[c]]
      | line :: lines => (c :: line) :: lines

/-- The width of the mark under a fault, which does not go beyond its first line. -/
def markWidth (s : Span) : Nat :=
  if s.last.line = s.first.line then max 1 (s.last.column - s.first.column) else 1

def mark (s : Span) : String :=
  String.ofList (List.replicate s.first.column ' ' ++ List.replicate (markWidth s) '^')

/-- The line of a fault with the mark below it, if the line can be read and is not empty. -/
def excerpt (d : Diagnostic) (disk : Disk) : List String :=
  match disk.read d.scope with
  | .error _ => []
  | .ok text =>
    match (textLines text)[d.span.first.line]? with
    | none | some [] => []
    | some line => [String.ofList line, mark d.span]

def suggestion (d : Diagnostic) : List String :=
  (d.suggestion?.map ("Suggestion: " ++ ·)).toList

/-- All lines of a report. -/
def report (d : Diagnostic) (disk : Disk) : List String :=
  if d.showsPlace then
    d.heading ++ ["Line " ++ toString (d.span.first.line + 1), d.message] ++ d.excerpt disk ++
      d.suggestion
  else d.heading

end Diagnostic

end FrontEnd
