import FrontEnd.Types.Layout

/-!
How a type is written in messages and summaries. Structures show only the names of their fields, so
the spelling of a type that contains itself through a field is finite.
-/

namespace FrontEnd

def fieldNames (fields : List Field) : String :=
  ", ".intercalate (fields.map (·.name))

/-- A list of field names between curly brackets. -/
def inBraces (text : String) : String :=
  "\x7b" ++ text ++ "\x7d"

namespace TypeTable

/-- The spelling of a type, with nested types written out at most `depth` deep. -/
def spellWithin (t : TypeTable) : Nat → TypeId → String
  | 0, _ => "..."
  | depth + 1, id =>
    match t.kind id with
    | .builtin b => b.spelling
    | .pointer base => "^" ++ t.spellWithin depth base
    | .array base length =>
      if length = openLength then "[]" ++ t.spellWithin depth base
      else "[" ++ toString length.toInt ++ "]" ++ t.spellWithin depth base
    | .text capacity => "str[" ++ toString capacity.toInt ++ "]"
    | .struct fields => "struct " ++ inBraces (fieldNames fields)
    | .interface fields => "interface " ++ inBraces (fieldNames (fields.drop 1))
    | .function s =>
      let parameters := s.parameters.map fun p => p.name ++ ": " ++ t.spellWithin depth p.type
      let result :=
        match s.result? with
        | some result => t.spellWithin depth result
        | none => Builtin.void.spelling
      "fn (" ++ ", ".intercalate parameters ++ "): " ++ result
    | .forward _ => "<forward>"

/-- Pointers, arrays and functions are written out; a chain of them that does not meet a type twice
is no longer than the table. -/
def spelling (t : TypeTable) (id : TypeId) : String :=
  t.spellWithin (t.size + 1) id

end TypeTable

end FrontEnd
