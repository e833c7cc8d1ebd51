/-!
JSON values and their indented text. Members keep their order.
-/

namespace FrontEnd

inductive Json
  | null
  | bool (value : Bool)
  | number (value : Nat)
  | text (value : String)
  | list (items : List Json)
  | object (members : List (String × Json))
deriving Inhabited

namespace Json

/-- Four lower-case hexadecimal digits. -/
def fourDigits (n : Nat) : List Char :=
  let digits := Nat.toDigits 16 n
  List.replicate (4 - digits.length) '0' ++ digits

/-- One character of a JSON string. Only quotes, backslashes and controls are escaped. -/
def escape (c : Char) : List Char :=
  if c = '"' then ['\\', '"']
  else if c = '\\' then ['\\', '\\']
  else if c = '\n' then ['\\', 'n']
  else if c = '\r' then ['\\', 'r']
  else if c = '\t' then ['\\', 't']
  else if c = '\x08' then ['\\', 'b']
  else if c = '\x0c' then ['\\', 'f']
  else if c.toNat < 0x20 then '\\' :: 'u' :: fourDigits c.toNat
  else [c]

def quote (s : String) : String :=
  "\"" ++ String.ofList (s.toList.flatMap escape) ++ "\""

def indent (depth : Nat) : String :=
  String.ofList (List.replicate (2 * depth) ' ')

/-- Entries between brackets, each on a line of its own; no entries take no lines. -/
def bracketed (opening closing : String) (depth : Nat) (entries : List String) : String :=
  if entries.isEmpty then opening ++ closing
  else
    opening ++ "\n" ++ ",\n".intercalate (entries.map (indent (depth + 1) ++ ·)) ++ "\n" ++
      indent depth ++ closing

/-- The text of a value that stands `depth` levels deep. -/
def render (depth : Nat) (j : Json) : String :=
  match j with
  | null => "null"
  | bool value => if value then "true" else "false"
  | number value => toString value
  | text value => quote value
  | list items => bracketed "[" "]" depth (items.map fun item => render (depth + 1) item)
  | object members =>
    bracketed "\x7b" "\x7d" depth
      (members.map fun member => quote member.1 ++ ": " ++ render (depth + 1) member.2)
termination_by sizeOf j
decreasing_by
  · simp_wf
    have := List.sizeOf_lt_of_mem ‹item ∈ items›
    omega
  · simp_wf
    have := List.sizeOf_lt_of_mem ‹member ∈ members›
    cases member
    simp_all
    omega

def toText (j : Json) : String := j.render 0

end Json

end FrontEnd
