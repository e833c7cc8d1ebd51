import FrontEnd.Text.Property

/-!
Quoted characters and strings. The quote that encloses, the backslash and the usual controls have
short escapes; every other character without a visible form of its own is written by its code point.
-/

namespace FrontEnd.Text

/-- A code point in lower-case hexadecimal digits without leading zeros. -/
def hexadecimal (n : Nat) : List Char :=
  Nat.toDigits 16 n

/-- An escape by code point. -/
def codePointEscape (c : Char) : List Char :=
  ['\\', 'u', '{'] ++ hexadecimal c.toNat ++ ['}']

/-- One character of a text between quotes. A character that is drawn onto the one before it has no
form of its own. -/
def quotedChar (quote : Char) (c : Char) : List Char :=
  if c = '\x00' then ['\\', '0']
  else if c = '\t' then ['\\', 't']
  else if c = '\r' then ['\\', 'r']
  else if c = '\n' then ['\\', 'n']
  else if c = '\\' then ['\\', '\\']
  else if c = quote then ['\\', quote]
  else if isVisible c && !isExtending c then [c]
  else codePointEscape c

/-- A text between quotes. -/
def quoted (quote : Char) (cs : List Char) : List Char :=
  quote :: cs.flatMap (quotedChar quote) ++ [quote]

def quoteChar (c : Char) : String :=
  String.ofList (quoted '\'' [c])

def quoteString (s : String) : String :=
  String.ofList (quoted '"' s.toList)

end FrontEnd.Text
