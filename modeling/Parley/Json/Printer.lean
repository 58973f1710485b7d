import Parley.Json.Value
import Parley.Number.Notation

/-! # Writing JSON

    `compact` writes a value without blanks, `pretty` with one member or item a line, indented by
    two spaces.  In a string only the quote, the backslash and the control characters of ASCII are
    escaped.
-/

namespace Parley.Json

/-- The two hexadecimal digits of a code below 256. -/
def hexPair (code : Nat) : List Char :=
  [Nat.digitChar (code / 16), Nat.digitChar (code % 16)]

/-- How `c` is written inside a string. -/
def escape (c : Char) : List Char :=
  if c = '"' then ['\\', '"']
  else if c = '\\' then ['\\', '\\']
  else if c = '\n' then ['\\', 'n']
  else if c = '\r' then ['\\', 'r']
  else if c = '\t' then ['\\', 't']
  else if c = '\x08' then ['\\', 'b']
  else if c = '\x0c' then ['\\', 'f']
  else if c.toNat < 0x20 then ['\\', 'u', '0', '0'] ++ hexPair c.toNat
  else [c]

/-- `text` as a JSON string. -/
def quote (text : String) : String :=
  String.ofList ('"' :: text.toList.flatMap escape ++ ['"'])

/-- The JSON text of a number. -/
def Number.render : Number → String
  | .integer value => toString value
  | .real value => Parley.Number.jsonDouble value

mutual

/-- The JSON text of a value, without blanks. -/
def compact : Json → String
  | .null => "null"
  | .bool value => if value then "true" else "false"
  | .number value => value.render
  | .string text => quote text
  | .array items => "[" ++ ",".intercalate (compactItems items) ++ "]"
  | .object members => "\x7b" ++ ",".intercalate (compactMembers members) ++ "\x7d"

/-- The JSON texts of the items of an array. -/
def compactItems : List Json → List String
  | [] => []
  | item :: rest => compact item :: compactItems rest

/-- The JSON texts of the members of an object. -/
def compactMembers : List (String × Json) → List String
  | [] => []
  | (key, value) :: rest => (quote key ++ ":" ++ compact value) :: compactMembers rest

end

/-- A line break followed by `depth` steps of indentation. -/
def newline (depth : Nat) : String := String.ofList ('\n' :: List.replicate (2 * depth) ' ')

/-- `parts` between two brackets, one a line; nothing is between the brackets if there are none. -/
def block (opening closing : String) (depth : Nat) (parts : List String) : String :=
  if parts.isEmpty then opening ++ closing
  else
    opening ++ ",".intercalate (parts.map (newline (depth + 1) ++ ·)) ++ newline depth ++ closing

mutual

/-- The JSON text of a value that stands `depth` steps deep. -/
def prettyAt (depth : Nat) : Json → String
  | .array items => block "[" "]" depth (prettyItems (depth + 1) items)
  | .object members => block "\x7b" "\x7d" depth (prettyMembers (depth + 1) members)
  | .null => "null"
  | .bool value => if value then "true" else "false"
  | .number value => value.render
  | .string text => quote text

/-- The JSON texts of items that stand `depth` steps deep. -/
def prettyItems (depth : Nat) : List Json → List String
  | [] => []
  | item :: rest => prettyAt depth item :: prettyItems depth rest

/-- The JSON texts of members that stand `depth` steps deep. -/
def prettyMembers (depth : Nat) : List (String × Json) → List String
  | [] => []
  | (key, value) :: rest =>
    (quote key ++ ": " ++ prettyAt depth value) :: prettyMembers depth rest

end

/-- The JSON text of a value, one member or item a line. -/
def pretty (value : Json) : String := prettyAt 0 value

end Parley.Json
