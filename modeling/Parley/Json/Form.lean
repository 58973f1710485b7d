import Parley.Json.Value
import Parley.Number.Decimal
import Parley.Text.Quoted

/-! # The written form of JSON

    A form is JSON text taken apart by the grammar alone.  Whether its numbers are in range, its
    escapes name characters and its nesting is bearable is decided when the form is read as a value,
    so a reader that ignores a part of a form also ignores what is wrong inside it.
-/

namespace Parley.Json

/-- Why a text is no JSON, or not the JSON that was expected. -/
inductive Error
  | endOfText
  | unexpected (c : Char)
  | controlCharacter (c : Char)
  | badEscape
  | badNumber
  | trailingText
  | loneSurrogate
  | numberOutOfRange
  | tooDeep
  | expected (what : String)
  | missingField (name : String)
  | duplicateField (name : String)
  | unknownName (name : String)
  deriving Repr, DecidableEq

/-- What is wrong, in words. -/
def Error.message : Error → String
  | .endOfText => "the text ends too early"
  | .unexpected c => "unexpected character " ++ Text.quotedChar c
  | .controlCharacter c => "control character " ++ Text.quotedChar c ++ " in a string"
  | .badEscape => "invalid escape in a string"
  | .badNumber => "invalid number"
  | .trailingText => "text after the value"
  | .loneSurrogate => "half of a surrogate pair in a string"
  | .numberOutOfRange => "number out of range"
  | .tooDeep => "arrays and objects are nested too deeply"
  | .expected what => "expected " ++ what
  | .missingField name => "missing field " ++ Text.quoted name
  | .duplicateField name => "duplicate field " ++ Text.quoted name
  | .unknownName name => "unknown name " ++ Text.quoted name

/-- One element of a written string: a character, or a code given by a `\u` escape. -/
inductive Glyph
  | char (c : Char)
  | code (unit : Nat)
  deriving Repr, DecidableEq

/-- A written number: its digits before the point, those behind it if there is a point, and its
    exponent if there is one. -/
structure Numeral where
  negative : Bool
  whole : List Char
  fraction : Option (List Char) := none
  exponent : Option Int := none
  deriving Repr, DecidableEq

/-- JSON text taken apart. -/
inductive Form
  | null
  | bool (value : Bool)
  | number (numeral : Numeral)
  | string (glyphs : List Glyph)
  | array (items : List Form)
  | object (members : List (List Glyph × Form))
  deriving Repr, Inhabited

/-- The characters that a written string stands for.  Two codes that form a surrogate pair are one
    character; the half of a pair alone stands for nothing. -/
def decodeGlyphs : List Glyph → Except Error (List Char)
  | [] => .ok []
  | .char c :: rest => return c :: (← decodeGlyphs rest)
  | .code unit :: .code next :: rest =>
    if 0xd800 ≤ unit && unit < 0xdc00 then
      if 0xdc00 ≤ next && next < 0xe000 then
        return Char.ofNat (0x10000 + (unit - 0xd800) * 0x400 + (next - 0xdc00))
          :: (← decodeGlyphs rest)
      else .error .loneSurrogate
    else if 0xdc00 ≤ unit && unit < 0xe000 then .error .loneSurrogate
    else return Char.ofNat unit :: (← decodeGlyphs (.code next :: rest))
  | .code unit :: rest =>
    if 0xd800 ≤ unit && unit < 0xe000 then .error .loneSurrogate
    else return Char.ofNat unit :: (← decodeGlyphs rest)

/-- The text that a written string stands for. -/
def textOf (glyphs : List Glyph) : Except Error String :=
  (decodeGlyphs glyphs).map String.ofList

namespace Numeral

/-- The numeral without its sign as a decimal. -/
def decimal (numeral : Numeral) : Parley.Number.Decimal :=
  .ofDigits numeral.whole (numeral.fraction.getD []) (numeral.exponent.getD 0)

/-- The value of a numeral in double precision. -/
def double (numeral : Numeral) : Except Error Float :=
  match numeral.decimal.double? with
  | some x => .ok (if numeral.negative then -x else x)
  | none => .error .numberOutOfRange

/-- The value of a numeral without point and exponent that fits 64 bits, signed or unsigned.  A
    negative zero is no integer. -/
def integer? (numeral : Numeral) : Option Int :=
  let value := Parley.Number.digitsValue numeral.whole
  if numeral.fraction.isSome || numeral.exponent.isSome then none
  else if numeral.negative then
    if value = 0 || 0x8000000000000000 < value then none else some (-value)
  else if value < 0x10000000000000000 then some value
  else none

/-- The value of a numeral. -/
def number (numeral : Numeral) : Except Error Number :=
  match numeral.integer? with
  | some value => .ok (.integer value)
  | none => numeral.double.map .real

end Numeral

/-- The deepest nesting of arrays and objects in a value. -/
def maxDepth : Nat := 127

mutual

/-- The value that a form stands for, nested at most `depth` deep. -/
def Form.valueWithin (depth : Nat) : Form → Except Error Json
  | .null => .ok .null
  | .bool value => .ok (.bool value)
  | .number numeral => numeral.number.map .number
  | .string glyphs => (textOf glyphs).map .string
  | .array items =>
    if depth = 0 then .error .tooDeep
    else (Form.itemsWithin (depth - 1) items).map .array
  | .object members =>
    if depth = 0 then .error .tooDeep
    else (Form.membersWithin (depth - 1) [] members).map .object

/-- The values of the items of an array. -/
def Form.itemsWithin (depth : Nat) : List Form → Except Error (List Json)
  | [] => .ok []
  | item :: rest => return (← item.valueWithin depth) :: (← Form.itemsWithin depth rest)

/-- The members of an object, added to those read before.  A repeated key keeps its first place and
    takes its last value. -/
def Form.membersWithin (depth : Nat) (before : List (String × Json)) :
    List (List Glyph × Form) → Except Error (List (String × Json))
  | [] => .ok before
  | (key, value) :: rest => do
    Form.membersWithin depth (Json.bind (← textOf key) (← value.valueWithin depth) before) rest

end

/-- The value that a form stands for. -/
def Form.value (form : Form) : Except Error Json := form.valueWithin maxDepth

end Parley.Json
