import Parley.Json.Form

/-! # Reading JSON

    The parser follows the grammar strictly.  Each function takes the rest of the text and returns
    what it read with the rest behind it.  Reading a value and reading what follows in its container
    are bounded by `fuel`; twice the length of the text is enough, since every second step consumes
    a character.
-/

namespace Parley.Json

/-- The four blank characters that may stand between the parts of a text. -/
def isGap (c : Char) : Bool := c = ' ' || c = '\t' || c = '\n' || c = '\r'

/-- `text` without the blanks at its start. -/
def skipGap (text : List Char) : List Char := text.dropWhile isGap

/-- The error at the place `text`. -/
def errorAt {α : Type} : (text : List Char) → Except Error α
  | [] => .error .endOfText
  | c :: _ => .error (.unexpected c)

/-! ## Strings -/

/-- The value of a hexadecimal digit. -/
def hexValue? (c : Char) : Option Nat :=
  if c.isDigit then some (c.toNat - '0'.toNat)
  else if 'a' ≤ c && c ≤ 'f' then some (c.toNat - 'a'.toNat + 10)
  else if 'A' ≤ c && c ≤ 'F' then some (c.toNat - 'A'.toNat + 10)
  else none

/-- The code written with four hexadecimal digits. -/
def hexCode? (a b c d : Char) : Option Nat := do
  return ((← hexValue? a) * 16 + (← hexValue? b)) * 256 + (← hexValue? c) * 16 + (← hexValue? d)

/-- The character that a backslash and the letter `c` stand for. -/
def letterEscape? (c : Char) : Option Char :=
  if c = '"' || c = '\\' || c = '/' then some c
  else if c = 'b' then some '\x08'
  else if c = 'f' then some '\x0c'
  else if c = 'n' then some '\n'
  else if c = 'r' then some '\r'
  else if c = 't' then some '\t'
  else none

/-- A string behind its opening quote. -/
def readString : (text : List Char) → Except Error (List Glyph × List Char)
  | [] => .error .endOfText
  | '"' :: rest => .ok ([], rest)
  | '\\' :: 'u' :: a :: b :: c :: d :: rest =>
    match hexCode? a b c d with
    | some code => (readString rest).map fun (glyphs, rest) => (.code code :: glyphs, rest)
    | none => .error .badEscape
  | '\\' :: c :: rest =>
    match letterEscape? c with
    | some c => (readString rest).map fun (glyphs, rest) => (.char c :: glyphs, rest)
    | none => .error .badEscape
  | c :: rest =>
    if c.toNat < 0x20 then .error (.controlCharacter c)
    else (readString rest).map fun (glyphs, rest) => (.char c :: glyphs, rest)

/-! ## Numbers -/

/-- The digits at the start of `text`, and the rest. -/
def readDigits (text : List Char) : List Char × List Char := text.span Char.isDigit

/-- The digits before the point: a zero alone, or digits that do not start with one. -/
def readWhole (text : List Char) : Except Error (List Char × List Char) :=
  match readDigits text with
  | ([], rest) => errorAt rest
  | ('0' :: _ :: _, _) => .error .badNumber
  | (digits, rest) => .ok (digits, rest)

/-- The digits after the point, if there is one. -/
def readFraction : (text : List Char) → Except Error (Option (List Char) × List Char)
  | '.' :: rest =>
    match readDigits rest with
    | ([], rest) => errorAt rest
    | (digits, rest) => .ok (some digits, rest)
  | text => .ok (none, text)

/-- The digits of an exponent behind its sign. -/
def readPower (negative : Bool) (text : List Char) : Except Error (Option Int × List Char) :=
  match readDigits text with
  | ([], rest) => errorAt rest
  | (digits, rest) =>
    let value : Int := Parley.Number.digitsValue digits
    .ok (some (if negative then -value else value), rest)

/-- The exponent, if there is one. -/
def readExponent : (text : List Char) → Except Error (Option Int × List Char)
  | [] => .ok (none, [])
  | c :: rest =>
    if c = 'e' || c = 'E' then
      match rest with
      | '-' :: rest => readPower true rest
      | '+' :: rest => readPower false rest
      | _ => readPower false rest
    else .ok (none, c :: rest)

/-- A number without its minus sign. -/
def readMagnitude (negative : Bool) (text : List Char) : Except Error (Numeral × List Char) := do
  let (whole, rest) ← readWhole text
  let (fraction, rest) ← readFraction rest
  let (exponent, rest) ← readExponent rest
  return ({ negative, whole, fraction, exponent }, rest)

/-- A number. -/
def readNumber : (text : List Char) → Except Error (Numeral × List Char)
  | '-' :: rest => readMagnitude true rest
  | text => readMagnitude false text

/-! ## Values -/

/-- The rest of `text` behind the word `word`. -/
def readWord (word : List Char) (form : Form) (text : List Char) :
    Except Error (Form × List Char) :=
  if word.isPrefixOf text then .ok (form, text.drop word.length) else errorAt text

mutual

/-- A value. -/
def readForm : (fuel : Nat) → (text : List Char) → Except Error (Form × List Char)
  | 0, text => errorAt text
  | fuel + 1, text =>
    match text with
    | [] => .error .endOfText
    | '"' :: rest => (readString rest).map fun (glyphs, rest) => (.string glyphs, rest)
    | '[' :: rest =>
      match skipGap rest with
      | ']' :: rest => .ok (.array [], rest)
      | rest => (readItems fuel rest).map fun (items, rest) => (.array items, rest)
    | '{' :: rest =>
      match skipGap rest with
      | '}' :: rest => .ok (.object [], rest)
      | rest => (readMembers fuel rest).map fun (members, rest) => (.object members, rest)
    | 'n' :: _ => readWord ['n', 'u', 'l', 'l'] .null text
    | 't' :: _ => readWord ['t', 'r', 'u', 'e'] (.bool true) text
    | 'f' :: _ => readWord ['f', 'a', 'l', 's', 'e'] (.bool false) text
    | c :: _ =>
      if c = '-' || c.isDigit then
        (readNumber text).map fun (numeral, rest) => (.number numeral, rest)
      else .error (.unexpected c)

/-- The items of an array from the first one on, and the closing bracket. -/
def readItems : (fuel : Nat) → (text : List Char) → Except Error (List Form × List Char)
  | 0, text => errorAt text
  | fuel + 1, text => do
    let (item, rest) ← readForm fuel text
    match skipGap rest with
    | ']' :: rest => return ([item], rest)
    | ',' :: rest =>
      let (items, rest) ← readItems fuel (skipGap rest)
      return (item :: items, rest)
    | rest => errorAt rest

/-- The members of an object from the first one on, and the closing brace. -/
def readMembers : (fuel : Nat) → (text : List Char) →
    Except Error (List (List Glyph × Form) × List Char)
  | 0, text => errorAt text
  | fuel + 1, text => do
    match text with
    | '"' :: rest =>
      let (key, rest) ← readString rest
      match skipGap rest with
      | ':' :: rest =>
        let (value, rest) ← readForm fuel (skipGap rest)
        match skipGap rest with
        | '}' :: rest => return ([(key, value)], rest)
        | ',' :: rest =>
          let (members, rest) ← readMembers fuel (skipGap rest)
          return ((key, value) :: members, rest)
        | rest => errorAt rest
      | rest => errorAt rest
    | rest => errorAt rest

end

/-- The form of a text that holds one value and nothing else. -/
def formOf (text : String) : Except Error Form := do
  let (form, rest) ← readForm (2 * text.toList.length + 2) (skipGap text.toList)
  if (skipGap rest).isEmpty then return form else .error .trailingText

/-- The value of a text. -/
def parse (text : String) : Except Error Json := do (← formOf text).value

end Parley.Json
