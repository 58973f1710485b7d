import Parley.Schema.Basic
import Parley.Text.Search
import Parley.Vocabulary

/-! # The palette

    A palette holds the tokens with which values are written: the single tokens of JSON punctuation,
    the classes of tokens that may stand in a string, and the runs of digits.  What may come next at
    a point of a value is a set of tokens of the palette.
-/

namespace Parley

/-- The longest text of a string value, in tokens. -/
def maxStringTokens : Nat := 128

/-- The longest integer, with its sign, in bytes. -/
def maxIntegerChars : Nat := 19

/-- The longest number, with sign and point, in bytes. -/
def maxNumberChars : Nat := 32

/-- The largest number of items of an array. -/
def maxArrayItems : Nat := 5

/-- A token of digits: how many there are, whether a zero leads several, and whether it is the zero
    alone. -/
structure DigitToken where
  token : TokenId
  length : Nat
  leadingZero : Bool
  isZero : Bool
  deriving DecidableEq, Repr, Inhabited

/-- The token of digits with the text `piece`. -/
def DigitToken.ofPiece (token : TokenId) (piece : String) : DigitToken where
  token
  length := piece.length
  leadingZero := piece.toList.head? == some '0' && piece != "0"
  isZero := piece == "0"

/-- The tokens with which values are written.  A single token is missing if the vocabulary has none
    for its text. -/
structure Palette where
  quote : Option TokenId
  comma : Option TokenId
  openBrace : Option TokenId
  closeBrace : Option TokenId
  openBracket : Option TokenId
  closeBracket : Option TokenId
  minus : Option TokenId
  dot : Option TokenId
  null : Option TokenId
  yes : Option TokenId
  no : Option TokenId
  /-- What a string may consist of. -/
  stringBody : TokenSet
  /-- What a string may begin with. -/
  stringOpen : TokenSet
  digits : List DigitToken
  deriving DecidableEq, Repr, Inhabited

namespace Palette

variable {σ : Type}

/-- The digits among the tokens, with their texts. -/
def learnDigits (engine : Engine σ) : List TokenId → VocabularyM σ (List DigitToken)
  | [] => return []
  | token :: rest => do
    let piece ← Vocabulary.piece engine token false
    return DigitToken.ofPiece token piece :: (← learnDigits engine rest)

/-- The palette of a vocabulary. -/
def learn (engine : Engine σ) : VocabularyM σ Palette := do
  let quote ← Vocabulary.singleToken engine "\""
  let comma ← Vocabulary.singleToken engine ","
  let openBrace ← Vocabulary.singleToken engine "\x7b"
  let closeBrace ← Vocabulary.singleToken engine "\x7d"
  let openBracket ← Vocabulary.singleToken engine "["
  let closeBracket ← Vocabulary.singleToken engine "]"
  let minus ← Vocabulary.singleToken engine "-"
  let dot ← Vocabulary.singleToken engine "."
  let null ← Vocabulary.singleToken engine "null"
  let yes ← Vocabulary.singleToken engine "true"
  let no ← Vocabulary.singleToken engine "false"
  let classes ← Vocabulary.tokenClasses engine
  let digits ← learnDigits engine classes.digits.toList
  return { quote, comma, openBrace, closeBrace, openBracket, closeBracket, minus, dot, null, yes, no
           stringBody := classes.stringBody, stringOpen := classes.stringBodyNonblank, digits }

/-- A set with one more member, if there is one. -/
def withOption (set : TokenSet) : Option TokenId → TokenSet
  | some token => set.insert token
  | none => set

/-- What may follow a number. -/
def terminators (palette : Palette) : TokenSet :=
  TokenSet.ofOptions [palette.comma, palette.closeBrace, palette.closeBracket]

/-- What may stand in a string that has a character which is not blank: also its end. -/
def stringClosable (palette : Palette) : TokenSet :=
  palette.stringBody.union (TokenSet.ofOptions [palette.quote])

/-- The truth values. -/
def booleans (palette : Palette) : TokenSet := TokenSet.ofOptions [palette.yes, palette.no]

/-- What may follow an item of an array. -/
def itemEnds (palette : Palette) : TokenSet :=
  TokenSet.ofOptions [palette.comma, palette.closeBracket]

/-- The tokens of digits that fit into `room` bytes; at the start of a number without those of
    several digits that a zero leads. -/
def digitSet (palette : Palette) (atStart : Bool) (room : Nat) : TokenSet :=
  TokenSet.ofList <|
    (palette.digits.filter fun digit => digit.length ≤ room && !(atStart && digit.leadingZero)).map
      (·.token)

/-- Whether the text of `token` is the zero. -/
def isZero (palette : Palette) (token : TokenId) : Bool :=
  palette.digits.any fun digit => digit.token == token && digit.isZero

/-- What may begin a number. -/
def numberOpen (palette : Palette) (room : Nat) : TokenSet :=
  withOption (palette.digitSet true room) palette.minus

/-- What may begin a value of a type. -/
def opening (palette : Palette) : FieldType → TokenSet
  | .string _ => TokenSet.ofOptions [palette.quote]
  | .integer | .number => palette.numberOpen maxNumberChars
  | .boolean => palette.booleans
  | .object _ => TokenSet.ofOptions [palette.openBrace]
  | .array _ => TokenSet.ofOptions [palette.openBracket]

/-- A number without its minus sign. -/
def magnitude : List Char → List Char
  | '-' :: rest => rest
  | text => text

/-- What may follow the beginning `text` of a number that has at most `cap` bytes; `real` says
    whether it may have a point.  An integer is never a negative zero. -/
def numberNext (palette : Palette) (real : Bool) (cap : Nat) (text : List Char) : TokenSet :=
  let room := cap - Text.byteLength text
  let unsigned := magnitude text
  if text.isEmpty then palette.numberOpen room
  else if unsigned.isEmpty then
    let digits := palette.digitSet true room
    if real then digits else digits.filter fun token => !palette.isZero token
  else if unsigned == ['0'] then
    if real then withOption palette.terminators palette.dot else palette.terminators
  else if unsigned.getLast? == some '.' then palette.digitSet false room
  else
    let more := (palette.digitSet false room).union palette.terminators
    if real && !unsigned.contains '.' && 1 < room then withOption more palette.dot else more

end Palette

end Parley
