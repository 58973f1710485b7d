import Parley.Token.Set
import Parley.Text.Alphanumeric
import Parley.Text.Blank

/-! # Classes of tokens

    One scan over the pieces of a vocabulary sorts the tokens by what their text consists of.
-/

namespace Parley

/-- ASCII characters that are neither letters, digits, blanks nor controls. -/
def isPunctuation (c : Char) : Bool :=
  0x20 < c.toNat && c.toNat < 0x7f && !c.isAlphanum

/-- The characters of a string body: letters, digits, the plain space and punctuation, without the
    quote and the backslash.  A body of these characters needs no escapes. -/
def isStringChar (c : Char) : Bool :=
  Text.isAlphanumeric c || c = ' ' || (isPunctuation c && c != '"' && c != '\\')

/-- Sets of tokens by their text.  Tokens without text are in none of them. -/
structure TokenClasses where
  /-- Tokens of string-body characters only. -/
  stringBody : TokenSet := {}
  /-- Those of them with a character that is not blank. -/
  stringBodyNonblank : TokenSet := {}
  /-- Tokens of ASCII digits only. -/
  digits : TokenSet := {}
  /-- Tokens of blank characters only. -/
  whitespace : TokenSet := {}
  deriving DecidableEq, Repr, Inhabited

namespace TokenClasses

/-- Whether `piece` has a character that is not blank. -/
def isNonblank (piece : String) : Bool := piece.toList.any fun c => !Text.isBlank c

/-- The tokens whose text is not empty and satisfies `keep`. -/
def select (keep : String → Bool) (pieces : List (TokenId × String)) : TokenSet :=
  TokenSet.ofList <|
    (pieces.filter fun (_, piece) => !piece.isEmpty && keep piece).map fun (token, _) => token

/-- The classes of the tokens with the given pieces. -/
def scan (pieces : List (TokenId × String)) : TokenClasses where
  stringBody := select (fun piece => piece.toList.all isStringChar) pieces
  stringBodyNonblank :=
    select (fun piece => piece.toList.all isStringChar && isNonblank piece) pieces
  digits := select (fun piece => piece.toList.all Char.isDigit) pieces
  whitespace := select (fun piece => piece.toList.all Text.isBlank) pieces

end TokenClasses

end Parley
