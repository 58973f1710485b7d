import Parley.Engine
import Parley.Token.Classes

/-! # Vocabularies

    A vocabulary is an engine in use together with what was learnt from it: the pieces of tokens,
    the texts that are single tokens, and the classes of the tokens.  Each is asked for once; a
    failure is not remembered.
-/

namespace Parley

/-- Why a text or a token could not be converted. -/
inductive VocabularyError
  | invalidToken (token : TokenId)
  | encoding (reason : String)
  | decoding (reason : String)
  | engine (error : EngineError)
  deriving DecidableEq, Repr

/-- The error in words. -/
def VocabularyError.message : VocabularyError → String
  | .invalidToken token => "Invalid token ID: " ++ toString token
  | .encoding reason => "Encoding error: " ++ reason
  | .decoding reason => "Decoding error: " ++ reason
  | .engine error => "engine error: " ++ error.message

/-! ## Tables of pieces -/

/-- The pieces known so far, by the number of the token. -/
structure PieceTable where
  entries : Array (Option String) := #[]
  deriving DecidableEq, Repr, Inhabited

namespace PieceTable

/-- The piece of the token `index`, if it is known. -/
def get? (table : PieceTable) (index : Nat) : Option String := (table.entries[index]?).join

/-- The table with the piece of the token `index`. -/
def insert (table : PieceTable) (index : Nat) (piece : String) : PieceTable :=
  let missing := index + 1 - table.entries.size
  { entries := (table.entries ++ Array.replicate missing none).setIfInBounds index (some piece) }

end PieceTable

/-! ## Vocabularies -/

/-- An engine in use: its state, whether a stop was requested and not withdrawn, and what was learnt
    from it. -/
structure Vocabulary (σ : Type) where
  engine : σ
  stopped : Bool := false
  /-- Pieces in which control tokens are empty. -/
  pieces : PieceTable := {}
  /-- Pieces in which control tokens show. -/
  specialPieces : PieceTable := {}
  /-- The texts asked for as single tokens, with the token if there is one. -/
  literals : List (String × Option TokenId) := []
  classes : Option TokenClasses := none

/-- A step that works with a vocabulary and may fail. -/
abbrev VocabularyM (σ : Type) := EStateM VocabularyError (Vocabulary σ)

namespace Vocabulary

variable {σ α : Type}

/-- Makes a call to the engine. -/
def call (run : σ → Reply σ α) : EStateM EngineError (Vocabulary σ) α := fun vocab =>
  let reply := run vocab.engine
  let vocab := { vocab with engine := reply.state, stopped := vocab.stopped || reply.stop }
  match reply.result with
  | .ok value => .ok value vocab
  | .error error => .error error vocab

/-- Makes a call to the engine on behalf of the vocabulary. -/
def ask (run : σ → Reply σ α) : VocabularyM σ α := (call run).adaptExcept .engine

/-- The tokens of a text. -/
def tokenize (engine : Engine σ) (text : String) (addBos special : Bool) :
    VocabularyM σ (List TokenId) :=
  ask (engine.tokenize text addBos special)

/-- The pieces with or without the text of control tokens. -/
def table (vocab : Vocabulary σ) (special : Bool) : PieceTable :=
  if special then vocab.specialPieces else vocab.pieces

/-- The vocabulary with one more known piece. -/
def learn (vocab : Vocabulary σ) (special : Bool) (index : Nat) (piece : String) : Vocabulary σ :=
  if special then { vocab with specialPieces := vocab.specialPieces.insert index piece }
  else { vocab with pieces := vocab.pieces.insert index piece }

/-- Whether `token` is a token of a vocabulary of `size` tokens. -/
def isToken (size : Nat) (token : TokenId) : Bool := 0 ≤ token && token.toInt < size

/-- The text of a token. -/
def piece (engine : Engine σ) (token : TokenId) (special : Bool) : VocabularyM σ String := do
  let vocab ← get
  if !isToken (engine.vocabSize vocab.engine) token then throw (.invalidToken token)
  let index := token.toInt.toNat
  match (vocab.table special).get? index with
  | some piece => return piece
  | none =>
    let piece ← ask (engine.piece token special)
    modify (·.learn special index piece)
    return piece

/-- The texts of tokens, one behind the other. -/
def decode (engine : Engine σ) (tokens : List TokenId) (special : Bool) : VocabularyM σ String := do
  match tokens with
  | [] => return ""
  | token :: rest => return (← piece engine token special) ++ (← decode engine rest special)

/-- The token whose text is `text`, looked up anew. -/
def findSingle (engine : Engine σ) (text : String) : VocabularyM σ (Option TokenId) := do
  match ← tokenize engine text false false with
  | [token] => return if (← piece engine token false) = text then some token else none
  | _ => return none

/-- The token whose text is `text`, if there is one. -/
def singleToken (engine : Engine σ) (text : String) : VocabularyM σ (Option TokenId) := do
  match (← get).literals.lookup text with
  | some found => return found
  | none =>
    let found ← findSingle engine text
    modify fun vocab => { vocab with literals := (text, found) :: vocab.literals }
    return found

/-- The pieces of the tokens `first`, `first + 1`, … of which there are `count`. -/
def piecesFrom (engine : Engine σ) : (first count : Nat) → VocabularyM σ (List (TokenId × String))
  | _, 0 => return []
  | first, count + 1 => do
    let token := Int32.ofNat first
    let piece ← piece engine token false
    return (token, piece) :: (← piecesFrom engine (first + 1) count)

/-- How many tokens a scan counts in a vocabulary of `size` tokens: the size as an identifier. -/
def scanned (size : Nat) : Nat := (Int32.ofNat size).toInt.toNat

/-- The classes of the tokens. -/
def tokenClasses (engine : Engine σ) : VocabularyM σ TokenClasses := do
  let vocab ← get
  match vocab.classes with
  | some classes => return classes
  | none =>
    let count := scanned (engine.vocabSize vocab.engine)
    let classes := TokenClasses.scan (← piecesFrom engine 0 count)
    modify fun vocab => { vocab with classes := some classes }
    return classes

end Vocabulary

end Parley
