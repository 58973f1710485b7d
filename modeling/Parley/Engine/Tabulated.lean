import Parley.Engine
import Parley.Text.Search

/-! # Engines from tables

    An engine whose vocabulary and scores are written down, and whose calls fail where that is
    written down too.  It feeds whatever it is given into its context, so it shows what a session
    does by itself.
-/

namespace Parley

/-- Which calls of an engine fail. -/
structure Tabulated.Failures where
  tokenize : Bool := false
  /-- The tokens whose text cannot be told. -/
  pieces : List Nat := []
  /-- The number of decoding calls that succeed. -/
  decodeFrom : Option Nat := none
  /-- The number of decoding calls behind which there still are scores. -/
  logitsAfter : Option Nat := none
  clear : Bool := false
  embeddingsOn : Bool := false
  embeddingsOff : Bool := false
  embeddings : Bool := false
  deriving DecidableEq, Repr, Inhabited

/-- The tables of an engine and its state. -/
structure Tabulated where
  /-- The texts of the tokens. -/
  pieces : List (List Char)
  /-- The tokens that are control tokens. -/
  control : List Nat := []
  bos : TokenId := 0
  eos : TokenId := 1
  contextSize : Nat := 256
  /-- The number of scores, if it is not that of the tokens. -/
  scoreCount : Option Nat := none
  /-- The score of a token that a row does not name. -/
  fill : Float32 := 0
  /-- The scores after each decoding call, over and over again. -/
  rows : List (List (Nat × Float32)) := []
  embedding : List Float32 := []
  failures : Tabulated.Failures := {}
  context : List TokenId := []
  /-- The number of decoding calls that succeeded. -/
  decoded : Nat := 0
  deriving DecidableEq, Repr, Inhabited

namespace Tabulated

/-! ## Tokens -/

/-- Whether the token `index` may be found in a text. -/
def isFindable (table : Tabulated) (special : Bool) (index : Nat) : Bool :=
  special || !table.control.contains index

/-- The longest token that `text` begins with; the first of several. -/
def longest? (table : Tabulated) (special : Bool) (text : List Char) :
    Option (Nat × List Char) :=
  table.pieces.zipIdx.foldl
    (fun best (piece, index) =>
      let isLonger := best.all fun (_, other) => other.length < piece.length
      if isLonger && !piece.isEmpty && table.isFindable special index && piece.isPrefixOf text then
        some (index, piece)
      else best)
    none

/-- The tokens of `text`, which begins at the byte `offset` and has at most `fuel` tokens. -/
def cover (table : Tabulated) (special : Bool) :
    (fuel offset : Nat) → (text : List Char) → Except EngineError (List TokenId)
  | _, _, [] => .ok []
  | 0, _, _ :: _ => .ok []
  | fuel + 1, offset, c :: rest =>
    match table.longest? special (c :: rest) with
    | some (index, piece) =>
      (table.cover special fuel (offset + Text.byteLength piece)
        ((c :: rest).drop piece.length)).map (Int32.ofNat index :: ·)
    | none => .error (.tokenization ("no piece at byte " ++ toString offset))

/-- The tokens of a text. -/
def tokenize (table : Tabulated) (text : String) (addBos special : Bool) :
    Except EngineError (List TokenId) :=
  if table.failures.tokenize then .error (.tokenization "table tokenize")
  else
    let text := text.toList
    (table.cover special text.length 0 text).map fun tokens =>
      if addBos && 0 ≤ table.bos then table.bos :: tokens else tokens

/-- The text of a token, if it can be told. -/
def piece? (table : Tabulated) (token : TokenId) : Option (List Char) :=
  let index := token.toInt.toNat
  if 0 ≤ token && !table.failures.pieces.contains index then table.pieces[index]? else none

/-- The text of a token. -/
def pieceText (table : Tabulated) (token : TokenId) (special : Bool) :
    Except EngineError String :=
  match table.piece? token with
  | some piece =>
    .ok (if table.isFindable special token.toInt.toNat then String.ofList piece else "")
  | none => .error (.tokenization ("table piece " ++ toString token))

/-! ## The context -/

/-- Feeds a batch into the context. -/
def decode (table : Tabulated) (batch : Batch) : Except EngineError Unit × Tabulated :=
  if table.failures.decodeFrom.any (· ≤ table.decoded) then (.error (.decode "table decode"), table)
  else
    (.ok (), { table with context := table.context ++ batch.tokens, decoded := table.decoded + 1 })

/-- The row that the scores are taken from. -/
def row (table : Tabulated) : List (Nat × Float32) :=
  if table.decoded = 0 then []
  else table.rows[(table.decoded - 1) % table.rows.length]?.getD []

/-- The scores of the tokens that may follow. -/
def logits (table : Tabulated) : Except EngineError (List Float32) :=
  if table.failures.logitsAfter.any (· < table.decoded) then .error (.inference "table logits")
  else
    let count := table.scoreCount.getD table.pieces.length
    .ok (table.row.foldl (fun scores (index, score) => scores.set index score)
      (List.replicate count table.fill))

/-- Empties the context. -/
def clear (table : Tabulated) : Except EngineError Unit × Tabulated :=
  if table.failures.clear then (.error (.inference "table clear"), table)
  else (.ok (), { table with context := [] })

/-! ## Embeddings -/

/-- Switches between generation and the extraction of embeddings. -/
def setEmbeddings (table : Tabulated) (enabled : Bool) : Except EngineError Unit :=
  if if enabled then table.failures.embeddingsOn else table.failures.embeddingsOff then
    .error (.inference ("table set_embeddings " ++ toString enabled))
  else .ok ()

/-- The embedding of the context. -/
def embeddings (table : Tabulated) : Except EngineError (List Float32) :=
  if table.failures.embeddings then .error (.embeddings "table embeddings")
  else .ok table.embedding

/-! ## The engine -/

/-- The functions of the engine. -/
def engine : Engine Tabulated where
  tokenize text addBos special table := ⟨table.tokenize text addBos special, table, false⟩
  piece token special table := ⟨table.pieceText token special, table, false⟩
  vocabSize table := table.pieces.length
  contextSize table := table.contextSize
  bos table := table.bos
  eos table := table.eos
  decode batch table := let (result, table) := table.decode batch; ⟨result, table, false⟩
  logits table := ⟨table.logits, table, false⟩
  clear table := let (result, table) := table.clear; ⟨result, table, false⟩
  setEmbeddings enabled table := ⟨table.setEmbeddings enabled, table, false⟩
  embeddings table := ⟨table.embeddings, table, false⟩

end Tabulated

end Parley
