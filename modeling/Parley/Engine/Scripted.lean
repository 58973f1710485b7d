import Parley.Engine
import Parley.Engine.Script
import Parley.Text.Quoted

/-! # The scripted engine

    An engine without a model.  Its vocabulary is small and fixed, it tokenizes by the longest
    match, and its scores steer the generation along a script: while what was generated behind the
    prompt is a beginning of the script, the tokens that continue it score highest, longer ones
    above shorter ones.  The prompt is the first batch after the context was emptied.
-/

namespace Parley

/-- A token of the vocabulary: its text, and whether it is a control token. -/
structure Scripted.Piece where
  text : List Char
  control : Bool
  deriving DecidableEq, Repr, Inhabited

/-- The state of the engine. -/
structure Scripted where
  contextSize : Nat := 512
  context : List TokenId := []
  /-- The number of tokens of the prompt. -/
  promptLength : Option Nat := none
  hasLogits : Bool := false
  embeddingMode : Bool := false
  script : Option Script := none
  /-- Decoding calls beyond this number fail. -/
  failAt : Option Nat := none
  decodeCalls : Nat := 0
  clearCalls : Nat := 0
  deriving DecidableEq, Repr, Inhabited

namespace Scripted

/-! ## The vocabulary -/

/-- The beginning-of-sequence token. -/
def bos : TokenId := 0

/-- The end-of-sequence token. -/
def eos : TokenId := 1

/-- The texts of the control tokens. -/
def controlTexts : List String :=
  ["<s>", "</s>", "<|im_start|>", "<|im_end|>", "<|begin_of_text|>", "<|start_header_id|>",
    "<|end_header_id|>", "<|eot_id|>"]

/-- The texts of the tokens that are neither control tokens, single characters nor numbers. -/
def words : List String :=
  ["<think>", "</think>", "true", "false", "null", "red", "green", "blue", "Alice", "Bob", "name",
    "age", "hello", "Hello", " world", " the", "answer", "reasoning", "user", "assistant", "system",
    "  ", "\n\n"]

/-- The printable characters of ASCII, and the line break. -/
def characters : List (List Char) :=
  (List.range 95).map (fun n => [Char.ofNat (0x20 + n)]) ++ [['\n']]

/-- The numbers of two digits. -/
def numbers : List (List Char) :=
  (List.range 100).map fun n => [Nat.digitChar (n / 10), Nat.digitChar (n % 10)]

/-- The tokens in the order of their identifiers. -/
def pieces : Array Piece :=
  let plain := characters ++ words.map String.toList ++ numbers
  (controlTexts.map (fun text => Piece.mk text.toList true)
    ++ plain.map fun text => Piece.mk text false).toArray

/-- The token with the identifier `token`. -/
def piece? (token : TokenId) : Option Piece :=
  if 0 ≤ token then pieces[token.toInt.toNat]? else none

/-- The first token with the text `text`. -/
def tokenOf? (text : String) : Option TokenId :=
  (pieces.findIdx? fun piece => piece.text == text.toList).map Int32.ofNat

/-- The texts of the tokens, one behind the other. -/
def render (tokens : List TokenId) : List Char :=
  tokens.flatMap fun token => ((piece? token).map (·.text)).getD []

/-! ## Tokenizing -/

/-- The longest token that `text` begins with, among all of them or those that are no control
    tokens. -/
def longest? (special : Bool) (text : List Char) : Option (Piece × Nat) :=
  pieces.toList.zipIdx.foldl
    (fun best (piece, index) =>
      if (special || !piece.control) && piece.text.isPrefixOf text then
        match best with
        | some (other, _) =>
          if other.text.length ≤ piece.text.length then some (piece, index) else best
        | none => some (piece, index)
      else best)
    none

/-- The tokens of `text`, of which there are at most `fuel`. -/
def tokenizeWithin (special : Bool) :
    (fuel : Nat) → (text : List Char) → Except EngineError (List TokenId)
  | _, [] => .ok []
  | 0, _ :: _ => .ok []
  | fuel + 1, c :: rest =>
    match longest? special (c :: rest) with
    | some (piece, index) =>
      (tokenizeWithin special fuel ((c :: rest).drop piece.text.length)).map
        (Int32.ofNat index :: ·)
    | none => .error (.tokenization ("no token for " ++ Text.quotedChar c))

/-- The tokens of `text`. -/
def tokenize (text : String) (addBos special : Bool) : Except EngineError (List TokenId) :=
  let text := text.toList
  (tokenizeWithin special text.length text).map fun tokens =>
    if addBos then bos :: tokens else tokens

/-- The text of a token. -/
def pieceText (token : TokenId) (special : Bool) : Except EngineError String :=
  match piece? token with
  | none => .error (.tokenization ("invalid token " ++ toString token))
  | some piece =>
    .ok (if piece.control && !special then "" else String.ofList piece.text)

/-! ## Decoding -/

/-- Why a batch cannot be fed into the context. -/
def refusal? (state : Scripted) (batch : Batch) : Option String :=
  match batch.entries with
  | [] => some "empty batch"
  | first :: _ =>
    if first.position ≠ state.context.length then
      some ("position " ++ toString first.position ++ " does not follow sequence length "
        ++ toString state.context.length)
    else if state.contextSize < state.context.length + batch.size then some "context full"
    else
      (batch.tokens.find? fun token => (piece? token).isNone).map fun token =>
        "invalid token " ++ toString token

/-- The state with the batch in the context. -/
def extend (state : Scripted) (batch : Batch) : Scripted :=
  let context := state.context ++ batch.tokens
  { state with
    context
    promptLength :=
      if state.promptLength.isNone && !state.embeddingMode then some context.length
      else state.promptLength
    hasLogits := batch.wishes.any id }

/-- Feeds a batch into the context. -/
def decode (batch : Batch) (state : Scripted) : Except EngineError Unit × Scripted :=
  let state := { state with decodeCalls := state.decodeCalls + 1 }
  if state.failAt.any (· < state.decodeCalls) then (.error (.decode "injected failure"), state)
  else
    match refusal? state batch with
    | some reason => (.error (.decode reason), state)
    | none => (.ok (), state.extend batch)

/-! ## Scores -/

/-- The text behind the prompt. -/
def generated (state : Scripted) : List Char :=
  render (state.context.drop (state.promptLength.getD state.context.length))

/-- The score of a token that continues the script. -/
def favour (length : Nat) : Float32 := 20 + Float32.ofNat length

/-- The score of the token `piece` with the number `index`, where the script goes on with `rest`,
    and stopping is preferred or not. -/
def scoreIn (rest : List Char) (stop : Bool) (piece : Piece) (index : Nat) : Float32 :=
  if index = 1 && stop then 100
  else if index ≠ 0 && piece.text.isPrefixOf rest then favour piece.text.length
  else 0

/-- The scores of the tokens after `generated`. -/
def scores (script : Option Script) (generated : List Char) : List Float32 :=
  match script.bind fun script => (script.remaining? generated).map fun rest => (script, rest) with
  | some (script, rest) =>
    let stop := script.prefersStop generated
    pieces.toList.mapIdx fun index piece => scoreIn rest stop piece index
  | none => pieces.toList.mapIdx fun index _ => if index = 1 then 20 else 0

/-- The scores of the tokens that may follow. -/
def logits (state : Scripted) : Except EngineError (List Float32) :=
  if state.hasLogits then .ok (scores state.script state.generated)
  else .error (.inference "no logits requested")

/-! ## The context and its embedding -/

/-- Empties the context. -/
def clear (state : Scripted) : Scripted :=
  { state with
    context := [], promptLength := none, hasLogits := false, clearCalls := state.clearCalls + 1 }

/-- The number of components of an embedding. -/
def embeddingSize : Nat := 16

/-- The component that the token at the place `index` adds to. -/
def slot (index : Nat) (token : TokenId) : Nat :=
  (token.toInt.toNat * 7 + index * 3) % embeddingSize

/-- What a token adds to its component. -/
def weight (token : TokenId) : Float32 := 1 + Float32.ofNat (token.toInt.toNat % 5) * 0.25

/-- The sums of the weights of the tokens of a context, by component. -/
def components (context : List TokenId) : List Float32 :=
  context.zipIdx.foldl
    (fun sums (token, index) => sums.modify (slot index token) (· + weight token))
    (List.replicate embeddingSize 0)

/-- The values scaled to length 1. -/
def normalize (values : List Float32) : List Float32 :=
  let length := (values.foldl (fun total value => total + value * value) 0).sqrt
  if 0 < length then values.map (· / length) else values

/-- The embedding of the context. -/
def embeddings (state : Scripted) : Except EngineError (List Float32) :=
  if !state.embeddingMode then .error (.embeddings "embeddings mode is off")
  else if state.context.isEmpty then .error (.embeddings "context is empty")
  else .ok (normalize (components state.context))

/-! ## The engine -/

/-- The engine with the given script from now on. -/
def setScript (state : Scripted) (script : Option String) : Scripted :=
  { state with script := script.map Script.parse }

/-- The engine whose next `count` decoding calls may succeed, and no later one. -/
def failAfter (state : Scripted) (count : Nat) : Scripted :=
  { state with failAt := some (state.decodeCalls + count) }

/-- The functions of the engine. -/
def engine : Engine Scripted where
  tokenize text addBos special state := ⟨tokenize text addBos special, state, false⟩
  piece token special state := ⟨pieceText token special, state, false⟩
  vocabSize _ := pieces.size
  contextSize state := state.contextSize
  bos _ := bos
  eos _ := eos
  decode batch state := let (result, state) := decode batch state; ⟨result, state, false⟩
  logits state := ⟨logits state, state, false⟩
  clear state := ⟨.ok (), clear state, false⟩
  setEmbeddings enabled state := ⟨.ok (), { state with embeddingMode := enabled }, false⟩
  embeddings state := ⟨embeddings state, state, false⟩

end Scripted

end Parley
