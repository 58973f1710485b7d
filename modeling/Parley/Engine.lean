import Parley.Token.Batch

/-! # Engines

    An engine turns text into tokens and back, holds a context of tokens, and scores what may follow
    it.  It is described by functions on a state `σ` of its own, so everything it keeps is visible
    in the state.  While a call runs, somebody may ask for the generation to stop; the reply says
    so.
-/

namespace Parley

/-- Why an engine could not do what it was asked for. -/
inductive EngineError
  | tokenization (reason : String)
  | decode (reason : String)
  | inference (reason : String)
  | embeddings (reason : String)
  deriving DecidableEq, Repr

/-- The error in words. -/
def EngineError.message : EngineError → String
  | .tokenization reason => "Tokenization failed: " ++ reason
  | .decode reason => "Decode failed: " ++ reason
  | .inference reason => "Inference failed: " ++ reason
  | .embeddings reason => "Embeddings failed: " ++ reason

/-- What a call to an engine leaves behind: its result, the state of the engine after it, and
    whether a stop was requested while it ran. -/
structure Reply (σ α : Type) where
  result : Except EngineError α
  state : σ
  stop : Bool := false

/-- The functions of an engine with the state `σ`. -/
structure Engine (σ : Type) where
  /-- The tokens of a text, behind the beginning-of-sequence token if `addBos`; control tokens are
      recognised if `special`. -/
  tokenize : (text : String) → (addBos special : Bool) → σ → Reply σ (List TokenId)
  /-- The text of a token, which is empty for control tokens unless `special`. -/
  piece : (token : TokenId) → (special : Bool) → σ → Reply σ String
  /-- The number of tokens of the vocabulary. -/
  vocabSize : σ → Nat
  /-- The number of tokens that the context can hold. -/
  contextSize : σ → Nat
  /-- The beginning-of-sequence token. -/
  bos : σ → TokenId
  /-- The end-of-sequence token. -/
  eos : σ → TokenId
  /-- Feeds a batch into the context. -/
  decode : Batch → σ → Reply σ Unit
  /-- The scores of the tokens that may follow, in the order of their identifiers. -/
  logits : σ → Reply σ (List Float32)
  /-- Empties the context. -/
  clear : σ → Reply σ Unit
  /-- Switches between generation and the extraction of embeddings. -/
  setEmbeddings : (enabled : Bool) → σ → Reply σ Unit
  /-- The embedding of the context. -/
  embeddings : σ → Reply σ (List Float32)

end Parley
