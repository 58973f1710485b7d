import Parley.Session.Basic

/-! # Extracting embeddings

    An embedding is computed in the context of the session, which is empty before and after.  The
    engine is switched back to generation whatever happens in between.
-/

namespace Parley.Session

variable {σ : Type}

/-- Decodes a text with all its scores and returns the embedding of the context. -/
def embed (engine : Engine σ) (text : String) : SessionM σ (List Float32) := do
  let tokens ← onVocab (Vocabulary.tokenize engine text true false)
  let capacity := (← get).capacity engine
  if capacity < tokens.length then throw (.contextOverflow tokens.length capacity)
  match ← attempt (engine.decode (Batch.sequence tokens 0).requestAll) with
  | .error error => throw (.embeddings error.message)
  | .ok () =>
    match ← attempt engine.embeddings with
    | .error error => throw (.embeddings error.message)
    | .ok [] => throw (.embeddings "engine returned no embedding")
    | .ok embedding => return embedding

/-- The embedding of a text that is not blank. -/
def extractEmbeddings (engine : Engine σ) (text : String) : SessionM σ (List Float32) := do
  if text.toList.all Text.isBlank then throw (.embeddings "input is empty")
  resetContext engine
  match ← attempt (engine.setEmbeddings true) with
  | .error error => throw (.embeddings error.message)
  | .ok () =>
    let extracted ← observe (embed engine text)
    let restored ← attempt (engine.setEmbeddings false)
    resetContext engine
    match restored, extracted with
    | .error error, _ => throw (.embeddings error.message)
    | .ok (), .error error => throw error
    | .ok (), .ok embedding => return embedding

end Parley.Session
