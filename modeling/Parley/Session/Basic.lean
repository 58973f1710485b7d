import Parley.Sampling.Sampler
import Parley.Vocabulary

/-! # Sessions

    A session is the only one to write into the context of its engine.  It keeps the position in the
    context, the sampler, the recent tokens, the stop sequence, and the scores of the last decoding
    as the engine gave them.  A decoding call that fails stops the generation and is not repeated.
-/

namespace Parley

/-- Why an operation of a session failed. -/
inductive SessionError
  | emptyPrompt
  | contextOverflow (needed capacity : Nat)
  | decode (reason : String)
  | embeddings (reason : String)
  | stopped
  | vocabulary (error : VocabularyError)
  | sampling (error : SamplingError)
  | engine (error : EngineError)
  deriving DecidableEq, Repr

namespace SessionError

/-- The error in words. -/
def message : SessionError → String
  | .emptyPrompt => "prompt is empty"
  | .contextOverflow needed capacity =>
    "context overflow: " ++ toString needed ++ " tokens needed, capacity is " ++ toString capacity
  | .decode reason => "decode failed: " ++ reason
  | .embeddings reason => "embeddings failed: " ++ reason
  | .stopped => "generation stopped"
  | .vocabulary error => error.message
  | .sampling error => error.message
  | .engine error => "engine error: " ++ error.message

/-- The error of a session whose engine failed. -/
def ofEngine : EngineError → SessionError
  | .decode reason => .decode reason
  | .embeddings reason => .embeddings reason
  | error => .engine error

end SessionError

/-- The state of a session over an engine with the state `σ`. -/
structure Session (σ : Type) where
  vocab : Vocabulary σ
  params : SamplingParams
  sampler : Sampler
  /-- The number of tokens in the context. -/
  position : Nat := 0
  /-- The tokens sampled or accepted last, the newest first. -/
  recent : List TokenId := []
  stopSequence : List TokenId := []
  /-- The scores that the last decoding gave, not touched by any mask. -/
  logits : List Float32 := []

/-- A step of a session, which may fail. -/
abbrev SessionM (σ : Type) := EStateM SessionError (Session σ)

namespace Session

variable {σ α : Type}

/-- A session over an engine that was not used before. -/
def new (engineState : σ) (params : SamplingParams) : Session σ where
  vocab := { engine := engineState }
  params
  sampler := Sampler.ofParams params

/-! ## The engine under the session -/

/-- Runs a step of the vocabulary. -/
def onVocab (step : VocabularyM σ α) : SessionM σ α := fun session =>
  match step session.vocab with
  | .ok value vocab => .ok value { session with vocab }
  | .error error vocab => .error (.vocabulary error) { session with vocab }

/-- Makes a call to the engine and returns its result, be it an error. -/
def attempt (run : σ → Reply σ α) : SessionM σ (Except EngineError α) := fun session =>
  match Vocabulary.call run session.vocab with
  | .ok value vocab => .ok (.ok value) { session with vocab }
  | .error error vocab => .ok (.error error) { session with vocab }

/-- Runs a step and returns its result, be it an error. -/
def observe (step : SessionM σ α) : SessionM σ (Except SessionError α) := fun session =>
  match step session with
  | .ok value session => .ok (.ok value) session
  | .error error session => .ok (.error error) session

/-- The number of tokens that the context can hold. -/
def capacity (engine : Engine σ) (session : Session σ) : Nat :=
  engine.contextSize session.vocab.engine

/-- The number of tokens that the context has room for. -/
def remaining (engine : Engine σ) (session : Session σ) : Nat :=
  session.capacity engine - session.position

/-- The end-of-sequence token. -/
def eos (engine : Engine σ) (session : Session σ) : TokenId := engine.eos session.vocab.engine

/-! ## Stopping -/

/-- Whether a stop was requested for the generation under way. -/
def isStopped (session : Session σ) : Bool := session.vocab.stopped

/-- The session with a stop requested. -/
def stop (session : Session σ) : Session σ :=
  { session with vocab := { session.vocab with stopped := true } }

/-- The session ready for a new generation: earlier requests to stop no longer count. -/
def rearm (session : Session σ) : Session σ :=
  { session with vocab := { session.vocab with stopped := false } }

/-- The session at the start of a new generation, with no recent tokens. -/
def beginGeneration (session : Session σ) : Session σ := { session.rearm with recent := [] }

/-! ## Settings -/

/-- The session with other sampling parameters; the random numbers start anew. -/
def setParams (session : Session σ) (params : SamplingParams) : Session σ :=
  { session with params, sampler := Sampler.ofParams params }

/-- Sets the text that ends a generation.  It may hold control tokens; an empty text is none. -/
def setStopSequence (engine : Engine σ) (text : Option String) : SessionM σ Unit := do
  let text := text.getD ""
  let tokens ←
    if text.isEmpty then pure [] else onVocab (Vocabulary.tokenize engine text false true)
  modify fun session => { session with stopSequence := tokens }

/-! ## Recent tokens -/

/-- How many recent tokens are kept: enough for the penalty and for the stop sequence. -/
def window (session : Session σ) : Nat :=
  max (max session.params.repeatLastN session.stopSequence.length) 1

/-- The session with `token` as the newest recent token. -/
def remember (session : Session σ) (token : TokenId) : Session σ :=
  { session with recent := (token :: session.recent).take session.window }

/-- Whether the newest tokens are the stop sequence. -/
def stopSequenceMatched (session : Session σ) : Bool :=
  !session.stopSequence.isEmpty
    && (session.recent.take session.stopSequence.length).reverse == session.stopSequence

/-- The numbers of the tokens that the penalty weakens. -/
def penalized (session : Session σ) : List Nat :=
  (session.recent.take session.params.repeatLastN).filterMap fun token =>
    if 0 ≤ token then some token.toInt.toNat else none

/-! ## Decoding -/

/-- Feeds a batch into the context and keeps the scores behind it.  A failure requests a stop. -/
def decodeBatch (engine : Engine σ) (batch : Batch) : SessionM σ Unit := do
  match ← attempt (engine.decode batch) with
  | .error error =>
    modify stop
    throw (.decode error.message)
  | .ok () =>
    match ← attempt engine.logits with
    | .error error =>
      modify stop
      throw (.ofEngine error)
    | .ok logits => modify fun session => { session with logits }

/-- Feeds tokens into the context as if the model had produced them. -/
def inject (engine : Engine σ) (tokens : List TokenId) : SessionM σ Unit := do
  if !tokens.isEmpty then
    let session ← get
    let needed := session.position + tokens.length
    let capacity := session.capacity engine
    if capacity < needed then throw (.contextOverflow needed capacity)
    decodeBatch engine (Batch.sequence tokens session.position)
    modify fun session => { session with position := needed }

/-- Feeds a text into the context; returns its tokens. -/
def feedText (engine : Engine σ) (text : String) : SessionM σ (List TokenId) := do
  let tokens ← onVocab (Vocabulary.tokenize engine text false false)
  inject engine tokens
  return tokens

/-- Empties the context. -/
def resetContext (engine : Engine σ) : SessionM σ Unit := do
  match ← attempt engine.clear with
  | .error error => throw (.ofEngine error)
  | .ok () => modify fun session => { session with position := 0, recent := [], logits := [] }

/-- Feeds a prompt into the context in one batch; returns the number of its tokens.  The
    beginning-of-sequence token is added to an empty context. -/
def prepareContext (engine : Engine σ) (prompt : String) : SessionM σ Nat := do
  if prompt.isEmpty then throw .emptyPrompt
  let tokens ← onVocab (Vocabulary.tokenize engine prompt ((← get).position == 0) true)
  if tokens.isEmpty then throw .emptyPrompt
  let session ← get
  let needed := session.position + tokens.length
  let capacity := session.capacity engine
  if capacity < needed then throw (.contextOverflow needed capacity)
  modify fun session => { session with recent := [] }
  decodeBatch engine (Batch.sequence tokens session.position)
  modify fun session => { session with position := needed }
  return tokens.length

/-- Tokens that a generation cannot do without: blank tokens, the quote and the end of the
    sequence. -/
def protectedTokens (engine : Engine σ) : SessionM σ TokenSet := do
  let classes ← onVocab (Vocabulary.tokenClasses engine)
  let quote ← onVocab (Vocabulary.singleToken engine "\"")
  let blanks := match quote with
    | some token => classes.whitespace.insert token
    | none => classes.whitespace
  return blanks.insert ((← get).eos engine)

end Session

end Parley
