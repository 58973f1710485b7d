import Parley.Session.Prediction
import Parley.Stream.Router
import Parley.Telemetry

/-! # Streaming a generation

    A worker owns the session for one call.  It predicts tokens, routes their text, and sends what
    the router releases to the two channels.  The worker moves in steps, so that anything may happen
    between two of them: a token is counted and reported in one step and its text is sent in the
    next.
-/

namespace Parley

/-- How a generation is streamed. -/
structure StreamOptions where
  thinking : ThinkingMode := .enabled
  startMarker : Option String := none
  endMarker : Option String := none
  maxNewTokens : Nat := 1024
  deriving DecidableEq, Repr, Inhabited

/-- Why a streamed generation failed. -/
inductive StreamError
  | session (error : SessionError)
  | vocabulary (error : VocabularyError)
  /-- The end of thinking could not be forced. -/
  | injection (error : SessionError)
  | workerPanicked
  deriving DecidableEq, Repr

/-- The error in words. -/
def StreamError.message : StreamError → String
  | .session error => error.message
  | .vocabulary error => error.message
  | .injection error => "thinking end marker injection failed: " ++ error.message
  | .workerPanicked => "generation worker panicked"

/-- How a generation ended. -/
inductive Finish
  /-- The model ended the sequence. -/
  | endOfSequence
  /-- A stop was requested, or the stop sequence was completed. -/
  | stopped
  /-- The budget of tokens or the context is used up. -/
  | length
  | failed (error : StreamError)
  deriving DecidableEq, Repr

/-- Everything that one streamed generation produced. -/
structure Summary where
  thinking : String
  response : String
  finish : Finish
  /-- Whether the end of thinking had to be forced. -/
  injectedEndMarker : Bool
  metrics : Metrics
  deriving DecidableEq, Repr

namespace Summary

/-- The error of a generation that failed. -/
def error? (summary : Summary) : Option StreamError :=
  match summary.finish with
  | .failed error => some error
  | _ => none

/-- Whether the generation did not fail. -/
def isOk (summary : Summary) : Bool := summary.error?.isNone

end Summary

/-! ## Channels -/

/-- The two channels: the chunks delivered so far, the texts produced, and whether the thinking
    channel is still open. -/
structure Channels where
  thinkingOpen : Bool := true
  thinkingChunks : List String := []
  responseChunks : List String := []
  thinkingText : String := ""
  responseText : String := ""
  deriving DecidableEq, Repr, Inhabited

namespace Channels

/-- Sends text to the thinking channel; a closed channel delivers nothing. -/
def sendThinking (channels : Channels) (text : List Char) : Channels :=
  if text.isEmpty then channels
  else
    let chunk := String.ofList text
    { channels with
      thinkingText := channels.thinkingText ++ chunk
      thinkingChunks :=
        if channels.thinkingOpen then channels.thinkingChunks ++ [chunk]
        else channels.thinkingChunks }

/-- Sends text to the response channel. -/
def sendResponse (channels : Channels) (text : List Char) : Channels :=
  if text.isEmpty then channels
  else
    let chunk := String.ofList text
    { channels with
      responseText := channels.responseText ++ chunk
      responseChunks := channels.responseChunks ++ [chunk] }

/-- Sends what the router released. -/
def send (channels : Channels) (routed : Routed) : Channels :=
  (channels.sendThinking routed.thinking).sendResponse routed.response

/-- Closes the thinking channel once no thinking can come any more. -/
def sync (channels : Channels) (router : Router) : Channels :=
  if router.isPastThinking then { channels with thinkingOpen := false } else channels

end Channels

/-! ## The worker -/

/-- Where a worker stands between two steps. -/
inductive Stage
  /-- The next token is to be predicted. -/
  | predicting
  /-- A token was counted, and its text is to be sent. -/
  | sending (routed : Routed)
  /-- The generation has ended. -/
  | done (summary : Summary)
  deriving DecidableEq, Repr

/-- The worker of one call. -/
structure Worker where
  options : StreamOptions
  eos : TokenId
  router : Router
  channels : Channels
  timer : Timer
  /-- Tokens that the next prediction may not yield: the first token may not end the stream. -/
  excluding : TokenSet
  injected : Bool := false
  produced : Nat := 0
  stage : Stage := .predicting
  deriving DecidableEq, Repr

namespace Worker

variable {σ : Type}

/-- The worker of a call over a primed session. -/
def start (engine : Engine σ) (session : Session σ) (options : StreamOptions) (timer : Timer) :
    Worker :=
  let router := Router.new options.thinking options.startMarker options.endMarker
  let eos := session.eos engine
  { options, eos, router, timer
    channels := ({} : Channels).sync router
    excluding := TokenSet.ofList [eos] }

/-- The summary of what the worker has done. -/
def summarize (worker : Worker) (finish : Finish) : Summary where
  thinking := worker.channels.thinkingText
  response := worker.channels.responseText
  finish
  injectedEndMarker := worker.injected
  metrics := worker.timer.metrics

/-- The worker at its end: held text is released. -/
def finish (worker : Worker) (finish : Finish) : Worker :=
  let worker := { worker with
    channels := worker.channels.send worker.router.finish
    timer := worker.timer.finish }
  { worker with stage := .done (worker.summarize finish) }

/-- The worker after a failure: held text is dropped. -/
def fail (worker : Worker) (error : StreamError) : Worker :=
  { worker with
    timer := worker.timer.finish
    stage := .done (worker.summarize (.failed error)) }

/-- Routes the text of a token. -/
def route (worker : Worker) (text : List Char) : Worker × Routed :=
  let (router, routed) := worker.router.step text
  ({ worker with router }, routed)

/-- Sends what was routed. -/
def deliver (worker : Worker) (routed : Routed) : Worker :=
  { worker with
    channels := (worker.channels.send routed).sync worker.router, stage := .predicting }

/-- The text that forces the end of thinking, if thinking is under way and was not ended so
    before. -/
def forcedEnd? (worker : Worker) : Option String :=
  if worker.router.isThinking && !worker.injected then
    (worker.options.endMarker.filter fun marker => !marker.isEmpty).map (· ++ "\n")
  else none

/-- Forces the end of thinking: the marker goes into the context and through the router. -/
def forceEnd (engine : Engine σ) (worker : Worker) (marker : String) (session : Session σ) :
    Worker × Session σ :=
  let worker := { worker with injected := true }
  let inject : SessionM σ Unit := do
    let tokens ← Session.onVocab (Vocabulary.tokenize engine marker false true)
    Session.inject engine tokens
  match inject session with
  | .error error session => (worker.fail (.injection error), session)
  | .ok () session =>
    let (worker, routed) := worker.route marker.toList
    (worker.deliver routed, session)

/-- Goes on after the end-of-sequence token. -/
def endSequence (engine : Engine σ) (worker : Worker) (session : Session σ) : Worker × Session σ :=
  if session.isStopped then (worker.finish .stopped, session)
  else if session.remaining engine = 0 then (worker.finish .length, session)
  else
    match worker.forcedEnd? with
    | some marker => forceEnd engine worker marker session
    | none => (worker.finish .endOfSequence, session)

/-- Counts a token with the given text and routes it. -/
def produce (worker : Worker) (text : List Char) : Worker :=
  let wasThinking := worker.router.isThinking
  let (worker, routed) := { worker with produced := worker.produced + 1 : Worker }.route text
  let timer :=
    if wasThinking || worker.router.isThinking then worker.timer.markThinking
    else worker.timer.markResponse
  { worker with timer, stage := .sending routed }

/-- Predicts a token and goes on with it. -/
def predict (engine : Engine σ) (worker : Worker) (session : Session σ) : Worker × Session σ :=
  match session.predictNext engine worker.excluding with
  | .error error session => (worker.fail (.session error), session)
  | .ok token session =>
    let worker := { worker with excluding := TokenSet.empty }
    if token = worker.eos then endSequence engine worker session
    else
      match Vocabulary.piece engine token false session.vocab with
      | .error error vocab =>
        (worker.fail (.vocabulary error), { session with vocab : Session σ }.stop)
      | .ok piece vocab => (worker.produce piece.toList, { session with vocab })

/-- One step of the worker. -/
def step (engine : Engine σ) (worker : Worker) (session : Session σ) : Worker × Session σ :=
  match worker.stage with
  | .done _ => (worker, session)
  | .sending routed => (worker.deliver routed, session)
  | .predicting =>
    if worker.options.maxNewTokens ≤ worker.produced then (worker.finish .length, session)
    else predict engine worker session

/-- Takes steps until the generation has ended, at most `fuel` of them.  After each counted token
    `stopAfter` says of its running number whether to request a stop. -/
def runWithin (engine : Engine σ) (stopAfter : Nat → Bool) :
    (fuel : Nat) → Worker → Session σ → Worker × Session σ
  | 0, worker, session => (worker, session)
  | fuel + 1, worker, session =>
    match worker.stage with
    | .done _ => (worker, session)
    | _ =>
      let (worker, session) := worker.step engine session
      let session := match worker.stage with
        | .sending _ =>
          if stopAfter worker.timer.metrics.generatedTokens then session.stop else session
        | _ => session
      runWithin engine stopAfter fuel worker session

/-- The most steps that a worker can take: two a token, one for a forced end of thinking, and one
    for the end. -/
def maxSteps (worker : Worker) : Nat := 2 * worker.options.maxNewTokens + 3

/-- Takes steps until the generation has ended. -/
def run (engine : Engine σ) (stopAfter : Nat → Bool) (worker : Worker) (session : Session σ) :
    Worker × Session σ :=
  runWithin engine stopAfter worker.maxSteps worker session

end Worker

/-! ## Finished streams -/

/-- What is left of a streamed call when it has ended: the chunks of its channels, the summary, and
    the reports of its timer. -/
structure Transcript where
  thinking : List String := []
  response : List String := []
  summary : Summary
  reports : List Report := []
  deriving DecidableEq, Repr

namespace Transcript

/-- The transcript of a worker that has ended. -/
def ofWorker (worker : Worker) : Transcript where
  thinking := worker.channels.thinkingChunks
  response := worker.channels.responseChunks
  summary := match worker.stage with
    | .done summary => summary
    | _ => worker.summarize .length
  reports := worker.timer.reports

/-- The transcript of a call that failed before it began: `placeholder` is its whole response. -/
def failed (placeholder : String) (error : StreamError) (timer : Timer) : Transcript where
  response := if placeholder.isEmpty then [] else [placeholder]
  summary :=
    { thinking := "", response := placeholder, finish := .failed error, injectedEndMarker := false
      metrics := timer.metrics }
  reports := timer.finish.reports

end Transcript

end Parley
