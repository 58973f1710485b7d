import Parley.Client.Basic

/-! # Answers

    An answer is streamed: the call claims the client, primes the context with the prompt, and hands
    the session to a worker.  When the worker has ended, a turn of the conversation is added to the
    history, and only then is the client released.
-/

namespace Parley

/-- What an answer is for. -/
inductive Purpose
  /-- A turn of the conversation: the history is part of the prompt, and the turn is added to it. -/
  | turn
  /-- A question on its own. -/
  | single
  deriving DecidableEq, Repr, Inhabited

/-- A call that was accepted and is being answered. -/
structure Call where
  purpose : Purpose
  input : String
  worker : Worker
  deriving DecidableEq, Repr

/-- What became of a call that was asked for. -/
inductive Opening
  /-- The client was not free. -/
  | refused
  /-- The context could not be primed, and the call has ended. -/
  | failed (error : SessionError)
  | running (call : Call)
  deriving DecidableEq, Repr

/-- The text of an answer, and the reports made on the way. -/
structure Completion where
  text : String
  reports : List Report := []
  deriving DecidableEq, Repr

namespace Client

variable {σ : Type}

/-- What `complete` answers while another call is under way. -/
def busyMessage : String := "LLM is being used"

/-- What stands for an answer that could not be generated. -/
def failedAnswer : String := "..."

/-! ## Priming -/

/-- The prompt for `input`. -/
def prompt (client : Client σ) (purpose : Purpose) (input : String) : String :=
  let history := match purpose with
    | .turn => client.history.entries
    | .single => []
  client.template.format client.config.systemPrompt history input

/-- Empties the context and feeds the prompt into it. -/
def tryPrime (engine : Engine σ) (purpose : Purpose) (input : String) (client : Client σ) :
    Except SessionError Nat × Client σ :=
  let prompt := client.prompt purpose input
  let step : SessionM σ Nat := do
    Session.resetContext engine
    Session.prepareContext engine prompt
  client.onSession step

/-- Feeds the prompt into an empty context.  As long as it does not fit, the oldest turn of the
    history is dropped, at most `turns` times. -/
def primeDropping (engine : Engine σ) (purpose : Purpose) (input : String) :
    (turns : Nat) → Client σ → Except SessionError Nat × Client σ
  | 0, client => client.tryPrime engine purpose input
  | turns + 1, client =>
    match client.tryPrime engine purpose input with
    | (.error (.contextOverflow needed capacity), client) =>
      match client.history.evictOldest? with
      | some history => primeDropping engine purpose input turns { client with history }
      | none => (.error (.contextOverflow needed capacity), client)
    | other => other

/-- How many turns of the history a call may drop. -/
def droppableTurns (client : Client σ) : Purpose → Nat
  | .turn => client.history.turns
  | .single => 0

/-- Feeds the prompt into an empty context; a turn drops what it must of the history. -/
def prime (engine : Engine σ) (purpose : Purpose) (input : String) (client : Client σ) :
    Except SessionError Nat × Client σ :=
  client.primeDropping engine purpose input (client.droppableTurns purpose)

/-! ## The course of a call -/

/-- How the answers of a client are streamed. -/
def streamOptions (client : Client σ) : StreamOptions where
  thinking := client.config.thinking
  startMarker := client.template.thinkingStart
  endMarker := client.template.thinkingEnd
  maxNewTokens := client.config.maxNewTokens

/-- Primes a claimed client and sets up the worker; the call ends at once if that fails. -/
def launch (engine : Engine σ) (purpose : Purpose) (input : String) (client : Client σ) :
    Opening × Client σ :=
  match client.prime engine purpose input with
  | (.error error, client) => (.failed error, client.release)
  | (.ok promptTokens, client) =>
    let timer := ({} : Timer).markPrefilled promptTokens
    let worker := Worker.start engine client.session client.streamOptions timer
    (.running { purpose, input, worker }, client)

/-- Asks for an answer. -/
def start (engine : Engine σ) (purpose : Purpose) (input : String) (client : Client σ) :
    Opening × Client σ :=
  match client.claim? with
  | none => (.refused, client)
  | some client => client.launch engine purpose input

/-- One step of a call. -/
def advance (engine : Engine σ) (call : Call) (client : Client σ) : Call × Client σ :=
  let (worker, session) := call.worker.step engine client.session
  ({ call with worker }, { client with session })

/-- Adds a turn that was answered to the history. -/
def record (call : Call) (summary : Summary) (client : Client σ) : Client σ :=
  if call.purpose = .turn && summary.isOk && !summary.response.isEmpty then
    { client with history := client.history.pushTurn call.input summary.response }
  else client

/-- Runs a call to its end and ends it.  After each counted token `stopAfter` says of its running
    number whether to request a stop. -/
def conclude (engine : Engine σ) (stopAfter : Nat → Bool) (call : Call) (client : Client σ) :
    Transcript × Client σ :=
  let (worker, session) := call.worker.run engine stopAfter client.session
  let transcript := Transcript.ofWorker worker
  let client := { client with session }
  (transcript, (client.record call transcript.summary).release)

/-! ## Whole calls -/

/-- What a turn looks like that failed before it began. -/
def failedTurn (error : SessionError) : Transcript :=
  Transcript.failed failedAnswer (.session error) {}

/-- Answers a turn of the conversation; `none` if another call is under way. -/
def respond (engine : Engine σ) (stopAfter : Nat → Bool) (input : String) (client : Client σ) :
    Option Transcript × Client σ :=
  match client.start engine .turn input with
  | (.refused, client) => (none, client)
  | (.failed error, client) => (some (failedTurn error), client)
  | (.running call, client) =>
    let (transcript, client) := client.conclude engine stopAfter call
    (some transcript, client)

/-- The response of a generation; a placeholder if it failed or is empty. -/
def responseText (summary : Summary) : String :=
  if summary.isOk && !summary.response.isEmpty then summary.response else failedAnswer

/-- Answers a question on its own, without its thinking. -/
def complete (engine : Engine σ) (input : String) (client : Client σ) : Completion × Client σ :=
  match client.start engine .single input with
  | (.refused, client) => ({ text := busyMessage }, client)
  | (.failed _, client) => ({ text := failedAnswer }, client)
  | (.running call, client) =>
    let (transcript, client) := client.conclude engine (fun _ => false) call
    ({ text := responseText transcript.summary, reports := transcript.reports }, client)

end Client

end Parley
