import Parley.Client.Error
import Parley.Constrained.Generate
import Parley.Session.Embedding

/-! # Clients

    A client puts a session, a chat template and the history of a conversation together.  It serves
    one call at a time: a call first claims the client, and a call that comes while the client is
    claimed is refused and changes nothing.  Claiming withdraws earlier requests to stop, so a
    request counts for the call that was accepted last, from its beginning on.
-/

namespace Parley

/-- The state of a client over an engine with the state `σ`. -/
structure Client (σ : Type) where
  session : Session σ
  config : Config
  template : Template
  history : History
  /-- Whether no call is under way. -/
  available : Bool := true

namespace Client

variable {σ α ε : Type}

/-! ## Setting up -/

/-- The client with another template. -/
def withTemplate (engine : Engine σ) (client : Client σ) (template : Template) :
    Except ClientError (Client σ) :=
  match Session.setStopSequence engine template.stopSequence client.session with
  | .ok () session => .ok { client with session, template }
  | .error error _ => .error (.ofSession error)

/-- A client over an engine that was not used before. -/
def new (engine : Engine σ) (engineState : σ) (config : Config) :
    Except ClientError (Client σ) := do
  config.validate.mapError .ofConfig
  let template := Template.ofKind config.template
  let client : Client σ :=
    { session := Session.new engineState config.sampling, config, template
      history := History.new config.historyLimit }
  client.withTemplate engine template

/-! ## Claiming -/

/-- The client claimed for a call, unless another call is under way. -/
def claim? (client : Client σ) : Option (Client σ) :=
  if client.available then
    some { client with session := client.session.rearm, available := false }
  else none

/-- The client with its call ended. -/
def release (client : Client σ) : Client σ := { client with available := true }

/-- The client with a stop requested for the call under way. -/
def stop (client : Client σ) : Client σ := { client with session := client.session.stop }

/-- Runs a step of the session. -/
def onSession (step : EStateM ε (Session σ) α) (client : Client σ) : Except ε α × Client σ :=
  match step client.session with
  | .ok value session => (.ok value, { client with session })
  | .error error session => (.error error, { client with session })

/-- Runs a step of the session on a claimed client and ends the call. -/
def finishWith (step : EStateM ε (Session σ) α) (client : Client σ) : Except ε α × Client σ :=
  let (result, client) := client.onSession step
  (result, client.release)

/-! ## Calls without a stream -/

/-- Generates JSON for a schema and reads it with `read`; returns what was read and the text.  The
    history is left out of the prompt. -/
def generate (engine : Engine σ) (read : String → Except Json.Error α)
    (input schemaText : String) (client : Client σ) :
    Except ClientError (α × String) × Client σ :=
  match client.claim? with
  | none => (.error .busy, client)
  | some client =>
    let prompt := client.template.format client.config.systemPrompt [] input
    let (result, client) :=
      client.finishWith (Session.generateArmed engine read prompt schemaText)
    (result.mapError .ofGeneration, client)

/-- The embedding of a text. -/
def embeddings (engine : Engine σ) (text : String) (client : Client σ) :
    Except ClientError (List Float32) × Client σ :=
  match client.claim? with
  | none => (.error .busy, client)
  | some client =>
    let (result, client) := client.finishWith (Session.extractEmbeddings engine text)
    (result.mapError .ofSession, client)

/-- Empties the history and the context. -/
def reset (engine : Engine σ) (client : Client σ) : Except ClientError Unit × Client σ :=
  match client.claim? with
  | none => (.error .busy, client)
  | some client =>
    let client := { client with history := client.history.clear }
    let (result, client) := client.finishWith (Session.resetContext engine)
    (result.mapError .ofSession, client)

end Client

end Parley
