import Parley.Command.Actions
import Parley.Command.Arguments
import Parley.Command.Files
import Parley.Engine.Scripted

/-! # The program

    The program serves its commands with a scripted engine.  It is a function of its arguments, the
    files they name, and the lines of its input; only reading and writing are left to the outside.
-/

namespace Parley.Command

/-- What the program writes, and the code that it ends with. -/
structure Outcome where
  exitCode : Nat := 0
  out : String := ""
  err : String := ""
  deriving DecidableEq, Repr, Inhabited

/-- The end of a program that failed. -/
def Outcome.failed (error : CommandError) : Outcome where
  exitCode := 1
  err := "error: " ++ error.message ++ "\n"

/-! ## Setting up -/

/-- The script of a chat or a completion for which none was given. -/
def defaultScript : String := "<think>The user said hello.</think>\nHello! How can I help?"

/-- The size of the context if none was given. -/
def defaultContext : Nat := 4096

/-- The configuration in a file. -/
def configAt (file : FileState) : Except ClientError Config := do
  let text ← file.content.mapError .io
  (Config.parse text).mapError .ofConfig

/-- The configuration with the options that change it. -/
def override (options : Options) (config : Config) : Config :=
  let sampling := config.sampling
  { config with
    template := options.template.getD config.template
    thinking := if options.noThinking then .disabled else config.thinking
    sampling :=
      { sampling with
        seed := (options.seed.map Nat.toUInt64).getD sampling.seed
        temperature := options.temperature.getD sampling.temperature } }

/-- The configuration that the options ask for. -/
def configFor (files : String → FileState) (options : Options) : Except ClientError Config := do
  let config ← match options.config with
    | some path => configAt (files path)
    | none => .ok { template := .qwen3 }
  let config := override options config
  config.validate.mapError .ofConfig
  return config

/-- The script that an action is served with. -/
def scriptFor (options : Options) : Action → Option String
  | .chat | .complete _ => some (options.script.getD defaultScript)
  | .json .. | .embed _ => options.script

/-- A client over a scripted engine. -/
def scriptedClient (config : Config) (script : Option String) (contextSize : Nat) :
    Except ClientError (Client Scripted) :=
  Client.new Scripted.engine (({ contextSize } : Scripted).setScript script) config

/-- The schema that an argument gives: the text of a file if there is such a file, and else the
    argument itself.  What begins like an object is never taken for a path. -/
def loadSchema (files : String → FileState) (argument : String) : Except CommandError String :=
  if (Text.trimStart argument.toList).head? = some '\x7b' then .ok argument
  else
    let file := files argument
    if file.isFile then file.content.mapError .io else .ok argument

/-! ## Single answers -/

/-- The answer of an action that is no chat. -/
def answer (files : String → FileState) (action : Action) (client : Client Scripted) :
    Except CommandError String :=
  match action with
  | .chat => .ok ""
  | .complete prompt => .ok (client.complete Scripted.engine prompt).1.text
  | .embed text => (embeddingText Scripted.engine text client).1
  | .json prompt argument => do
    let schema ← loadSchema files argument
    (generateText Scripted.engine prompt schema client).1

/-! ## Chatting -/

/-- What a chat asks for a line with. -/
def chatPrompt : String := "> "

/-- How a chat goes on after a line. -/
inductive Next
  | proceed
  | quit
  | fail (error : CommandError)
  deriving DecidableEq, Repr

/-- What is written in answer to a line, and how the chat goes on. -/
structure LineReply where
  out : String := ""
  err : String := ""
  next : Next := .proceed
  deriving DecidableEq, Repr

/-- Answers a line of a chat.  Two lines are commands: one empties the history, one ends the chat.
-/
def answerLine (line : String) (client : Client Scripted) : LineReply × Client Scripted :=
  match String.ofList (Text.trim line.toList) with
  | "" => ({}, client)
  | "/exit" => ({ next := .quit }, client)
  | "/reset" =>
    match client.reset Scripted.engine with
    | (.ok (), client) => ({}, client)
    | (.error error, client) => ({ next := .fail (.client error) }, client)
  | input =>
    let (turn, client) := chatTurn Scripted.engine true input client
    let next := match turn.error with
      | some error => .fail error
      | none => .proceed
    ({ out := turn.response, err := turn.thinking, next }, client)

/-- A chat over the lines of the input. -/
def chat (client : Client Scripted) : (lines : List String) → Outcome
  | [] => { out := chatPrompt }
  | line :: rest =>
    let (reply, client) := answerLine line client
    let later : Outcome := match reply.next with
      | .proceed => chat client rest
      | .quit => {}
      | .fail error => Outcome.failed error
    { later with out := chatPrompt ++ reply.out ++ later.out, err := reply.err ++ later.err }

/-- The lines of a text; a line break at its end begins no further line. -/
def linesOf (text : String) : List String :=
  let parts := (Text.splitOn ['\n'] text.toList).map String.ofList
  if parts.getLast? = some "" then parts.dropLast else parts

/-! ## The whole program -/

/-- What the program has come to when it is set up. -/
inductive Plan
  | finished (outcome : Outcome)
  | chat (client : Client Scripted)

/-- Carries out an action, except for a chat. -/
def plan (files : String → FileState) (options : Options) (action : Action) : Plan :=
  let client? := do
    let config ← configFor files options
    scriptedClient config (scriptFor options action) (options.context.getD defaultContext)
  match client?, action with
  | .error error, _ => .finished (Outcome.failed (.client error))
  | .ok client, .chat => .chat client
  | .ok client, action =>
    match answer files action client with
    | .ok text => .finished { out := text ++ "\n" }
    | .error error => .finished (Outcome.failed error)

/-- The paths that the program may read. -/
def pathsOf (options : Options) : Action → List String
  | .json _ schema => options.config.toList ++ [schema]
  | _ => options.config.toList

/-- How the program is called. -/
def usage : String :=
  String.join <| List.map (· ++ "\n")
    ["Usage: llama-cli [OPTIONS] <COMMAND>", "", "Commands:", "  chat", "  complete <PROMPT>",
      "  json <PROMPT> --schema <SCHEMA>", "  embed <TEXT>", "", "Options:", "  --script <SCRIPT>",
      "  --config <CONFIG>", "  --template <TEMPLATE>", "  --seed <SEED>",
      "  --temperature <TEMPERATURE>", "  --no-thinking", "  --context <CONTEXT>"]

/-- The name and version of the program. -/
def versionLine : String := "llama-cli 0.1.0\n"

/-- The end of a program whose arguments make no sense. -/
def Outcome.misused (error : UsageError) : Outcome where
  exitCode := 2
  err := "error: " ++ error.message ++ "\n\n" ++ usage

/-- The whole run of the program over an input that is known from the start. -/
def run (files : String → FileState) (words : List String) (input : String) : Outcome :=
  match readArguments words with
  | .error error => Outcome.misused error
  | .ok .help => { out := usage }
  | .ok .version => { out := versionLine }
  | .ok (.run options action) =>
    match plan files options action with
    | .finished outcome => outcome
    | .chat client => chat client (linesOf input)

end Parley.Command
