import Parley.Client.Answer
import Parley.Json.Printer

/-! # The commands

    A command makes one call of a client and writes its answer as text: a chat turn with its
    thinking apart, a generated object with one member a line, or an embedding in one line.
-/

namespace Parley

/-- Why a command failed. -/
inductive CommandError
  | client (error : ClientError)
  | io (reason : String)
  | json (reason : String)
  /-- The client was not free for a chat turn. -/
  | noResponse
  deriving DecidableEq, Repr

/-- The error in words. -/
def CommandError.message : CommandError → String
  | .client error => "llm error: " ++ error.message
  | .io reason => "io error: " ++ reason
  | .json reason => "json error: " ++ reason
  | .noResponse => "no response: the model is busy"

namespace Command

variable {σ : Type}

/-! ## Chatting -/

/-- What a chat turn leaves behind: its response, its thinking, the reports made on the way, and the
    error of a turn that failed. -/
structure Turn where
  response : String := ""
  thinking : String := ""
  reports : List Report := []
  error : Option CommandError := none
  deriving DecidableEq, Repr

/-- Switches a terminal to faint text. -/
def faint : String := "\x1b[2m"

/-- Switches a terminal back to plain text. -/
def plain : String := "\x1b[0m"

/-- Thinking as it is written: a line of its own, in faint text if there are colours. -/
def writeThinking (color : Bool) (chunks : List String) : String :=
  if chunks.isEmpty then ""
  else if color then faint ++ String.join chunks ++ plain ++ "\n"
  else String.join chunks ++ "\n"

/-- A finished generation as a chat turn. -/
def Turn.ofTranscript (color : Bool) (transcript : Transcript) : Turn where
  response := String.join transcript.response ++ "\n"
  thinking := writeThinking color transcript.thinking
  reports := transcript.reports
  error := transcript.summary.error?.map fun error => .client (.ofStream error)

/-- One turn of a chat. -/
def chatTurn (engine : Engine σ) (color : Bool) (input : String) (client : Client σ) :
    Turn × Client σ :=
  match client.respond engine (fun _ => false) input with
  | (some transcript, client) => (Turn.ofTranscript color transcript, client)
  | (none, client) => ({ error := some .noResponse }, client)

/-! ## Single answers -/

/-- A generated object as text. -/
def generateText (engine : Engine σ) (input schema : String) (client : Client σ) :
    Except CommandError String × Client σ :=
  let (result, client) := client.generate engine Json.parse input schema
  ((result.map fun (value, _) => value.pretty).mapError .client, client)

/-- Numbers in single precision as the text of a JSON array. -/
def writeNumbers (numbers : List Float32) : String :=
  "[" ++ ",".intercalate (numbers.map Number.jsonSingle) ++ "]"

/-- An embedding as text. -/
def embeddingText (engine : Engine σ) (text : String) (client : Client σ) :
    Except CommandError String × Client σ :=
  let (result, client) := client.embeddings engine text
  ((result.map writeNumbers).mapError .client, client)

end Command

end Parley
