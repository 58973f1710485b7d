import Parley.Config
import Parley.Constrained.Hand

/-! # Errors of a client

    A client sorts the errors of its parts by what a caller can do about them.  The reasons that a
    caller may want to tell apart stand on their own; all else is handed on whole.
-/

namespace Parley

/-- Why a client did not do what it was asked for. -/
inductive ClientError
  /-- Another call is under way. -/
  | busy
  | schema (reason : String)
  | contextOverflow (needed capacity : Nat)
  | decode (reason : String)
  | jsonDecoding (raw schema reason : String)
  | embeddings (reason : String)
  | emptyPrompt
  | cancelled
  | session (error : SessionError)
  | stream (error : StreamError)
  | vocabulary (error : VocabularyError)
  | config (reason : String)
  | io (reason : String)
  | json (reason : String)
  deriving DecidableEq, Repr

namespace ClientError

/-- The error in words. -/
def message : ClientError → String
  | .busy => "LLM is busy with another generation"
  | .schema reason => "Schema parse error: " ++ reason
  | .contextOverflow needed capacity =>
    "Context overflow: " ++ toString needed ++ " tokens needed, capacity is " ++ toString capacity
  | .decode reason => "Decode error: " ++ reason
  | .jsonDecoding _ _ reason => "Generated JSON failed to decode: " ++ reason
  | .embeddings reason => "Embeddings error: " ++ reason
  | .emptyPrompt => "Prompt is empty"
  | .cancelled => "Generation cancelled"
  | .session error => "Session error: " ++ error.message
  | .stream error => "Stream error: " ++ error.message
  | .vocabulary error => "Tokenizer error: " ++ error.message
  | .config reason => "Config error: " ++ reason
  | .io reason => "IO error: " ++ reason
  | .json reason => "JSON error: " ++ reason

/-- The error of a client whose session failed. -/
def ofSession : SessionError → ClientError
  | .contextOverflow needed capacity => .contextOverflow needed capacity
  | .decode reason => .decode reason
  | .embeddings reason => .embeddings reason
  | .emptyPrompt => .emptyPrompt
  | .stopped => .cancelled
  | .vocabulary error => .vocabulary error
  | error => .session error

/-- The error of a client for which no structured text could be generated. -/
def ofGeneration : GenerationError → ClientError
  | .schema reason => .schema reason
  | .jsonDecoding raw text reason => .jsonDecoding raw text reason
  | .cancelled => .cancelled
  | .session error => .ofSession error
  | .vocabulary error => .vocabulary error

/-- The error of a client whose streamed generation failed. -/
def ofStream : StreamError → ClientError
  | .session error => .ofSession error
  | .vocabulary error => .vocabulary error
  | error => .stream error

/-- The error of a client that was given no valid configuration. -/
def ofConfig : ConfigError → ClientError
  | .json error => .json error.message
  | .sampling error => .config ("sampling: " ++ error.message)

end ClientError

end Parley
