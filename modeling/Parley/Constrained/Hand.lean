import Parley.Session.Prediction

/-! # The writing hand

    Constrained text is written by a hand that does four things: it chooses one of several allowed
    tokens, writes a chosen token, writes a literal text, and tells the text of a token.  The hand
    of a session lets the model choose; any other hand will do to follow what can be written at all.
-/

namespace Parley

/-- Why structured text could not be generated. -/
inductive GenerationError
  | schema (reason : String)
  | jsonDecoding (raw schema reason : String)
  | cancelled
  | session (error : SessionError)
  | vocabulary (error : VocabularyError)
  deriving DecidableEq, Repr

namespace GenerationError

/-- The error in words. -/
def message : GenerationError → String
  | .schema reason => "schema parse error: " ++ reason
  | .jsonDecoding _ _ reason => "generated JSON failed to decode: " ++ reason
  | .cancelled => "generation cancelled"
  | .session error => error.message
  | .vocabulary error => error.message

/-- The error of a generation whose session failed. -/
def ofSession : SessionError → GenerationError
  | .stopped => .cancelled
  | .vocabulary error => .vocabulary error
  | error => .session error

end GenerationError

/-- What a hand with the state `s` can do.  The hand of a session keeps to the allowed tokens as
    long as the scores are numbers. -/
structure Hand (ε s : Type) where
  /-- Chooses one of the allowed tokens; `none` if there is none to choose. -/
  choose : (allowed : TokenSet) → EStateM ε s (Option TokenId)
  /-- Writes a chosen token. -/
  accept : TokenId → EStateM ε s Unit
  /-- Writes a literal text. -/
  feed : (text : String) → EStateM ε s Unit
  /-- The text of a token. -/
  piece : TokenId → EStateM ε s String
  /-- How many tokens can still be written. -/
  room : s → Nat

/-- A step of a session with the errors of a generation. -/
def Session.forGeneration {σ α : Type} (step : SessionM σ α) :
    EStateM GenerationError (Session σ) α :=
  step.adaptExcept .ofSession

/-- The hand of a session: the model chooses by its scores. -/
def Session.hand {σ : Type} (engine : Engine σ) : Hand GenerationError (Session σ) where
  choose allowed := forGeneration (sampleConstrained allowed)
  accept token := forGeneration (Session.accept engine token)
  feed text := forGeneration (discard (feedText engine text))
  piece token := forGeneration (onVocab (Vocabulary.piece engine token false))
  room session := session.remaining engine

end Parley
