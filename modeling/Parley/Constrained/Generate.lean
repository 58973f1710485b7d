import Parley.Constrained.Writer
import Parley.Json.Reader
import Parley.Schema.Reader

/-! # Generating JSON for a schema

    The context is emptied and primed with the prompt, then an object is written for the schema, and
    its text is read as the type that the caller wants.
-/

namespace Parley

/-- A step of a session that generates structured text. -/
abbrev GenerationM (σ : Type) := EStateM GenerationError (Session σ)

namespace Session

variable {σ α : Type}

/-- Writes an object for the schema; returns its text. -/
def writeObject (engine : Engine σ) (palette : Palette) (schema : Schema) : GenerationM σ String :=
  fun session =>
    match Writer.object (hand engine) palette schema { hand := session } with
    | .ok () draft => .ok draft.text draft.hand
    | .error error draft => .error error draft.hand

/-- Primes a fresh context with the prompt and writes an object for the schema. -/
def writeJson (engine : Engine σ) (prompt : String) (schema : Schema) : GenerationM σ String := do
  let palette ← forGeneration (onVocab (Palette.learn engine))
  forGeneration (resetContext engine)
  discard (forGeneration (prepareContext engine prompt))
  writeObject engine palette schema

/-- Generates JSON for the schema and reads it with `read`; returns what was read and the text.  A
    stop that was requested before ends the generation. -/
def generateArmed (engine : Engine σ) (read : String → Except Json.Error α)
    (prompt schemaText : String) : GenerationM σ (α × String) := do
  match Schema.parse schemaText with
  | .error error => throw (.schema error.message)
  | .ok schema =>
    let raw ← writeJson engine prompt schema
    match read raw with
    | .error error => throw (.jsonDecoding raw schemaText error.message)
    | .ok value => return (value, raw)

/-- Generates JSON as a new generation, for which earlier requests to stop do not count. -/
def generate (engine : Engine σ) (read : String → Except Json.Error α)
    (prompt schemaText : String) : GenerationM σ (α × String) := do
  modify beginGeneration
  generateArmed engine read prompt schemaText

end Session

end Parley
