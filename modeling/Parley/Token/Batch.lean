import Parley.Token.Set

/-! # Batches

    A batch is what one decoding call feeds into the context: tokens at absolute positions, each
    with the wish for the scores of its successor or without it.
-/

namespace Parley

/-- One token of a batch. -/
structure Batch.Entry where
  token : TokenId
  position : Nat
  wantsLogits : Bool
  deriving DecidableEq, Repr, Inhabited

/-- Tokens to feed into the context in one call. -/
structure Batch where
  entries : List Batch.Entry := []
  deriving DecidableEq, Repr, Inhabited

namespace Batch

/-- The batch without tokens. -/
def empty : Batch := {}

/-- The batch with one more token at its end. -/
def push (batch : Batch) (token : TokenId) (position : Nat) (wantsLogits : Bool) : Batch :=
  { entries := batch.entries ++ [⟨token, position, wantsLogits⟩] }

/-- The entries of a run of tokens from position `start` on: only the last wants scores. -/
def run : (tokens : List TokenId) → (start : Nat) → List Entry
  | [], _ => []
  | token :: rest, start => ⟨token, start, rest.isEmpty⟩ :: run rest (start + 1)

/-- A run of tokens from position `start` on: only the last wants scores. -/
def sequence (tokens : List TokenId) (start : Nat) : Batch := { entries := run tokens start }

/-- A single token that wants scores. -/
def single (token : TokenId) (position : Nat) : Batch := sequence [token] position

/-- The batch with every token wanting scores. -/
def requestAll (batch : Batch) : Batch :=
  { entries := batch.entries.map fun entry => { entry with wantsLogits := true } }

/-- The tokens in order. -/
def tokens (batch : Batch) : List TokenId := batch.entries.map (·.token)

/-- The positions of the tokens. -/
def positions (batch : Batch) : List Nat := batch.entries.map (·.position)

/-- The wishes for scores. -/
def wishes (batch : Batch) : List Bool := batch.entries.map (·.wantsLogits)

/-- The number of tokens. -/
def size (batch : Batch) : Nat := batch.entries.length

/-- Whether there are no tokens. -/
def isEmpty (batch : Batch) : Bool := batch.entries.isEmpty

/-- The position after the last token. -/
def endPosition? (batch : Batch) : Option Nat := batch.positions.getLast?.map (· + 1)

end Batch

end Parley
