import Parley.Number.Notation

/-! # Sampling parameters

    The parameters say how the next token is drawn from the scores.  Each stage of the sampler has a
    neutral value that switches it off.
-/

namespace Parley

/-- Why no token could be drawn. -/
inductive SamplingError
  | invalidLogits
  | invalidTemperature
  | invalidTopP (value : Float32)
  | invalidRepeatPenalty (value : Float32)
  | noValidTokens
  deriving DecidableEq, Repr

/-- The error in words. -/
def SamplingError.message : SamplingError → String
  | .invalidLogits => "Invalid logits array"
  | .invalidTemperature => "Temperature must be > 0"
  | .invalidTopP value => "top_p must be in (0, 1], got " ++ Number.plain value
  | .invalidRepeatPenalty value => "Repeat penalty must be > 0, got " ++ Number.plain value
  | .noValidTokens => "No valid tokens after filtering"

/-- The parameters of one session. -/
structure SamplingParams where
  /-- The seed of the random numbers. -/
  seed : UInt64 := 42
  /-- How many of the best scores are kept; 0 keeps all. -/
  topK : Nat := 40
  /-- The probability that the kept scores have to reach; 1 keeps all. -/
  topP : Float32 := 0.95
  /-- What the scores are divided by. -/
  temperature : Float32 := 0.8
  /-- What the scores of recent tokens are weakened by; 1 leaves them. -/
  repeatPenalty : Float32 := 1.1
  /-- How many recent tokens are weakened. -/
  repeatLastN : Nat := 64
  deriving DecidableEq, Repr, Inhabited

namespace SamplingParams

/-- The best score always wins. -/
def greedy : SamplingParams :=
  { topK := 0, topP := 1.0, temperature := 1e-4, repeatPenalty := 1.0 }

/-- Refuses values that the sampler cannot work with; the first such value is named. -/
def validate (params : SamplingParams) : Except SamplingError Unit :=
  if !(0 < params.temperature && params.temperature.isFinite) then .error .invalidTemperature
  else if !(0 < params.topP && params.topP ≤ 1) then .error (.invalidTopP params.topP)
  else if !(0 < params.repeatPenalty && params.repeatPenalty.isFinite) then
    .error (.invalidRepeatPenalty params.repeatPenalty)
  else .ok ()

end SamplingParams

end Parley
