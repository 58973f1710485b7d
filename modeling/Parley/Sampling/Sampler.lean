import Parley.Sampling.Filter
import Parley.Sampling.Generator
import Parley.Sampling.Params

/-! # The sampler

    The stages run in a fixed order: the penalty on recent tokens, the best `k` scores, the most
    probable tokens up to `p`, the temperature, the draw.  At a very low temperature the best score
    that is left wins, and no random number is drawn.
-/

namespace Parley

/-- The stages that are switched on, and the random numbers. -/
structure Sampler where
  temperature : Float32 := 1.0
  topK : Option Nat := none
  topP : Option Float32 := none
  penalty : Option Float32 := none
  generator : Generator := Generator.ofSeed 42
  deriving DecidableEq, Repr, Inhabited

namespace Sampler

/-- The least distance of a penalty from 1 that has an effect. -/
def penaltyTolerance : Float32 := Float32.ofBits 0x34000000

/-- The sampler for `params`: a stage with its neutral value is switched off. -/
def ofParams (params : SamplingParams) : Sampler where
  temperature := params.temperature
  topK := if 0 < params.topK then some params.topK else none
  topP := if params.topP < 1.0 then some params.topP else none
  penalty :=
    if penaltyTolerance < (params.repeatPenalty - 1.0).abs && 0 < params.repeatLastN then
      some params.repeatPenalty
    else none
  generator := Generator.ofSeed params.seed

/-- The sampler with new random numbers. -/
def withSeed (sampler : Sampler) (seed : UInt64) : Sampler :=
  { sampler with generator := Generator.ofSeed seed }

open Sampling

/-- The scores after the penalty and the two filters. -/
def filter (sampler : Sampler) (scores : List Float32) (history : List Nat) : List Float32 :=
  let scores := match sampler.penalty with
    | none => scores
    | some penalty => penalize penalty history scores
  let scores := match sampler.topK with
    | none => scores
    | some k => Sampling.topK k scores
  match sampler.topP with
  | none => scores
  | some p => maskUnkept (Sampling.topP p (softmax scores)) scores

/-- The scores divided by the temperature, unless it is 1. -/
def scale (sampler : Sampler) (scores : List Float32) : List Float32 :=
  if 1e-6 < (sampler.temperature - 1.0).abs then scores.map (· / sampler.temperature) else scores

/-- Draws an index by its probability, with the next random number. -/
def drawIndex (sampler : Sampler) (probabilities : List Float32) :
    Except SamplingError Nat × Sampler :=
  let generator := sampler.generator.next
  match draw generator.value probabilities with
  | some index => (.ok index, { sampler with generator })
  | none => (.error .noValidTokens, { sampler with generator })

/-- Draws the index of a token from its scores; the tokens in `history` are the recent ones. -/
def sample (sampler : Sampler) (scores : List Float32) (history : List Nat) :
    Except SamplingError Nat × Sampler :=
  if scores.isEmpty then (.error .invalidLogits, sampler)
  else if sampler.temperature ≤ 0 then (.error .invalidTemperature, sampler)
  else if !scores.any (·.isFinite) then (.error .noValidTokens, sampler)
  else
    let filtered := sampler.filter scores history
    if sampler.temperature < 1e-3 then (.ok (lastMaximum filtered), sampler)
    else sampler.drawIndex (softmax (sampler.scale filtered))

end Sampler

end Parley
