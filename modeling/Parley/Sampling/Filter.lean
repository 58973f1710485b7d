import Parley.Number.Exponential

/-! # Scores and probabilities

    The stages of the sampler as functions on lists of scores.  A score of negative infinity masks
    its token.  All arithmetic is in single precision, from left to right.
-/

namespace Parley.Sampling

open Parley.Number

/-- The scores with those of the tokens in `history` weakened, each once however often the token
    occurs: a positive score is divided by `penalty`, another one multiplied. -/
def penalize (penalty : Float32) (history : List Nat) (scores : List Float32) : List Float32 :=
  scores.mapIdx fun index score =>
    if history.contains index then
      if 0 < score then score / penalty else score * penalty
    else score

/-! ## Order -/

/-- `value` put into a list that increases from its head on, before the first entry that is not
    below it. -/
def insertIncreasing (value : Float32) : List Float32 → List Float32
  | [] => [value]
  | first :: rest =>
    if first < value then first :: insertIncreasing value rest else value :: first :: rest

/-- The values from the largest to the smallest. -/
def decreasing (values : List Float32) : List Float32 :=
  (values.foldl (fun sorted value => insertIncreasing value sorted) []).reverse

/-- The largest of the values that are numbers; negative infinity if there is none. -/
def largest (values : List Float32) : Float32 :=
  values.foldl (fun best value => if best < value then value else best) negInfinity

/-- The index that is left when the values are gone through from left to right and a value that is
    not below the best so far takes its place: for numbers, the largest index of the maximum. -/
def lastMaximum (values : List Float32) : Nat :=
  match values.zipIdx with
  | [] => 0
  | first :: rest =>
    (rest.foldl (fun best entry => if entry.1 < best.1 then best else entry) first).2

/-! ## Filters -/

/-- The scores with those below the `k`-th largest masked. -/
def topK (k : Nat) (scores : List Float32) : List Float32 :=
  if k = 0 || scores.length ≤ k then scores
  else
    match (decreasing scores)[k - 1]? with
    | none => scores
    | some threshold => scores.map fun score => if score < threshold then negInfinity else score

/-- The sum of the values. -/
def sum (values : List Float32) : Float32 := values.foldl (· + ·) 0

/-- The value at which the running sum of `values`, with `before` in front, first reaches `p`; the
    last value if it never does, and `last` if there are no values. -/
def cutoffFrom (p before last : Float32) : (values : List Float32) → Float32
  | [] => last
  | value :: rest =>
    if p ≤ before + value then value else cutoffFrom p (before + value) value rest

/-- The smallest probability that is kept: the one at which the running sum from the largest down
    first reaches `p`. -/
def cutoff (p : Float32) (probabilities : List Float32) : Float32 :=
  cutoffFrom p 0 0 (decreasing probabilities)

/-- The probabilities with those masked by 0 that are below the cutoff for `p`. -/
def select (p : Float32) (probabilities : List Float32) : List Float32 :=
  let limit := cutoff p probabilities
  probabilities.map fun probability =>
    if limit ≤ probability && 0 < probability then probability else 0

/-- The selected probabilities, scaled to a sum of 1. -/
def topP (p : Float32) (probabilities : List Float32) : List Float32 :=
  let selected := select p probabilities
  let total := sum selected
  if 0 < total then selected.map (· / total) else selected

/-- The scores with those masked whose probability in `kept` is not positive. -/
def maskUnkept (kept scores : List Float32) : List Float32 :=
  scores.zipWith (fun score probability => if probability ≤ 0 then negInfinity else score) kept

/-! ## Probabilities -/

/-- The same probability for each of `count` tokens. -/
def uniform (count : Nat) : List Float32 := List.replicate count (1 / Float32.ofNat count)

/-- The probabilities of scores: the exponentials of their distances from the largest score, scaled
    to a sum of 1.  Without a finite largest score, or without a positive sum, all tokens are
    equally probable. -/
def softmax (scores : List Float32) : List Float32 :=
  let best := largest scores
  if !best.isFinite then uniform scores.length
  else
    let weights := scores.map fun score => expNonpos (score - best)
    let total := sum weights
    if 0 < total then weights.map (· / total) else uniform scores.length

/-! ## Drawing -/

/-- The first index, counted from `index`, at which the running sum exceeds `r`. -/
def drawFrom (r before : Float32) (index : Nat) : (probabilities : List Float32) → Option Nat
  | [] => none
  | probability :: rest =>
    if r < before + probability then some index
    else drawFrom r (before + probability) (index + 1) rest

/-- The last index of a positive value. -/
def lastPositive (values : List Float32) : Option Nat :=
  (values.zipIdx.reverse.find? fun (value, _) => 0 < value).map (·.2)

/-- The index drawn by `r`: the first at which the running sum exceeds `r`, or the last index of a
    positive probability if rounding has left the sum below `r`. -/
def draw (r : Float32) (probabilities : List Float32) : Option Nat :=
  (drawFrom r 0 0 probabilities).or (lastPositive probabilities)

end Parley.Sampling
