import Parley.Session.Basic

/-! # Predicting tokens

    The next token is drawn from a masked copy of the scores, so the scores themselves stay as the
    engine gave them.  In free generation some tokens are excluded and the drawn token is decoded at
    once; in constrained generation some tokens are allowed and decoding is left to the caller.
-/

namespace Parley.Session

variable {σ : Type}

/-- The scores with those of the tokens in `excluding` masked. -/
def maskOut (excluding : TokenSet) (scores : List Float32) : List Float32 :=
  scores.mapIdx fun index score =>
    if excluding.containsIndex index then Number.negInfinity else score

/-- The scores with all masked but those of the tokens in `allowed`. -/
def maskAllBut (allowed : TokenSet) (scores : List Float32) : List Float32 :=
  scores.mapIdx fun index score =>
    if allowed.containsIndex index then score else Number.negInfinity

/-- The scores behind the context, if anything was decoded. -/
def pristine : SessionM σ (List Float32) := do
  let session ← get
  if session.logits.isEmpty then
    throw (.engine (.inference "no logits available, context not primed"))
  return session.logits

/-- Draws a token from the given scores. -/
def drawToken (scores : List Float32) : SessionM σ (Except SamplingError TokenId) :=
  modifyGet fun session =>
    let (result, sampler) := session.sampler.sample scores session.penalized
    (result.map Int32.ofNat, { session with sampler })

/-- Draws the next token and decodes it.  The end-of-sequence token is returned and not decoded if
    the session is stopped, the context is full, the model chose that token, or the stop sequence
    was completed. -/
def predictNext (engine : Engine σ) (excluding : TokenSet) : SessionM σ TokenId := do
  let session ← get
  let eos := session.eos engine
  if session.isStopped then return eos
  if session.capacity engine ≤ session.position then return eos
  match ← drawToken (maskOut excluding (← pristine)) with
  | .error error => throw (.sampling error)
  | .ok token =>
    modify (·.remember token)
    if (← get).stopSequenceMatched then
      modify stop
      return eos
    if token = eos then return eos
    decodeBatch engine (Batch.single token session.position)
    modify fun session => { session with position := session.position + 1 }
    return token

/-- Draws one of the tokens in `allowed` without decoding it; `none` if none of them has a finite
    score. -/
def sampleConstrained (allowed : TokenSet) : SessionM σ (Option TokenId) := do
  if (← get).isStopped then throw .stopped
  if allowed.isEmpty then return none
  match ← drawToken (maskAllBut allowed (← pristine)) with
  | .ok token => return some token
  | .error .noValidTokens => return none
  | .error error => throw (.sampling error)

/-- Decodes a token drawn under constraints. -/
def accept (engine : Engine σ) (token : TokenId) : SessionM σ Unit := do
  modify (·.remember token)
  inject engine [token]

end Parley.Session
