import Parley.Engine

/-! # Engines under observation

    An observed engine does what another engine does and counts some of its calls.  When a certain
    call begins, somebody may ask for the generation to stop.
-/

namespace Parley

/-- The state of an engine under observation: that of the engine, the calls at which a stop is
    requested, counted from 1, and the numbers of calls so far. -/
structure Observed (σ : Type) where
  state : σ
  stopAtDecode : Option Nat := none
  stopAtClear : Option Nat := none
  decodeCalls : Nat := 0
  clearCalls : Nat := 0
  pieceCalls : Nat := 0
  deriving DecidableEq, Repr, Inhabited

namespace Observed

variable {σ α : Type}

/-- Makes a call to the engine. -/
def call (run : σ → Reply σ α) (observed : Observed σ) : Reply (Observed σ) α :=
  let reply := run observed.state
  { reply with state := { observed with state := reply.state } }

/-- Makes a call to the engine; a stop is requested if `stop`. -/
def interrupt (run : σ → Reply σ α) (stop : Bool) (observed : Observed σ) :
    Reply (Observed σ) α :=
  let reply := observed.call run
  { reply with stop := reply.stop || stop }

/-- The functions of an engine under observation. -/
def engine (inner : Engine σ) : Engine (Observed σ) where
  tokenize text addBos special := call (inner.tokenize text addBos special)
  piece token special observed :=
    { observed with pieceCalls := observed.pieceCalls + 1 }.call (inner.piece token special)
  vocabSize observed := inner.vocabSize observed.state
  contextSize observed := inner.contextSize observed.state
  bos observed := inner.bos observed.state
  eos observed := inner.eos observed.state
  decode batch observed :=
    let calls := observed.decodeCalls + 1
    { observed with decodeCalls := calls }.interrupt (inner.decode batch)
      (observed.stopAtDecode = some calls)
  logits := call inner.logits
  clear observed :=
    let calls := observed.clearCalls + 1
    { observed with clearCalls := calls }.interrupt inner.clear
      (observed.stopAtClear = some calls)
  setEmbeddings enabled := call (inner.setEmbeddings enabled)
  embeddings := call inner.embeddings

end Observed

end Parley
