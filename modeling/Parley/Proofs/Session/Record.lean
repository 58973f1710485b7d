import Parley.Proofs.Session.Coupling

/-! # Sessions on record

    An engine on record does what another engine does and writes down its calls and how they ended.
    A session over it does what a session over the bare engine does, so the record says which calls
    an operation makes: `Session.Operation.calls`.  The operations of a session are named by
    `Session.Operation`; every one of them leaves a session behind, be its result an error or not.
-/

namespace Parley

/-! ## Section 1: Engines on record -/

/-- A call to an engine. -/
inductive Engine.Call
  | tokenize
  | piece
  /-- Feeding a batch of `size` tokens. -/
  | decode (size : Nat)
  | logits
  | clear
  | setEmbeddings (enabled : Bool)
  | embeddings
  deriving DecidableEq, Repr

/-- A call to an engine and whether it succeeded. -/
structure Engine.Event where
  call : Engine.Call
  succeeded : Bool
  deriving DecidableEq, Repr

/-- The state of an engine on record: that of the engine and its calls, the oldest first. -/
structure Recorded (σ : Type) where
  state : σ
  events : List Engine.Event := []

namespace Recorded

variable {σ α : Type}

/-- Makes a call to the engine and writes it down. -/
def note (call : Engine.Call) (run : σ → Reply σ α) (recorded : Recorded σ) :
    Reply (Recorded σ) α :=
  let reply := run recorded.state
  { reply with state := ⟨reply.state, recorded.events ++ [⟨call, reply.result.isOk⟩]⟩ }

/-- The functions of an engine on record. -/
def engine (inner : Engine σ) : Engine (Recorded σ) where
  tokenize text addBos special := note .tokenize (inner.tokenize text addBos special)
  piece token special := note .piece (inner.piece token special)
  vocabSize recorded := inner.vocabSize recorded.state
  contextSize recorded := inner.contextSize recorded.state
  bos recorded := inner.bos recorded.state
  eos recorded := inner.eos recorded.state
  decode batch := note (.decode batch.size) (inner.decode batch)
  logits := note .logits inner.logits
  clear := note .clear inner.clear
  setEmbeddings enabled := note (.setEmbeddings enabled) (inner.setEmbeddings enabled)
  embeddings := note .embeddings inner.embeddings

end Recorded

/-! ## Section 2: Operations -/

namespace Session

open Step

variable {σ α β : Type}

/-- The session with its engine on record from now on. -/
def onRecord (session : Session σ) : Session (Recorded σ) :=
  session.onEngine { state := session.vocab.engine }

/-- The session without the record of its engine. -/
def offRecord (session : Session (Recorded σ)) : Session σ :=
  session.onEngine session.vocab.engine.state

/-- The calls of the engine on record. -/
def events (session : Session (Recorded σ)) : List Engine.Event := session.vocab.engine.events

/-- The calls to the engine that an operation makes. -/
def Operation.calls (engine : Engine σ) (operation : Operation) (session : Session σ) :
    List Engine.Event :=
  (operation.apply (Recorded.engine engine) session.onRecord).events

@[simp] theorem offRecord_onRecord (session : Session σ) : session.onRecord.offRecord = session :=
  rfl

@[simp] theorem events_onRecord (session : Session σ) : session.onRecord.events = [] := rfl

/-! ## Section 3: The record changes nothing -/

/-- The record is more than the engine has, and makes no difference to it. -/
theorem recorded_extends (engine : Engine σ) :
    (Recorded.engine engine).Extends Recorded.state engine where
  contextSize _ := rfl
  eos _ := rfl
  tokenize _ _ _ _ := rfl
  decode _ _ := rfl
  logits _ := rfl
  clear _ := rfl
  setEmbeddings _ _ := rfl
  embeddings _ := rfl

/-- **The record changes nothing.**  What an operation leaves behind on record is, off record, what
    it leaves behind. -/
theorem Operation.apply_offRecord (engine : Engine σ) (operation : Operation)
    (session : Session (Recorded σ)) :
    (operation.apply (Recorded.engine engine) session).offRecord
      = operation.apply engine session.offRecord :=
  (recorded_extends engine).apply_project operation session

/-- What is told of a token is the same on record. -/
theorem couples_piece_recorded (engine : Engine σ) (token : TokenId) (special : Bool)
    {recorded : Vocabulary (Recorded σ)} {vocab : Vocabulary σ}
    (h : vocab = recorded.onEngine recorded.engine.state) :
    Couples (fun recorded vocab => vocab = recorded.onEngine recorded.engine.state)
      (Vocabulary.piece (Recorded.engine engine) token special)
      (Vocabulary.piece engine token special) recorded vocab := by
  subst h
  have htable : (recorded.onEngine recorded.engine.state).table special
      = recorded.table special := by
    cases special <;> rfl
  unfold Vocabulary.piece
  refine couples_get (couples_ite Iff.rfl (fun _ => couples_throw _ rfl) fun _ => ?_)
  dsimp only
  rw [htable]
  cases (recorded.table special).get? token.toInt.toNat with
  | some piece => exact .ok piece rfl
  | none =>
    have hask : Couples (fun recorded vocab => vocab = recorded.onEngine recorded.engine.state)
        (Vocabulary.ask ((Recorded.engine engine).piece token special))
        (Vocabulary.ask (engine.piece token special)) recorded
        (recorded.onEngine recorded.engine.state) := by
      have hresult : ((Recorded.engine engine).piece token special recorded.engine).result
          = (engine.piece token special recorded.engine.state).result := rfl
      have hengine : (recorded.onEngine recorded.engine.state).engine = recorded.engine.state := rfl
      unfold Couples
      rw [Vocabulary.ask_eq, Vocabulary.ask_eq, hresult, hengine]
      cases (engine.piece token special recorded.engine.state).result with
      | ok piece => exact .ok piece rfl
      | error error => exact .error _ rfl
    refine hask.bind fun piece later later' hlater => ?_
    subst hlater
    cases special <;> exact .ok piece rfl

end Session

end Parley
