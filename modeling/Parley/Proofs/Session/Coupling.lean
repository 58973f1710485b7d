import Parley.Proofs.Vocabulary
import Parley.Session.Embedding
import Parley.Session.Prediction

/-! # Sessions side by side

    The operations of a session are named by `Session.Operation`; every one of them leaves a session
    behind, be its result an error or not.

    Two engines are coupled under a relation of vocabularies if their calls, from related
    vocabularies, have the same results and leave related vocabularies behind.  The operations of
    sessions over coupled engines then have the same results, and the sessions stay the same in
    everything but their vocabularies: one lemma for each operation.  An engine that keeps more than
    another one, and otherwise does the same, is coupled to it: `Engine.Extends`.
-/

namespace Parley

open Step

variable {σ τ α : Type}

/-! ## Section 1: Operations -/

namespace Session

/-- What may be asked of a session. -/
inductive Operation
  | prepareContext (prompt : String)
  | predictNext (excluding : TokenSet)
  | sampleConstrained (allowed : TokenSet)
  | accept (token : TokenId)
  | feedText (text : String)
  | inject (tokens : List TokenId)
  | resetContext
  | extractEmbeddings (text : String)
  | stop
  | rearm
  | beginGeneration
  | setParams (params : SamplingParams)
  | setStopSequence (text : Option String)

/-- The session that an operation leaves behind, whether it fails or not. -/
def Operation.apply (engine : Engine σ) : Operation → Session σ → Session σ
  | .prepareContext prompt => after (Session.prepareContext engine prompt)
  | .predictNext excluding => after (Session.predictNext engine excluding)
  | .sampleConstrained allowed => after (Session.sampleConstrained allowed)
  | .accept token => after (Session.accept engine token)
  | .feedText text => after (Session.feedText engine text)
  | .inject tokens => after (Session.inject engine tokens)
  | .resetContext => after (Session.resetContext engine)
  | .extractEmbeddings text => after (Session.extractEmbeddings engine text)
  | .stop => Session.stop
  | .rearm => Session.rearm
  | .beginGeneration => Session.beginGeneration
  | .setParams params => (·.setParams params)
  | .setStopSequence text => after (Session.setStopSequence engine text)

/-- The session after a sequence of operations. -/
def applyAll (engine : Engine σ) (operations : List Operation) (session : Session σ) : Session σ :=
  operations.foldl (fun session operation => operation.apply engine session) session

/-- The session over an engine in another state. -/
def onEngine {τ : Type} (session : Session σ) (state : τ) : Session τ where
  vocab := { session.vocab with engine := state }
  params := session.params
  sampler := session.sampler
  position := session.position
  recent := session.recent
  stopSequence := session.stopSequence
  logits := session.logits

end Session

/-! ## Section 2: Coupled engines -/

/-- From related vocabularies the two calls have the same result and leave related vocabularies
    behind. -/
def CallsAlike (related : Vocabulary σ → Vocabulary τ → Prop) (run : σ → Reply σ α)
    (run' : τ → Reply τ α) : Prop :=
  ∀ {vocab vocab'}, related vocab vocab' → (run vocab.engine).result = (run' vocab'.engine).result
    ∧ related (vocab.heard (run vocab.engine)) (vocab'.heard (run' vocab'.engine))

/-- **Coupled engines.**  Stopping is seen on both sides, and so is whatever an engine says. -/
structure Engine.Coupled (related : Vocabulary σ → Vocabulary τ → Prop) (engine : Engine σ)
    (engine' : Engine τ) : Prop where
  stopped : ∀ {vocab vocab'}, related vocab vocab' → vocab.stopped = vocab'.stopped
  setStopped : ∀ (stopped : Bool) {vocab vocab'}, related vocab vocab' →
    related { vocab with stopped } { vocab' with stopped }
  contextSize : ∀ {vocab vocab'}, related vocab vocab' →
    engine.contextSize vocab.engine = engine'.contextSize vocab'.engine
  eos : ∀ {vocab vocab'}, related vocab vocab' → engine.eos vocab.engine = engine'.eos vocab'.engine
  tokenize : ∀ text addBos special,
    CallsAlike related (engine.tokenize text addBos special) (engine'.tokenize text addBos special)
  decode : ∀ batch, CallsAlike related (engine.decode batch) (engine'.decode batch)
  logits : CallsAlike related engine.logits engine'.logits
  clear : CallsAlike related engine.clear engine'.clear
  setEmbeddings : ∀ enabled,
    CallsAlike related (engine.setEmbeddings enabled) (engine'.setEmbeddings enabled)
  embeddings : CallsAlike related engine.embeddings engine'.embeddings

namespace Session

/-- The sessions are the same but for their vocabularies, which are related. -/
structure Alike (related : Vocabulary σ → Vocabulary τ → Prop) (session : Session σ)
    (session' : Session τ) : Prop where
  vocab : related session.vocab session'.vocab
  params : session.params = session'.params
  sampler : session.sampler = session'.sampler
  position : session.position = session'.position
  recent : session.recent = session'.recent
  stopSequence : session.stopSequence = session'.stopSequence
  logits : session.logits = session'.logits

variable {related : Vocabulary σ → Vocabulary τ → Prop} {engine : Engine σ} {engine' : Engine τ}
  {session : Session σ} {session' : Session τ}

/-! ## Section 3: Calls to the engine -/

/-- The session after a call to the engine that had the given reply. -/
def heard (session : Session σ) (reply : Reply σ α) : Session σ :=
  { session with vocab := session.vocab.heard reply }

theorem attempt_eq (run : σ → Reply σ α) (session : Session σ) :
    attempt run session
      = .ok (run session.vocab.engine).result (session.heard (run session.vocab.engine)) := by
  unfold attempt Vocabulary.call
  cases h : (run session.vocab.engine).result <;> simp only [h] <;> rfl

/-- An observed step does not fail. -/
theorem observe_eq (step : SessionM σ α) (session : Session σ) :
    observe step session = .ok (result step session) (after step session) := by
  unfold observe result after
  cases step session <;> rfl

theorem onVocab_ok {step : VocabularyM σ α} {session : Session σ} {value : α}
    {vocab : Vocabulary σ} (h : step session.vocab = .ok value vocab) :
    onVocab step session = .ok value { session with vocab } := by
  unfold onVocab
  rw [h]

theorem onVocab_error {step : VocabularyM σ α} {session : Session σ} {error : VocabularyError}
    {vocab : Vocabulary σ} (h : step session.vocab = .error error vocab) :
    onVocab step session = .error (.vocabulary error) { session with vocab } := by
  unfold onVocab
  rw [h]

theorem onVocab_tokenize_eq (engine : Engine σ) (text : String) (addBos special : Bool)
    (session : Session σ) :
    onVocab (Vocabulary.tokenize engine text addBos special) session
      = match (engine.tokenize text addBos special session.vocab.engine).result with
        | .ok tokens =>
          .ok tokens (session.heard (engine.tokenize text addBos special session.vocab.engine))
        | .error error =>
          .error (.vocabulary (.engine error))
            (session.heard (engine.tokenize text addBos special session.vocab.engine)) := by
  unfold onVocab Vocabulary.tokenize Vocabulary.ask EStateM.adaptExcept Vocabulary.call
  cases h : (engine.tokenize text addBos special session.vocab.engine).result <;>
    simp only [h] <;> rfl

section Steps

variable {step : SessionM σ α} {step' : SessionM τ α}

theorem couples_attempt (h : session.Alike related session') {run : σ → Reply σ α}
    {run' : τ → Reply τ α} (hcalls : CallsAlike related run run') :
    Couples (Alike related) (attempt run) (attempt run') session session' := by
  obtain ⟨hresult, hvocab⟩ := hcalls h.vocab
  unfold Couples
  rw [attempt_eq, attempt_eq, hresult]
  exact .ok _ { h with vocab := hvocab }

theorem couples_onVocab_of {wider : Session σ → Session τ → Prop} {ask : VocabularyM σ α}
    {ask' : VocabularyM τ α} (hask : Couples related ask ask' session.vocab session'.vocab)
    (hwider : ∀ {vocab vocab'}, related vocab vocab' →
      wider { session with vocab } { session' with vocab := vocab' }) :
    Couples wider (onVocab ask) (onVocab ask') session session' := by
  unfold Couples onVocab
  rcases hask.outcomes with ⟨value, later, later', hstep, hstep', hvocab⟩ |
    ⟨error, later, later', hstep, hstep', hvocab⟩
  · rw [hstep, hstep']
    exact .ok value (hwider hvocab)
  · rw [hstep, hstep']
    exact .error _ (hwider hvocab)

theorem couples_onVocab (h : session.Alike related session') {ask : VocabularyM σ α}
    {ask' : VocabularyM τ α} (hask : Couples related ask ask' session.vocab session'.vocab) :
    Couples (Alike related) (onVocab ask) (onVocab ask') session session' :=
  couples_onVocab_of hask fun hvocab => { h with vocab := hvocab }

theorem couples_observe (h : Couples (Alike related) step step' session session') :
    Couples (Alike related) (observe step) (observe step') session session' := by
  unfold Couples observe
  rcases h.outcomes with ⟨value, later, later', hstep, hstep', hrelated⟩ |
    ⟨error, later, later', hstep, hstep', hrelated⟩
  · rw [hstep, hstep']
    exact .ok _ hrelated
  · rw [hstep, hstep']
    exact .ok _ hrelated

end Steps

/-! ## Section 4: Coupled operations -/

/-- A new token is remembered in the same way. -/
theorem Alike.remember (h : session.Alike related session') (token : TokenId) :
    (session.remember token).Alike related (session'.remember token) := by
  refine { h with recent := ?_ }
  unfold Session.remember window
  rw [h.recent, h.params, h.stopSequence]

theorem Alike.stopSequenceMatched (h : session.Alike related session') :
    session.stopSequenceMatched = session'.stopSequenceMatched := by
  unfold Session.stopSequenceMatched
  rw [h.recent, h.stopSequence]

theorem couples_pristine (h : session.Alike related session') :
    Couples (Alike related) pristine pristine session session' := by
  unfold pristine
  refine couples_get ?_
  rw [h.logits]
  exact couples_ite Iff.rfl (fun _ => couples_throw _ h) (fun _ => couples_pure _ h)

theorem couples_drawToken (h : session.Alike related session') (scores : List Float32) :
    Couples (Alike related) (drawToken scores) (drawToken scores) session session' := by
  have hpenalized : session.penalized = session'.penalized := by
    unfold penalized
    rw [h.recent, h.params]
  have hsample : session.sampler.sample scores session.penalized
      = session'.sampler.sample scores session'.penalized := by
    rw [h.sampler, hpenalized]
  have hdraw : ∀ {υ : Type} (session : Session υ), drawToken scores session
      = .ok ((session.sampler.sample scores session.penalized).1.map Int32.ofNat)
        { session with sampler := (session.sampler.sample scores session.penalized).2 } :=
    fun _ => rfl
  unfold Couples
  rw [hdraw, hdraw, hsample]
  exact .ok _ { h with sampler := rfl }

section Operations

variable (hcoupled : engine.Coupled related engine')

include hcoupled

theorem couples_tokenize (h : session.Alike related session') (text : String)
    (addBos special : Bool) :
    Couples (Alike related) (onVocab (Vocabulary.tokenize engine text addBos special))
      (onVocab (Vocabulary.tokenize engine' text addBos special)) session session' := by
  obtain ⟨hresult, hvocab⟩ := hcoupled.tokenize text addBos special h.vocab
  unfold Couples
  rw [onVocab_tokenize_eq, onVocab_tokenize_eq, hresult]
  cases (engine'.tokenize text addBos special session'.vocab.engine).result with
  | ok tokens => exact .ok _ { h with vocab := hvocab }
  | error error => exact .error _ { h with vocab := hvocab }

theorem Alike.stop (h : session.Alike related session') : session.stop.Alike related session'.stop :=
  { h with vocab := hcoupled.setStopped true h.vocab }

theorem Alike.rearm (h : session.Alike related session') :
    session.rearm.Alike related session'.rearm :=
  { h with vocab := hcoupled.setStopped false h.vocab }

theorem Alike.beginGeneration (h : session.Alike related session') :
    session.beginGeneration.Alike related session'.beginGeneration :=
  { h.rearm hcoupled with recent := rfl }

theorem couples_decodeBatch (h : session.Alike related session') (batch : Batch) :
    Couples (Alike related) (decodeBatch engine batch) (decodeBatch engine' batch) session
      session' := by
  unfold decodeBatch
  refine (couples_attempt h (hcoupled.decode batch)).bind fun decoded session session' h => ?_
  cases decoded with
  | error error =>
    exact (couples_modify (h.stop hcoupled)).bind fun _ _ _ h => couples_throw _ h
  | ok _ =>
    refine (couples_attempt h hcoupled.logits).bind fun scored session session' h => ?_
    cases scored with
    | error error =>
      exact (couples_modify (h.stop hcoupled)).bind fun _ _ _ h => couples_throw _ h
    | ok logits => exact couples_modify { h with logits := rfl }

theorem Alike.eos (h : session.Alike related session') : session.eos engine = session'.eos engine' :=
  hcoupled.eos h.vocab

theorem Alike.isStopped (h : session.Alike related session') :
    session.isStopped = session'.isStopped := hcoupled.stopped h.vocab

theorem Alike.capacity (h : session.Alike related session') :
    session.capacity engine = session'.capacity engine' := hcoupled.contextSize h.vocab

theorem couples_inject (h : session.Alike related session') (tokens : List TokenId) :
    Couples (Alike related) (inject engine tokens) (inject engine' tokens) session session' := by
  unfold inject
  refine couples_ite Iff.rfl (fun _ => couples_get ?_) (fun _ => couples_pure _ h)
  dsimp only
  rw [h.position, h.capacity hcoupled]
  refine couples_ite Iff.rfl (fun _ => couples_throw _ h) (fun _ => ?_)
  refine (couples_decodeBatch hcoupled h _).bind fun _ _ _ h => ?_
  exact couples_modify { h with position := rfl }

theorem couples_accept (h : session.Alike related session') (token : TokenId) :
    Couples (Alike related) (accept engine token) (accept engine' token) session session' := by
  unfold accept
  refine (couples_modify (h.remember token)).bind fun _ _ _ h => ?_
  exact couples_inject hcoupled h [token]

theorem couples_feedText (h : session.Alike related session') (text : String) :
    Couples (Alike related) (feedText engine text) (feedText engine' text) session session' := by
  unfold feedText
  refine (couples_tokenize hcoupled h text false false).bind fun tokens _ _ h => ?_
  exact (couples_inject hcoupled h tokens).bind fun _ _ _ h => couples_pure _ h

theorem couples_resetContext (h : session.Alike related session') :
    Couples (Alike related) (resetContext engine) (resetContext engine') session session' := by
  unfold resetContext
  refine (couples_attempt h hcoupled.clear).bind fun cleared _ _ h => ?_
  cases cleared with
  | error error => exact couples_throw _ h
  | ok _ => exact couples_modify { h with position := rfl, recent := rfl, logits := rfl }

theorem couples_prepareContext (h : session.Alike related session') (prompt : String) :
    Couples (Alike related) (prepareContext engine prompt) (prepareContext engine' prompt) session
      session' := by
  unfold prepareContext
  refine couples_ite Iff.rfl (fun _ => couples_throw _ h) (fun _ => couples_get ?_)
  rw [h.position]
  refine (couples_tokenize hcoupled h prompt _ true).bind fun tokens session session' h => ?_
  refine couples_ite Iff.rfl (fun _ => couples_throw _ h) (fun _ => couples_get ?_)
  dsimp only
  rw [h.position, h.capacity hcoupled]
  refine couples_ite Iff.rfl (fun _ => couples_throw _ h) (fun _ => ?_)
  refine (couples_modify { h with recent := rfl }).bind fun _ _ _ h => ?_
  refine (couples_decodeBatch hcoupled h _).bind fun _ _ _ h => ?_
  exact (couples_modify { h with position := rfl }).bind fun _ _ _ h => couples_pure _ h

theorem couples_predictNext (h : session.Alike related session') (excluding : TokenSet) :
    Couples (Alike related) (predictNext engine excluding) (predictNext engine' excluding) session
      session' := by
  unfold predictNext
  refine couples_get ?_
  dsimp only
  rw [h.eos hcoupled, h.isStopped hcoupled, h.capacity hcoupled, h.position]
  refine couples_ite Iff.rfl (fun _ => couples_pure _ h) (fun _ => ?_)
  refine couples_ite Iff.rfl (fun _ => couples_pure _ h) (fun _ => ?_)
  refine (couples_pristine h).bind fun scores _ _ h => ?_
  refine (couples_drawToken h _).bind fun drawn _ _ h => ?_
  cases drawn with
  | error error => exact couples_throw _ h
  | ok token =>
    refine (couples_modify (h.remember token)).bind fun _ session session' h => couples_get ?_
    rw [h.stopSequenceMatched]
    refine couples_ite Iff.rfl (fun _ => ?_) (fun _ => ?_)
    · exact (couples_modify (h.stop hcoupled)).bind fun _ _ _ h => couples_pure _ h
    refine couples_ite Iff.rfl (fun _ => couples_pure _ h) (fun _ => ?_)
    refine (couples_decodeBatch hcoupled h _).bind fun _ _ _ h => ?_
    refine (couples_modify ?_).bind fun _ _ _ h => couples_pure _ h
    exact { h with position := congrArg (· + 1) h.position }

theorem couples_sampleConstrained (h : session.Alike related session') (allowed : TokenSet) :
    Couples (Alike related) (sampleConstrained allowed) (sampleConstrained allowed) session
      session' := by
  unfold sampleConstrained
  refine couples_get ?_
  rw [h.isStopped hcoupled]
  refine couples_ite Iff.rfl (fun _ => couples_throw _ h) (fun _ => ?_)
  refine couples_ite Iff.rfl (fun _ => couples_pure _ h) (fun _ => ?_)
  refine (couples_pristine h).bind fun scores _ _ h => ?_
  refine (couples_drawToken h _).bind fun drawn _ _ h => ?_
  rcases drawn with error | token
  · cases error with
    | noValidTokens => exact couples_pure _ h
    | _ => exact couples_throw _ h
  · exact couples_pure _ h

theorem couples_setStopSequence (h : session.Alike related session') (text : Option String) :
    Couples (Alike related) (setStopSequence engine text) (setStopSequence engine' text) session
      session' := by
  unfold setStopSequence
  dsimp only
  refine couples_ite Iff.rfl (fun _ => ?_) (fun _ => ?_)
  · exact couples_modify { h with stopSequence := rfl }
  · refine (couples_tokenize hcoupled h _ false true).bind fun tokens _ _ h => ?_
    exact couples_modify { h with stopSequence := rfl }

theorem couples_embed (h : session.Alike related session') (text : String) :
    Couples (Alike related) (embed engine text) (embed engine' text) session session' := by
  unfold embed
  refine (couples_tokenize hcoupled h text true false).bind fun tokens _ _ h => couples_get ?_
  dsimp only
  rw [h.capacity hcoupled]
  refine couples_ite Iff.rfl (fun _ => couples_throw _ h) (fun _ => ?_)
  refine (couples_attempt h (hcoupled.decode _)).bind fun decoded _ _ h => ?_
  cases decoded with
  | error error => exact couples_throw _ h
  | ok _ =>
    refine (couples_attempt h hcoupled.embeddings).bind fun embedding _ _ h => ?_
    rcases embedding with error | _ | ⟨first, rest⟩
    · exact couples_throw _ h
    · exact couples_throw _ h
    · exact couples_pure _ h

/-- The context is emptied first, so it does not matter what it held. -/
theorem couples_extractEmbeddings_of_reset {wider : Session σ → Session τ → Prop}
    (hwider : ∀ {session session'}, session.Alike related session' → wider session session')
    (h : wider session session')
    (hreset : Couples (Alike related) (resetContext engine) (resetContext engine') session session')
    (text : String) : Couples wider (extractEmbeddings engine text) (extractEmbeddings engine' text)
      session session' := by
  unfold extractEmbeddings
  refine couples_ite Iff.rfl (fun _ => couples_throw _ h) (fun _ => Couples.mono ?_ hwider)
  refine hreset.bind fun _ _ _ h => ?_
  refine (couples_attempt h (hcoupled.setEmbeddings true)).bind fun enabled _ _ h => ?_
  cases enabled with
  | error error => exact couples_throw _ h
  | ok _ =>
    -- the embedding may fail, and the context is emptied all the same
    refine (couples_observe (couples_embed hcoupled h text)).bind fun extracted _ _ h => ?_
    refine (couples_attempt h (hcoupled.setEmbeddings false)).bind fun restored _ _ h => ?_
    refine (couples_resetContext hcoupled h).bind fun _ _ _ h => ?_
    rcases restored with error | _
    · exact couples_throw _ h
    · cases extracted with
      | error error => exact couples_throw _ h
      | ok embedding => exact couples_pure _ h

theorem couples_extractEmbeddings (h : session.Alike related session') (text : String) :
    Couples (Alike related) (extractEmbeddings engine text) (extractEmbeddings engine' text) session
      session' :=
  couples_extractEmbeddings_of_reset hcoupled id h (couples_resetContext hcoupled h) text

/-- **Coupled engines are used alike**: every operation leaves sessions behind that are the same but
    for their vocabularies. -/
theorem Alike.apply (h : session.Alike related session') (operation : Operation) :
    (operation.apply engine session).Alike related (operation.apply engine' session') := by
  cases operation with
  | prepareContext prompt => exact (couples_prepareContext hcoupled h prompt).related_after
  | predictNext excluding => exact (couples_predictNext hcoupled h excluding).related_after
  | sampleConstrained allowed => exact (couples_sampleConstrained hcoupled h allowed).related_after
  | accept token => exact (couples_accept hcoupled h token).related_after
  | feedText text => exact (couples_feedText hcoupled h text).related_after
  | inject tokens => exact (couples_inject hcoupled h tokens).related_after
  | resetContext => exact (couples_resetContext hcoupled h).related_after
  | extractEmbeddings text => exact (couples_extractEmbeddings hcoupled h text).related_after
  | stop => exact h.stop hcoupled
  | rearm => exact h.rearm hcoupled
  | beginGeneration => exact h.beginGeneration hcoupled
  | setParams params => exact { h with params := rfl, sampler := rfl }
  | setStopSequence text => exact (couples_setStopSequence hcoupled h text).related_after

end Operations

end Session

/-! ## Section 5: Engines that keep more -/

/-- The reply of an engine in another state. -/
def Reply.map (f : τ → σ) (reply : Reply τ α) : Reply σ α :=
  { reply with state := f reply.state }

/-- **Keeping more.**  What `fuller` keeps more than `engine`, and `project` leaves out, makes no
    difference to its calls. -/
structure Engine.Extends (fuller : Engine τ) (project : τ → σ) (engine : Engine σ) : Prop where
  contextSize : ∀ state, fuller.contextSize state = engine.contextSize (project state)
  eos : ∀ state, fuller.eos state = engine.eos (project state)
  tokenize : ∀ text addBos special state, (fuller.tokenize text addBos special state).map project
    = engine.tokenize text addBos special (project state)
  decode : ∀ batch state,
    (fuller.decode batch state).map project = engine.decode batch (project state)
  logits : ∀ state, (fuller.logits state).map project = engine.logits (project state)
  clear : ∀ state, (fuller.clear state).map project = engine.clear (project state)
  setEmbeddings : ∀ enabled state,
    (fuller.setEmbeddings enabled state).map project = engine.setEmbeddings enabled (project state)
  embeddings : ∀ state, (fuller.embeddings state).map project = engine.embeddings (project state)

/-- The vocabulary over an engine in another state. -/
def Vocabulary.onEngine (vocab : Vocabulary σ) (state : τ) : Vocabulary τ :=
  { vocab with engine := state }

namespace Engine.Extends

variable {fuller : Engine τ} {project : τ → σ} {engine : Engine σ}

theorem callsAlike {run : τ → Reply τ α} {run' : σ → Reply σ α}
    (h : ∀ state, (run state).map project = run' (project state)) :
    CallsAlike (fun vocab vocab' => vocab' = vocab.onEngine (project vocab.engine)) run run' := by
  intro vocab vocab' heq
  subst heq
  have hreply := h vocab.engine
  refine ⟨congrArg Reply.result hreply, ?_⟩
  show (vocab.onEngine (project vocab.engine)).heard (run' (project vocab.engine)) = _
  rw [← hreply]
  rfl

theorem coupled (h : fuller.Extends project engine) :
    fuller.Coupled (fun vocab vocab' => vocab' = vocab.onEngine (project vocab.engine)) engine where
  stopped := fun heq => by rw [heq]; rfl
  setStopped := fun _ _ _ heq => by rw [heq]; rfl
  contextSize := fun heq => by rw [heq]; exact h.contextSize _
  eos := fun heq => by rw [heq]; exact h.eos _
  tokenize text addBos special := callsAlike (h.tokenize text addBos special)
  decode batch := callsAlike (h.decode batch)
  logits := callsAlike h.logits
  clear := callsAlike h.clear
  setEmbeddings enabled := callsAlike (h.setEmbeddings enabled)
  embeddings := callsAlike h.embeddings

/-- The session without what the engine keeps more. -/
theorem alike_project (project : τ → σ) (session : Session τ) :
    session.Alike (fun vocab vocab' => vocab' = vocab.onEngine (project vocab.engine))
      (session.onEngine (project session.vocab.engine)) :=
  ⟨rfl, rfl, rfl, rfl, rfl, rfl, rfl⟩

theorem eq_project {session : Session τ} {session' : Session σ} (h : session.Alike
    (fun vocab vocab' => vocab' = vocab.onEngine (project vocab.engine)) session') :
    session.onEngine (project session.vocab.engine) = session' := by
  obtain ⟨hvocab, hparams, hsampler, hposition, hrecent, hstop, hlogits⟩ := h
  obtain ⟨vocab', params, sampler, position, recent, stopSequence, logits⟩ := session'
  cases hvocab
  cases hparams
  cases hsampler
  cases hposition
  cases hrecent
  cases hstop
  cases hlogits
  rfl

/-- Without what is kept more, a step has the outcome of the step coupled to it. -/
theorem outcome_eq {step : SessionM τ α} {step' : SessionM σ α} {session : Session τ}
    (h : Couples (Session.Alike fun vocab vocab' => vocab' = vocab.onEngine (project vocab.engine))
      step step' session (session.onEngine (project session.vocab.engine))) :
    step' (session.onEngine (project session.vocab.engine))
      = outcome (fun session => session.onEngine (project session.vocab.engine)) (step session) := by
  rcases h.outcomes with ⟨value, later, later', hstep, hstep', hsame⟩ |
    ⟨error, later, later', hstep, hstep', hsame⟩
  · rw [hstep, hstep', ← eq_project hsame]
    rfl
  · rw [hstep, hstep', ← eq_project hsame]
    rfl

/-- **What is kept more makes no difference**: without it, an operation leaves behind what it leaves
    behind over the engine that does not keep it. -/
theorem apply_project (h : fuller.Extends project engine) (operation : Session.Operation)
    (session : Session τ) :
    (operation.apply fuller session).onEngine (project (operation.apply fuller session).vocab.engine)
      = operation.apply engine (session.onEngine (project session.vocab.engine)) :=
  eq_project ((alike_project project session).apply h.coupled operation)

end Engine.Extends

end Parley
