import Parley.Proofs.Session.Coupling

/-! # What lasts in a session

    A relation between an earlier and a later session lasts, `Session.Lasting`, if it survives the
    calls to the engine, the notes that a session makes on its way, and the draws.  Every operation
    then keeps it, whatever it does and however it fails: one lemma for each.

    What a vocabulary has learnt lasts in this way, so sessions learn and forget nothing:
    `Session.lasting_learns`.  A request to stop lasts as well, until the session is armed for
    another generation: `Session.enduring_staysStopped`.
-/

namespace Parley

open Step

variable {ε σ α β : Type}

/-! ## Section 1: What lasts -/

namespace Session

/-- **What lasts.**  The relation survives whatever a session does in the course of an operation:
    its calls to the engine, the notes that it makes, and the tokens that it draws. -/
structure Lasting (engine : Engine σ) (lasts : Session σ → Session σ → Prop) : Prop where
  refl : ∀ session, lasts session session
  trans : ∀ {first second third}, lasts first second → lasts second third → lasts first third
  stop : ∀ session, lasts session session.stop
  note : ∀ (session : Session σ) position recent logits, lasts session
    { session with position, recent, logits }
  draw : ∀ (session : Session σ) scores, lasts session
    { session with sampler := (session.sampler.sample scores session.penalized).2 }
  tokenize : ∀ text addBos special session, lasts session
    (session.heard (engine.tokenize text addBos special session.vocab.engine))
  decode : ∀ batch session, lasts session
    (session.heard (engine.decode batch session.vocab.engine))
  logits : ∀ session, lasts session (session.heard (engine.logits session.vocab.engine))
  clear : ∀ session, lasts session (session.heard (engine.clear session.vocab.engine))

/-- **What lasts**, also while the texts of tokens are asked for. -/
structure Enduring (engine : Engine σ) (lasts : Session σ → Session σ → Prop) : Prop
    extends Lasting engine lasts where
  piece : ∀ token session,
    Keeps lasts (onVocab (Vocabulary.piece engine token false)) session

/-! ## Section 2: Operations -/

section Steps

variable {lasts : Session σ → Session σ → Prop} {session : Session σ}

theorem keeps_onVocab {step : VocabularyM σ α}
    (h : Keeps (fun _ vocab => lasts session { session with vocab }) step session.vocab) :
    Keeps lasts (onVocab step) session := by
  unfold Keeps after onVocab at *
  cases hstep : step session.vocab <;> simpa only [hstep] using h

theorem keeps_attempt {run : σ → Reply σ α}
    (h : lasts session (session.heard (run session.vocab.engine))) :
    Keeps lasts (attempt run) session := by
  rw [Keeps, after_ok (attempt_eq run session)]
  exact h

theorem keeps_observe {step : SessionM σ α} (h : Keeps lasts step session) :
    Keeps lasts (observe step) session := by
  unfold Keeps after observe at *
  cases hstep : step session <;> simpa only [hstep] using h

end Steps

namespace Lasting

variable {engine : Engine σ} {lasts : Session σ → Session σ → Prop} {session : Session σ}
  (h : Lasting engine lasts)

include h

theorem keeps_pure (value : α) : Keeps (ε := ε) lasts (pure value) session := h.refl session

theorem keeps_throw (error : ε) : Keeps lasts (throw error : EStateM ε (Session σ) α) session :=
  h.refl session

theorem keeps_stop : Keeps (ε := ε) lasts (modify Session.stop) session := h.stop session

theorem keeps_note (position : Session σ → Nat) (recent : Session σ → List TokenId)
    (logits : Session σ → List Float32) :
    Keeps (ε := ε) lasts (modify fun session => { session with
      position := position session, recent := recent session, logits := logits session }) session :=
  h.note session _ _ _

theorem keeps_tokenize (text : String) (addBos special : Bool) :
    Keeps lasts (onVocab (Vocabulary.tokenize engine text addBos special)) session := by
  have hafter : after (onVocab (Vocabulary.tokenize engine text addBos special)) session
      = session.heard (engine.tokenize text addBos special session.vocab.engine) := by
    unfold after
    rw [onVocab_tokenize_eq]
    cases (engine.tokenize text addBos special session.vocab.engine).result <;> rfl
  rw [Keeps, hafter]
  exact h.tokenize text addBos special session

theorem keeps_decodeBatch (batch : Batch) : Keeps lasts (decodeBatch engine batch) session := by
  unfold decodeBatch
  refine (keeps_attempt (h.decode batch session)).bind h.trans fun decoded session => ?_
  cases decoded with
  | error error => exact h.keeps_stop.bind h.trans fun _ _ => h.keeps_throw _
  | ok _ =>
    refine (keeps_attempt (h.logits session)).bind h.trans fun scored session => ?_
    cases scored with
    | error error => exact h.keeps_stop.bind h.trans fun _ _ => h.keeps_throw _
    | ok logits => exact h.keeps_note _ _ _

theorem keeps_inject (tokens : List TokenId) : Keeps lasts (inject engine tokens) session := by
  unfold inject
  refine keeps_ite (fun _ => keeps_get ?_) fun _ => h.keeps_pure _
  refine keeps_ite (fun _ => h.keeps_throw _) fun _ => ?_
  exact (h.keeps_decodeBatch _).bind h.trans fun _ _ => h.keeps_note _ _ _

theorem keeps_accept (token : TokenId) : Keeps lasts (accept engine token) session := by
  unfold accept
  exact (h.keeps_note _ _ _).bind h.trans fun _ _ => h.keeps_inject _

theorem keeps_feedText (text : String) : Keeps lasts (feedText engine text) session := by
  unfold feedText
  refine (h.keeps_tokenize _ _ _).bind h.trans fun _ _ => ?_
  exact (h.keeps_inject _).bind h.trans fun _ _ => h.keeps_pure _

theorem keeps_resetContext : Keeps lasts (resetContext engine) session := by
  unfold resetContext
  refine (keeps_attempt (h.clear session)).bind h.trans fun cleared session => ?_
  cases cleared with
  | error error => exact h.keeps_throw _
  | ok _ => exact h.keeps_note _ _ _

theorem keeps_prepareContext (prompt : String) :
    Keeps lasts (prepareContext engine prompt) session := by
  unfold prepareContext
  refine keeps_ite (fun _ => h.keeps_throw _) fun _ => keeps_get ?_
  refine (h.keeps_tokenize _ _ _).bind h.trans fun _ _ => ?_
  refine keeps_ite (fun _ => h.keeps_throw _) fun _ => keeps_get ?_
  refine keeps_ite (fun _ => h.keeps_throw _) fun _ => ?_
  refine (h.keeps_note _ _ _).bind h.trans fun _ _ => ?_
  refine (h.keeps_decodeBatch _).bind h.trans fun _ _ => ?_
  exact (h.keeps_note _ _ _).bind h.trans fun _ _ => h.keeps_pure _

theorem keeps_drawToken (scores : List Float32) : Keeps lasts (drawToken scores) session :=
  h.draw session scores

theorem keeps_pristine : Keeps lasts (pristine (σ := σ)) session := by
  unfold pristine
  exact keeps_get (keeps_ite (fun _ => h.keeps_throw _) fun _ => h.keeps_pure _)

theorem keeps_sampleConstrained (allowed : TokenSet) :
    Keeps lasts (sampleConstrained (σ := σ) allowed) session := by
  unfold sampleConstrained
  refine keeps_get (keeps_ite (fun _ => h.keeps_throw _) fun _ => ?_)
  refine keeps_ite (fun _ => h.keeps_pure _) fun _ => ?_
  refine h.keeps_pristine.bind h.trans fun scores session => ?_
  refine (h.keeps_drawToken _).bind h.trans fun drawn session => ?_
  rcases drawn with error | token
  · cases error <;> exact h.refl _
  · exact h.keeps_pure _

theorem keeps_predictNext (excluding : TokenSet) :
    Keeps lasts (predictNext engine excluding) session := by
  unfold predictNext
  refine keeps_get (keeps_ite (fun _ => h.keeps_pure _) fun _ => ?_)
  refine keeps_ite (fun _ => h.keeps_pure _) fun _ => ?_
  refine h.keeps_pristine.bind h.trans fun scores session => ?_
  refine (h.keeps_drawToken _).bind h.trans fun drawn session => ?_
  cases drawn with
  | error error => exact h.keeps_throw _
  | ok token =>
    refine (h.keeps_note _ _ _).bind h.trans fun _ session => keeps_get ?_
    refine keeps_ite (fun _ => ?_) fun _ => ?_
    · exact h.keeps_stop.bind h.trans fun _ _ => h.keeps_pure _
    refine keeps_ite (fun _ => h.keeps_pure _) fun _ => ?_
    refine (h.keeps_decodeBatch _).bind h.trans fun _ _ => ?_
    exact (h.keeps_note _ _ _).bind h.trans fun _ _ => h.keeps_pure _

/-! ### Embeddings

    The engine is switched to embeddings and back, so it has two more functions to ask about. -/

section Embeddings

variable (hembeddings : ∀ session, lasts session
    (session.heard (engine.embeddings session.vocab.engine)))

include hembeddings

theorem keeps_embed (text : String) : Keeps lasts (embed engine text) session := by
  unfold embed
  refine (h.keeps_tokenize _ _ _).bind h.trans fun _ _ => ?_
  refine keeps_get (keeps_ite (fun _ => h.keeps_throw _) fun _ => ?_)
  refine (keeps_attempt (h.decode _ _)).bind h.trans fun decoded session => ?_
  cases decoded with
  | error error => exact h.keeps_throw _
  | ok _ =>
    refine (keeps_attempt (hembeddings session)).bind h.trans fun embedding session => ?_
    rcases embedding with error | _ | ⟨first, rest⟩ <;> exact h.refl _

theorem keeps_extractEmbeddings (hswitch : ∀ enabled session, lasts session
      (session.heard (engine.setEmbeddings enabled session.vocab.engine))) (text : String) :
    Keeps lasts (extractEmbeddings engine text) session := by
  unfold extractEmbeddings
  refine keeps_ite (fun _ => h.keeps_throw _) fun _ => ?_
  refine h.keeps_resetContext.bind h.trans fun _ session => ?_
  refine (keeps_attempt (hswitch _ _)).bind h.trans fun enabled session => ?_
  cases enabled with
  | error error => exact h.keeps_throw _
  | ok _ =>
    refine (keeps_observe (h.keeps_embed hembeddings _)).bind h.trans fun extracted session => ?_
    refine (keeps_attempt (hswitch _ _)).bind h.trans fun restored session => ?_
    refine h.keeps_resetContext.bind h.trans fun _ session => ?_
    rcases restored with error | _
    · exact h.refl _
    · cases extracted <;> exact h.refl _

end Embeddings

/-! ### Settings -/

theorem keeps_setStopSequence (hset : ∀ (session : Session σ) params sampler stopSequence,
      lasts session { session with params, sampler, stopSequence }) (text : Option String) :
    Keeps lasts (setStopSequence engine text) session := by
  unfold setStopSequence
  refine keeps_ite (fun _ => hset _ _ _ _) fun _ => ?_
  exact (h.keeps_tokenize _ _ _).bind h.trans fun _ _ => hset _ _ _ _

end Lasting

/-! ### Any operation -/

/-- Whether the operation arms the session anew: requests to stop from before it no longer count. -/
def Operation.rearms : Operation → Bool
  | .rearm => true
  | .beginGeneration => true
  | _ => false

/-- **Operations keep what lasts**, if it does not depend on the settings and survives the
    extraction of embeddings. -/
theorem Lasting.keeps_apply (h : Lasting engine lasts)
    (hextract : ∀ text session, Keeps lasts (extractEmbeddings engine text) session)
    (hset : ∀ (session : Session σ) params sampler stopSequence,
      lasts session { session with params, sampler, stopSequence })
    (operation : Operation)
    (hrearm : operation.rearms = true → ∀ session : Session σ, lasts session session.rearm)
    (session : Session σ) : lasts session (operation.apply engine session) := by
  cases operation with
  | prepareContext prompt => exact h.keeps_prepareContext prompt
  | predictNext excluding => exact h.keeps_predictNext excluding
  | sampleConstrained allowed => exact h.keeps_sampleConstrained allowed
  | accept token => exact h.keeps_accept token
  | feedText text => exact h.keeps_feedText text
  | inject tokens => exact h.keeps_inject tokens
  | resetContext => exact h.keeps_resetContext
  | extractEmbeddings text => exact hextract text session
  | stop => exact h.stop session
  | rearm => exact hrearm rfl session
  | beginGeneration => exact h.trans (hrearm rfl session) (h.note session.rearm _ [] _)
  | setParams params => exact hset session _ _ _
  | setStopSequence text => exact h.keeps_setStopSequence hset text

/-! ### Decoding -/

/-- The position, the recent tokens and the settings are the same. -/
structure SameMemory (before later : Session σ) : Prop where
  position : later.position = before.position
  params : later.params = before.params
  stopSequence : later.stopSequence = before.stopSequence
  recent : later.recent = before.recent

theorem SameMemory.trans {first second third : Session σ} (h : SameMemory first second)
    (hnext : SameMemory second third) : SameMemory first third where
  position := hnext.position.trans h.position
  params := hnext.params.trans h.params
  stopSequence := hnext.stopSequence.trans h.stopSequence
  recent := hnext.recent.trans h.recent

/-- A decoding call feeds the context and leaves the rest alone, whether it fails or not. -/
theorem sameMemory_decodeBatch (engine : Engine σ) (batch : Batch) (session : Session σ) :
    Keeps SameMemory (decodeBatch engine batch) session := by
  have hfail : ∀ error session, Keeps (σ := Session σ) SameMemory
      ((do modify stop; throw error) : SessionM σ Unit) session := fun _ _ => ⟨rfl, rfl, rfl, rfl⟩
  unfold decodeBatch
  refine (keeps_attempt ⟨rfl, rfl, rfl, rfl⟩).bind SameMemory.trans fun decoded session => ?_
  cases decoded with
  | error error => exact hfail _ session
  | ok _ =>
    refine (keeps_attempt ⟨rfl, rfl, rfl, rfl⟩).bind SameMemory.trans fun scored session => ?_
    cases scored with
    | error error => exact hfail _ session
    | ok logits => exact ⟨rfl, rfl, rfl, rfl⟩

/-! ## Section 3: What a session learns -/

variable {engine : Engine σ}

/-- The vocabulary of the session learnt more and forgot nothing. -/
def Learns (before later : Session σ) : Prop := before.vocab.Learns later.vocab

theorem Learns.trans {first second third : Session σ} (h : first.Learns second)
    (hnext : second.Learns third) : first.Learns third :=
  Vocabulary.Learns.trans h hnext

theorem learns_refl (session : Session σ) : session.Learns session := .refl session.vocab

theorem learns_heard (session : Session σ) (reply : Reply σ α) :
    session.Learns (session.heard reply) := session.vocab.heard_learns reply

/-- To ask for a stop, or to withdraw it, is not to forget. -/
theorem learns_touched (session : Session σ) (stopped : Bool) :
    session.Learns { session with vocab := { session.vocab with stopped } } :=
  .of_extends (.refl _) rfl rfl

/-- **Knowledge lasts.** -/
theorem lasting_learns (engine : Engine σ) : Lasting engine Learns where
  refl := learns_refl
  trans := Learns.trans
  stop session := session.learns_touched true
  note session _ _ _ := learns_refl session
  draw session _ := learns_refl session
  tokenize _ _ _ session := session.learns_heard _
  decode _ session := session.learns_heard _
  logits session := session.learns_heard _
  clear session := session.learns_heard _

/-! ## Section 4: Stops -/

/-- If a stop was requested of the earlier session, then it is of the later one. -/
def StaysStopped (before later : Session σ) : Prop :=
  before.isStopped = true → later.isStopped = true

theorem staysStopped_heard (session : Session σ) (reply : Reply σ α) :
    session.StaysStopped (session.heard reply) := by
  intro hstopped
  have hbefore : session.vocab.stopped = true := hstopped
  simp [isStopped, heard, Vocabulary.heard, hbefore]

/-- **A stop lasts**, whatever a session does but to arm itself for another generation. -/
theorem enduring_staysStopped (engine : Engine σ) : Enduring engine StaysStopped where
  refl _ := id
  trans h hnext := hnext ∘ h
  stop _ _ := rfl
  note _ _ _ _ := id
  draw _ _ := id
  tokenize _ _ _ session := session.staysStopped_heard _
  decode _ session := session.staysStopped_heard _
  logits session := session.staysStopped_heard _
  clear session := session.staysStopped_heard _
  piece token session :=
    keeps_onVocab ((Vocabulary.lasting_stopped engine).piece token false session.vocab)

theorem Operation.staysStopped {operation : Operation} (harmless : operation.rearms = false)
    (session : Session σ) : session.StaysStopped (operation.apply engine session) := by
  have hlasting := (enduring_staysStopped engine).toLasting
  apply hlasting.keeps_apply
  · intro text session
    exact hlasting.keeps_extractEmbeddings (fun session => session.staysStopped_heard _)
      (fun _ session => session.staysStopped_heard _) text
  · exact fun _ _ _ _ => id
  · intro hrearms
    rw [harmless] at hrearms
    contradiction

/-- **A stop lasts** along any sequence of operations none of which arms the session anew. -/
theorem applyAll_staysStopped {operations : List Operation}
    (harmless : ∀ operation ∈ operations, operation.rearms = false) (session : Session σ) :
    session.StaysStopped (applyAll engine operations session) := by
  induction operations generalizing session with
  | nil => exact id
  | cons operation rest ih =>
    intro hstopped
    have hfirst : operation.rearms = false := harmless operation List.mem_cons_self
    have hrest := ih (fun other hother => harmless other (List.mem_cons_of_mem _ hother))
      (operation.apply engine session)
    exact hrest (operation.staysStopped hfirst session hstopped)

end Session

end Parley
