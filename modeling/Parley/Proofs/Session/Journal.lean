import Mathlib.Data.List.Induction
import Parley.Engine.Tabulated
import Parley.Proofs.Session.Coupling
import Parley.Proofs.Token.Batch

/-! # What a session hands to its engine

    An engine with a journal does what another engine does and keeps the batches that it was handed.
    The operations that feed the context, `Session.Feeding`, hand over one batch at most: it begins
    at the position, ends within the context and asks for the scores behind its last token.  The
    position follows it exactly if the operation succeeds: `Session.Feeds`.  So the position never
    leaves the context, whatever the engine answers: `Session.feeding_spec`.
-/

namespace Parley

open Step

variable {σ α β : Type}

/-! ## Section 1: Engines with a journal -/

/-- The state of an engine with a journal: that of the engine, and the batches it was handed, the
    oldest first. -/
structure Journaled (σ : Type) where
  state : σ
  batches : List Batch := []

namespace Journaled

/-- Makes a call to the engine. -/
def call (run : σ → Reply σ α) (journaled : Journaled σ) : Reply (Journaled σ) α :=
  let reply := run journaled.state
  { reply with state := { journaled with state := reply.state } }

/-- The functions of an engine with a journal. -/
def engine (inner : Engine σ) : Engine (Journaled σ) where
  tokenize text addBos special := call (inner.tokenize text addBos special)
  piece token special := call (inner.piece token special)
  vocabSize journaled := inner.vocabSize journaled.state
  contextSize journaled := inner.contextSize journaled.state
  bos journaled := inner.bos journaled.state
  eos journaled := inner.eos journaled.state
  decode batch journaled :=
    { journaled with batches := journaled.batches ++ [batch] }.call (inner.decode batch)
  logits := call inner.logits
  clear := call inner.clear
  setEmbeddings enabled := call (inner.setEmbeddings enabled)
  embeddings := call inner.embeddings

/-- The journal makes no difference to the engine. -/
theorem extends_inner (inner : Engine σ) : (engine inner).Extends Journaled.state inner where
  contextSize _ := rfl
  eos _ := rfl
  tokenize _ _ _ _ := rfl
  decode _ _ := rfl
  logits _ := rfl
  clear _ := rfl
  setEmbeddings _ _ := rfl
  embeddings _ := rfl

end Journaled

/-- **A context of constant size.**  No call changes the number of tokens that the context can
    hold. -/
structure Engine.KeepsSize (engine : Engine σ) : Prop where
  tokenize : ∀ text addBos special state,
    engine.contextSize (engine.tokenize text addBos special state).state = engine.contextSize state
  decode : ∀ batch state,
    engine.contextSize (engine.decode batch state).state = engine.contextSize state
  logits : ∀ state, engine.contextSize (engine.logits state).state = engine.contextSize state
  clear : ∀ state, engine.contextSize (engine.clear state).state = engine.contextSize state
  setEmbeddings : ∀ enabled state,
    engine.contextSize (engine.setEmbeddings enabled state).state = engine.contextSize state
  embeddings : ∀ state,
    engine.contextSize (engine.embeddings state).state = engine.contextSize state

/-- The same vocabulary, over an engine whose context holds `size` tokens. -/
def SameSized (engine : Engine σ) (size : ℕ) (vocab vocab' : Vocabulary σ) : Prop :=
  vocab = vocab' ∧ engine.contextSize vocab.engine = size

/-- An engine with a context of constant size is coupled to itself. -/
theorem Engine.KeepsSize.coupled {engine : Engine σ} (keeps : engine.KeepsSize) (size : ℕ) :
    engine.Coupled (SameSized engine size) engine := by
  have hcall : ∀ {α : Type} {run : σ → Reply σ α},
      (∀ state, engine.contextSize (run state).state = engine.contextSize state) →
      CallsAlike (SameSized engine size) run run := by
    rintro α run hsame vocab vocab' ⟨rfl, hsize⟩
    exact ⟨rfl, rfl, (hsame _).trans hsize⟩
  refine ⟨?_, ?_, ?_, ?_, fun _ _ _ => hcall (keeps.tokenize _ _ _),
    fun _ => hcall (keeps.decode _), hcall keeps.logits, hcall keeps.clear,
    fun _ => hcall (keeps.setEmbeddings _), hcall keeps.embeddings⟩
  · rintro vocab vocab' ⟨rfl, -⟩
    rfl
  · rintro stopped vocab vocab' ⟨rfl, hsize⟩
    exact ⟨rfl, hsize⟩
  · rintro vocab vocab' ⟨rfl, -⟩
    rfl
  · rintro vocab vocab' ⟨rfl, -⟩
    rfl

/-- The batch is not empty, begins at `position`, ends within a context of `capacity` tokens, and
    asks for the scores behind its last token only. -/
structure Batch.Fits (batch : Batch) (position capacity : ℕ) : Prop where
  nonempty : batch.size ≠ 0
  positions : batch.positions = List.range' position batch.size
  within : position + batch.size ≤ capacity
  wishes : batch.wishes = List.replicate (batch.size - 1) false ++ [true]

theorem Batch.sequence_fits {tokens : List TokenId} {position capacity : ℕ} (hsome : tokens ≠ [])
    (hwithin : position + tokens.length ≤ capacity) :
    (Batch.sequence tokens position).Fits position capacity where
  nonempty := by
    rw [size_sequence]
    exact fun h => hsome (List.eq_nil_of_length_eq_zero h)
  positions := by rw [positions_sequence, size_sequence]
  within := by rwa [size_sequence]
  wishes := by
    rw [size_sequence]
    rcases List.eq_nil_or_concat tokens with rfl | ⟨front, last, rfl⟩
    · exact absurd rfl hsome
    · rw [List.concat_eq_append, wishes_sequence, List.length_append]
      rfl

namespace Session

/-- The session with a journal of what it hands to its engine from now on. -/
def onJournal (session : Session σ) : Session (Journaled σ) :=
  session.onEngine { state := session.vocab.engine }

/-- The session without the journal of its engine. -/
def offJournal (session : Session (Journaled σ)) : Session σ :=
  session.onEngine session.vocab.engine.state

/-- The batches that the session handed to its engine. -/
def journal (session : Session (Journaled σ)) : List Batch := session.vocab.engine.batches

/-! ## Section 2: Feeding -/

/-- What feeds the context of a session. -/
inductive Feeding
  | prepareContext (prompt : String)
  | predictNext (excluding : TokenSet)
  | accept (token : TokenId)
  | feedText (text : String)
  | inject (tokens : List TokenId)

/-- What feeding returns if it succeeds. -/
inductive Feeding.Answer
  | count (n : ℕ)
  | token (token : TokenId)
  | tokens (tokens : List TokenId)
  | done
  deriving DecidableEq

/-- Feeds the context. -/
def Feeding.run (engine : Engine σ) : Feeding → SessionM σ Feeding.Answer
  | .prepareContext prompt => return .count (← Session.prepareContext engine prompt)
  | .predictNext excluding => return .token (← Session.predictNext engine excluding)
  | .accept token => return (fun _ => .done) (← Session.accept engine token)
  | .feedText text => return .tokens (← Session.feedText engine text)
  | .inject tokens => return (fun _ => .done) (← Session.inject engine tokens)

/-- The number of tokens that are about to be fed, if they can be told. -/
def Feeding.needs (engine : Engine σ) (session : Session σ) : Feeding → Option ℕ
  | .prepareContext prompt =>
    if prompt.isEmpty then none
    else (engine.tokenize prompt (session.position == 0) true
      session.vocab.engine).result.toOption.map List.length
  | .predictNext _ => some 1
  | .accept _ => some 1
  | .feedText text =>
    (engine.tokenize text false false session.vocab.engine).result.toOption.map List.length
  | .inject tokens => some tokens.length

/-- What feeding does: it hands over nothing and leaves the position; or it hands over one batch
    that fits, and the position is the end of the batch if it succeeds and stays if it fails. -/
inductive Feeds (capacity : ℕ) (before : Session (Journaled σ)) :
    EStateM.Result SessionError (Session (Journaled σ)) α → Prop
  | idle {value : α} {later : Session (Journaled σ)} (hjournal : later.journal = before.journal)
      (hposition : later.position = before.position) : Feeds capacity before (.ok value later)
  | failed {error : SessionError} {later : Session (Journaled σ)}
      (hjournal : later.journal = before.journal)
      (hposition : later.position = before.position) : Feeds capacity before (.error error later)
  | refused {error : SessionError} {later : Session (Journaled σ)} {batch : Batch}
      (hfits : batch.Fits before.position capacity)
      (hjournal : later.journal = before.journal ++ [batch])
      (hposition : later.position = before.position) : Feeds capacity before (.error error later)
  | fed {value : α} {later : Session (Journaled σ)} {batch : Batch}
      (hfits : batch.Fits before.position capacity)
      (hjournal : later.journal = before.journal ++ [batch])
      (hposition : later.position = before.position + batch.size) :
      Feeds capacity before (.ok value later)

section Feeds

variable {engine : Engine σ} {capacity : ℕ} {session before middle later : Session (Journaled σ)}
  {step other : SessionM (Journaled σ) α} {next : α → SessionM (Journaled σ) β}

/-- Nothing is handed over, the position stays, and the context holds as many tokens as before. -/
structure Waits (engine : Engine σ) (before later : Session (Journaled σ)) : Prop where
  journal : later.journal = before.journal
  position : later.position = before.position
  capacity : later.capacity (Journaled.engine engine) = before.capacity (Journaled.engine engine)

theorem Waits.trans (h : Waits engine before middle) (h' : Waits engine middle later) :
    Waits engine before later :=
  ⟨h'.journal.trans h.journal, h'.position.trans h.position, h'.capacity.trans h.capacity⟩

theorem waits_refl (session : Session (Journaled σ)) : Waits engine session session :=
  ⟨rfl, rfl, rfl⟩

/-- From the session on, the step feeds a context that holds as many tokens as it does. -/
def Feeds.At (engine : Engine σ) (step : SessionM (Journaled σ) α)
    (session : Session (Journaled σ)) : Prop :=
  Feeds (session.capacity (Journaled.engine engine)) session (step session)

theorem Feeds.of_waits {outcome : EStateM.Result SessionError (Session (Journaled σ)) α}
    (h : Waits engine before middle)
    (hfeeds : Feeds (middle.capacity (Journaled.engine engine)) middle outcome) :
    Feeds (before.capacity (Journaled.engine engine)) before outcome := by
  have hjournal := h.journal
  have hposition := h.position
  rw [h.capacity] at hfeeds
  cases hfeeds with
  | idle hj hp => exact .idle (hj.trans hjournal) (hp.trans hposition)
  | failed hj hp => exact .failed (hj.trans hjournal) (hp.trans hposition)
  | refused hfits hj hp =>
    rw [hposition] at hfits
    exact .refused hfits (hj.trans (by rw [hjournal])) (hp.trans hposition)
  | fed hfits hj hp =>
    rw [hposition] at hfits
    exact .fed hfits (hj.trans (by rw [hjournal])) (hp.trans (by rw [hposition]))

theorem feeds_bind (h : Keeps (Waits engine) step session)
    (hnext : ∀ value later, Waits engine session later → Feeds.At engine (next value) later) :
    Feeds.At engine (step >>= next) session := by
  unfold Keeps at h
  unfold Feeds.At
  cases hstep : step session with
  | ok value later =>
    rw [after_ok hstep] at h
    rw [bind_ok hstep]
    exact (hnext value later h).of_waits h
  | error error later =>
    rw [after_error hstep] at h
    rw [bind_error hstep]
    exact .failed h.journal h.position

theorem feeds_get {next : Session (Journaled σ) → SessionM (Journaled σ) β}
    (h : Feeds.At engine (next session) session) : Feeds.At engine (get >>= next) session := h

theorem feeds_ite {p : Prop} [Decidable p] (hthen : p → Feeds.At engine step session)
    (helse : ¬ p → Feeds.At engine other session) :
    Feeds.At engine (if p then step else other) session := by
  by_cases hp : p
  · rw [if_pos hp]
    exact hthen hp
  · rw [if_neg hp]
    exact helse hp

theorem feeds_pure (value : α) : Feeds.At engine (pure value) session := .idle rfl rfl

theorem feeds_throw (error : SessionError) :
    Feeds.At (α := α) engine (throw error) session := .failed rfl rfl

/-- Returning something else changes nothing. -/
theorem Feeds.At.map (h : Feeds.At engine step session) (f : α → β) :
    Feeds.At engine (step >>= fun value => pure (f value)) session := by
  unfold Feeds.At at h ⊢
  cases hstep : step session with
  | ok value later =>
    rw [bind_ok hstep]
    rw [hstep] at h
    cases h with
    | idle hjournal hposition => exact .idle hjournal hposition
    | fed hfits hjournal hposition => exact .fed hfits hjournal hposition
  | error error later =>
    rw [bind_error hstep]
    rw [hstep] at h
    cases h with
    | failed hjournal hposition => exact .failed hjournal hposition
    | refused hfits hjournal hposition => exact .refused hfits hjournal hposition

/-! ### Calls that hand over nothing -/

theorem waits_tokenize (keeps : engine.KeepsSize) (text : String) (addBos special : Bool) :
    Keeps (Waits engine)
      (onVocab (Vocabulary.tokenize (Journaled.engine engine) text addBos special)) session := by
  have hwaits : Waits engine session (session.heard
      ((Journaled.engine engine).tokenize text addBos special session.vocab.engine)) :=
    ⟨rfl, rfl, keeps.tokenize text addBos special _⟩
  unfold Keeps after
  rw [onVocab_tokenize_eq]
  cases ((Journaled.engine engine).tokenize text addBos special session.vocab.engine).result <;>
    exact hwaits

/-! ### Decoding -/

/-- **A batch** is in the journal whether it is decoded or not. -/
theorem decodeBatch_journal (batch : Batch) (session : Session (Journaled σ)) :
    (∃ error later, decodeBatch (Journaled.engine engine) batch session = .error error later
      ∧ later.journal = session.journal ++ [batch] ∧ later.position = session.position)
    ∨ (∃ later, decodeBatch (Journaled.engine engine) batch session = .ok () later
      ∧ later.journal = session.journal ++ [batch] ∧ later.position = session.position) := by
  have hstep := attempt_eq ((Journaled.engine engine).decode batch) session
  have hjournal : (session.heard
      ((Journaled.engine engine).decode batch session.vocab.engine)).journal
        = session.journal ++ [batch] := rfl
  have hposition : (session.heard
      ((Journaled.engine engine).decode batch session.vocab.engine)).position
        = session.position := rfl
  unfold decodeBatch
  rw [bind_ok hstep]
  generalize session.heard ((Journaled.engine engine).decode batch session.vocab.engine) = handed
    at hjournal hposition
  cases ((Journaled.engine engine).decode batch session.vocab.engine).result with
  | error error => exact .inl ⟨_, _, rfl, hjournal, hposition⟩
  | ok _ =>
    have hstep := attempt_eq (Journaled.engine engine).logits handed
    dsimp only
    rw [bind_ok hstep]
    cases ((Journaled.engine engine).logits handed.vocab.engine).result with
    | error error => exact .inl ⟨_, _, rfl, hjournal, hposition⟩
    | ok logits => exact .inr ⟨_, rfl, hjournal, hposition⟩

/-- A run of tokens that is decoded at the position, and counted if that succeeds. -/
theorem feeds_run {tokens : List TokenId} (hsome : tokens ≠ [])
    (hroom : session.position + tokens.length ≤ session.capacity (Journaled.engine engine))
    {count : Unit → SessionM (Journaled σ) α}
    (hcount : ∀ fed, fed.position = session.position → ∃ value later, count () fed = .ok value later
      ∧ later.journal = fed.journal ∧ later.position = session.position + tokens.length) :
    Feeds.At engine
      (decodeBatch (Journaled.engine engine) (Batch.sequence tokens session.position) >>= count)
      session := by
  have hfits := Batch.sequence_fits hsome hroom
  unfold Feeds.At
  rcases decodeBatch_journal (Batch.sequence tokens session.position) session with
    ⟨error, later, hstep, hjournal, hposition⟩ | ⟨handed, hstep, hjournal, hposition⟩
  · rw [bind_error hstep]
    exact .refused hfits hjournal hposition
  · obtain ⟨value, later, hcounted, hlater, hend⟩ := hcount handed hposition
    rw [bind_ok hstep, hcounted]
    refine .fed hfits (hlater.trans hjournal) ?_
    rw [hend, Batch.size_sequence]

/-! ### Operations -/

theorem feeds_inject (tokens : List TokenId) :
    Feeds.At engine (inject (Journaled.engine engine) tokens) session := by
  unfold inject
  refine feeds_ite (fun hsome => feeds_get ?_) (fun _ => feeds_pure _)
  refine feeds_ite (fun _ => feeds_throw _) (fun hroom => ?_)
  exact feeds_run (by simpa using hsome) (Nat.le_of_not_lt hroom) fun fed _ => ⟨_, _, rfl, rfl, rfl⟩

theorem feeds_accept (token : TokenId) :
    Feeds.At engine (accept (Journaled.engine engine) token) session := by
  unfold accept
  have hremember : Keeps (Waits engine) (modify (·.remember token) : SessionM (Journaled σ) PUnit)
      session := ⟨rfl, rfl, rfl⟩
  exact feeds_bind hremember fun _ _ _ => feeds_inject [token]

theorem feeds_feedText (keeps : engine.KeepsSize) (text : String) :
    Feeds.At engine (feedText (Journaled.engine engine) text) session := by
  unfold feedText
  refine feeds_bind (waits_tokenize keeps text false false) fun tokens _ _ => ?_
  exact (feeds_inject tokens).map fun _ => tokens

theorem feeds_prepareContext (keeps : engine.KeepsSize) (prompt : String) :
    Feeds.At engine (prepareContext (Journaled.engine engine) prompt) session := by
  unfold prepareContext
  refine feeds_ite (fun _ => feeds_throw _) (fun _ => feeds_get ?_)
  refine feeds_bind (waits_tokenize keeps prompt _ true) fun tokens found _ => ?_
  refine feeds_ite (fun _ => feeds_throw _) (fun hsome => feeds_get ?_)
  refine feeds_ite (fun _ => feeds_throw _) (fun hroom => ?_)
  have hforget : Keeps (Waits engine)
      (modify fun session => { session with recent := [] } : SessionM (Journaled σ) PUnit) found :=
    ⟨rfl, rfl, rfl⟩
  refine feeds_bind hforget fun _ fresh hfresh => ?_
  -- forgetting the recent tokens does not move the position
  rw [← hfresh.position, ← hfresh.capacity] at hroom
  rw [← hfresh.position]
  exact feeds_run (by simpa using hsome) (Nat.le_of_not_lt hroom) fun fed _ =>
    ⟨_, _, rfl, rfl, rfl⟩

theorem waits_pristine : Keeps (Waits engine) pristine session := by
  unfold pristine
  exact keeps_get (keeps_ite (fun _ => waits_refl session) (fun _ => waits_refl session))

theorem waits_drawToken (scores : List Float32) :
    Keeps (Waits engine) (drawToken scores) session := ⟨rfl, rfl, rfl⟩

theorem feeds_predictNext (excluding : TokenSet) :
    Feeds.At engine (predictNext (Journaled.engine engine) excluding) session := by
  unfold predictNext
  refine feeds_get (feeds_ite (fun _ => feeds_pure _) (fun _ => ?_))
  refine feeds_ite (fun _ => feeds_pure _) (fun hroom => ?_)
  refine feeds_bind waits_pristine fun scores primed hprimed => ?_
  refine feeds_bind (waits_drawToken _) fun drawn later hlater => ?_
  cases drawn with
  | error error => exact feeds_throw _
  | ok token =>
    have hremember : Keeps (Waits engine)
        (modify (·.remember token) : SessionM (Journaled σ) PUnit) later := ⟨rfl, rfl, rfl⟩
    refine feeds_bind hremember fun _ aware haware => feeds_get ?_
    refine feeds_ite (fun _ => .idle rfl rfl) (fun _ => ?_)
    refine feeds_ite (fun _ => feeds_pure _) (fun _ => ?_)
    -- drawing a token leaves the position alone, so the token goes behind the context
    have hsame := (hprimed.trans hlater).trans haware
    rw [← hsame.position, ← hsame.capacity] at hroom
    rw [← hsame.position]
    refine feeds_run (List.cons_ne_nil token []) (Nat.lt_of_not_le hroom) fun fed hfed => ?_
    exact ⟨_, _, rfl, rfl, congrArg (· + 1) hfed⟩

/-- **Feeding** hands over one batch that fits, or nothing. -/
theorem Feeding.run_feeds (keeps : engine.KeepsSize) (feeding : Feeding)
    (session : Session (Journaled σ)) :
    Feeds.At engine (feeding.run (Journaled.engine engine)) session := by
  cases feeding with
  | prepareContext prompt => exact (feeds_prepareContext keeps prompt).map _
  | predictNext excluding => exact (feeds_predictNext excluding).map _
  | accept token => exact (feeds_accept token).map _
  | feedText text => exact (feeds_feedText keeps text).map _
  | inject tokens => exact (feeds_inject tokens).map _

/-! ### Tokens that do not fit -/

/-- What feeding `count` tokens ends in if the context has no room for them. -/
def Feeding.refusal (engine : Engine σ) (session : Session (Journaled σ)) (count : ℕ) :
    Feeding → EStateM.Result SessionError (Session (Journaled σ)) Feeding.Answer → Prop
  | .predictNext _ => fun outcome =>
    outcome = .ok (.token (session.eos (Journaled.engine engine))) session
  | _ => fun outcome => ∃ later, outcome = .error (.contextOverflow (session.position + count)
      (session.capacity (Journaled.engine engine))) later ∧ later.journal = session.journal

theorem inject_overflows {tokens : List TokenId} (hsome : tokens ≠ [])
    (hfull : session.capacity (Journaled.engine engine) < session.position + tokens.length) :
    inject (Journaled.engine engine) tokens session
      = .error (.contextOverflow (session.position + tokens.length)
          (session.capacity (Journaled.engine engine))) session := by
  have hempty : (!tokens.isEmpty) = true := by simpa using hsome
  unfold inject
  rw [if_pos hempty, get_bind]
  dsimp only
  rw [if_pos hfull]
  rfl

/-- Tokens that were told are found, and finding them hands over nothing. -/
theorem tokenize_eq_ok (keeps : engine.KeepsSize) {text : String} {addBos special : Bool} {count : ℕ}
    (hneeds : (engine.tokenize text addBos special session.vocab.engine.state).result.toOption.map
      List.length = some count) :
    ∃ tokens later, onVocab (Vocabulary.tokenize (Journaled.engine engine) text addBos special)
        session = .ok tokens later ∧ tokens.length = count ∧ Waits engine session later := by
  have hwaits : Keeps (Waits engine) (onVocab
      (Vocabulary.tokenize (Journaled.engine engine) text addBos special)) session :=
    waits_tokenize keeps text addBos special
  have hstep := onVocab_tokenize_eq (Journaled.engine engine) text addBos special session
  rw [show ((Journaled.engine engine).tokenize text addBos special session.vocab.engine).result
    = (engine.tokenize text addBos special session.vocab.engine.state).result from rfl] at hstep
  cases hresult : (engine.tokenize text addBos special session.vocab.engine.state).result with
  | error error =>
    rw [hresult] at hneeds
    contradiction
  | ok tokens =>
    rw [hresult] at hneeds hstep
    exact ⟨tokens, _, hstep, Option.some.inj hneeds, hwaits.of_ok hstep⟩

theorem ne_nil_of_overflow {tokens : List TokenId}
    (hroom : session.position ≤ session.capacity (Journaled.engine engine))
    (hfull : session.capacity (Journaled.engine engine) < session.position + tokens.length) :
    tokens ≠ [] := by
  rintro rfl
  exact absurd hfull (Nat.not_lt.mpr hroom)

/-- **Tokens that do not fit** are refused before anything is handed over. -/
theorem run_refusal (keeps : engine.KeepsSize) (feeding : Feeding) {count : ℕ}
    (hroom : session.position ≤ session.capacity (Journaled.engine engine))
    (hneeds : feeding.needs engine session.offJournal = some count)
    (hfull : session.capacity (Journaled.engine engine) < session.position + count) :
    feeding.refusal engine session count (feeding.run (Journaled.engine engine) session) := by
  cases feeding with
  | prepareContext prompt =>
    replace hneeds : (if prompt.isEmpty then none else
        (engine.tokenize prompt (session.position == 0) true session.vocab.engine.state
          ).result.toOption.map List.length) = some count := hneeds
    have hprompt : ¬ prompt.isEmpty = true := fun hempty => by
      rw [if_pos hempty] at hneeds
      contradiction
    rw [if_neg hprompt] at hneeds
    obtain ⟨tokens, later, hfound, rfl, hwaits⟩ := tokenize_eq_ok keeps hneeds
    have hsome : ¬ tokens.isEmpty = true := by
      simpa using ne_nil_of_overflow hroom hfull
    have hrefused : prepareContext (Journaled.engine engine) prompt session
        = .error (.contextOverflow (later.position + tokens.length)
          (later.capacity (Journaled.engine engine))) later := by
      unfold prepareContext
      rw [if_neg hprompt]
      dsimp only
      rw [get_bind, bind_ok hfound, if_neg hsome, get_bind]
      rw [if_pos (by rwa [hwaits.position, hwaits.capacity])]
      rfl
    rw [hwaits.position, hwaits.capacity] at hrefused
    exact ⟨later, bind_error hrefused, hwaits.journal⟩
  | predictNext excluding =>
    cases hneeds
    have hrefused : predictNext (Journaled.engine engine) excluding session
        = .ok (session.eos (Journaled.engine engine)) session := by
      unfold predictNext
      rw [get_bind]
      by_cases hstopped : session.isStopped = true
      · rw [if_pos hstopped]
        rfl
      · rw [if_neg hstopped, if_pos (Nat.le_of_lt_succ hfull)]
        rfl
    exact bind_ok hrefused
  | accept token =>
    cases hneeds
    have hremembered : (session.remember token).capacity (Journaled.engine engine)
        < (session.remember token).position + [token].length := hfull
    have hrefused : accept (Journaled.engine engine) token session
        = .error (.contextOverflow (session.position + 1)
          (session.capacity (Journaled.engine engine))) (session.remember token) :=
      inject_overflows (List.cons_ne_nil token []) hremembered
    exact ⟨_, bind_error hrefused, rfl⟩
  | feedText text =>
    obtain ⟨tokens, later, hfound, rfl, hwaits⟩ := tokenize_eq_ok keeps hneeds
    have hsome := ne_nil_of_overflow hroom hfull
    rw [← hwaits.position, ← hwaits.capacity] at hfull
    have hrefused : feedText (Journaled.engine engine) text session
        = .error (.contextOverflow (later.position + tokens.length)
          (later.capacity (Journaled.engine engine))) later := by
      unfold feedText
      rw [bind_ok hfound]
      exact bind_error (inject_overflows hsome hfull)
    rw [hwaits.position, hwaits.capacity] at hrefused
    exact ⟨later, bind_error hrefused, hwaits.journal⟩
  | inject tokens =>
    cases hneeds
    have hrefused := inject_overflows (ne_nil_of_overflow hroom hfull) hfull
    exact ⟨session, bind_error hrefused, rfl⟩

end Feeds

/-! ## Section 3: The position stays within the context -/

section Within

variable {engine : Engine σ} {session : Session σ}

/-- The context holds as many tokens after an operation as before it. -/
theorem Operation.capacity_apply (keeps : engine.KeepsSize) (operation : Operation)
    (session : Session σ) :
    (operation.apply engine session).capacity engine = session.capacity engine := by
  have hsame : session.Alike (SameSized engine (session.capacity engine)) session :=
    ⟨⟨rfl, rfl⟩, rfl, rfl, rfl, rfl, rfl, rfl⟩
  exact (hsame.apply (keeps.coupled _) operation).vocab.2

theorem Feeds.position_le {capacity : ℕ} {before : Session (Journaled σ)}
    {step : SessionM (Journaled σ) α} (h : Feeds capacity before (step before))
    (hroom : before.position ≤ capacity) : (after step before).position ≤ capacity := by
  cases hstep : step before with
  | ok value later =>
    rw [after_ok hstep]
    rw [hstep] at h
    cases h with
    | idle _ hposition => omega
    | fed hfits _ hposition =>
      have hwithin := hfits.within
      omega
  | error error later =>
    rw [after_error hstep]
    rw [hstep] at h
    cases h with
    | failed _ hposition => omega
    | refused _ _ hposition => omega

/-- The position does not move forward. -/
def Retreats (before later : Session σ) : Prop := later.position ≤ before.position

theorem Retreats.trans {first second third : Session σ} (h : first.Retreats second)
    (h' : second.Retreats third) : first.Retreats third := Nat.le_trans h' h

theorem retreats_attempt {run : σ → Reply σ α} : Keeps Retreats (attempt run) session := by
  have hafter : after (attempt run) session = session.heard (run session.vocab.engine) :=
    after_ok (attempt_eq run session)
  unfold Keeps
  rw [hafter]
  exact Nat.le_refl session.position

theorem retreats_onVocab {ask : VocabularyM σ α} : Keeps Retreats (onVocab ask) session := by
  unfold Keeps after onVocab
  cases ask session.vocab <;> exact Nat.le_refl session.position

theorem retreats_resetContext : Keeps Retreats (resetContext engine) session := by
  unfold resetContext
  refine retreats_attempt.bind Retreats.trans fun cleared later => ?_
  cases cleared with
  | error error => exact Nat.le_refl later.position
  | ok _ => exact Nat.zero_le _

theorem retreats_observe {step : SessionM σ α} (h : Keeps Retreats step session) :
    Keeps Retreats (observe step) session := by
  unfold Keeps after observe at *
  cases hstep : step session <;> simpa only [hstep] using h

theorem retreats_embed (text : String) : Keeps Retreats (embed engine text) session := by
  unfold embed
  refine retreats_onVocab.bind Retreats.trans fun tokens later => keeps_get ?_
  refine keeps_ite (fun _ => Nat.le_refl later.position) (fun _ => ?_)
  refine retreats_attempt.bind Retreats.trans fun decoded later => ?_
  cases decoded with
  | error error => exact Nat.le_refl later.position
  | ok _ =>
    refine retreats_attempt.bind Retreats.trans fun embedding later => ?_
    rcases embedding with error | _ | ⟨first, rest⟩ <;> exact Nat.le_refl later.position

theorem retreats_extractEmbeddings (text : String) :
    Keeps Retreats (extractEmbeddings engine text) session := by
  unfold extractEmbeddings
  refine keeps_ite (fun _ => Nat.le_refl session.position) (fun _ => ?_)
  refine retreats_resetContext.bind Retreats.trans fun _ _ => ?_
  refine retreats_attempt.bind Retreats.trans fun enabled later => ?_
  cases enabled with
  | error error => exact Nat.le_refl later.position
  | ok _ =>
    refine (retreats_observe (retreats_embed text)).bind Retreats.trans fun extracted _ => ?_
    refine retreats_attempt.bind Retreats.trans fun restored _ => ?_
    refine retreats_resetContext.bind Retreats.trans fun _ later => ?_
    rcases restored with error | _
    · exact Nat.le_refl later.position
    · cases extracted <;> exact Nat.le_refl later.position

theorem retreats_sampleConstrained (allowed : TokenSet) :
    Keeps Retreats (sampleConstrained allowed) session := by
  have hpristine : Keeps Retreats pristine session := by
    unfold pristine
    exact keeps_get (keeps_ite (fun _ => Nat.le_refl session.position)
      (fun _ => Nat.le_refl session.position))
  have hdraw : ∀ scores (later : Session σ), Keeps Retreats (drawToken scores) later :=
    fun _ later => Nat.le_refl later.position
  unfold sampleConstrained
  refine keeps_get (keeps_ite (fun _ => Nat.le_refl session.position) (fun _ => ?_))
  refine keeps_ite (fun _ => Nat.le_refl session.position) (fun _ => ?_)
  refine hpristine.bind Retreats.trans fun scores later => ?_
  refine (hdraw _ later).bind Retreats.trans fun drawn later => ?_
  rcases drawn with error | token
  · cases error <;> exact Nat.le_refl later.position
  · exact Nat.le_refl later.position

theorem retreats_setStopSequence (text : Option String) :
    Keeps Retreats (setStopSequence engine text) session := by
  unfold setStopSequence
  refine keeps_ite (fun _ => Nat.le_refl session.position) (fun _ => ?_)
  exact retreats_onVocab.bind Retreats.trans fun _ later => Nat.le_refl later.position

/-- What an operation does over an engine with a journal, it does without. -/
theorem Operation.apply_offJournal (engine : Engine σ) (operation : Operation)
    (session : Session σ) :
    (operation.apply (Journaled.engine engine) session.onJournal).offJournal
      = operation.apply engine session :=
  (Journaled.extends_inner engine).apply_project operation session.onJournal

/-- **The position stays within the context.** -/
theorem Operation.position_apply (keeps : engine.KeepsSize) (operation : Operation)
    (hroom : session.position ≤ session.capacity engine) :
    (operation.apply engine session).position ≤ session.capacity engine := by
  have hfeeds : ∀ {α : Type} {step : SessionM (Journaled σ) α},
      Feeds.At engine step session.onJournal →
      (after step session.onJournal).position ≤ session.capacity engine :=
    fun h => h.position_le hroom
  have hretreats : session.Retreats (operation.apply engine session) →
      (operation.apply engine session).position ≤ session.capacity engine :=
    fun h => Nat.le_trans h hroom
  cases operation with
  | prepareContext prompt =>
    rw [← apply_offJournal]
    exact hfeeds (feeds_prepareContext keeps prompt)
  | predictNext excluding =>
    rw [← apply_offJournal]
    exact hfeeds (feeds_predictNext excluding)
  | accept token =>
    rw [← apply_offJournal]
    exact hfeeds (feeds_accept token)
  | feedText text =>
    rw [← apply_offJournal]
    exact hfeeds (feeds_feedText keeps text)
  | inject tokens =>
    rw [← apply_offJournal]
    exact hfeeds (feeds_inject tokens)
  | sampleConstrained allowed => exact hretreats (retreats_sampleConstrained allowed)
  | resetContext => exact hretreats retreats_resetContext
  | extractEmbeddings text => exact hretreats (retreats_extractEmbeddings text)
  | setStopSequence text => exact hretreats (retreats_setStopSequence text)
  | stop => exact hroom
  | rearm => exact hroom
  | beginGeneration => exact hroom
  | setParams params => exact hroom

/-- **The position stays within the context**, along any sequence of operations. -/
theorem position_applyAll (keeps : engine.KeepsSize) (operations : List Operation)
    (hroom : session.position ≤ session.capacity engine) :
    (applyAll engine operations session).position ≤ session.capacity engine
      ∧ (applyAll engine operations session).capacity engine = session.capacity engine := by
  induction operations generalizing session with
  | nil => exact ⟨hroom, rfl⟩
  | cons operation rest ih =>
    have hcapacity := operation.capacity_apply keeps session
    have hposition := operation.position_apply keeps hroom
    rw [← hcapacity] at hposition ⊢
    exact ih hposition

/-! ## Section 4: The law of feeding -/

/-- Feeding does over an engine with a journal what it does without. -/
theorem Feeding.run_offJournal (engine : Engine σ) (feeding : Feeding) (session : Session σ) :
    feeding.run engine session
      = outcome offJournal (feeding.run (Journaled.engine engine) session.onJournal) := by
  have hcoupled := (Journaled.extends_inner engine).coupled
  have hsame := Engine.Extends.alike_project Journaled.state session.onJournal
  have hcouples : Couples (Alike fun vocab vocab' => vocab' = vocab.onEngine vocab.engine.state)
      (feeding.run (Journaled.engine engine)) (feeding.run engine) session.onJournal
      (session.onJournal.onEngine session.onJournal.vocab.engine.state) := by
    cases feeding with
    | prepareContext prompt =>
      exact (couples_prepareContext hcoupled hsame prompt).bind fun _ _ _ h => couples_pure _ h
    | predictNext excluding =>
      exact (couples_predictNext hcoupled hsame excluding).bind fun _ _ _ h => couples_pure _ h
    | accept token => exact (couples_accept hcoupled hsame token).bind fun _ _ _ h => couples_pure _ h
    | feedText text =>
      exact (couples_feedText hcoupled hsame text).bind fun _ _ _ h => couples_pure _ h
    | inject tokens =>
      exact (couples_inject hcoupled hsame tokens).bind fun _ _ _ h => couples_pure _ h
  exact Engine.Extends.outcome_eq hcouples

/-- **The law of feeding.**  Over an engine with a context of constant size, after any sequence of
    operations on a new session, whatever the engine answered: the position is within the context;
    feeding hands over one batch that fits, or nothing; and tokens that do not fit are refused
    before anything is handed over. -/
theorem feeding_spec (engine : Engine σ) (keeps : engine.KeepsSize) (state : σ)
    (params : SamplingParams) (operations : List Operation) :
    let session := applyAll engine operations (Session.new state params)
    session.position ≤ engine.contextSize state
      ∧ ∀ feeding : Feeding,
        feeding.run engine session
            = outcome offJournal (feeding.run (Journaled.engine engine) session.onJournal)
          ∧ Feeds (engine.contextSize state) session.onJournal
            (feeding.run (Journaled.engine engine) session.onJournal)
          ∧ ∀ count, feeding.needs engine session = some count →
            engine.contextSize state < session.position + count →
            feeding.refusal engine session.onJournal count
              (feeding.run (Journaled.engine engine) session.onJournal) := by
  intro session
  have hnew : (Session.new state params).position ≤ (Session.new state params).capacity engine :=
    Nat.zero_le _
  obtain ⟨hposition, hcapacity⟩ := position_applyAll keeps operations hnew
  have hroom : session.position ≤ engine.contextSize state := hposition
  have hsize : session.onJournal.capacity (Journaled.engine engine) = engine.contextSize state :=
    hcapacity
  refine ⟨hroom, fun feeding => ⟨feeding.run_offJournal engine session, ?_, ?_⟩⟩
  · have hfeeds := feeding.run_feeds keeps session.onJournal
    unfold Feeds.At at hfeeds
    rwa [hsize] at hfeeds
  · intro count hneeds hfull
    rw [← hsize] at hfull hroom
    exact run_refusal keeps feeding hroom hneeds hfull

end Within

end Session

/-- The size of the context is written down with the tables. -/
theorem Tabulated.keepsSize : Tabulated.engine.KeepsSize where
  tokenize _ _ _ _ := rfl
  decode batch table := by
    show (table.decode batch).2.contextSize = table.contextSize
    unfold Tabulated.decode
    split <;> rfl
  logits _ := rfl
  clear table := by
    show table.clear.2.contextSize = table.contextSize
    unfold Tabulated.clear
    split <;> rfl
  setEmbeddings _ _ := rfl
  embeddings _ := rfl

/-- A context for three tokens that holds two refuses two more, and is handed none. -/
theorem Session.feeding_spec_narrow : Tabulated.engine.KeepsSize
    ∧ ∃ later, (Feeding.inject [0, 0]).run (Journaled.engine Tabulated.engine)
        (applyAll Tabulated.engine [.inject [0, 0]]
          (.new { pieces := [['a']], contextSize := 3 } .greedy)).onJournal
      = .error (.contextOverflow 4 3) later ∧ later.journal = [] := by
  obtain ⟨-, hfeeding⟩ := feeding_spec Tabulated.engine Tabulated.keepsSize
    { pieces := [['a']], contextSize := 3 } .greedy [.inject [0, 0]]
  exact ⟨Tabulated.keepsSize, (hfeeding (.inject [0, 0])).2.2 2 rfl (by decide)⟩

end Parley
