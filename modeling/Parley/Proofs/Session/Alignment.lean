import Mathlib.Data.List.Induction
import Parley.Engine.Tabulated
import Parley.Proofs.Session.Record
import Parley.Proofs.Token.Batch

/-! # The position of a session and the context of its engine

    A session counts the tokens that it puts into the context.  The count is the number of tokens
    there as long as nothing fails at the wrong time.  Two failures are at the wrong time:

    - the scores behind a batch cannot be had: the batch is in the context and was not counted;
    - the context cannot be emptied behind the extraction of an embedding: the text is still in the
      context and the count starts anew.

    Both are a failed call behind a decoding call of the same operation, `losesTokens`, and there
    is no third: `Session.aligned_along_iff`.
-/

namespace Parley

variable {σ α β : Type}

/-! ## Section 1: Contexts -/

/-- **Keeping the context.**  A decoding call that succeeds appends its batch and emptying the
    context empties it; a call that fails, or that is about something else, leaves the context as
    it was. -/
structure Engine.Keeps (engine : Engine σ) (context : σ → List TokenId) : Prop where
  tokenize : ∀ text addBos special state,
    context (engine.tokenize text addBos special state).state = context state
  piece : ∀ token special state, context (engine.piece token special state).state = context state
  decode : ∀ batch state, context (engine.decode batch state).state
    = if (engine.decode batch state).result.isOk then context state ++ batch.tokens
      else context state
  logits : ∀ state, context (engine.logits state).state = context state
  clear : ∀ state, context (engine.clear state).state
    = if (engine.clear state).result.isOk then [] else context state
  setEmbeddings : ∀ enabled state,
    context (engine.setEmbeddings enabled state).state = context state
  embeddings : ∀ state, context (engine.embeddings state).state = context state

/-- The position is the number of tokens in the context of the engine. -/
def Session.Aligned (context : σ → List TokenId) (session : Session σ) : Prop :=
  session.position = (context session.vocab.engine).length

/-! ### Calls that make a difference -/

namespace Engine

/-- The number of tokens that the call put into the context. -/
def Event.fed : Engine.Event → Nat
  | ⟨.decode size, true⟩ => size
  | _ => 0

/-- The call was to tell the scores or to empty the context, and failed. -/
def Event.breaks : Engine.Event → Bool
  | ⟨.logits, succeeded⟩ => !succeeded
  | ⟨.clear, succeeded⟩ => !succeeded
  | _ => false

/-- The number of tokens that some calls put into the context. -/
def fed : (calls : List Engine.Event) → Nat
  | [] => 0
  | event :: calls => event.fed + fed calls

@[simp] theorem fed_nil : fed [] = 0 := rfl

@[simp] theorem fed_cons (event : Engine.Event) (calls : List Engine.Event) :
    fed (event :: calls) = event.fed + fed calls := rfl

@[simp] theorem fed_append (calls further : List Engine.Event) :
    fed (calls ++ further) = fed calls + fed further := by
  induction calls with
  | nil => exact (Nat.zero_add _).symm
  | cons event calls ih => rw [List.cons_append, fed_cons, fed_cons, ih, Nat.add_assoc]

end Engine

/-- **The calls of an operation that lose tokens.**  Tokens went into the context, and a later call
    of the same operation for the scores, or to empty the context, failed. -/
def losesTokens : List Engine.Event → Bool
  | [] => false
  | event :: later => (event.fed != 0 && later.any (·.breaks)) || losesTokens later

theorem losesTokens_append (calls further : List Engine.Event) :
    losesTokens (calls ++ further)
      = (losesTokens calls || (Engine.fed calls != 0 && further.any (·.breaks))
        || losesTokens further) := by
  induction calls with
  | nil => rfl
  | cons event calls ih =>
    have hfed : (Engine.fed (event :: calls) != 0) = (event.fed != 0 || Engine.fed calls != 0) := by
      rw [Engine.fed_cons, Bool.eq_iff_iff]
      simp only [bne_iff_ne, Bool.or_eq_true]
      omega
    simp only [List.cons_append, losesTokens, ih, List.any_append, hfed]
    grind

theorem losesTokens_of_fed {calls : List Engine.Event} (h : Engine.fed calls = 0) :
    losesTokens calls = false := by
  induction calls with
  | nil => rfl
  | cons event calls ih =>
    rw [Engine.fed_cons] at h
    have hevent : event.fed = 0 := by omega
    have hcalls : Engine.fed calls = 0 := by omega
    simp only [losesTokens, hevent, ih hcalls]
    rfl

theorem losesTokens_of_breaks {calls : List Engine.Event} (h : calls.any (·.breaks) = false) :
    losesTokens calls = false := by
  induction calls with
  | nil => rfl
  | cons event calls ih =>
    simp only [List.any_cons, Bool.or_eq_false_iff] at h
    simp only [losesTokens, h.2, ih h.2, Bool.and_false, Bool.or_false]

/-! ## Section 2: Phases of an operation

    Between two changes of the position, a session on record makes some calls, and the context grows
    if one of them feeds. -/

namespace Session

open Step

variable {engine : Engine σ} {context : σ → List TokenId}

/-- The number of tokens in the context of the engine on record. -/
def held (context : σ → List TokenId) (session : Session (Recorded σ)) : Nat :=
  (context session.vocab.engine.state).length

theorem aligned_offRecord_iff {session : Session (Recorded σ)} :
    session.offRecord.Aligned context ↔ session.position = session.held context := Iff.rfl

/-- The session went from `before` to `later` by the calls `calls`, with the position as it was and
    the context longer by what they fed. -/
structure Leads (context : σ → List TokenId) (before later : Session (Recorded σ))
    (calls : List Engine.Event) : Prop where
  events : later.events = before.events ++ calls
  position : later.position = before.position
  grown : later.held context = before.held context + Engine.fed calls

namespace Leads

variable {before middle later : Session (Recorded σ)} {calls further : List Engine.Event}

theorem of_same (hengine : later.vocab.engine = before.vocab.engine)
    (hposition : later.position = before.position) : Leads context before later [] where
  events := by
    show later.vocab.engine.events = before.vocab.engine.events ++ []
    rw [hengine, List.append_nil]
  position := hposition
  grown := by
    unfold held
    rw [hengine, Engine.fed_nil, Nat.add_zero]

theorem trans (h : Leads context before middle calls)
    (hfurther : Leads context middle later further) :
    Leads context before later (calls ++ further) where
  events := by rw [hfurther.events, h.events, List.append_assoc]
  position := hfurther.position.trans h.position
  grown := by rw [hfurther.grown, h.grown, Engine.fed_append, Nat.add_assoc]

/-- A call that leaves the context alone. -/
theorem heard {α : Type} (call : Engine.Call) {run : σ → Reply σ α}
    (hsame : ∀ state, context (run state).state = context state)
    (hcall : ∀ succeeded, Engine.Event.fed ⟨call, succeeded⟩ = 0)
    (session : Session (Recorded σ)) :
    Leads context session (session.heard (Recorded.note call run session.vocab.engine))
      [⟨call, (run session.vocab.engine.state).result.isOk⟩] where
  events := rfl
  position := rfl
  grown := by
    rw [Engine.fed_cons, hcall]
    exact congrArg List.length (hsame _)

/-- A decoding call: what it feeds is its batch, unless it fails. -/
theorem decoded (keeps : engine.Keeps context) (batch : Batch) (session : Session (Recorded σ)) :
    Leads context session
      (session.heard ((Recorded.engine engine).decode batch session.vocab.engine))
      [⟨.decode batch.size, (engine.decode batch session.vocab.engine.state).result.isOk⟩] where
  events := rfl
  position := rfl
  grown := by
    refine (congrArg List.length (keeps.decode batch session.vocab.engine.state)).trans ?_
    cases (engine.decode batch session.vocab.engine.state).result.isOk with
    | false => rfl
    | true =>
      rw [if_pos rfl, List.length_append]
      simp [held, Engine.Event.fed, Batch.tokens, Batch.size]

end Leads

/-! ## Section 3: Steps that settle

    A step from an aligned session settles if it stays aligned exactly when its calls lose no
    tokens. -/

/-- The step leaves the position and the context as they are. -/
def Idles (context : σ → List TokenId) (step : SessionM (Recorded σ) α)
    (session : Session (Recorded σ)) : Prop :=
  ∃ calls, Leads context session (after step session) calls ∧ Engine.fed calls = 0
    ∧ calls.any (·.breaks) = false

/-- The session went from `before` to `later` by some calls, and is aligned exactly if they lose no
    tokens. -/
def Settles (context : σ → List TokenId) (before later : Session (Recorded σ)) : Prop :=
  ∃ calls, later.events = before.events ++ calls
    ∧ (later.offRecord.Aligned context ↔ losesTokens calls = false)

/-- From an aligned session, the step leaves an aligned session exactly if its calls lose no
    tokens. -/
def Settled (context : σ → List TokenId) (step : SessionM (Recorded σ) α)
    (session : Session (Recorded σ)) : Prop :=
  session.offRecord.Aligned context → Settles context session (after step session)

section Settled

variable {session before middle later : Session (Recorded σ)} {step : SessionM (Recorded σ) α}
  {next : α → SessionM (Recorded σ) β} {calls : List Engine.Event}

theorem Leads.aligned (h : Leads context before later calls)
    (hfed : Engine.fed calls = 0) (haligned : before.offRecord.Aligned context) :
    later.offRecord.Aligned context := by
  rw [aligned_offRecord_iff] at haligned ⊢
  rw [h.position, h.grown, hfed, haligned, Nat.add_zero]

theorem Leads.settles (h : Leads context before later calls)
    (hfed : Engine.fed calls = 0) (haligned : before.offRecord.Aligned context) :
    Settles context before later := by
  refine ⟨calls, h.events, ?_⟩
  exact iff_of_true (h.aligned hfed haligned) (losesTokens_of_fed hfed)

theorem Leads.trans_settles (h : Leads context before middle calls)
    (hfed : Engine.fed calls = 0) (hsettles : Settles context middle later) :
    Settles context before later := by
  obtain ⟨further, hevents, hiff⟩ := hsettles
  refine ⟨calls ++ further, by rw [hevents, h.events, List.append_assoc], ?_⟩
  rw [hiff, losesTokens_append, losesTokens_of_fed hfed, hfed]
  rfl

/-! ### Combining steps -/

theorem Idles.settled (h : Idles context step session) : Settled context step session := by
  intro haligned
  obtain ⟨calls, hleads, hfed, -⟩ := h
  exact hleads.settles hfed haligned

theorem Idles.bind (h : Idles context step session)
    (hnext : ∀ value later, later.position = session.position →
      Settled context (next value) later) :
    Settled context (step >>= next) session := by
  intro haligned
  obtain ⟨calls, hleads, hfed, -⟩ := h
  cases hstep : step session with
  | ok value later =>
    rw [after_ok hstep] at hleads
    rw [after_bind_ok hstep]
    have hlater := hnext value later hleads.position (hleads.aligned hfed haligned)
    exact hleads.trans_settles hfed hlater
  | error error later =>
    rw [after_error hstep] at hleads
    rw [after_bind_error hstep]
    exact hleads.settles hfed haligned

theorem idles_of_same (hengine : (after step session).vocab.engine = session.vocab.engine)
    (hposition : (after step session).position = session.position) :
    Idles context step session :=
  ⟨[], .of_same hengine hposition, rfl, rfl⟩

/-- Tokens are found, or not, by one call that leaves the context alone. -/
theorem idles_tokenize (keeps : engine.Keeps context) (text : String) (addBos special : Bool) :
    Idles context (onVocab (Vocabulary.tokenize (Recorded.engine engine) text addBos special))
      session := by
  have hleads := Leads.heard .tokenize (keeps.tokenize text addBos special) (fun _ => rfl)
    session
  -- the call is on record whether or not it succeeded
  suffices h : after (onVocab (Vocabulary.tokenize (Recorded.engine engine) text addBos special))
      session = session.heard
        ((Recorded.engine engine).tokenize text addBos special session.vocab.engine) by
    rw [Idles, h]
    exact ⟨_, hleads, rfl, rfl⟩
  unfold after
  rw [onVocab_tokenize_eq]
  split <;> rename_i h <;> split at h <;> cases h <;> rfl

theorem settled_ite {p : Prop} [Decidable p] {other : SessionM (Recorded σ) α}
    (hthen : p → Settled context step session) (helse : ¬ p → Settled context other session) :
    Settled context (if p then step else other) session := by
  by_cases hp : p
  · rw [if_pos hp]
    exact hthen hp
  · rw [if_neg hp]
    exact helse hp

/-- Reading the session gives the session. -/
theorem settled_get {next : Session (Recorded σ) → SessionM (Recorded σ) β}
    (h : Settled context (next session) session) : Settled context (get >>= next) session := h

theorem idles_pure (value : α) :
    Idles context (pure value : SessionM (Recorded σ) α) session := idles_of_same rfl rfl

theorem idles_throw (error : SessionError) :
    Idles context (throw error : SessionM (Recorded σ) α) session := idles_of_same rfl rfl

/-! ### Decoding -/

/-- **The one way to lose tokens while decoding.**  A batch goes in and is counted, or is refused,
    or goes in and is not counted because its scores cannot be had. -/
theorem decodeBatch_cases (keeps : engine.Keeps context) (batch : Batch)
    (session : Session (Recorded σ)) :
    (∃ error later, decodeBatch (Recorded.engine engine) batch session = .error error later
      ∧ Leads context session later [⟨.decode batch.size, false⟩])
    ∨ (∃ error later, decodeBatch (Recorded.engine engine) batch session = .error error later
      ∧ Leads context session later [⟨.decode batch.size, true⟩, ⟨.logits, false⟩])
    ∨ (∃ later, decodeBatch (Recorded.engine engine) batch session = .ok () later
      ∧ Leads context session later [⟨.decode batch.size, true⟩, ⟨.logits, true⟩]) := by
  have hdecoded := Leads.decoded keeps batch session
  have hstep := attempt_eq ((Recorded.engine engine).decode batch) session
  unfold decodeBatch
  rw [bind_ok hstep]
  rw [show ((Recorded.engine engine).decode batch session.vocab.engine).result
    = (engine.decode batch session.vocab.engine.state).result from rfl]
  -- of the session behind the call no more is needed than where the call led
  generalize session.heard ((Recorded.engine engine).decode batch session.vocab.engine) = fed
    at hdecoded
  cases hdecode : (engine.decode batch session.vocab.engine.state).result with
  | error error =>
    rw [hdecode] at hdecoded
    exact .inl ⟨_, _, rfl, hdecoded.trans (.of_same rfl rfl)⟩
  | ok _ =>
    rw [hdecode] at hdecoded
    have hscored : Leads context fed
        (fed.heard ((Recorded.engine engine).logits fed.vocab.engine)) _ :=
      .heard .logits keeps.logits (fun _ => rfl) fed
    have hstep := attempt_eq (Recorded.engine engine).logits fed
    dsimp only
    rw [bind_ok hstep]
    rw [show ((Recorded.engine engine).logits fed.vocab.engine).result
      = (engine.logits fed.vocab.engine.state).result from rfl]
    generalize fed.heard ((Recorded.engine engine).logits fed.vocab.engine) = scored at hscored
    cases hlogits : (engine.logits fed.vocab.engine.state).result with
    | error error =>
      rw [hlogits] at hscored
      exact .inr (.inl ⟨_, _, rfl, hdecoded.trans (hscored.trans (.of_same rfl rfl))⟩)
    | ok logits =>
      rw [hlogits] at hscored
      exact .inr (.inr ⟨_, rfl, hdecoded.trans (hscored.trans (.of_same rfl rfl))⟩)

/-- A run of tokens that is decoded behind the context, and counted if that succeeds. -/
theorem settled_feed (keeps : engine.Keeps context) {tokens : List TokenId} (hsome : tokens ≠ [])
    {count : Unit → SessionM (Recorded σ) α}
    (hcount : ∀ fed, fed.position = session.position →
      (after (count ()) fed).vocab.engine = fed.vocab.engine
        ∧ (after (count ()) fed).position = session.position + tokens.length) :
    Settled context
      (decodeBatch (Recorded.engine engine) (Batch.sequence tokens session.position) >>= count)
      session := by
  intro haligned
  have hsize := Batch.size_sequence tokens session.position
  have hlength : tokens.length ≠ 0 := fun h => hsome (List.eq_nil_of_length_eq_zero h)
  rcases decodeBatch_cases keeps (Batch.sequence tokens session.position) session with
    ⟨error, later, hstep, hleads⟩ | ⟨error, later, hstep, hleads⟩ | ⟨later, hstep, hleads⟩
  · -- a refused batch is not in the context
    rw [after_bind_error hstep]
    exact hleads.settles rfl haligned
  · -- the tokens are in the context and the position does not know
    rw [after_bind_error hstep]
    refine ⟨_, hleads.events, iff_of_false ?_ ?_⟩
    · have hgrown : later.held context = session.held context + (tokens.length + 0) :=
        hsize ▸ hleads.grown
      rw [aligned_offRecord_iff] at haligned ⊢
      rw [hleads.position]
      omega
    · rw [hsize]
      simp [losesTokens, Engine.Event.fed, Engine.Event.breaks, hlength]
  · -- context and position grow by as much
    rw [after_bind_ok hstep]
    obtain ⟨hengine, hposition⟩ := hcount later hleads.position
    refine ⟨_, (congrArg Recorded.events hengine).trans hleads.events, iff_of_true ?_ ?_⟩
    · have hgrown : later.held context = session.held context + (tokens.length + 0) :=
        hsize ▸ hleads.grown
      have hsame : (after (count ()) later).held context = later.held context := by
        unfold held
        rw [hengine]
      rw [aligned_offRecord_iff] at haligned ⊢
      omega
    · exact losesTokens_of_breaks rfl

/-! ## Section 4: Operations -/

theorem settled_inject (keeps : engine.Keeps context) (tokens : List TokenId) :
    Settled context (inject (Recorded.engine engine) tokens) session := by
  unfold inject
  refine settled_ite (fun hsome => ?_) (fun _ => (idles_pure ()).settled)
  refine settled_ite (fun _ => (idles_of_same rfl rfl).settled) (fun _ => ?_)
  exact settled_feed keeps (by simpa using hsome) fun fed _ => ⟨rfl, rfl⟩

theorem settled_accept (keeps : engine.Keeps context) (token : TokenId) :
    Settled context (accept (Recorded.engine engine) token) session := by
  unfold accept
  exact (idles_of_same rfl rfl).bind fun _ _ _ => settled_inject keeps [token]

theorem settled_feedText (keeps : engine.Keeps context) (text : String) :
    Settled context (feedText (Recorded.engine engine) text) session := by
  unfold feedText
  refine (idles_tokenize keeps text false false).bind fun tokens later _ => ?_
  have h : Settled context (inject (Recorded.engine engine) tokens) later :=
    settled_inject keeps tokens
  unfold Settled at h ⊢
  rwa [after_bind_pure]

theorem settled_prepareContext (keeps : engine.Keeps context) (prompt : String) :
    Settled context (prepareContext (Recorded.engine engine) prompt) session := by
  unfold prepareContext
  refine settled_ite (fun _ => (idles_of_same rfl rfl).settled) (fun _ => settled_get ?_)
  refine (idles_tokenize keeps prompt _ true).bind fun tokens later _ => ?_
  refine settled_ite (fun _ => (idles_of_same rfl rfl).settled) (fun hsome => settled_get ?_)
  refine settled_ite (fun _ => (idles_of_same rfl rfl).settled) (fun _ => ?_)
  refine (idles_of_same rfl rfl).bind fun _ fresh hfresh => ?_
  -- forgetting the recent tokens does not move the position
  rw [← hfresh]
  exact settled_feed keeps (by simpa using hsome) fun fed _ => ⟨rfl, rfl⟩

theorem idles_pristine : Idles context pristine session := by
  have h : after pristine session = session := by
    unfold pristine
    show after (ite (session.logits.isEmpty = true) _ _) session = session
    by_cases hempty : session.logits.isEmpty = true
    · rw [if_pos hempty]
      rfl
    · rw [if_neg hempty]
      rfl
  rw [Idles, h]
  exact ⟨[], .of_same rfl rfl, rfl, rfl⟩

theorem settled_predictNext (keeps : engine.Keeps context) (excluding : TokenSet) :
    Settled context (predictNext (Recorded.engine engine) excluding) session := by
  unfold predictNext
  refine settled_get (settled_ite (fun _ => (idles_pure _).settled) (fun _ => ?_))
  refine settled_ite (fun _ => (idles_pure _).settled) (fun _ => ?_)
  refine idles_pristine.bind fun scores primed hprimed => ?_
  refine (idles_of_same rfl rfl).bind fun drawn later hlater => ?_
  cases drawn with
  | error error => exact (idles_throw _).settled
  | ok token =>
    refine (idles_of_same rfl rfl).bind fun _ aware haware => settled_get ?_
    refine settled_ite (fun _ => (idles_of_same rfl rfl).settled) (fun _ => ?_)
    refine settled_ite (fun _ => (idles_pure _).settled) (fun _ => ?_)
    -- drawing a token leaves the position alone, so the token goes behind the context
    rw [← hprimed, ← hlater, ← haware]
    refine settled_feed keeps (List.cons_ne_nil token []) fun fed hfed => ⟨rfl, ?_⟩
    rw [← hfed]
    rfl

theorem settled_sampleConstrained (allowed : TokenSet) :
    Settled context (sampleConstrained allowed) session := by
  unfold sampleConstrained
  refine settled_get (settled_ite (fun _ => (idles_of_same rfl rfl).settled) (fun _ => ?_))
  refine settled_ite (fun _ => (idles_pure _).settled) (fun _ => ?_)
  refine idles_pristine.bind fun scores primed _ => ?_
  refine (idles_of_same rfl rfl).bind fun drawn later _ => ?_
  rcases drawn with error | token
  · cases error <;> exact (idles_of_same rfl rfl).settled
  · exact (idles_pure _).settled

theorem settled_setStopSequence (keeps : engine.Keeps context) (text : Option String) :
    Settled context (setStopSequence (Recorded.engine engine) text) session := by
  unfold setStopSequence
  refine settled_ite (fun _ => (idles_of_same rfl rfl).settled) (fun _ => ?_)
  exact (idles_tokenize keeps _ false true).bind fun _ _ _ => (idles_of_same rfl rfl).settled

/-! ### Emptying the context -/

/-- The context is empty and the position 0, or nothing changed. -/
theorem resetContext_cases (keeps : engine.Keeps context) (session : Session (Recorded σ)) :
    (∃ error later, resetContext (Recorded.engine engine) session = .error error later
      ∧ Leads context session later [⟨.clear, false⟩])
    ∨ (∃ later, resetContext (Recorded.engine engine) session = .ok () later
      ∧ later.events = session.events ++ [⟨.clear, true⟩]
      ∧ later.position = 0 ∧ later.held context = 0) := by
  have hstep := attempt_eq (Recorded.engine engine).clear session
  have hclear := keeps.clear session.vocab.engine.state
  have hevents : (session.heard ((Recorded.engine engine).clear session.vocab.engine)).events
      = session.events ++ [⟨.clear, (engine.clear session.vocab.engine.state).result.isOk⟩] := rfl
  have hheld : (session.heard ((Recorded.engine engine).clear session.vocab.engine)).held context
      = (context (engine.clear session.vocab.engine.state).state).length := rfl
  have hposition : (session.heard ((Recorded.engine engine).clear session.vocab.engine)).position
      = session.position := rfl
  unfold resetContext
  rw [bind_ok hstep]
  rw [show ((Recorded.engine engine).clear session.vocab.engine).result
    = (engine.clear session.vocab.engine.state).result from rfl]
  generalize session.heard ((Recorded.engine engine).clear session.vocab.engine) = cleared
    at hevents hheld hposition
  cases hresult : (engine.clear session.vocab.engine.state).result with
  | error error =>
    rw [hresult] at hevents hclear
    refine .inl ⟨_, cleared, rfl, hevents, hposition, ?_⟩
    rw [hheld, hclear]
    rfl
  | ok _ =>
    rw [hresult] at hevents hclear
    refine .inr ⟨_, rfl, hevents, rfl, ?_⟩
    exact hheld.trans (congrArg List.length hclear)

theorem settled_resetContext (keeps : engine.Keeps context) :
    Settled context (resetContext (Recorded.engine engine)) session := by
  intro haligned
  rcases resetContext_cases keeps session with
    ⟨error, later, hstep, hleads⟩ | ⟨later, hstep, hevents, hposition, hheld⟩
  · rw [after_error hstep]
    exact hleads.settles rfl haligned
  · rw [after_ok hstep]
    refine ⟨_, hevents, iff_of_true ?_ rfl⟩
    rw [aligned_offRecord_iff, hposition, hheld]

/-! ### Embeddings -/

/-- The step leaves the position as it is, and what it feeds stays in the context: it does not ask
    for the scores and does not empty the context. -/
def Soaks (context : σ → List TokenId) (step : SessionM (Recorded σ) α)
    (session : Session (Recorded σ)) : Prop :=
  ∃ calls, Leads context session (after step session) calls ∧ calls.any (·.breaks) = false

theorem Idles.soaks (h : Idles context step session) : Soaks context step session := by
  obtain ⟨calls, hleads, -, hbreaks⟩ := h
  exact ⟨calls, hleads, hbreaks⟩

theorem Soaks.bind (h : Soaks context step session)
    (hnext : ∀ value later, Soaks context (next value) later) :
    Soaks context (step >>= next) session := by
  obtain ⟨calls, hleads, hbreaks⟩ := h
  cases hstep : step session with
  | ok value later =>
    obtain ⟨further, hfurther, hothers⟩ := hnext value later
    rw [after_ok hstep] at hleads
    refine ⟨calls ++ further, ?_, by rw [List.any_append, hbreaks, hothers]; rfl⟩
    rw [after_bind_ok hstep]
    exact hleads.trans hfurther
  | error error later =>
    rw [after_error hstep] at hleads
    refine ⟨calls, ?_, hbreaks⟩
    rwa [after_bind_error hstep]

theorem soaks_attempt {run : Recorded σ → Reply (Recorded σ) α} {event : Engine.Event}
    (h : Leads context session (session.heard (run session.vocab.engine)) [event])
    (hevent : event.breaks = false) : Soaks context (attempt run) session := by
  refine ⟨[event], ?_, by rw [List.any_cons, hevent]; rfl⟩
  rwa [after_ok (attempt_eq run session)]

theorem soaks_ite {p : Prop} [Decidable p] {other : SessionM (Recorded σ) α}
    (hthen : p → Soaks context step session) (helse : ¬ p → Soaks context other session) :
    Soaks context (if p then step else other) session := by
  by_cases hp : p
  · rw [if_pos hp]
    exact hthen hp
  · rw [if_neg hp]
    exact helse hp

theorem soaks_embed (keeps : engine.Keeps context) (text : String) :
    Soaks context (embed (Recorded.engine engine) text) session := by
  unfold embed
  refine (idles_tokenize keeps text true false).soaks.bind fun tokens later => ?_
  refine (idles_of_same rfl rfl).soaks.bind fun current _ => ?_
  refine soaks_ite (fun _ => (idles_of_same rfl rfl).soaks) (fun _ => ?_)
  refine (soaks_attempt (.decoded keeps _ _) rfl).bind fun decoded fed => ?_
  cases decoded with
  | error error => exact (idles_throw _).soaks
  | ok _ =>
    refine (soaks_attempt (.heard .embeddings keeps.embeddings (fun _ => rfl) _) rfl).bind
      fun found _ => ?_
    rcases found with error | _ | ⟨first, rest⟩ <;> exact (idles_of_same rfl rfl).soaks

/-- **The one way to lose tokens while embedding.**  Between an emptied context and the next attempt
    to empty it, tokens may go in; they are lost if the attempt fails. -/
theorem settles_resetContext (keeps : engine.Keeps context)
    {finish : Unit → SessionM (Recorded σ) α}
    (hempty : middle.position = 0 ∧ middle.held context = 0)
    (hleads : Leads context middle later calls) (hbreaks : calls.any (·.breaks) = false)
    (hfinish : ∀ last, after (finish ()) last = last) :
    Settles context middle (after (resetContext (Recorded.engine engine) >>= finish) later) := by
  rcases resetContext_cases keeps later with
    ⟨error, last, hstep, hlast⟩ | ⟨last, hstep, hevents, hposition, hheld⟩
  · -- the position is 0 already, and the context holds what was fed
    rw [after_bind_error hstep]
    have hall := hleads.trans hlast
    refine ⟨_, hall.events, ?_⟩
    rw [aligned_offRecord_iff, hall.position, hall.grown, hempty.1, hempty.2, losesTokens_append,
      losesTokens_of_breaks hbreaks]
    simp only [Engine.fed_append, Engine.fed_cons, losesTokens, Engine.Event.fed,
      Engine.Event.breaks, Bool.not_false, List.any_cons, Bool.and_true, Bool.false_or,
      List.any_nil, Bool.and_false, Bool.or_false, bne_eq_false_iff_eq]
    exact ⟨fun h => by simpa using h.symm, fun h => by simpa using h.symm⟩
  · -- an emptied context has lost nothing, whatever was fed before
    rw [after_bind_ok hstep, hfinish]
    refine ⟨calls ++ [⟨.clear, true⟩], by rw [hevents, hleads.events, List.append_assoc], ?_⟩
    refine iff_of_true ?_ (losesTokens_of_breaks ?_)
    · rw [aligned_offRecord_iff, hposition, hheld]
    · rw [List.any_append, hbreaks]
      rfl

theorem settled_extractEmbeddings (keeps : engine.Keeps context) (text : String) :
    Settled context (extractEmbeddings (Recorded.engine engine) text) session := by
  unfold extractEmbeddings
  refine settled_ite (fun _ => (idles_of_same rfl rfl).settled) (fun _ haligned => ?_)
  rcases resetContext_cases keeps session with
    ⟨error, later, hstep, hleads⟩ | ⟨empty, hstep, hevents, hposition, hheld⟩
  · rw [after_bind_error hstep]
    exact hleads.settles rfl haligned
  rw [after_bind_ok hstep, after_bind_ok (attempt_eq _ empty)]
  have henabled : Leads context empty
      (empty.heard ((Recorded.engine engine).setEmbeddings true empty.vocab.engine)) _ :=
    .heard (.setEmbeddings true) (keeps.setEmbeddings true) (fun _ => rfl) empty
  -- from the emptied context on; what comes before it is one successful call
  suffices h : Settles context empty _ by
    obtain ⟨calls, hcalls, hiff⟩ := h
    refine ⟨⟨.clear, true⟩ :: calls, ?_, hiff⟩
    rw [hcalls, hevents, List.append_assoc]
    rfl
  cases ((Recorded.engine engine).setEmbeddings true empty.vocab.engine).result with
  | error error =>
    -- nothing was fed yet
    exact henabled.settles rfl (hposition.trans hheld.symm)
  | ok _ =>
    dsimp only
    obtain ⟨calls, hsoaked, hbreaks⟩ : Soaks context (embed (Recorded.engine engine) text)
        (empty.heard ((Recorded.engine engine).setEmbeddings true empty.vocab.engine)) :=
      soaks_embed keeps text
    rw [after_bind_ok (observe_eq _ _), after_bind_ok (attempt_eq _ _)]
    have hrestored := (henabled.trans hsoaked).trans
      (.heard (.setEmbeddings false) (keeps.setEmbeddings false) (fun _ => rfl) _)
    refine settles_resetContext keeps ⟨hposition, hheld⟩ hrestored ?_ fun last => ?_
    · rw [List.any_append, List.any_append, hbreaks]
      rfl
    · split <;> rfl

theorem Operation.settles (keeps : engine.Keeps context) (operation : Operation)
    (haligned : session.offRecord.Aligned context) :
    Settles context session (operation.apply (Recorded.engine engine) session) := by
  cases operation with
  | prepareContext prompt => exact settled_prepareContext keeps prompt haligned
  | predictNext excluding => exact settled_predictNext keeps excluding haligned
  | sampleConstrained allowed => exact settled_sampleConstrained allowed haligned
  | accept token => exact settled_accept keeps token haligned
  | feedText text => exact settled_feedText keeps text haligned
  | inject tokens => exact settled_inject keeps tokens haligned
  | resetContext => exact settled_resetContext keeps haligned
  | extractEmbeddings text => exact settled_extractEmbeddings keeps text haligned
  | setStopSequence text => exact settled_setStopSequence keeps text haligned
  | stop => exact (Leads.of_same rfl rfl).settles rfl haligned
  | rearm => exact (Leads.of_same rfl rfl).settles rfl haligned
  | beginGeneration => exact (Leads.of_same rfl rfl).settles rfl haligned
  | setParams params => exact (Leads.of_same rfl rfl).settles rfl haligned

end Settled

/-! ## Section 5: Alignment along a session -/

/-- **When an operation keeps the alignment.**  It does, whether it fails or not, exactly if its
    calls lose no tokens. -/
theorem aligned_apply_iff (keeps : engine.Keeps context) {session : Session σ}
    (haligned : session.Aligned context) (operation : Operation) :
    (operation.apply engine session).Aligned context
      ↔ losesTokens (operation.calls engine session) = false := by
  obtain ⟨calls, hevents, hiff⟩ : Settles context session.onRecord _ :=
    Operation.settles keeps operation haligned
  rw [Operation.apply_offRecord, offRecord_onRecord] at hiff
  rw [events_onRecord, List.nil_append] at hevents
  rw [hiff, Operation.calls, hevents]

theorem applyAll_concat (done : List Operation) (operation : Operation) (session : Session σ) :
    applyAll engine (done ++ [operation]) session
      = operation.apply engine (applyAll engine done session) := by
  unfold applyAll
  rw [List.foldl_append]
  rfl

/-- **When a session stays aligned.**  A session that begins aligned is aligned after every one of
    its operations, be they in any order and fail where they may, exactly if none of them loses
    tokens. -/
theorem aligned_along_iff (keeps : engine.Keeps context) {session : Session σ}
    (haligned : session.Aligned context) (operations : List Operation) :
    (∀ done, done <+: operations → (applyAll engine done session).Aligned context)
      ↔ ∀ done operation, done ++ [operation] <+: operations →
        losesTokens (operation.calls engine (applyAll engine done session)) = false := by
  constructor
  · intro halong done operation hpre
    have hbefore := halong done ((List.prefix_append done [operation]).trans hpre)
    have hafter := halong (done ++ [operation]) hpre
    rw [applyAll_concat] at hafter
    exact (aligned_apply_iff keeps hbefore operation).mp hafter
  · intro hnone done
    -- from the first operation on
    induction done using List.reverseRecOn with
    | nil => exact fun _ => haligned
    | append_singleton done operation ih =>
      intro hpre
      have hbefore := ih ((List.prefix_append done [operation]).trans hpre)
      rw [applyAll_concat]
      exact (aligned_apply_iff keeps hbefore operation).mpr (hnone done operation hpre)

end Session

/-! ### An engine from a table -/

theorem Tabulated.keeps : Tabulated.engine.Keeps Tabulated.context where
  tokenize _ _ _ _ := rfl
  piece _ _ _ := rfl
  decode batch table := by
    show (table.decode batch).2.context
      = if (table.decode batch).1.isOk then table.context ++ batch.tokens else table.context
    unfold Tabulated.decode
    split <;> rfl
  logits _ := rfl
  clear table := by
    show table.clear.2.context = if table.clear.1.isOk then [] else table.context
    unfold Tabulated.clear
    split <;> rfl
  setEmbeddings _ _ := rfl
  embeddings _ := rfl

namespace Session

/-- An engine that gives scores behind its first batch and no more. -/
def scoredOnce : Tabulated where
  pieces := [['a'], ['b']]
  failures := { logitsAfter := some 1 }

theorem aligned_along_scoredOnce :
    Tabulated.engine.Keeps Tabulated.context
      ∧ (Session.new scoredOnce .greedy).Aligned Tabulated.context
      ∧ ∀ done, done <+: [.inject [0, 1], .resetContext] →
        (applyAll Tabulated.engine done (Session.new scoredOnce .greedy)).Aligned
          Tabulated.context := by
  have hnew : (Session.new scoredOnce .greedy).Aligned Tabulated.context := rfl
  refine ⟨Tabulated.keeps, hnew, (aligned_along_iff Tabulated.keeps hnew _).mpr ?_⟩
  intro done operation hpre
  rcases done with _ | ⟨first, _ | ⟨second, done⟩⟩
  · simp only [List.nil_append, List.cons_prefix_cons] at hpre
    rw [hpre.1]
    rfl
  · simp only [List.singleton_append, List.cons_prefix_cons] at hpre
    rw [hpre.1, hpre.2.1]
    rfl
  · have hlength := hpre.length_le
    simp at hlength

/-- **A batch without scores.**  The second batch is in the context, its scores cannot be had, and
    the position stays that of the first: the operation failed and the alignment is lost. -/
theorem not_aligned_of_unscored :
    let session := applyAll Tabulated.engine [.inject [0]] (Session.new scoredOnce .greedy)
    session.Aligned Tabulated.context
      ∧ ¬ (Operation.apply Tabulated.engine (.inject [1]) session).Aligned Tabulated.context := by
  refine ⟨rfl, fun h => ?_⟩
  exact absurd (show 1 = 2 from h) (by decide)

/-- An engine that does not empty a context that holds tokens. -/
def clinging : Engine Tabulated :=
  { Tabulated.engine with
    clear := fun table =>
      ⟨if table.context.isEmpty then .ok () else .error (.inference "not empty"), table, false⟩ }

/-- **A text that stays.**  The text whose embedding was taken is still in the context, and the
    position is 0: a failure of the second of two calls to empty the context. -/
theorem not_aligned_of_uncleared :
    clinging.Keeps Tabulated.context
      ∧ (Session.new scoredOnce .greedy).Aligned Tabulated.context
      ∧ ¬ (Operation.apply clinging (.extractEmbeddings "b")
        (Session.new scoredOnce .greedy)).Aligned Tabulated.context := by
  refine ⟨{ Tabulated.keeps with clear := fun table => ?_ }, rfl, fun h => ?_⟩
  · show table.context = _
    cases hcontext : table.context <;> simp [clinging, hcontext, Except.isOk, Except.toBool]
  · exact absurd (show 0 = 2 from h) (by decide)

end Session

end Parley
