import Parley.Proofs.Session.Masking
import Parley.Proofs.Stream.Moments

/-! # The stop sequence

    A session keeps the tokens that it sampled last, in one window for the repetition penalty and
    for the stop sequence.  However short the penalty reaches, the window has room for the stop
    sequence, so it tells over runs of any length whether the stop sequence was completed.

    A prediction samples one token at most: `Session.sample?`.  What it does with the sample is said
    once, by `Session.Predicts`; that the window holds the newest samples, and that all of them were
    decoded, is derived from it, for one prediction and for a run of them: `Session.Recalls`.  The
    main statement is `Session.stop_sequence_ends_run`. -/

namespace Parley

open Step

variable {σ : Type}

/-! ## Section 1: The window -/

/-- The newest `size` of `tokens`, the newest first. -/
def newest (size : Nat) (tokens : List TokenId) : List TokenId := tokens.reverse.take size

theorem newest_concat (size : Nat) (tokens : List TokenId) (token : TokenId) :
    (token :: newest size tokens).take size = newest size (tokens ++ [token]) := by
  unfold newest
  cases size with
  | zero => simp
  | succ size => simp [List.take_take]

/-- A window shows what a smaller one shows. -/
theorem take_newest {size count : Nat} (h : count ≤ size) (tokens : List TokenId) :
    (newest size tokens).take count = newest count tokens := by
  unfold newest
  rw [List.take_take, Nat.min_eq_left h]

theorem reverse_newest (count : Nat) (tokens : List TokenId) :
    (newest count tokens).reverse = tokens.drop (tokens.length - count) := by
  unfold newest
  rw [List.take_reverse, List.reverse_reverse]

namespace Session

/-- The window has room for the stop sequence, be the penalty switched off or not. -/
theorem length_stopSequence_le_window (session : Session σ) :
    session.stopSequence.length ≤ session.window := by
  unfold window
  omega

/-- **The window is wide enough**: it tells whether the tokens sampled so far end with the stop
    sequence. -/
theorem stopSequenceMatched_iff {session : Session σ} {tokens : List TokenId}
    (hsome : session.stopSequence ≠ []) (hrecent : session.recent = newest session.window tokens) :
    session.stopSequenceMatched = true ↔ session.stopSequence <:+ tokens := by
  have hshown : (session.recent.take session.stopSequence.length).reverse
      = tokens.drop (tokens.length - session.stopSequence.length) := by
    rw [hrecent, take_newest session.length_stopSequence_le_window, reverse_newest]
  unfold stopSequenceMatched
  rw [hshown, List.suffix_iff_eq_drop, List.isEmpty_eq_false_iff.mpr hsome]
  rw [Bool.not_false, Bool.true_and, beq_iff_eq]
  exact eq_comm

/-! ## Section 2: Samples -/

/-- A token that was sampled, and whether it was the end of the sequence. -/
structure Sample where
  token : TokenId
  ends : Bool
  deriving DecidableEq, Repr

/-- What a prediction samples.  It is nothing if the session is stopped, the context is full, or
    there is no token to draw. -/
def sample? (engine : Engine σ) (excluding : TokenSet) (session : Session σ) : Option Sample :=
  if session.isStopped then none
  else if session.capacity engine ≤ session.position then none
  else
    match (session.sampler.sample (maskOut excluding session.logits) session.penalized).1 with
    | .ok index => some ⟨Int32.ofNat index, Int32.ofNat index = session.eos engine⟩
    | .error _ => none

/-- The session that sampled `token` and noted it. -/
def noting (excluding : TokenSet) (token : TokenId) (session : Session σ) : Session σ :=
  remember { session with
    sampler := (session.sampler.sample (maskOut excluding session.logits) session.penalized).2 }
    token

/-- **What a prediction can do** with what it samples. -/
inductive Predicts (engine : Engine σ) (excluding : TokenSet) (session : Session σ) :
    Option Sample → EStateM.Result SessionError (Session σ) TokenId → Prop
  /-- The session is stopped, or the context is full. -/
  | idle : Predicts engine excluding session none (.ok (session.eos engine) session)
  /-- There is no token to draw. -/
  | undrawn {error : SessionError} {sampler : Sampler} :
    Predicts engine excluding session none (.error error { session with sampler })
  /-- The sample completes the stop sequence. -/
  | completes {sample : Sample}
    (hmatched : (session.noting excluding sample.token).stopSequenceMatched = true) :
    Predicts engine excluding session (some sample)
      (.ok (session.eos engine) (session.noting excluding sample.token).stop)
  /-- The sample is the end of the sequence. -/
  | ends {sample : Sample}
    (hmatched : (session.noting excluding sample.token).stopSequenceMatched = false)
    (hends : sample.ends = true) (heos : sample.token = session.eos engine) :
    Predicts engine excluding session (some sample)
      (.ok (session.eos engine) (session.noting excluding sample.token))
  /-- The sample is decoded. -/
  | decodes {sample : Sample}
    (hmatched : (session.noting excluding sample.token).stopSequenceMatched = false)
    (hends : sample.ends = false) :
    Predicts engine excluding session (some sample)
      ((decodeNext engine sample.token >>= fun _ => pure sample.token)
        (session.noting excluding sample.token))

theorem predicts (engine : Engine σ) (excluding : TokenSet) (session : Session σ) :
    Predicts engine excluding session (session.sample? engine excluding)
      (predictNext engine excluding session) := by
  unfold predictNext sample?
  rw [get_bind]
  by_cases hstopped : session.isStopped = true
  · rw [if_pos hstopped, if_pos hstopped]
    exact .idle
  by_cases hfull : session.capacity engine ≤ session.position
  · rw [if_neg hstopped, if_neg hstopped, if_pos hfull, if_pos hfull]
    exact .idle
  rw [if_neg hstopped, if_neg hstopped, if_neg hfull, if_neg hfull]
  by_cases hempty : session.logits = []
  · -- there are no scores, so there is nothing to draw from
    have hpristine : pristine session
        = .error (.engine (.inference "no logits available, context not primed")) session := by
      unfold pristine
      rw [get_bind, hempty]
      rfl
    rw [bind_error hpristine, hempty]
    exact .undrawn
  rw [bind_ok (pristine_of_primed hempty), bind_ok (drawToken_eq _ session)]
  cases hdraw : (session.sampler.sample (maskOut excluding session.logits) session.penalized).1 with
  | error error => exact .undrawn
  | ok index =>
    have hnoted : (modify (·.remember (Int32.ofNat index)) : SessionM σ Unit) { session with
        sampler := (session.sampler.sample (maskOut excluding session.logits)
          session.penalized).2 } = .ok () (session.noting excluding (Int32.ofNat index)) := rfl
    dsimp only [Except.map]
    rw [bind_ok hnoted, get_bind]
    cases hmatched : (session.noting excluding (Int32.ofNat index)).stopSequenceMatched with
    | true => exact .completes hmatched
    | false =>
      by_cases hends : Int32.ofNat index = session.eos engine
      · rw [if_neg Bool.false_ne_true, if_pos hends]
        exact .ends hmatched (decide_eq_true hends) hends
      · rw [if_neg Bool.false_ne_true, if_neg hends]
        have hdecodes : Predicts engine excluding session
            (some ⟨Int32.ofNat index, Int32.ofNat index = session.eos engine⟩) _ :=
          .decodes hmatched (decide_eq_false hends)
        unfold decodeNext at hdecodes
        rw [bind_assoc, get_bind, bind_assoc] at hdecodes
        exact hdecodes

/-! ## Section 3: Runs of predictions -/

/-- The engine decodes the batch and scores what may follow it, and nobody asks for a stop. -/
structure Serves (engine : Engine σ) (batch : Batch) (state : σ) : Prop where
  decoded : (engine.decode batch state).result = .ok ()
  decodedOn : (engine.decode batch state).stop = false
  scored : ∃ logits, (engine.logits (engine.decode batch state).state).result = .ok logits
  scoredOn : (engine.logits (engine.decode batch state).state).stop = false

/-- The session that a prediction leaves behind. -/
def predicted (engine : Engine σ) (excluding : TokenSet) (session : Session (Journaled σ)) :
    Session (Journaled σ) :=
  after (predictNext (Journaled.engine engine) excluding) session

/-- No call to the engine fails in the course of the prediction, and nobody asks for a stop. -/
def Undisturbed (engine : Engine σ) (excluding : TokenSet) (session : Session (Journaled σ)) :
    Prop :=
  ∀ batch, (session.predicted engine excluding).journal = session.journal ++ [batch] →
    Serves engine batch session.vocab.engine.state

/-- A run of predictions, with the samples that were drawn, the oldest first. -/
inductive Run (engine : Engine σ) (first : Session (Journaled σ)) :
    List Sample → Session (Journaled σ) → Prop
  | start : Run engine first [] first
  | predict {samples : List Sample} {session : Session (Journaled σ)}
    (h : Run engine first samples session) (excluding : TokenSet)
    (hcalm : session.Undisturbed engine excluding) :
    Run engine first
      (samples ++ (session.sample? (Journaled.engine engine) excluding).toList)
      (session.predicted engine excluding)

/-- The batches that decode the samples one after the other, from `position` on; the end of the
    sequence is not decoded. -/
def decodings (position : Nat) (samples : List Sample) : List Batch :=
  (samples.filter (!·.ends)).mapIdx fun index sample => Batch.single sample.token (position + index)

theorem decodings_concat_of_ends {sample : Sample} (hends : sample.ends = true) (position : Nat)
    (samples : List Sample) :
    decodings position (samples ++ [sample]) = decodings position samples := by
  unfold decodings
  simp [hends]

theorem decodings_concat {sample : Sample} (hends : sample.ends = false) (position : Nat)
    (samples : List Sample) :
    decodings position (samples ++ [sample]) = decodings position samples
      ++ [Batch.single sample.token (position + (decodings position samples).length)] := by
  unfold decodings
  simp [hends, List.mapIdx_append]

/-- **What a session recalls** of the samples since `first`: the window shows the newest of them,
    and as long as nobody stopped it, it has decoded them all. -/
structure Recalls (first : Session (Journaled σ)) (samples : List Sample)
    (session : Session (Journaled σ)) : Prop where
  params : session.params = first.params
  stopSequence : session.stopSequence = first.stopSequence
  recent : session.recent = newest session.window (samples.map (·.token))
  journal : session.isStopped = false →
    session.journal = first.journal ++ decodings first.position samples
  position : session.isStopped = false →
    session.position = first.position + (decodings first.position samples).length

section Recalls

variable {engine : Engine σ} {first session : Session (Journaled σ)} {samples : List Sample}

/-- An engine that serves leaves it to the session whether it is stopped. -/
theorem decodeBatch_of_serves {batch : Batch}
    (h : Serves engine batch session.vocab.engine.state) :
    ∃ later, decodeBatch (Journaled.engine engine) batch session = .ok () later
      ∧ later.isStopped = session.isStopped := by
  obtain ⟨logits, hscored⟩ := h.scored
  have hdecoded : ((Journaled.engine engine).decode batch session.vocab.engine).result = .ok () :=
    h.decoded
  have hfed := attempt_eq ((Journaled.engine engine).decode batch) session
  rw [hdecoded] at hfed
  have hread := attempt_eq (Journaled.engine engine).logits
    (session.heard ((Journaled.engine engine).decode batch session.vocab.engine))
  rw [show ((Journaled.engine engine).logits (session.heard ((Journaled.engine engine).decode batch
    session.vocab.engine)).vocab.engine).result = .ok logits from hscored] at hread
  unfold decodeBatch
  rw [bind_ok hfed]
  dsimp only
  rw [bind_ok hread]
  refine ⟨_, rfl, ?_⟩
  show ((session.isStopped || (engine.decode batch session.vocab.engine.state).stop)
    || (engine.logits (engine.decode batch session.vocab.engine.state).state).stop) = _
  rw [h.decodedOn, h.scoredOn, Bool.or_false, Bool.or_false]

/-- A token that is to be decoded is handed over, whatever becomes of it. -/
theorem journal_decodeNext (engine : Engine σ) (token : TokenId)
    (session : Session (Journaled σ)) :
    (after (decodeNext (Journaled.engine engine) token >>= fun _ => pure token) session).journal
      = session.journal ++ [Batch.single token session.position] := by
  rw [after_bind_pure]
  show (after (decodeBatch (Journaled.engine engine) (Batch.single token session.position) >>= _)
    session).journal = _
  rcases decodeBatch_journal (Batch.single token session.position) session with
    ⟨error, later, hstep, hjournal, -⟩ | ⟨later, hstep, hjournal, -⟩
  · rw [after_bind_error hstep, hjournal]
  · rw [after_bind_ok hstep, ← hjournal]
    rfl

/-- A token that is decoded is counted, and the window does not change. -/
theorem decodeNext_of_serves {token : TokenId}
    (h : Serves engine (Batch.single token session.position) session.vocab.engine.state) :
    ∃ fed, decodeNext (Journaled.engine engine) token session
        = .ok () { fed with position := fed.position + 1 }
      ∧ fed.isStopped = session.isStopped ∧ SameMemory session fed := by
  obtain ⟨fed, hfed, hgoing⟩ := decodeBatch_of_serves h
  refine ⟨fed, ?_, hgoing, (sameMemory_decodeBatch _ _ session).of_ok hfed⟩
  unfold decodeNext
  rw [get_bind, bind_ok hfed]
  rfl

theorem Recalls.noting {sample : Sample} (h : Recalls first samples session)
    (excluding : TokenSet) :
    (session.noting excluding sample.token).recent
      = newest (session.noting excluding sample.token).window
        ((samples ++ [sample]).map (·.token)) := by
  have hwindow : (session.noting excluding sample.token).window = session.window := rfl
  have hrecent : (session.noting excluding sample.token).recent
      = (sample.token :: session.recent).take session.window := rfl
  rw [hrecent, hwindow, h.recent, newest_concat, List.map_append]
  rfl

/-- **Decoding in calm**: the sample is handed over and counted, and the window does not change. -/
theorem Undisturbed.decodes {excluding : TokenSet} {token : TokenId}
    (hcalm : session.Undisturbed engine excluding)
    (houtcome : predictNext (Journaled.engine engine) excluding session
      = (decodeNext (Journaled.engine engine) token >>= fun _ => pure token)
        (session.noting excluding token)) :
    predictNext (Journaled.engine engine) excluding session
        = .ok token (session.predicted engine excluding)
      ∧ ∃ fed, session.predicted engine excluding = { fed with position := fed.position + 1 }
      ∧ fed.journal = session.journal ++ [Batch.single token session.position]
      ∧ fed.isStopped = session.isStopped ∧ SameMemory (session.noting excluding token) fed := by
  have hpredicted : session.predicted engine excluding
      = after (decodeNext (Journaled.engine engine) token >>= fun _ => pure token)
        (session.noting excluding token) := by
    unfold predicted after
    rw [houtcome]
  have hjournal : (session.predicted engine excluding).journal
      = session.journal ++ [Batch.single token session.position] := by
    rw [hpredicted, journal_decodeNext]
    rfl
  have hserves : Serves engine (Batch.single token (session.noting excluding token).position)
      (session.noting excluding token).vocab.engine.state := hcalm _ hjournal
  obtain ⟨fed, hdecode, hgoing, hmemory⟩ := decodeNext_of_serves hserves
  have hlater : session.predicted engine excluding = { fed with position := fed.position + 1 } := by
    rw [hpredicted, after_bind_ok hdecode]
    rfl
  have hreturned : predictNext (Journaled.engine engine) excluding session
      = .ok token (session.predicted engine excluding) := by
    rw [houtcome, bind_ok hdecode, hlater]
    rfl
  rw [hlater] at hjournal
  exact ⟨hreturned, fed, hlater, hjournal, hgoing, hmemory⟩

/-- **One prediction**: what was recalled before it is recalled after it, with the sample. -/
theorem Recalls.predict (h : Recalls first samples session) {excluding : TokenSet}
    (hcalm : session.Undisturbed engine excluding) :
    Recalls first (samples ++ (session.sample? (Journaled.engine engine) excluding).toList)
      (session.predicted engine excluding) := by
  have hpredicts := predicts (Journaled.engine engine) excluding session
  generalize session.sample? (Journaled.engine engine) excluding = drawn at hpredicts ⊢
  generalize houtcome : predictNext (Journaled.engine engine) excluding session = outcome
    at hpredicts
  cases hpredicts with
  | idle =>
    have hlater : session.predicted engine excluding = session := after_ok houtcome
    rw [hlater, Option.toList_none, List.append_nil]
    exact h
  | @undrawn error sampler =>
    have hlater : session.predicted engine excluding = { session with sampler } :=
      after_error houtcome
    rw [hlater, Option.toList_none, List.append_nil]
    exact ⟨h.params, h.stopSequence, h.recent, h.journal, h.position⟩
  | @completes sample hmatched =>
    have hlater : session.predicted engine excluding
        = (session.noting excluding sample.token).stop := after_ok houtcome
    rw [hlater]
    exact ⟨h.params, h.stopSequence, h.noting excluding, nofun, nofun⟩
  | @ends sample hmatched hends heos =>
    have hlater : session.predicted engine excluding = session.noting excluding sample.token :=
      after_ok houtcome
    rw [hlater, Option.toList_some]
    refine ⟨h.params, h.stopSequence, h.noting excluding, ?_, ?_⟩
    · intro hgoing
      rw [decodings_concat_of_ends hends]
      exact h.journal hgoing
    · intro hgoing
      rw [decodings_concat_of_ends hends]
      exact h.position hgoing
  | @decodes sample hmatched hends =>
    obtain ⟨-, fed, hlater, hjournal, hgoing, hmemory⟩ := hcalm.decodes houtcome
    rw [hlater, Option.toList_some]
    refine ⟨hmemory.params.trans h.params, hmemory.stopSequence.trans h.stopSequence, ?_, ?_, ?_⟩
    · have hwindow : fed.window = (session.noting excluding sample.token).window := by
        unfold window
        rw [hmemory.params, hmemory.stopSequence]
      show fed.recent = newest fed.window _
      rw [hmemory.recent, hwindow]
      exact h.noting excluding
    · intro hopen
      have hstill : session.isStopped = false := hgoing.symm.trans hopen
      show fed.journal = _
      rw [hjournal, decodings_concat hends, ← List.append_assoc, ← h.journal hstill,
        ← h.position hstill]
    · intro hopen
      have hstill : session.isStopped = false := hgoing.symm.trans hopen
      show fed.position + 1 = _
      rw [hmemory.position, decodings_concat hends, List.length_append, ← Nat.add_assoc,
        ← h.position hstill]
      rfl

/-- **A run of predictions**, by induction on the predictions. -/
theorem Run.recalls (hrun : Run engine first samples session) (hfresh : first.recent = []) :
    Recalls first samples session := by
  induction hrun with
  | start =>
    have hnone : first.recent = newest first.window [] := by simp [hfresh, newest]
    exact ⟨rfl, rfl, hnone, fun _ => (List.append_nil _).symm, fun _ => rfl⟩
  | predict _ excluding hcalm ih => exact ih.predict hcalm

end Recalls

/-! ## Section 4: Priming -/

/-- **Priming** forgets the samples and keeps the settings. -/
theorem prepareContext_forgets {engine : Engine σ} {prompt : String} {count : Nat}
    {session primed : Session σ}
    (h : prepareContext engine prompt session = .ok count primed) :
    primed.recent = [] ∧ primed.stopSequence = session.stopSequence
      ∧ primed.params = session.params := by
  unfold prepareContext at h
  by_cases hprompt : prompt.isEmpty = true
  · rw [if_pos hprompt] at h
    contradiction
  rw [if_neg hprompt] at h
  dsimp only at h
  rw [get_bind] at h
  obtain ⟨tokens, asked, htokenize, h⟩ := bind_eq_ok h
  by_cases hempty : tokens.isEmpty = true
  · rw [if_pos hempty] at h
    contradiction
  rw [if_neg hempty, get_bind] at h
  by_cases hfull : asked.capacity engine < asked.position + tokens.length
  · rw [if_pos hfull] at h
    contradiction
  rw [if_neg hfull] at h
  have hforget : (modify fun session => { session with recent := [] } : SessionM σ Unit) asked
      = .ok () { asked with recent := [] } := rfl
  rw [bind_ok hforget] at h
  obtain ⟨_, fed, hdecode, h⟩ := bind_eq_ok h
  cases h
  have hmemory := (sameMemory_decodeBatch engine _ _).of_ok hdecode
  have hasked : SameMemory session asked :=
    Keeps.of_ok (keeps_onVocab ⟨rfl, rfl, rfl, rfl⟩) htokenize
  exact ⟨hmemory.recent, hmemory.stopSequence.trans hasked.stopSequence,
    hmemory.params.trans hasked.params⟩

/-! ## Section 5: The end of a run -/

/-- Every prediction returns the end of the sequence, and makes no call to the engine. -/
def Ended (engine : Engine σ) (session : Session σ) : Prop :=
  ∀ excluding, predictNext engine excluding session = .ok (session.eos engine) session

theorem ended_of_stopped {engine : Engine σ} {session : Session σ}
    (hstopped : session.isStopped = true) : session.Ended engine := by
  intro excluding
  rw [predictNext_eq, if_pos hstopped]

/-- A stopped session samples nothing. -/
theorem isStopped_of_sample {engine : Engine σ} {excluding : TokenSet} {session : Session σ}
    {sample : Sample} (hsample : session.sample? engine excluding = some sample) :
    session.isStopped = false := by
  unfold sample? at hsample
  split at hsample
  · contradiction
  · exact eq_false_of_ne_true ‹_›

/-- **A prediction that samples** stops the session exactly if the window then ends with the stop
    sequence.  If it does, nothing is called; if not, the sample is what is returned. -/
theorem predicted_of_sample {engine : Engine σ} {excluding : TokenSet}
    {session : Session (Journaled σ)} (hcalm : session.Undisturbed engine excluding)
    {sample : Sample}
    (hsample : session.sample? (Journaled.engine engine) excluding = some sample) :
    (session.predicted engine excluding).isStopped
        = (session.noting excluding sample.token).stopSequenceMatched
      ∧ ((session.predicted engine excluding).isStopped = true →
        predictNext (Journaled.engine engine) excluding session
            = .ok (session.eos (Journaled.engine engine)) (session.predicted engine excluding)
          ∧ (session.predicted engine excluding).vocab.engine = session.vocab.engine)
      ∧ ((session.predicted engine excluding).isStopped = false →
        predictNext (Journaled.engine engine) excluding session
          = .ok sample.token (session.predicted engine excluding)) := by
  have hgoing := isStopped_of_sample hsample
  have hpredicts := predicts (Journaled.engine engine) excluding session
  rw [hsample] at hpredicts
  generalize houtcome : predictNext (Journaled.engine engine) excluding session = outcome
    at hpredicts ⊢
  cases hpredicts with
  | completes hmatched =>
    have hlater : session.predicted engine excluding
        = (session.noting excluding sample.token).stop := after_ok houtcome
    rw [hlater, hmatched]
    exact ⟨rfl, fun _ => ⟨rfl, rfl⟩, nofun⟩
  | ends hmatched hends heos =>
    have hlater : session.predicted engine excluding = session.noting excluding sample.token :=
      after_ok houtcome
    have hstill : (session.noting excluding sample.token).isStopped = false := hgoing
    rw [hlater, hmatched, hstill, heos]
    exact ⟨rfl, nofun, fun _ => rfl⟩
  | decodes hmatched hends =>
    obtain ⟨hreturned, fed, hlater, -, hstill, -⟩ := hcalm.decodes houtcome
    have hstill : (session.predicted engine excluding).isStopped = false := by
      rw [hlater]
      exact hstill.trans hgoing
    rw [hmatched, hstill]
    exact ⟨rfl, nofun, fun _ => houtcome.symm.trans hreturned⟩

/-- **The stop sequence ends a run.**  Let a session be primed, then predict on, with no call of the
    engine failing and nobody asking for a stop.  A prediction that samples a token stops the
    session exactly if the tokens sampled since then, the new one included, end with the stop
    sequence.  All samples before it were decoded, in order, but for the ends of the sequence among
    them.  If the session is stopped, the prediction returns the end of the sequence and calls
    nothing, so the new token is not decoded; and from then on every prediction returns the end of
    the sequence and changes nothing, whatever else is done with the session, until it is armed
    anew.  Otherwise the sample is returned, and decoded if it is not the end of the sequence. -/
theorem stop_sequence_ends_run {engine : Engine σ} {prompt : String} {count : Nat}
    {session primed current : Session (Journaled σ)} {samples : List Sample}
    (hprimed : prepareContext (Journaled.engine engine) prompt session = .ok count primed)
    (hsome : session.stopSequence ≠ []) (hrun : Run engine primed samples current)
    {excluding : TokenSet} (hcalm : current.Undisturbed engine excluding) {sample : Sample}
    (hsample : current.sample? (Journaled.engine engine) excluding = some sample) :
    ((current.predicted engine excluding).isStopped = true
      ↔ session.stopSequence <:+ (samples ++ [sample]).map (·.token))
    ∧ current.journal = primed.journal ++ decodings primed.position samples
    ∧ ((current.predicted engine excluding).isStopped = true →
      predictNext (Journaled.engine engine) excluding current
          = .ok (current.eos (Journaled.engine engine)) (current.predicted engine excluding)
        ∧ (current.predicted engine excluding).vocab.engine = current.vocab.engine
        ∧ ∀ operations : List Operation, (∀ operation ∈ operations, operation.rearms = false) →
          Ended (Journaled.engine engine) (applyAll (Journaled.engine engine) operations
            (current.predicted engine excluding)))
    ∧ ((current.predicted engine excluding).isStopped = false →
      predictNext (Journaled.engine engine) excluding current
          = .ok sample.token (current.predicted engine excluding)
        ∧ (current.predicted engine excluding).journal
          = primed.journal ++ decodings primed.position (samples ++ [sample])) := by
  obtain ⟨hfresh, hstop, -⟩ := prepareContext_forgets hprimed
  have hrecalls := hrun.recalls hfresh
  have hgoing := isStopped_of_sample hsample
  obtain ⟨hstops, hends, hreturns⟩ := predicted_of_sample hcalm hsample
  have hsequence : (current.noting excluding sample.token).stopSequence = session.stopSequence :=
    hrecalls.stopSequence.trans hstop
  refine ⟨?_, hrecalls.journal hgoing, ?_, ?_⟩
  · -- the window holds the sample already when it is compared with the stop sequence
    rw [hstops, ← hsequence]
    rw [← hsequence] at hsome
    exact stopSequenceMatched_iff hsome (hrecalls.noting excluding)
  · intro hstopped
    obtain ⟨houtcome, hengine⟩ := hends hstopped
    refine ⟨houtcome, hengine, ?_⟩
    intro operations harmless
    exact ended_of_stopped (applyAll_staysStopped harmless _ hstopped)
  · intro hopen
    have hlater := hrecalls.predict hcalm
    rw [hsample, Option.toList_some] at hlater
    exact ⟨hreturns hopen, hlater.journal hopen⟩

/-- An engine that writes one letter over and over again. -/
def echoing : Tabulated where
  pieces := ["<s>", "</s>", "a"].map String.toList
  control := [0, 1]
  rows := [[(2, 1)]]

/-- A session over it, with two such letters for a stop sequence and no reach of the penalty. -/
def echo : Session (Journaled Tabulated) :=
  { Session.new { state := echoing } { SamplingParams.greedy with repeatLastN := 0 } with
    stopSequence := [2, 2] }

/-- Tables without failures serve any batch. -/
theorem serves_of_no_failures {table : Tabulated} (hsound : table.failures = {}) (batch : Batch) :
    Serves Tabulated.engine batch table := by
  cases table
  cases hsound
  exact ⟨rfl, rfl, ⟨_, rfl⟩, rfl⟩

/-- The second letter ends the run, and the first one was decoded. -/
theorem stop_sequence_ends_run_echo : ∃ primed,
    prepareContext (Journaled.engine Tabulated.engine) "a" echo = .ok 2 primed
      ∧ Run Tabulated.engine primed [⟨2, false⟩] (primed.predicted Tabulated.engine .empty)
      ∧ [2, 2] <:+ [(2 : TokenId)] ++ [2]
      ∧ ((primed.predicted Tabulated.engine .empty).predicted Tabulated.engine .empty).isStopped
        = true
      ∧ (primed.predicted Tabulated.engine .empty).journal
        = primed.journal ++ decodings primed.position [⟨2, false⟩]
      ∧ Ended (Journaled.engine Tabulated.engine)
        ((primed.predicted Tabulated.engine .empty).predicted Tabulated.engine .empty) := by
  obtain ⟨count, primed, hprimed, hchecked⟩ := exists_ok
    (prepareContext (Journaled.engine Tabulated.engine) "a") echo
    (fun count primed => decide (count = 2
      ∧ primed.sample? (Journaled.engine Tabulated.engine) .empty = some ⟨2, false⟩
      ∧ sample? (Journaled.engine Tabulated.engine) .empty
        (primed.predicted Tabulated.engine .empty) = some ⟨2, false⟩
      ∧ primed.vocab.engine.state.failures = {}
      ∧ (primed.predicted Tabulated.engine .empty).vocab.engine.state.failures = {}))
    (by decide +kernel)
  obtain ⟨rfl, hfirst, hsecond, hsound, hsound'⟩ := of_decide_eq_true hchecked
  have hcalm : primed.Undisturbed Tabulated.engine .empty :=
    fun batch _ => serves_of_no_failures hsound batch
  have hcalm' : (primed.predicted Tabulated.engine .empty).Undisturbed Tabulated.engine .empty :=
    fun batch _ => serves_of_no_failures hsound' batch
  have hrun := Run.start.predict .empty hcalm
  rw [hfirst] at hrun
  obtain ⟨hstops, hjournal, hends, -⟩ :=
    stop_sequence_ends_run hprimed (by decide) hrun hcalm' hsecond
  have hsuffix : [2, 2] <:+ [(2 : TokenId)] ++ [2] := by decide
  have hstopped := hstops.mpr hsuffix
  exact ⟨primed, hprimed, hrun, hsuffix, hstopped, hjournal, (hends hstopped).2.2 [] nofun⟩

end Session

end Parley
