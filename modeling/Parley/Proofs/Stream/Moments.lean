import Parley.Proofs.Session.Knowledge
import Parley.Proofs.Stream.Delivery

/-! # The moments of a generation

    A stop may be requested at any time, also between a look at the flag and what follows it.  So a
    round of the worker is taken apart into moves, `Moment.go`.  A move looks at the flag as its
    first act if it looks at it at all, and begins one decoding call at most, before its other calls
    to the engine.  Between two moves somebody may request a stop: `Moment.Reaches`.

    What the executable worker does is made of such moves: `Moment.reaches_run`.  What a move can do
    is said once, by `Moment.Move`; what lasts along a generation, and that it ends
    (`Moment.exists_last`), is derived from it.
-/

namespace Parley

open Step

variable {σ α : Type}

/-! ## Section 1: A prediction in its parts -/

namespace Session

/-- Draws the next token and remembers it.  There is none if the context is full, the model chose
    the end of the sequence, or the stop sequence was completed. -/
def drawNext (engine : Engine σ) (excluding : TokenSet) : SessionM σ (Option TokenId) := do
  let session ← get
  if session.capacity engine ≤ session.position then return none
  match ← drawToken (maskOut excluding (← pristine)) with
  | .error error => throw (.sampling error)
  | .ok token =>
    modify (·.remember token)
    if (← get).stopSequenceMatched then
      modify stop
      return none
    if token = session.eos engine then return none
    return some token

/-- Decodes a token that was drawn. -/
def decodeNext (engine : Engine σ) (token : TokenId) : SessionM σ Unit := do
  decodeBatch engine (Batch.single token (← get).position)
  modify fun session => { session with position := session.position + 1 }

/-- To draw is not to move on. -/
theorem position_drawToken {scores : List Float32} {session later : Session σ}
    {drawn : Except SamplingError TokenId} (h : drawToken scores session = .ok drawn later) :
    later.position = session.position := by
  have hafter : after (drawToken scores) session = later := after_ok h
  rw [← hafter]
  rfl

theorem pristine_eq_ok {scores : List Float32} {session later : Session σ}
    (h : pristine session = .ok scores later) : later = session ∧ scores = session.logits := by
  unfold pristine at h
  rw [get_bind] at h
  by_cases hempty : session.logits.isEmpty = true
  · rw [if_pos hempty] at h
    contradiction
  · rw [if_neg hempty] at h
    cases h
    exact ⟨rfl, rfl⟩

/-- **A prediction in its parts.**  The flag is looked at, a token is drawn, and it is decoded. -/
theorem predictNext_eq (engine : Engine σ) (excluding : TokenSet) (session : Session σ) :
    predictNext engine excluding session =
      if session.isStopped then .ok (session.eos engine) session
      else (drawNext engine excluding >>= fun drawn =>
        match drawn with
        | none => pure (session.eos engine)
        | some token => decodeNext engine token >>= fun _ => pure token) session := by
  unfold predictNext drawNext
  rw [get_bind]
  by_cases hstopped : session.isStopped = true
  · rw [if_pos hstopped, if_pos hstopped]
    rfl
  rw [if_neg hstopped, if_neg hstopped]
  by_cases hfull : session.capacity engine ≤ session.position
  · rw [if_pos hfull, bind_assoc, get_bind, if_pos hfull]
    rfl
  rw [if_neg hfull, bind_assoc, get_bind, if_neg hfull, bind_assoc]
  -- the two read the same scores and draw from them in the same way
  cases hpristine : pristine session with
  | error error later => rw [bind_error hpristine, bind_error hpristine]
  | ok scores later =>
    rw [(pristine_eq_ok hpristine).1] at hpristine
    rw [bind_ok hpristine, bind_ok hpristine, bind_assoc]
    cases hdrawn : drawToken (maskOut excluding scores) session with
    | error error last => rw [bind_error hdrawn, bind_error hdrawn]
    | ok drawn last =>
      -- the token is decoded at the position from before the draw
      rw [bind_ok hdrawn, bind_ok hdrawn, ← position_drawToken hdrawn]
      cases drawn with
      | error error => rfl
      | ok token =>
        have hnoted : (modify (·.remember token) : SessionM σ Unit) last
            = .ok () (last.remember token) := rfl
        dsimp only
        rw [bind_assoc, bind_ok hnoted, bind_ok hnoted, bind_assoc, get_bind, get_bind]
        by_cases hmatched : (last.remember token).stopSequenceMatched = true
        · rw [if_pos hmatched, if_pos hmatched]
          rfl
        rw [if_neg hmatched, if_neg hmatched]
        by_cases heos : token = session.eos engine
        · rw [if_pos heos, if_pos heos]
          rfl
        · rw [if_neg heos, if_neg heos, pure_bind]
          unfold decodeNext
          dsimp only
          rw [bind_assoc, get_bind, bind_assoc]
          rfl

/-- **What a draw comes to.**  There is no room for a token; or a token is drawn, which completes the
    stop sequence, or ends the sequence, or is to be decoded. -/
theorem drawNext_cases {engine : Engine σ} {excluding : TokenSet} {session later : Session σ}
    {drawn : Option TokenId} (h : drawNext engine excluding session = .ok drawn later) :
    (session.remaining engine = 0 ∧ drawn = none ∧ later = session)
    ∨ session.remaining engine ≠ 0 ∧ ∃ token aware,
        drawToken (maskOut excluding session.logits) session = .ok (.ok token) aware
        ∧ (((aware.remember token).stopSequenceMatched = true ∧ drawn = none
            ∧ later = (aware.remember token).stop)
          ∨ (aware.remember token).stopSequenceMatched = false ∧ later = aware.remember token
            ∧ (token = session.eos engine ∧ drawn = none
              ∨ token ≠ session.eos engine ∧ drawn = some token)) := by
  have hspace : session.remaining engine = session.capacity engine - session.position := rfl
  unfold drawNext at h
  rw [get_bind] at h
  by_cases hfull : session.capacity engine ≤ session.position
  · rw [if_pos hfull] at h
    cases h
    exact .inl ⟨by omega, rfl, rfl⟩
  rw [if_neg hfull] at h
  refine .inr ⟨by omega, ?_⟩
  obtain ⟨scores, primed, hscores, h⟩ := bind_eq_ok h
  obtain ⟨rfl, rfl⟩ := pristine_eq_ok hscores
  obtain ⟨result, aware, hdraw, h⟩ := bind_eq_ok h
  cases result with
  | error error => cases h
  | ok token =>
    refine ⟨token, aware, hdraw, ?_⟩
    have hnoted : (modify (·.remember token) : SessionM σ Unit) aware
        = .ok () (aware.remember token) := rfl
    dsimp only at h
    rw [bind_ok hnoted, get_bind] at h
    cases hmatched : (aware.remember token).stopSequenceMatched with
    | true =>
      rw [if_pos hmatched] at h
      cases h
      exact .inl ⟨rfl, rfl, rfl⟩
    | false =>
      rw [if_neg (by simp [hmatched])] at h
      by_cases heos : token = primed.eos engine
      · rw [if_pos heos] at h
        cases h
        exact .inr ⟨rfl, rfl, .inl ⟨heos, rfl⟩⟩
      · rw [if_neg heos] at h
        cases h
        exact .inr ⟨rfl, rfl, .inr ⟨heos, rfl⟩⟩

/-! ### What lasts -/

section Lasts

variable {engine : Engine σ} {lasts : Session σ → Session σ → Prop} {session : Session σ}

theorem Lasting.keeps_drawNext (h : Lasting engine lasts) (excluding : TokenSet) :
    Keeps lasts (drawNext engine excluding) session := by
  unfold drawNext
  refine keeps_get (keeps_ite (fun _ => h.keeps_pure _) fun _ => ?_)
  refine h.keeps_pristine.bind h.trans fun scores session => ?_
  refine (h.keeps_drawToken _).bind h.trans fun drawn session => ?_
  cases drawn with
  | error error => exact h.keeps_throw _
  | ok token =>
    refine (h.keeps_note _ _ _).bind h.trans fun _ session => keeps_get ?_
    refine keeps_ite (fun _ => ?_) fun _ => ?_
    · exact h.keeps_stop.bind h.trans fun _ _ => h.keeps_pure _
    · exact keeps_ite (fun _ => h.keeps_pure _) fun _ => h.keeps_pure _

theorem Lasting.keeps_decodeNext (h : Lasting engine lasts) (token : TokenId) :
    Keeps lasts (decodeNext engine token) session := by
  unfold decodeNext
  exact keeps_get ((h.keeps_decodeBatch _).bind h.trans fun _ _ => h.keeps_note _ _ _)

end Lasts

end Session

/-! ## Section 2: Moments -/

/-- Where a worker stands in the round of its loop that is under way. -/
inductive Point
  /-- At the head of the loop. -/
  | head
  /-- Nobody had asked for a stop, and a token is to be drawn. -/
  | drawing
  /-- A token was drawn and is to be decoded. -/
  | drawn (token : TokenId)
  /-- The prediction is made. -/
  | predicted (token : TokenId)
  /-- The sequence has ended, and nobody had asked for a stop. -/
  | ended
  /-- The end of thinking is forced: the tokens of the marker are to be fed. -/
  | forcing (marker : String) (tokens : List TokenId)

/-- A moment of a generation: the worker, the point it stands at, and the session. -/
structure Moment (σ : Type) where
  worker : Worker
  session : Session σ
  point : Point := .head

namespace Moment

/-- The moment at which a generation begins. -/
def first (engine : Engine σ) (session : Session σ) (options : StreamOptions) (timer : Timer) :
    Moment σ where
  worker := Worker.start engine session options timer
  session

/-- The same moment with a stop requested. -/
def stop (moment : Moment σ) : Moment σ := { moment with session := moment.session.stop }

/-- Whether a stop was requested. -/
def isStopped (moment : Moment σ) : Bool := moment.session.isStopped

/-- Whether the generation has ended. -/
def isDone (moment : Moment σ) : Bool :=
  match moment.worker.stage with
  | .done _ => true
  | _ => false

/-- Whether the worker is between two rounds of its loop. -/
def isBetween (moment : Moment σ) : Bool :=
  match moment.worker.stage, moment.point with
  | .predicting, .head => true
  | _, _ => false

/-- The moment after the worker has moved from the given point.  A look at the flag comes before
    everything else, and a decoding call before all other calls to the engine. -/
def goFrom (engine : Engine σ) (worker : Worker) (session : Session σ) : Point → Moment σ
  | .head =>
    if worker.options.maxNewTokens ≤ worker.produced then
      { worker := worker.finish .length, session }
    else if session.isStopped then { worker, session, point := .predicted (session.eos engine) }
    else { worker, session, point := .drawing }
  | .drawing =>
    match session.drawNext engine worker.excluding with
    | .error error later => { worker := worker.fail (.session error), session := later }
    | .ok none later => { worker, session := later, point := .predicted (session.eos engine) }
    | .ok (some token) later => { worker, session := later, point := .drawn token }
  | .drawn token =>
    match session.decodeNext engine token with
    | .error error later => { worker := worker.fail (.session error), session := later }
    | .ok () later => { worker, session := later, point := .predicted token }
  | .predicted token =>
    if token = worker.eos then
      if session.isStopped then { worker := worker.unmasked.finish .stopped, session }
      else { worker := worker.unmasked, session, point := .ended }
    else
      match Vocabulary.piece engine token false session.vocab with
      | .error error vocab =>
        { worker := worker.unmasked.fail (.vocabulary error)
          session := { session with vocab : Session σ }.stop }
      | .ok piece vocab =>
        { worker := worker.unmasked.produce piece.toList, session := { session with vocab } }
  | .ended =>
    if session.remaining engine = 0 then { worker := worker.finish .length, session }
    else
      match worker.forcedEnd? with
      | none => { worker := worker.finish .endOfSequence, session }
      | some marker =>
        match Session.onVocab (Vocabulary.tokenize engine marker false true) session with
        | .error error later =>
          { worker := { worker with injected := true }.fail (.injection error), session := later }
        | .ok tokens later =>
          { worker := { worker with injected := true }, session := later
            point := .forcing marker tokens }
  | .forcing marker tokens =>
    match Session.inject engine tokens session with
    | .error error later => { worker := worker.fail (.injection error), session := later }
    | .ok () later =>
      { worker := (worker.route marker.toList).1.deliver (worker.route marker.toList).2
        session := later }

/-- The next moment. -/
def go (engine : Engine σ) (moment : Moment σ) : Moment σ :=
  match moment.worker.stage with
  | .done _ => moment
  | .sending routed => { worker := moment.worker.deliver routed, session := moment.session }
  | .predicting => goFrom engine moment.worker moment.session moment.point

/-- `Reaches engine moment later`: so may the generation go on.  Whenever the worker has moved,
    somebody may request a stop. -/
inductive Reaches (engine : Engine σ) (moment : Moment σ) : Moment σ → Prop
  | refl : Reaches engine moment moment
  | go {later : Moment σ} : Reaches engine moment later → Reaches engine moment (later.go engine)
  | stop {later : Moment σ} : Reaches engine moment later → Reaches engine moment later.stop

theorem Reaches.trans {engine : Engine σ} {moment later last : Moment σ}
    (h : Reaches engine moment later) (hnext : Reaches engine later last) :
    Reaches engine moment last := by
  induction hnext with
  | refl => exact h
  | go _ ih => exact ih.go
  | stop _ ih => exact ih.stop

/-! ### What a move does -/

/-- **What a move does**, one case for each of its outcomes. -/
inductive Move (engine : Engine σ) : Moment σ → Moment σ → Prop
  /-- What was routed is sent. -/
  | deliver {worker session point routed} (hstage : worker.stage = .sending routed) :
    Move engine ⟨worker, session, point⟩ ⟨worker.deliver routed, session, .head⟩
  /-- The budget of tokens is used up. -/
  | budget {worker session} (hstage : worker.stage = .predicting)
    (hspent : worker.options.maxNewTokens ≤ worker.produced) :
    Move engine ⟨worker, session, .head⟩ ⟨worker.finish .length, session, .head⟩
  /-- The request to stop is seen: the sequence ends. -/
  | heed {worker session} (hstage : worker.stage = .predicting)
    (hroom : worker.produced < worker.options.maxNewTokens) (hstopped : session.isStopped = true) :
    Move engine ⟨worker, session, .head⟩ ⟨worker, session, .predicted (session.eos engine)⟩
  /-- No request to stop is seen. -/
  | enter {worker session} (hstage : worker.stage = .predicting)
    (hroom : worker.produced < worker.options.maxNewTokens) (hgoing : session.isStopped = false) :
    Move engine ⟨worker, session, .head⟩ ⟨worker, session, .drawing⟩
  /-- No token can be drawn. -/
  | undrawn {worker session error later} (hstage : worker.stage = .predicting)
    (hdraw : session.drawNext engine worker.excluding = .error error later) :
    Move engine ⟨worker, session, .drawing⟩ ⟨worker.fail (.session error), later, .head⟩
  /-- The sequence ends without a token. -/
  | silent {worker session later} (hstage : worker.stage = .predicting)
    (hdraw : session.drawNext engine worker.excluding = .ok none later) :
    Move engine ⟨worker, session, .drawing⟩ ⟨worker, later, .predicted (session.eos engine)⟩
  /-- A token is drawn. -/
  | drawn {worker session token later} (hstage : worker.stage = .predicting)
    (hdraw : session.drawNext engine worker.excluding = .ok (some token) later) :
    Move engine ⟨worker, session, .drawing⟩ ⟨worker, later, .drawn token⟩
  /-- The token cannot be decoded. -/
  | undecoded {worker session token error later} (hstage : worker.stage = .predicting)
    (hdecode : session.decodeNext engine token = .error error later) :
    Move engine ⟨worker, session, .drawn token⟩ ⟨worker.fail (.session error), later, .head⟩
  /-- The token is decoded. -/
  | decoded {worker session token later} (hstage : worker.stage = .predicting)
    (hdecode : session.decodeNext engine token = .ok () later) :
    Move engine ⟨worker, session, .drawn token⟩ ⟨worker, later, .predicted token⟩
  /-- The sequence has ended, and a request to stop is seen. -/
  | stopped {worker session} (hstage : worker.stage = .predicting)
    (hstopped : session.isStopped = true) :
    Move engine ⟨worker, session, .predicted worker.eos⟩
      ⟨worker.unmasked.finish .stopped, session, .head⟩
  /-- The sequence has ended, and no request to stop is seen. -/
  | ended {worker session} (hstage : worker.stage = .predicting)
    (hgoing : session.isStopped = false) :
    Move engine ⟨worker, session, .predicted worker.eos⟩ ⟨worker.unmasked, session, .ended⟩
  /-- The text of the token cannot be told. -/
  | untold {worker session token error vocab} (hstage : worker.stage = .predicting)
    (htoken : token ≠ worker.eos)
    (hpiece : Vocabulary.piece engine token false session.vocab = .error error vocab) :
    Move engine ⟨worker, session, .predicted token⟩
      ⟨worker.unmasked.fail (.vocabulary error), { session with vocab : Session σ }.stop, .head⟩
  /-- The token is counted and its text routed. -/
  | told {worker session token piece vocab} (hstage : worker.stage = .predicting)
    (htoken : token ≠ worker.eos)
    (hpiece : Vocabulary.piece engine token false session.vocab = .ok piece vocab) :
    Move engine ⟨worker, session, .predicted token⟩
      ⟨worker.unmasked.produce piece.toList, { session with vocab }, .head⟩
  /-- The context is full. -/
  | full {worker session} (hstage : worker.stage = .predicting)
    (hfull : session.remaining engine = 0) :
    Move engine ⟨worker, session, .ended⟩ ⟨worker.finish .length, session, .head⟩
  /-- The model has ended the sequence. -/
  | finished {worker session} (hstage : worker.stage = .predicting)
    (hroom : session.remaining engine ≠ 0) (hmarker : worker.forcedEnd? = none) :
    Move engine ⟨worker, session, .ended⟩ ⟨worker.finish .endOfSequence, session, .head⟩
  /-- The marker that is to force the end of thinking cannot be tokenized. -/
  | unmarked {worker session marker error later} (hstage : worker.stage = .predicting)
    (hroom : session.remaining engine ≠ 0) (hmarker : worker.forcedEnd? = some marker)
    (htokens : Session.onVocab (Vocabulary.tokenize engine marker false true) session
      = .error error later) :
    Move engine ⟨worker, session, .ended⟩
      ⟨{ worker with injected := true : Worker }.fail (.injection error), later, .head⟩
  /-- The end of thinking is to be forced. -/
  | marked {worker session marker tokens later} (hstage : worker.stage = .predicting)
    (hroom : session.remaining engine ≠ 0) (hmarker : worker.forcedEnd? = some marker)
    (htokens : Session.onVocab (Vocabulary.tokenize engine marker false true) session
      = .ok tokens later) :
    Move engine ⟨worker, session, .ended⟩
      ⟨{ worker with injected := true }, later, .forcing marker tokens⟩
  /-- The marker cannot be fed. -/
  | unforced {worker session marker tokens error later} (hstage : worker.stage = .predicting)
    (hinject : session.inject engine tokens = .error error later) :
    Move engine ⟨worker, session, .forcing marker tokens⟩
      ⟨worker.fail (.injection error), later, .head⟩
  /-- The marker is fed, and its text is routed and sent. -/
  | forced {worker session marker tokens later} (hstage : worker.stage = .predicting)
    (hinject : session.inject engine tokens = .ok () later) :
    Move engine ⟨worker, session, .forcing marker tokens⟩
      ⟨(worker.route marker.toList).1.deliver (worker.route marker.toList).2, later, .head⟩

theorem goFrom_move (engine : Engine σ) {worker : Worker} (session : Session σ) (point : Point)
    (hstage : worker.stage = .predicting) :
    Move engine ⟨worker, session, point⟩ (goFrom engine worker session point) := by
  unfold goFrom
  cases point with
  | head =>
    by_cases hspent : worker.options.maxNewTokens ≤ worker.produced
    · simp only [if_pos hspent]
      exact .budget hstage hspent
    have hroom : worker.produced < worker.options.maxNewTokens := by omega
    simp only [if_neg hspent]
    cases hstopped : session.isStopped with
    | true => exact .heed hstage hroom hstopped
    | false => exact .enter hstage hroom hstopped
  | drawing =>
    cases hdraw : session.drawNext engine worker.excluding with
    | error error later => simpa only [hdraw] using .undrawn hstage hdraw
    | ok drawn later =>
      cases drawn with
      | none => simpa only [hdraw] using .silent hstage hdraw
      | some token => simpa only [hdraw] using .drawn hstage hdraw
  | drawn token =>
    cases hdecode : session.decodeNext engine token with
    | error error later => simpa only [hdecode] using .undecoded hstage hdecode
    | ok _ later => simpa only [hdecode] using .decoded hstage hdecode
  | predicted token =>
    by_cases heos : token = worker.eos
    · subst heos
      simp only [if_true]
      cases hstopped : session.isStopped with
      | true => exact .stopped hstage hstopped
      | false => exact .ended hstage hstopped
    · simp only [if_neg heos]
      cases hpiece : Vocabulary.piece engine token false session.vocab with
      | error error vocab => exact .untold hstage heos hpiece
      | ok piece vocab => exact .told hstage heos hpiece
  | ended =>
    by_cases hfull : session.remaining engine = 0
    · simp only [if_pos hfull]
      exact .full hstage hfull
    simp only [if_neg hfull]
    cases hmarker : worker.forcedEnd? with
    | none => exact .finished hstage hfull hmarker
    | some marker =>
      cases htokens : Session.onVocab (Vocabulary.tokenize engine marker false true) session with
      | error error later => simpa only [htokens] using .unmarked hstage hfull hmarker htokens
      | ok tokens later => simpa only [htokens] using .marked hstage hfull hmarker htokens
  | forcing marker tokens =>
    cases hinject : session.inject engine tokens with
    | error error later => simpa only [hinject] using .unforced hstage hinject
    | ok _ later => simpa only [hinject] using .forced hstage hinject

/-- **Every moment but the last is followed by a move.** -/
theorem go_move (engine : Engine σ) {moment : Moment σ} (h : moment.isDone = false) :
    Move engine moment (moment.go engine) := by
  unfold isDone at h
  unfold go
  cases hstage : moment.worker.stage with
  | done summary =>
    rw [hstage] at h
    contradiction
  | sending routed => exact .deliver hstage
  | predicting => exact goFrom_move engine moment.session moment.point hstage

theorem go_of_isDone (engine : Engine σ) {moment : Moment σ} (h : moment.isDone = true) :
    moment.go engine = moment := by
  unfold isDone at h
  unfold go
  cases hstage : moment.worker.stage with
  | done summary => rfl
  | sending routed =>
    rw [hstage] at h
    contradiction
  | predicting =>
    rw [hstage] at h
    contradiction

/-! ## Section 3: The executable worker -/

theorem reaches_goFrom (engine : Engine σ) (worker : Worker) (session : Session σ) (point : Point)
    (hstage : worker.stage = .predicting) :
    Reaches engine ⟨worker, session, point⟩ (goFrom engine worker session point) := by
  have hgo : go engine ⟨worker, session, point⟩ = goFrom engine worker session point := by
    simp only [go, hstage]
  rw [← hgo]
  exact .go .refl

/-- What the worker does with a prediction. -/
def conclude (engine : Engine σ) (worker : Worker) (token : TokenId) (session : Session σ) :
    Worker × Session σ :=
  if token = worker.eos then worker.unmasked.endSequence engine session
  else
    match Vocabulary.piece engine token false session.vocab with
    | .error error vocab =>
      (worker.unmasked.fail (.vocabulary error), { session with vocab : Session σ }.stop)
    | .ok piece vocab => (worker.unmasked.produce piece.toList, { session with vocab })

theorem reaches_endSequence (engine : Engine σ) (worker : Worker) (session : Session σ)
    (hstage : worker.stage = .predicting) (hgoing : session.isStopped = false) :
    Reaches engine ⟨worker, session, .ended⟩
      ⟨(worker.endSequence engine session).1, (worker.endSequence engine session).2, .head⟩ := by
  have hmove := reaches_goFrom engine worker session .ended hstage
  unfold Worker.endSequence
  rw [if_neg (by simp [hgoing])]
  by_cases hfull : session.remaining engine = 0
  · simpa only [goFrom, if_pos hfull] using hmove
  simp only [goFrom, if_neg hfull] at hmove ⊢
  cases hmarker : worker.forcedEnd? with
  | none => simpa only [hmarker] using hmove
  | some marker =>
    simp only [hmarker] at hmove ⊢
    cases htokens : Session.onVocab (Vocabulary.tokenize engine marker false true) session with
    | error error later =>
      have hinject : Worker.injectMarker engine marker session = .error error later :=
        bind_error htokens
      simpa only [htokens, Worker.forceEnd_of_error worker hinject] using hmove
    | ok tokens middle =>
      simp only [htokens] at hmove
      -- the injection is a move of its own
      have hfeed := reaches_goFrom engine { worker with injected := true } middle
        (.forcing marker tokens) hstage
      have hsame : Worker.injectMarker engine marker session
          = Session.inject engine tokens middle := bind_ok htokens
      cases hinject : Session.inject engine tokens middle with
      | error error later =>
        rw [Worker.forceEnd_of_error worker (hsame.trans hinject)]
        exact hmove.trans (by simpa only [goFrom, hinject] using hfeed)
      | ok _ later =>
        rw [Worker.forceEnd_of_ok worker (hsame.trans hinject)]
        exact hmove.trans (by simpa only [goFrom, hinject] using hfeed)

theorem reaches_conclude (engine : Engine σ) {worker : Worker} (token : TokenId)
    (session : Session σ) (hstage : worker.stage = .predicting) :
    Reaches engine ⟨worker, session, .predicted token⟩
      ⟨(conclude engine worker token session).1, (conclude engine worker token session).2,
        .head⟩ := by
  have hmove := reaches_goFrom engine worker session (.predicted token) hstage
  unfold conclude
  by_cases heos : token = worker.eos
  · simp only [goFrom, if_pos heos] at hmove ⊢
    cases hstopped : session.isStopped with
    | true =>
      have hend : worker.unmasked.endSequence engine session
          = (worker.unmasked.finish .stopped, session) := by
        unfold Worker.endSequence
        rw [if_pos hstopped]
      rw [hend]
      simpa only [hstopped, if_true] using hmove
    | false =>
      simp only [hstopped] at hmove
      exact hmove.trans (reaches_endSequence engine worker.unmasked session hstage hstopped)
  · simp only [goFrom, if_neg heos] at hmove ⊢
    cases hpiece : Vocabulary.piece engine token false session.vocab with
    | error error vocab => simpa only [hpiece] using hmove
    | ok piece vocab => simpa only [hpiece] using hmove

theorem reaches_predict (engine : Engine σ) {worker : Worker} (session : Session σ)
    (hstage : worker.stage = .predicting) (hroom : worker.produced < worker.options.maxNewTokens) :
    Reaches engine ⟨worker, session, .head⟩
      ⟨(worker.predict engine session).1, (worker.predict engine session).2, .head⟩ := by
  have hmove := reaches_goFrom engine worker session .head hstage
  have hdrawing := reaches_goFrom engine worker session .drawing hstage
  simp only [goFrom, if_neg (Nat.not_le.mpr hroom)] at hmove
  unfold Worker.predict
  rw [Session.predictNext_eq]
  by_cases hstopped : session.isStopped = true
  · -- a stopped session predicts the end of the sequence
    simp only [if_pos hstopped] at hmove ⊢
    exact hmove.trans (reaches_conclude engine _ session hstage)
  simp only [if_neg hstopped] at hmove ⊢
  replace hmove := hmove.trans hdrawing
  simp only [goFrom] at hmove
  cases hdraw : session.drawNext engine worker.excluding with
  | error error later =>
    rw [bind_error hdraw]
    simpa only [hdraw] using hmove
  | ok drawn later =>
    rw [bind_ok hdraw]
    cases drawn with
    | none =>
      simp only [hdraw] at hmove
      exact hmove.trans (reaches_conclude engine _ later hstage)
    | some token =>
      simp only [hdraw] at hmove ⊢
      have hdecoding := reaches_goFrom engine worker later (.drawn token) hstage
      simp only [goFrom] at hdecoding
      cases hdecode : later.decodeNext engine token with
      | error error last =>
        rw [bind_error hdecode]
        exact hmove.trans (by simpa only [hdecode] using hdecoding)
      | ok _ last =>
        rw [bind_ok hdecode]
        simp only [hdecode] at hdecoding
        exact (hmove.trans hdecoding).trans (reaches_conclude engine token last hstage)

/-- **A step of the worker** is made of moves. -/
theorem reaches_step (engine : Engine σ) (worker : Worker) (session : Session σ) :
    Reaches engine ⟨worker, session, .head⟩
      ⟨(worker.step engine session).1, (worker.step engine session).2, .head⟩ := by
  unfold Worker.step
  cases hstage : worker.stage with
  | done summary => exact .refl
  | sending routed =>
    have hgo : go engine ⟨worker, session, .head⟩ = ⟨worker.deliver routed, session, .head⟩ := by
      simp only [go, hstage]
    rw [← hgo]
    exact .go .refl
  | predicting =>
    by_cases hspent : worker.options.maxNewTokens ≤ worker.produced
    · have hmove := reaches_goFrom engine worker session .head hstage
      simpa only [goFrom, if_pos hspent] using hmove
    · simp only [if_neg hspent]
      exact reaches_predict engine session hstage (Nat.lt_of_not_le hspent)

theorem reaches_runWithin (engine : Engine σ) (stopAfter : Nat → Bool) (fuel : Nat)
    (worker : Worker) (session : Session σ) :
    Reaches engine ⟨worker, session, .head⟩
      ⟨(Worker.runWithin engine stopAfter fuel worker session).1,
        (Worker.runWithin engine stopAfter fuel worker session).2, .head⟩ := by
  induction fuel generalizing worker session with
  | zero => exact .refl
  | succ fuel ih =>
    by_cases hdone : ∃ summary, worker.stage = .done summary
    · obtain ⟨summary, hdone⟩ := hdone
      simp only [Worker.runWithin, hdone]
      exact .refl
    have hgoing : ∀ summary, worker.stage ≠ .done summary := fun summary h => hdone ⟨summary, h⟩
    obtain ⟨next, hnext, heq⟩ := Worker.runWithin_succ engine stopAfter fuel session hgoing
    have hstep := reaches_step engine worker session
    rw [heq]
    rcases hnext with rfl | rfl
    · exact hstep.trans (ih _ _)
    · exact hstep.stop.trans (ih _ _)

/-- **What the worker does** is made of moves, and of stops between them. -/
theorem reaches_run (engine : Engine σ) (stopAfter : Nat → Bool) (worker : Worker)
    (session : Session σ) :
    Reaches engine ⟨worker, session, .head⟩
      ⟨(worker.run engine stopAfter session).1, (worker.run engine stopAfter session).2, .head⟩ :=
  reaches_runWithin engine stopAfter worker.maxSteps worker session

/-! ## Section 4: Along the moves -/

/-- **Invariants.**  What moves and stops preserve holds of every moment that is reached. -/
theorem Reaches.preserves {engine : Engine σ} {inv : Moment σ → Prop} {moment later : Moment σ}
    (h : Reaches engine moment later)
    (hmove : ∀ {before after : Moment σ}, Move engine before after → inv before → inv after)
    (hstop : ∀ {before : Moment σ}, inv before → inv before.stop) (hmoment : inv moment) :
    inv later := by
  induction h with
  | refl => exact hmoment
  | stop _ ih => exact hstop ih
  | @go before _ ih =>
    cases hdone : before.isDone with
    | true => rwa [go_of_isDone engine hdone]
    | false => exact hmove (go_move engine hdone) ih

section Lasts

variable {engine : Engine σ} {lasts : Session σ → Session σ → Prop} {moment later : Moment σ}

/-- A move makes calls to the engine and notes in the session, so what lasts survives it. -/
theorem Move.keeps (hlasting : Session.Enduring engine lasts) (h : Move engine moment later) :
    lasts moment.session later.session := by
  cases h with
  | deliver | budget | heed | enter | stopped | ended | full | finished => exact hlasting.refl _
  | undrawn _ hdraw => exact (hlasting.keeps_drawNext _).of_error hdraw
  | silent _ hdraw => exact (hlasting.keeps_drawNext _).of_ok hdraw
  | drawn _ hdraw => exact (hlasting.keeps_drawNext _).of_ok hdraw
  | undecoded _ hdecode => exact (hlasting.keeps_decodeNext _).of_error hdecode
  | decoded _ hdecode => exact (hlasting.keeps_decodeNext _).of_ok hdecode
  | untold _ _ htext =>
    exact hlasting.trans ((hlasting.piece _ _).of_error (Session.onVocab_error htext))
      (hlasting.stop _)
  | told _ _ htext => exact (hlasting.piece _ _).of_ok (Session.onVocab_ok htext)
  | unmarked _ _ _ htokens => exact (hlasting.keeps_tokenize _ _ _).of_error htokens
  | marked _ _ _ htokens => exact (hlasting.keeps_tokenize _ _ _).of_ok htokens
  | unforced _ hinject => exact (hlasting.keeps_inject _).of_error hinject
  | forced _ hinject => exact (hlasting.keeps_inject _).of_ok hinject

/-- **What lasts in a session** lasts along a generation. -/
theorem Reaches.keeps (hlasting : Session.Enduring engine lasts) (h : Reaches engine moment later) :
    lasts moment.session later.session := by
  apply h.preserves
  · intro before after hmove hbefore
    exact hlasting.trans hbefore (hmove.keeps hlasting)
  · intro before hbefore
    exact hlasting.trans hbefore (hlasting.stop _)
  · exact hlasting.refl _

end Lasts

section Worker

variable {engine : Engine σ} {moment later : Moment σ} {options : StreamOptions}

/-- **A move is an act of the worker.** -/
theorem Move.act (h : Move engine moment later) : ∃ text, moment.worker.Act text later.worker := by
  have hsame := moment.worker.sameOutput_refl
  have hunmasked := moment.worker.sameOutput_unmasked
  have hmarked : moment.worker.SameOutput { moment.worker with injected := true } := ⟨rfl, rfl, rfl⟩
  cases h with
  | deliver hstage => exact ⟨_, .deliver hstage⟩
  | heed | enter | silent | drawn | decoded => exact ⟨_, .rest hsame⟩
  | ended => exact ⟨_, .rest hunmasked⟩
  | marked => exact ⟨_, .rest hmarked⟩
  | budget hstage | full hstage | finished hstage => exact ⟨_, .finish hsame hstage (by simp)⟩
  | stopped hstage => exact ⟨_, .finish hunmasked hstage (by simp)⟩
  | undrawn hstage | undecoded hstage | unforced hstage => exact ⟨_, .fail hsame hstage _⟩
  | untold hstage => exact ⟨_, .fail hunmasked hstage _⟩
  | unmarked hstage => exact ⟨_, .fail hmarked hstage _⟩
  | told hstage => exact ⟨_, .produce hunmasked hstage _⟩
  | forced hstage => exact ⟨_, .force hsame hstage _⟩

/-- A move keeps the channels in step with the text that the router was handed. -/
theorem Move.follows {text : List Char} (hfollows : Worker.Follows options text moment.worker)
    (h : Move engine moment later) : ∃ text, Worker.Follows options text later.worker := by
  obtain ⟨more, hact⟩ := h.act
  exact ⟨text ++ more, hfollows.act hact⟩

theorem Move.eos_eq (h : Move engine moment later) : later.worker.eos = moment.worker.eos := by
  cases h <;> rfl

theorem Reaches.follows (h : Reaches engine moment later)
    (hfollows : ∃ text, Worker.Follows options text moment.worker) :
    ∃ text, Worker.Follows options text later.worker := by
  apply h.preserves
  · intro before after hmove hbefore
    obtain ⟨text, htext⟩ := hbefore
    exact hmove.follows htext
  · intro before hbefore
    exact hbefore
  · exact hfollows

theorem Reaches.eos_eq (h : Reaches engine moment later) :
    later.worker.eos = moment.worker.eos := by
  apply h.preserves
  · intro before after hmove hbefore
    rw [hmove.eos_eq, hbefore]
  · intro before hbefore
    exact hbefore
  · rfl

end Worker

/-! ## Section 5: The end -/

/-- The number of moves that are left at most.  A round that counts a token is worth seven moves,
    and so is the one that forces the end of thinking. -/
def movesLeft (moment : Moment σ) : Nat :=
  let rounds := moment.worker.options.maxNewTokens - moment.worker.produced
  let later := moment.worker.options.maxNewTokens - (moment.worker.produced + 1)
  let marker := if moment.worker.injected then 0 else 1
  match moment.worker.stage, moment.point with
  | .done _, _ => 0
  | .sending _, _ => 7 * (rounds + marker) + 2
  | .predicting, .head => 7 * (rounds + marker) + 1
  | .predicting, .drawing => 7 * (later + marker) + 6
  | .predicting, .drawn _ => 7 * (later + marker) + 5
  | .predicting, .predicted _ => 7 * (later + marker) + 4
  | .predicting, .ended => 7 * (later + marker) + 3
  | .predicting, .forcing _ _ => 7 * (later + marker) + 9

theorem Move.movesLeft_lt {engine : Engine σ} {moment later : Moment σ}
    (h : Move engine moment later) : later.movesLeft < moment.movesLeft := by
  cases h with
  | deliver hstage =>
    simp only [movesLeft, hstage, Worker.deliver]
    exact Nat.lt_succ_self _
  | budget hstage => simp [movesLeft, hstage, Worker.finish]
  | heed hstage hroom =>
    simp only [movesLeft, hstage]
    omega
  | enter hstage hroom =>
    simp only [movesLeft, hstage]
    omega
  | undrawn hstage => simp [movesLeft, hstage, Worker.fail]
  | silent hstage => simp [movesLeft, hstage]
  | drawn hstage => simp [movesLeft, hstage]
  | undecoded hstage => simp [movesLeft, hstage, Worker.fail]
  | decoded hstage => simp [movesLeft, hstage]
  | stopped hstage => simp [movesLeft, hstage, Worker.finish]
  | ended hstage => simp [movesLeft, hstage, Worker.unmasked]
  | untold hstage => simp [movesLeft, hstage, Worker.fail]
  | told hstage => simp [movesLeft, hstage, Worker.produce, Worker.route, Worker.unmasked]
  | full hstage => simp [movesLeft, hstage, Worker.finish]
  | finished hstage => simp [movesLeft, hstage, Worker.finish]
  | unmarked hstage => simp [movesLeft, hstage, Worker.fail]
  | marked hstage _ hmarker =>
    -- the end of thinking was not forced before
    simp [movesLeft, hstage, Worker.forcedEnd?_injected hmarker]
    omega
  | unforced hstage => simp [movesLeft, hstage, Worker.fail]
  | forced hstage =>
    simp only [movesLeft, hstage, Worker.deliver, Worker.route]
    omega

/-- **Every generation ends**: from any moment before its end it comes to the last one. -/
theorem exists_last (engine : Engine σ) {moment : Moment σ} (h : moment.isDone = false) :
    ∃ last, Reaches engine moment last ∧ last.isDone = false ∧ (last.go engine).isDone = true := by
  induction hleft : moment.movesLeft using Nat.strong_induction_on generalizing moment with
  | _ left ih =>
    subst hleft
    cases hnext : (moment.go engine).isDone with
    | true => exact ⟨moment, .refl, h, hnext⟩
    | false =>
      obtain ⟨last, hreaches, hlast⟩ := ih _ (go_move engine h).movesLeft_lt hnext rfl
      exact ⟨last, (Reaches.go .refl).trans hreaches, hlast⟩

end Moment

end Parley
