import Mathlib.Logic.Function.Iterate
import Parley.Engine.Tabulated
import Parley.Proofs.Session.Record
import Parley.Proofs.Stream.Moments

/-! # Stopping a streamed generation

    The worker looks at the request to stop at two points of a round: before it draws a token, and
    after the sequence has ended.  A stop may come between such a look and the decoding call that
    follows it, so one more token may be decoded, or the marker that ends thinking; then the worker
    looks again, and the generation ends.  What the router still holds is released, unless the round
    that was under way fails: `Moment.stop_ends_generation`.

    Between two looks it makes no difference when the stop comes: `Moment.go_stop`.
-/

namespace Parley

open Step

variable {σ α : Type}

/-! ## Section 1: When a stop comes

    Nothing but a look tells whether a stop was requested.  So a stop that comes in the course of a
    move, between two calls to the engine or within one, is a stop after the move. -/

namespace Session

/-- The step does not look at the flag: after a request to stop it does the same, and the request
    stands. -/
def Blind (step : SessionM σ α) : Prop := ∀ session, Mirrors stop step step session

theorem Blind.eq {step : SessionM σ α} (h : Blind step) (session : Session σ) :
    step session.stop = outcome stop (step session) := h session

theorem blind_pure (value : α) : Blind (pure value : SessionM σ α) := fun _ => rfl

theorem blind_throw (error : SessionError) : Blind (throw error : SessionM σ α) := fun _ => rfl

theorem Blind.bind {β : Type} {step : SessionM σ α} {next : α → SessionM σ β} (h : Blind step)
    (hnext : ∀ value, Blind (next value)) : Blind (step >>= next) :=
  fun session => (h session).bind fun value session => hnext value session

theorem blind_modify {change : Session σ → Session σ}
    (h : ∀ session, change session.stop = (change session).stop) :
    Blind (modify change : SessionM σ Unit) := by
  intro session
  show EStateM.Result.ok () (change session.stop) = .ok () (change session).stop
  rw [h]

/-- What is read of a session is not the flag. -/
theorem blind_get {next : Session σ → SessionM σ α} (h : ∀ session, Blind (next session))
    (hsame : ∀ session : Session σ, next session.stop = next session) : Blind (get >>= next) := by
  intro session
  show next session.stop session.stop = outcome stop (next session session)
  rw [hsame]
  exact h session session

theorem blind_ite {p : Prop} [Decidable p] {step other : SessionM σ α} (hthen : Blind step)
    (helse : Blind other) : Blind (if p then step else other) := by
  by_cases hp : p
  · rwa [if_pos hp]
  · rwa [if_neg hp]

theorem blind_attempt (run : σ → Reply σ α) : Blind (attempt run) := by
  intro session
  unfold Mirrors
  rw [attempt_eq, attempt_eq]
  rfl

theorem blind_tokenize (engine : Engine σ) (text : String) (addBos special : Bool) :
    Blind (onVocab (Vocabulary.tokenize engine text addBos special)) := by
  intro session
  have hengine : session.stop.vocab.engine = session.vocab.engine := rfl
  unfold Mirrors
  rw [onVocab_tokenize_eq, onVocab_tokenize_eq, hengine]
  cases (engine.tokenize text addBos special session.vocab.engine).result <;> rfl

theorem blind_decodeBatch (engine : Engine σ) (batch : Batch) :
    Blind (decodeBatch engine batch) := by
  have hfail : ∀ error, Blind ((do modify stop; throw error) : SessionM σ Unit) :=
    fun error => (blind_modify fun _ => rfl).bind fun _ => blind_throw error
  unfold decodeBatch
  refine (blind_attempt _).bind fun decoded => ?_
  cases decoded with
  | error error => exact hfail _
  | ok _ =>
    refine (blind_attempt _).bind fun scored => ?_
    cases scored with
    | error error => exact hfail _
    | ok logits => exact blind_modify fun _ => rfl

theorem blind_inject (engine : Engine σ) (tokens : List TokenId) :
    Blind (inject engine tokens) := by
  unfold inject
  refine blind_ite (blind_get (fun session => ?_) fun _ => rfl) (blind_pure _)
  exact blind_ite (blind_throw _) ((blind_decodeBatch engine _).bind fun _ =>
    blind_modify fun _ => rfl)

theorem blind_drawNext (engine : Engine σ) (excluding : TokenSet) :
    Blind (drawNext engine excluding) := by
  unfold drawNext pristine
  refine blind_get (fun session => blind_ite (blind_pure _) ?_) fun _ => rfl
  refine Blind.bind (blind_get (fun session => ?_) fun _ => rfl) fun scores => ?_
  · exact blind_ite (blind_throw _) (blind_pure _)
  refine Blind.bind (fun _ => rfl) fun drawn => ?_
  cases drawn with
  | error error => exact blind_throw _
  | ok token =>
    have hnote : Blind (modify (·.remember token) : SessionM σ Unit) := blind_modify fun _ => rfl
    have hstop : Blind (modify stop : SessionM σ Unit) := blind_modify fun _ => rfl
    refine hnote.bind fun _ => blind_get (fun session => ?_) fun _ => rfl
    refine blind_ite (hstop.bind fun _ => blind_pure _) ?_
    exact blind_ite (blind_pure _) (blind_pure _)

theorem blind_decodeNext (engine : Engine σ) (token : TokenId) :
    Blind (decodeNext engine token) := by
  unfold decodeNext
  refine blind_get (fun session => ?_) fun _ => rfl
  exact (blind_decodeBatch engine _).bind fun _ => blind_modify fun _ => rfl

end Session

/-- To ask for the text of a token is not to look at the flag. -/
theorem Vocabulary.blind_piece (engine : Engine σ) (token : TokenId) (special : Bool)
    (vocab : Vocabulary σ) :
    Mirrors (fun vocab => { vocab with stopped := true }) (piece engine token special)
      (piece engine token special) vocab := by
  unfold Mirrors piece
  rw [get_bind, get_bind]
  have htable : table { vocab with stopped := true } special = vocab.table special := by
    cases special <;> rfl
  cases isToken (engine.vocabSize vocab.engine) token with
  | false => rfl
  | true =>
    simp only [htable]
    cases (vocab.table special).get? token.toInt.toNat with
    | some piece => rfl
    | none =>
      have hask : Mirrors (fun vocab => { vocab with stopped := true })
          (ask (engine.piece token special)) (ask (engine.piece token special)) vocab := by
        unfold Mirrors
        rw [ask_eq, ask_eq]
        cases (engine.piece token special vocab.engine).result <;> rfl
      exact hask.bind fun piece vocab => by cases special <;> rfl

namespace Moment

/-- Whether the worker looks at the flag when it moves. -/
def looks (moment : Moment σ) : Bool :=
  match moment.worker.stage, moment.point with
  | .predicting, .head => moment.worker.produced < moment.worker.options.maxNewTokens
  | .predicting, .predicted token => token = moment.worker.eos
  | _, _ => false

/-- **When a stop comes** is not told by a move that does not look at the flag: to stop before it is
    to stop after it. -/
theorem go_stop (engine : Engine σ) {moment : Moment σ} (h : moment.looks = false) :
    moment.stop.go engine = (moment.go engine).stop := by
  obtain ⟨worker, session, point⟩ := moment
  unfold looks at h
  unfold go stop
  -- the points at which the worker looks are excluded; at the others its calls are blind
  cases hstage : worker.stage with
  | done summary => dsimp only
  | sending routed => dsimp only
  | predicting =>
    simp only [hstage] at h ⊢
    unfold goFrom
    cases point with
    | head =>
      have hspent : worker.options.maxNewTokens ≤ worker.produced := by simpa using h
      simp only [if_pos hspent]
    | drawing =>
      dsimp only
      rw [(Session.blind_drawNext engine worker.excluding).eq session]
      rcases session.drawNext engine worker.excluding with ⟨_ | token, later⟩ | ⟨error, later⟩ <;>
        rfl
    | drawn token =>
      dsimp only
      rw [(Session.blind_decodeNext engine token).eq session]
      cases session.decodeNext engine token <;> rfl
    | predicted token =>
      have htoken : token ≠ worker.eos := by simpa using h
      have hpiece : Vocabulary.piece engine token false session.stop.vocab = outcome _ _ :=
        Vocabulary.blind_piece engine token false session.vocab
      simp only [if_neg htoken]
      rw [hpiece]
      cases Vocabulary.piece engine token false session.vocab <;> rfl
    | ended =>
      have hremaining : session.stop.remaining engine = session.remaining engine := rfl
      dsimp only
      rw [hremaining]
      by_cases hfull : session.remaining engine = 0
      · simp only [if_pos hfull]
      simp only [if_neg hfull]
      cases worker.forcedEnd? with
      | none => rfl
      | some marker =>
        dsimp only
        rw [(Session.blind_tokenize engine marker false true).eq session]
        cases Session.onVocab (Vocabulary.tokenize engine marker false true) session <;> rfl
    | forcing marker tokens =>
      dsimp only
      rw [(Session.blind_inject engine tokens).eq session]
      cases session.inject engine tokens <;> rfl

end Moment

/-! ## Section 2: What the router holds -/

namespace Router

/-- The text held back, for the channel of the phase. -/
def held (router : Router) : Routed :=
  if router.isThinking then { thinking := router.pending } else { response := router.pending }

/-- What is released at the end is what is held. -/
theorem finish_eq_held {router : Router} (hwatchful : router.Watchful)
    (hpast : router.isPastThinking = true → router.pending = []) : router.finish = router.held := by
  unfold finish held
  cases hphase : router.phase with
  | inThinking => simp [isThinking, hphase]
  | searchingForStart =>
    -- no line breaks are dropped before the thinking
    simp [isThinking, hphase, respond_of_not_trimming (hwatchful.keepsBreaks hphase)]
  | disabled =>
    have hnothing : router.pending = [] := hpast (by simp [isPastThinking, hphase])
    simp [isThinking, hphase, hnothing]
  | inResponse =>
    have hnothing : router.pending = [] := hpast (by simp [isPastThinking, hphase])
    simp [isThinking, hphase, hnothing]

end Router

theorem Worker.Follows.finish_eq_held {options : StreamOptions} {text : List Char}
    {worker : Worker} (h : Worker.Follows options text worker) :
    worker.router.finish = worker.router.held := by
  rw [h.router_eq]
  apply Router.finish_eq_held
  · exact Router.step_watchful (Router.new_watchful _ _ _) text
  · exact Router.pending_of_isPastThinking

/-! ## Section 3: Decoding calls -/

/-- Whether the call feeds a batch into the context. -/
def Engine.Call.isDecode : Engine.Call → Bool
  | .decode _ => true
  | _ => false

/-- The number of decoding calls on record. -/
def Recorded.decodes (recorded : Recorded σ) : Nat :=
  recorded.events.countP (·.call.isDecode)

namespace Session

variable {engine : Engine σ}

/-- The number of decoding calls that the session has begun. -/
def decodes (session : Session (Recorded σ)) : Nat := session.vocab.engine.decodes

@[simp] theorem decodes_stop (session : Session (Recorded σ)) :
    session.stop.decodes = session.decodes := rfl

theorem decodes_note (call : Engine.Call) (run : σ → Reply σ α) (recorded : Recorded σ) :
    (Recorded.note call run recorded).state.decodes
      = recorded.decodes + if call.isDecode then 1 else 0 := by
  unfold Recorded.note Recorded.decodes
  rw [List.countP_append, List.countP_singleton]

/-- **A batch** is one decoding call, whether it succeeds or not. -/
theorem decodes_decodeBatch (engine : Engine σ) (batch : Batch) (session : Session (Recorded σ)) :
    (after (decodeBatch (Recorded.engine engine) batch) session).decodes = session.decodes + 1 := by
  have hdecode : ∀ session : Session (Recorded σ),
      (session.heard ((Recorded.engine engine).decode batch session.vocab.engine)).decodes
        = session.decodes + 1 := fun session => decodes_note _ _ _
  have hlogits : ∀ session : Session (Recorded σ),
      (session.heard ((Recorded.engine engine).logits session.vocab.engine)).decodes
        = session.decodes := fun session => decodes_note _ _ _
  unfold decodeBatch
  rw [after_bind_ok (attempt_eq _ session), ← hdecode session]
  generalize session.heard ((Recorded.engine engine).decode batch session.vocab.engine) = handed
  cases ((Recorded.engine engine).decode batch session.vocab.engine).result with
  | error error => rfl
  | ok _ =>
    dsimp only
    rw [after_bind_ok (attempt_eq _ handed), ← hlogits handed]
    cases ((Recorded.engine engine).logits handed.vocab.engine).result <;> rfl

/-- What is noted behind a batch is no decoding call. -/
theorem decodes_batch (batch : Batch) (position : Session (Recorded σ) → Nat)
    (session : Session (Recorded σ)) :
    (after (decodeBatch (Recorded.engine engine) batch >>= fun _ =>
      modify fun session => { session with position := position session }) session).decodes
      = session.decodes + 1 := by
  have hbatch := decodes_decodeBatch engine batch session
  cases hstep : decodeBatch (Recorded.engine engine) batch session with
  | ok _ later =>
    rw [after_ok hstep] at hbatch
    rw [after_bind_ok hstep]
    exact hbatch
  | error error later =>
    rw [after_error hstep] at hbatch
    rwa [after_bind_error hstep]

/-- At most `count` decoding calls were begun. -/
def Begins (count : Nat) (before later : Session (Recorded σ)) : Prop :=
  later.decodes ≤ before.decodes + count

theorem begins_decodeNext (token : TokenId) (session : Session (Recorded σ)) :
    Keeps (Begins 1) (decodeNext (Recorded.engine engine) token) session :=
  Nat.le_of_eq (decodes_batch (Batch.single token session.position)
    (fun session => session.position + 1) session)

theorem begins_inject (tokens : List TokenId) (session : Session (Recorded σ)) :
    Keeps (Begins 1) (inject (Recorded.engine engine) tokens) session := by
  have hnone : Begins 1 session session := Nat.le_succ _
  unfold inject
  refine keeps_ite (fun _ => keeps_get ?_) fun _ => hnone
  refine keeps_ite (fun _ => hnone) fun _ => ?_
  exact Nat.le_of_eq (decodes_batch _ (fun _ => session.position + tokens.length) session)

theorem begins_tokenize (text : String) (addBos special : Bool) (session : Session (Recorded σ)) :
    Keeps (Begins 0) (onVocab (Vocabulary.tokenize (Recorded.engine engine) text addBos special))
      session := by
  have hcall : (session.heard ((Recorded.engine engine).tokenize text addBos special
      session.vocab.engine)).decodes = session.decodes := decodes_note _ _ _
  unfold Keeps after
  rw [onVocab_tokenize_eq]
  cases ((Recorded.engine engine).tokenize text addBos special session.vocab.engine).result <;>
    exact Nat.le_of_eq hcall

/-- To ask for the text of a token is to make no decoding call. -/
theorem begins_piece (token : TokenId) (special : Bool) (session : Session (Recorded σ)) :
    Keeps (fun _ vocab => Begins 0 session { session with vocab })
      (Vocabulary.piece (Recorded.engine engine) token special) session.vocab := by
  apply Vocabulary.keeps_piece_of_heard token special (Nat.le_refl _)
  intro later hengine _
  have hcall : later.engine.decodes = session.vocab.engine.decodes := by
    rw [hengine]
    exact decodes_note _ _ _
  exact Nat.le_of_eq hcall

/-- To draw is to make no call to the engine. -/
theorem engine_drawNext (excluding : TokenSet) (session : Session σ) :
    Keeps (fun before later => later.vocab.engine = before.vocab.engine)
      (drawNext engine excluding) session := by
  have htrans : ∀ {first second third : Session σ},
      second.vocab.engine = first.vocab.engine → third.vocab.engine = second.vocab.engine →
      third.vocab.engine = first.vocab.engine := fun h hnext => hnext.trans h
  unfold drawNext pristine
  refine keeps_get (keeps_ite (fun _ => rfl) fun _ => ?_)
  refine Keeps.bind htrans (keeps_get (keeps_ite (fun _ => rfl) fun _ => rfl))
    fun scores session => ?_
  refine Keeps.bind htrans rfl fun drawn session => ?_
  cases drawn with
  | error error => exact rfl
  | ok token =>
    refine Keeps.bind htrans rfl fun _ session => keeps_get ?_
    exact keeps_ite (fun _ => rfl) fun _ => keeps_ite (fun _ => rfl) fun _ => rfl

theorem begins_drawNext (excluding : TokenSet) (session : Session (Recorded σ)) :
    Keeps (Begins 0) (drawNext (Recorded.engine engine) excluding) session :=
  Nat.le_of_eq (congrArg Recorded.decodes (engine_drawNext excluding session))

end Session

namespace Moment

/-- The number of decoding calls that the generation has begun. -/
def decodes (moment : Moment (Recorded σ)) : Nat := moment.session.decodes

/-- The number of decoding calls that the worker may still begin before it looks at the flag. -/
def due (moment : Moment σ) : Nat :=
  match moment.worker.stage, moment.point with
  | .predicting, .drawing => 1
  | .predicting, .drawn _ => 1
  | .predicting, .ended => 1
  | .predicting, .forcing _ _ => 1
  | _, _ => 0

section Stopped

variable {engine : Engine σ} {moment later : Moment (Recorded σ)}

/-- **After a stop** a move begins no decoding call but one that was due. -/
theorem Move.decodes_le (h : Move (Recorded.engine engine) moment later)
    (hstopped : moment.isStopped = true) :
    later.decodes + later.due ≤ moment.decodes + moment.due := by
  cases h with
  | deliver hstage => simp [due, hstage, Worker.deliver, decodes]
  | budget hstage => simp [due, hstage, Worker.finish, decodes]
  | heed hstage => simp [due, hstage, decodes]
  | enter _ _ hgoing | ended _ hgoing =>
    -- the worker looks, and does not go on
    rw [isStopped, hgoing] at hstopped
    contradiction
  | undrawn hstage hdraw =>
    have hbegins := (Session.begins_drawNext _ _).of_error hdraw
    simpa [due, hstage, Worker.fail, decodes, Session.Begins] using Nat.le_succ_of_le hbegins
  | silent hstage hdraw =>
    have hbegins := (Session.begins_drawNext _ _).of_ok hdraw
    simpa [due, hstage, decodes, Session.Begins] using Nat.le_succ_of_le hbegins
  | drawn hstage hdraw =>
    have hbegins := (Session.begins_drawNext _ _).of_ok hdraw
    simpa [due, hstage, decodes, Session.Begins] using hbegins
  | undecoded hstage hdecode =>
    have hbegins := (Session.begins_decodeNext _ _).of_error hdecode
    simpa [due, hstage, Worker.fail, decodes, Session.Begins] using hbegins
  | decoded hstage hdecode =>
    have hbegins := (Session.begins_decodeNext _ _).of_ok hdecode
    simpa [due, hstage, decodes, Session.Begins] using hbegins
  | stopped hstage => simp [due, hstage, Worker.finish, decodes]
  | untold hstage _ hpiece =>
    have hbegins := (Session.begins_piece _ _ _).of_error hpiece
    simpa [due, hstage, Worker.fail, decodes, Session.Begins] using hbegins
  | told hstage _ hpiece =>
    have hbegins := (Session.begins_piece _ _ _).of_ok hpiece
    simpa [due, hstage, Worker.produce, decodes, Session.Begins] using hbegins
  | full hstage => simp [due, hstage, Worker.finish, decodes]
  | finished hstage => simp [due, hstage, Worker.finish, decodes]
  | unmarked hstage _ _ htokens =>
    have hbegins := (Session.begins_tokenize _ _ _ _).of_error htokens
    simpa [due, hstage, Worker.fail, decodes, Session.Begins] using Nat.le_succ_of_le hbegins
  | marked hstage _ _ htokens =>
    have hbegins := (Session.begins_tokenize _ _ _ _).of_ok htokens
    simpa [due, hstage, decodes, Session.Begins] using hbegins
  | unforced hstage hinject =>
    have hbegins := (Session.begins_inject _ _).of_error hinject
    simpa [due, hstage, Worker.fail, decodes, Session.Begins] using hbegins
  | forced hstage hinject =>
    have hbegins := (Session.begins_inject _ _).of_ok hinject
    simpa [due, hstage, Worker.deliver, decodes, Session.Begins] using hbegins

end Stopped

/-! ## Section 4: After a stop -/

section Runs

variable {engine : Engine σ} {moment later last : Moment σ}

theorem Reaches.isStopped (h : Reaches engine moment later) (hstopped : moment.isStopped = true) :
    later.isStopped = true :=
  h.keeps (Session.enduring_staysStopped engine) hstopped

/-- To ask for a stop twice is to ask once. -/
theorem stop_eq_self (h : moment.isStopped = true) : moment.stop = moment := by
  obtain ⟨worker, session, point⟩ := moment
  have hstopped : session.vocab.stopped = true := h
  have hvocab : { session.vocab with stopped := true } = session.vocab := by
    rw [← hstopped]
  show Moment.mk worker { session with vocab := { session.vocab with stopped := true } } point = _
  rw [hvocab]

/-- **After a stop** nothing is left to chance: the worker moves, and no more can be asked of it. -/
theorem Reaches.eq_iterate (h : Reaches engine moment later) (hstopped : moment.isStopped = true) :
    ∃ count, later = (Moment.go engine)^[count] moment := by
  induction h with
  | refl => exact ⟨0, rfl⟩
  | go _ ih =>
    obtain ⟨count, hcount⟩ := ih
    exact ⟨count + 1, by rw [Function.iterate_succ_apply', hcount]⟩
  | stop hreaches ih =>
    rwa [stop_eq_self (hreaches.isStopped hstopped)]

theorem reaches_iterate (engine : Engine σ) (count : Nat) (moment : Moment σ) :
    Reaches engine moment ((Moment.go engine)^[count] moment) := by
  induction count with
  | zero => exact .refl
  | succ count ih =>
    rw [Function.iterate_succ_apply']
    exact .go ih

/-- From the end no move leads away. -/
theorem iterate_of_isDone (h : last.isDone = true) (count : Nat) :
    (Moment.go engine)^[count] last = last :=
  Function.iterate_fixed (go_of_isDone engine h) count

/-- **A stopped generation has one end**, however it goes on. -/
theorem Reaches.of_isDone (hstopped : moment.isStopped = true) (hlast : Reaches engine moment last)
    (hdone : last.isDone = true) (h : Reaches engine moment later) : Reaches engine later last := by
  obtain ⟨most, rfl⟩ := hlast.eq_iterate hstopped
  obtain ⟨count, rfl⟩ := h.eq_iterate hstopped
  by_cases hcount : count ≤ most
  · -- the end is still ahead
    obtain ⟨more, rfl⟩ := Nat.exists_eq_add_of_le' hcount
    rw [Function.iterate_add_apply]
    exact reaches_iterate engine more _
  · -- the end is passed, and nothing has happened since
    obtain ⟨more, rfl⟩ := Nat.exists_eq_add_of_le' (Nat.le_of_not_le hcount)
    rw [Function.iterate_add_apply, iterate_of_isDone hdone]
    exact .refl

theorem Reaches.eq_of_isDone (hstopped : moment.isStopped = true) (h : Reaches engine moment later)
    (hdone : moment.isDone = true) : later = moment := by
  obtain ⟨count, rfl⟩ := h.eq_iterate hstopped
  exact iterate_of_isDone hdone count

end Runs

theorem Reaches.decodes_le {engine : Engine σ} {moment later : Moment (Recorded σ)}
    (h : Reaches (Recorded.engine engine) moment later) (hstopped : moment.isStopped = true) :
    later.decodes + later.due ≤ moment.decodes + moment.due := by
  induction h with
  | refl => exact Nat.le_refl _
  | stop hreaches ih => rwa [stop_eq_self (hreaches.isStopped hstopped)]
  | @go before hreaches ih =>
    cases hdone : before.isDone with
    | true => rwa [go_of_isDone _ hdone]
    | false => exact ((go_move _ hdone).decodes_le (hreaches.isStopped hstopped)).trans ih

end Moment

/-! ## Section 5: One end of the sequence -/

/-- **One end of the sequence.**  No call changes the token that ends a sequence. -/
structure Engine.KeepsEos (engine : Engine σ) : Prop where
  tokenize : ∀ text addBos special state,
    engine.eos (engine.tokenize text addBos special state).state = engine.eos state
  piece : ∀ token special state,
    engine.eos (engine.piece token special state).state = engine.eos state
  decode : ∀ batch state, engine.eos (engine.decode batch state).state = engine.eos state
  logits : ∀ state, engine.eos (engine.logits state).state = engine.eos state
  clear : ∀ state, engine.eos (engine.clear state).state = engine.eos state

theorem Engine.KeepsEos.recorded {engine : Engine σ} (keeps : engine.KeepsEos) :
    (Recorded.engine engine).KeepsEos where
  tokenize text addBos special recorded := keeps.tokenize text addBos special recorded.state
  piece token special recorded := keeps.piece token special recorded.state
  decode batch recorded := keeps.decode batch recorded.state
  logits recorded := keeps.logits recorded.state
  clear recorded := keeps.clear recorded.state

/-- The token that ends a sequence is written down with the tables. -/
theorem Tabulated.keepsEos : Tabulated.engine.KeepsEos where
  tokenize _ _ _ _ := rfl
  piece _ _ _ := rfl
  decode batch table := by
    show (table.decode batch).2.eos = table.eos
    unfold Tabulated.decode
    split <;> rfl
  logits _ := rfl
  clear table := by
    show table.clear.2.eos = table.eos
    unfold Tabulated.clear
    split <;> rfl

namespace Moment

theorem enduring_eos {engine : Engine σ} (keeps : engine.KeepsEos) :
    Session.Enduring engine fun before later => later.eos engine = before.eos engine where
  refl _ := rfl
  trans h hnext := hnext.trans h
  stop _ := rfl
  note _ _ _ _ := rfl
  draw _ _ := rfl
  tokenize text addBos special session := keeps.tokenize text addBos special session.vocab.engine
  decode batch session := keeps.decode batch session.vocab.engine
  logits session := keeps.logits session.vocab.engine
  clear session := keeps.clear session.vocab.engine
  piece token session := by
    apply Session.keeps_onVocab
    refine Vocabulary.keeps_piece_of_heard token false (by rfl) ?_
    intro later hengine _
    show engine.eos later.engine = engine.eos session.vocab.engine
    rw [hengine]
    exact keeps.piece token false session.vocab.engine

section Heeded

variable {engine : Engine σ} {moment : Moment σ}

theorem isBetween_iff :
    moment.isBetween = true ↔ moment.worker.stage = .predicting ∧ moment.point = .head := by
  obtain ⟨worker, session, point⟩ := moment
  unfold isBetween
  cases worker.stage <;> cases point <;> simp

/-- **At the head of the loop a stop is heeded**: the generation ends, and has not failed. -/
theorem go_go_of_isBetween (hbetween : moment.isBetween = true) (hstopped : moment.isStopped = true)
    (heos : moment.session.eos engine = moment.worker.eos) :
    ∃ summary, ((moment.go engine).go engine).worker.stage = .done summary
      ∧ summary.isOk = true := by
  obtain ⟨hstage, hpoint⟩ := isBetween_iff.mp hbetween
  obtain ⟨worker, session, point⟩ := moment
  dsimp only at hstage hpoint heos
  subst hpoint
  have hseen : session.isStopped = true := hstopped
  by_cases hspent : worker.options.maxNewTokens ≤ worker.produced
  · have hgo : go engine ⟨worker, session, .head⟩ = ⟨worker.finish .length, session, .head⟩ := by
      simp only [go, hstage, goFrom, if_pos hspent]
    rw [hgo, go_of_isDone engine rfl]
    exact ⟨_, rfl, rfl⟩
  · have hgo : go engine ⟨worker, session, .head⟩ = ⟨worker, session, .predicted worker.eos⟩ := by
      simp only [go, hstage, goFrom, if_neg hspent, if_pos hseen, heos]
    have hend : go engine ⟨worker, session, .predicted worker.eos⟩
        = ⟨worker.unmasked.finish .stopped, session, .head⟩ := by
      simp only [go, hstage, goFrom, if_true, if_pos hseen]
    rw [hgo, hend]
    exact ⟨_, rfl, rfl⟩

end Heeded

/-! ## Section 6: The end of a stopped generation -/

/-- **The end of a generation** that was asked to stop at `moment`: `last` is the last moment before
    it, and `summary` is what the call returns. -/
structure Ending (engine : Engine σ) (moment last : Moment (Recorded σ)) (summary : Summary) :
    Prop where
  reached : Reaches (Recorded.engine engine) moment last
  going : last.isDone = false
  ended : (last.go (Recorded.engine engine)).worker.stage = .done summary
  /-- There is no other end. -/
  only : ∀ later, Reaches (Recorded.engine engine) moment later →
    Reaches (Recorded.engine engine) later (last.go (Recorded.engine engine))
  /-- One more decoding call begins at most. -/
  decodes : (last.go (Recorded.engine engine)).decodes ≤ moment.decodes + 1
  /-- If the generation does not fail, what the router holds is released to its channel. -/
  released : summary.isOk = true →
    summary.texts = last.worker.channels.texts.append last.worker.router.held
  /-- The chunks of the two channels make up the two texts. -/
  thinking : String.join (last.go (Recorded.engine engine)).worker.channels.thinkingChunks
    = summary.thinking
  response : String.join (last.go (Recorded.engine engine)).worker.channels.responseChunks
    = summary.response

theorem exists_summary {moment : Moment σ} (h : moment.isDone = true) :
    ∃ summary, moment.worker.stage = .done summary := by
  unfold isDone at h
  cases hstage : moment.worker.stage with
  | done summary => exact ⟨summary, rfl⟩
  | predicting => simp [hstage] at h
  | sending routed => simp [hstage] at h

section Released

variable {engine : Engine σ} {moment later : Moment σ} {options : StreamOptions} {text : List Char}
  {summary : Summary}

theorem texts_of_finish {worker : Worker} {finish : Finish}
    (h : (worker.finish finish).stage = .done summary) :
    summary.texts = worker.channels.texts.append worker.router.finish := by
  cases h
  exact Channels.send_texts _ _

theorem isOk_of_fail {worker : Worker} {error : StreamError}
    (h : (worker.fail error).stage = .done summary) : summary.isOk = false := by
  cases h
  rfl

/-- **The last move** of a generation that does not fail releases what the router holds. -/
theorem Move.released (hfollows : Worker.Follows options text moment.worker)
    (h : Move engine moment later) (hdone : later.worker.stage = .done summary)
    (hok : summary.isOk = true) :
    summary.texts = moment.worker.channels.texts.append moment.worker.router.held := by
  have hfailed : ∀ {worker : Worker} {error : StreamError},
      (worker.fail error).stage = .done summary → False := by
    intro worker error hfail
    rw [isOk_of_fail hfail] at hok
    contradiction
  rw [← hfollows.finish_eq_held]
  cases h with
  | budget | stopped | full | finished => exact texts_of_finish hdone
  | undrawn | undecoded | untold | unmarked | unforced => exact (hfailed hdone).elim
  | deliver | told | forced => contradiction
  | heed hstage | enter hstage | silent hstage | drawn hstage | decoded hstage | ended hstage
  | marked hstage =>
    exact absurd (hstage.symm.trans hdone) (by simp)

theorem chunks_eq {worker : Worker} (hfollows : Worker.Follows options text worker)
    (hdone : worker.stage = .done summary) :
    String.join worker.channels.thinkingChunks = summary.thinking
      ∧ String.join worker.channels.responseChunks = summary.response := by
  have haccounts := hfollows.accounts
  unfold Worker.Accounts at haccounts
  rw [hdone] at haccounts
  obtain ⟨-, hthinking, hresponse⟩ := haccounts
  rw [hthinking, hresponse]
  exact ⟨hfollows.delivered.thinking, hfollows.delivered.response⟩

end Released

/-- A generation that was asked to stop comes to its end. -/
theorem exists_ending (engine : Engine σ) {options : StreamOptions}
    {moment : Moment (Recorded σ)} (hfollows : ∃ text, Worker.Follows options text moment.worker)
    (hgoing : moment.isDone = false) (hstopped : moment.isStopped = true) :
    ∃ last summary, Ending engine moment last summary := by
  obtain ⟨last, hreaches, hlast, hdone⟩ := exists_last (Recorded.engine engine) hgoing
  obtain ⟨summary, hsummary⟩ := exists_summary hdone
  obtain ⟨text, htext⟩ := hreaches.follows hfollows
  obtain ⟨more, hmore⟩ := (go_move _ hlast).follows htext
  obtain ⟨hthinking, hresponse⟩ := chunks_eq hmore hsummary
  -- what is due at the moment of the stop is the one decoding call that may still begin
  have hdecodes := hreaches.go.decodes_le hstopped
  have hdue : moment.due ≤ 1 := by
    unfold due
    split <;> omega
  refine ⟨last, summary, hreaches, hlast, hsummary, ?_, ?_, ?_, hthinking, hresponse⟩
  · intro later hlater
    exact Reaches.of_isDone hstopped hreaches.go hdone hlater
  · omega
  · exact (go_move _ hlast).released htext hsummary

/-- **Off record** the worker comes to the same. -/
theorem run_offRecord (engine : Engine σ) (stopAfter : Nat → Bool) (worker : Worker)
    (session : Session (Recorded σ)) :
    worker.run engine stopAfter session.offRecord
      = ((worker.run (Recorded.engine engine) stopAfter session).1,
        (worker.run (Recorded.engine engine) stopAfter session).2.offRecord) := by
  obtain ⟨hworker, hsession⟩ := Worker.abreast_run (Session.recorded_extends engine).coupled
    (fun token _ _ h => Session.couples_piece_recorded engine token false h) stopAfter worker
    (Engine.Extends.alike_project Recorded.state session)
  exact Prod.ext hworker.symm (Engine.Extends.eq_project hsession).symm

/-- **A stop ends a generation.**  On record, the worker goes through moments to where it comes off
    record.  If a stop was requested at one of them, the generation comes to its end: one more
    decoding call begins at most, and what the router holds is released unless the generation fails.

    As long as the engine has one end of the sequence, the generation ends the next time that the
    head of the loop is reached, and has not failed.  So it fails only in the round that was under
    way when the stop came. -/
theorem stop_ends_generation (engine : Engine σ) (session : Session σ) (options : StreamOptions)
    (timer : Timer) :
    let recorded := Recorded.engine engine
    let start := first recorded session.onRecord options timer
    (∀ stopAfter, ∃ last, Reaches recorded start last ∧ last.isDone = true
      ∧ (Worker.start engine session options timer).run engine stopAfter session
        = (last.worker, last.session.offRecord))
    ∧ ∀ moment, Reaches recorded start moment → moment.isDone = false → moment.isStopped = true →
      ∃ last summary, Ending engine moment last summary
        ∧ (engine.KeepsEos → ∀ between, Reaches recorded moment between →
          between.isBetween = true →
            (between.go recorded).go recorded = last.go recorded ∧ summary.isOk = true) := by
  intro recorded start
  constructor
  · intro stopAfter
    obtain ⟨summary, hsummary⟩ := Worker.run_done recorded stopAfter start.worker session.onRecord
    refine ⟨_, reaches_run recorded stopAfter start.worker session.onRecord, ?_, ?_⟩
    · simp only [isDone, hsummary]
    · exact run_offRecord engine stopAfter start.worker session.onRecord
  · intro moment hreaches hgoing hstopped
    have hfollows : ∃ text, Worker.Follows options text moment.worker :=
      hreaches.follows ⟨[], Worker.start_follows recorded session.onRecord options timer⟩
    obtain ⟨last, summary, hending⟩ := exists_ending engine hfollows hgoing hstopped
    refine ⟨last, summary, hending, ?_⟩
    intro keeps between hbetween hhead
    -- the token that ends the sequence is the one that the worker has known from the start
    have heos : between.session.eos recorded = between.worker.eos := by
      have hfrom := hreaches.trans hbetween
      rw [hfrom.eos_eq, hfrom.keeps (enduring_eos keeps.recorded)]
      rfl
    obtain ⟨result, hresult, hok⟩ :=
      go_go_of_isBetween hhead (hbetween.isStopped hstopped) heos
    -- two moves from the head of the loop lead to an end, and there is only one
    have hdone : ((between.go recorded).go recorded).isDone = true := by
      simp only [isDone, hresult]
    have hend := hbetween.go.go
    have hsame : (between.go recorded).go recorded = last.go recorded :=
      ((hending.only _ hend).eq_of_isDone (hend.isStopped hstopped) hdone).symm
    rw [hsame, hending.ended] at hresult
    cases hresult
    exact ⟨hsame, hok⟩

/-- An engine that writes the beginning of a marker, letter by letter. -/
def hesitant : Tabulated where
  pieces := [['^'], ['$'], ['h'], ['<'], ['t']]
  rows := [[(3, 5)], [(4, 5)]]

/-- A session over it, primed with one letter. -/
def hesitantSession : Session Tabulated :=
  after (Session.prepareContext Tabulated.engine "h") (Session.new hesitant .greedy)

/-- The stop comes between the draw of the second letter and its decoding, while the router holds
    the first.  The second is decoded still and held too, and then both are released. -/
theorem stop_ends_generation_held :
    let recorded := Recorded.engine Tabulated.engine
    let options : StreamOptions := { startMarker := some "<t>", endMarker := some "</t>" }
    let start := first recorded hesitantSession.onRecord options {}
    let moment := ((go recorded)^[7] start).stop
    Reaches recorded start moment ∧ moment.isDone = false ∧ moment.isStopped = true
      ∧ moment.due = 1 ∧ moment.worker.router.held = { response := ['<'] }
      ∧ Tabulated.engine.KeepsEos
      ∧ ∃ last summary, Ending Tabulated.engine moment last summary ∧ summary.isOk = true
        ∧ (last.go recorded).decodes = moment.decodes + 1 ∧ summary.response = "<t" := by
  intro recorded options start moment
  have hreaches : Reaches recorded start moment := (reaches_iterate recorded 7 start).stop
  have hstopped : moment.isDone = false ∧ moment.isStopped = true ∧ moment.due = 1
      ∧ moment.worker.router.held = { response := ['<'] } := by decide +kernel
  obtain ⟨hgoing, hflag, hdue, hheld⟩ := hstopped
  obtain ⟨-, hends⟩ := stop_ends_generation Tabulated.engine hesitantSession options {}
  obtain ⟨last, summary, hending, hheeded⟩ := hends moment hreaches hgoing hflag
  -- the letter is decoded, counted and sent, and the worker is back at the head of its loop
  let between := (go recorded)^[3] moment
  have hbetween : between.isBetween = true := by decide +kernel
  obtain ⟨hlast, hok⟩ :=
    hheeded Tabulated.keepsEos between (reaches_iterate recorded 3 moment) hbetween
  have hdecodes : ((between.go recorded).go recorded).decodes = moment.decodes + 1 := by
    decide +kernel
  have hchunks : ((between.go recorded).go recorded).worker.channels.responseChunks = ["<t"] := by
    decide +kernel
  rw [hlast] at hdecodes hchunks
  have hresponse : summary.response = "<t" := by
    rw [← hending.response, hchunks]
    rfl
  exact ⟨hreaches, hgoing, hflag, hdue, hheld, Tabulated.keepsEos, last, summary, hending, hok,
    hdecodes, hresponse⟩

end Moment

end Parley
