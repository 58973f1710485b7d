import Parley.Proofs.Client.History
import Parley.Proofs.Conversation.History
import Parley.Proofs.Session.Journal
import Parley.Proofs.Stream.Stopping

/-! # Priming a conversation

    A turn is primed by attempts: an attempt empties the context, tokenizes the prompt, and feeds it
    if it fits.  A prompt that does not fit is refused, the oldest turn of the history is dropped,
    and the next attempt follows.  Every other outcome ends the priming.

    The tokens of a prompt may have any length, whatever the history, so it is the order of the
    attempts that makes the number of dropped turns the least one.  The calls of an attempt are read
    off the record of the engine.  The main statement is `Client.priming_drops_least`. -/

namespace Parley

open Step

variable {σ : Type}

/-! ## Section 1: Engines and attempts -/

/-- **Filling the context.**  Emptying the context empties it and feeding a batch appends it, if
    they succeed; and a text has the tokens `tokens`, whatever was done before. -/
structure Engine.Fills (engine : Engine σ) (context : σ → List TokenId)
    (tokens : String → (addBos special : Bool) → Except EngineError (List TokenId)) : Prop where
  clear : ∀ state, (engine.clear state).result.isOk = true →
    context (engine.clear state).state = []
  tokenize : ∀ text addBos special state,
    (engine.tokenize text addBos special state).result = tokens text addBos special
      ∧ context (engine.tokenize text addBos special state).state = context state
  decode : ∀ batch state, (engine.decode batch state).result.isOk = true →
    context (engine.decode batch state).state = context state ++ batch.tokens
  logits : ∀ state, context (engine.logits state).state = context state

/-- Whether a prompt was refused for lack of room. -/
def SessionError.isOverflow : SessionError → Bool
  | .contextOverflow _ _ => true
  | _ => false

/-- Whether the call begins an attempt: it empties the context. -/
def Engine.Event.beginsAttempt (event : Engine.Event) : Bool := event.call = .clear

/-- The calls of an attempt whose prompt does not fit. -/
def refusal : List Engine.Event := [⟨.clear, true⟩, ⟨.tokenize, true⟩]

/-- The calls of an attempt whose prompt of `count` tokens is fed. -/
def feeding (count : Nat) : List Engine.Event :=
  refusal ++ [⟨.decode count, true⟩, ⟨.logits, true⟩]

/-- **An attempt** to prime a context for `capacity` tokens with a prompt whose tokens are `answer`:
    its calls, its result, and the tokens that are in the context if it succeeds. -/
inductive Attempt (answer : Except EngineError (List TokenId)) (capacity : Nat) :
    List Engine.Event → Except SessionError Nat → List TokenId → Prop
  /-- The prompt is fed. -/
  | fits {tokens : List TokenId} (hanswer : answer = .ok tokens)
    (hfits : tokens.length ≤ capacity) :
    Attempt answer capacity (feeding tokens.length) (.ok tokens.length) tokens
  /-- The prompt does not fit, and nothing is fed. -/
  | refused {tokens held : List TokenId} (hanswer : answer = .ok tokens)
    (hfull : capacity < tokens.length) :
    Attempt answer capacity refusal (.error (.contextOverflow tokens.length capacity)) held
  /-- Something else is wrong, and no call follows one that failed. -/
  | failed {calls : List Engine.Event} {error : SessionError} {held : List TokenId}
    (hother : error.isOverflow = false) (hone : calls.countP (·.beginsAttempt) = 1)
    (hlast : ∀ event ∈ calls.dropLast, event.succeeded = true) :
    Attempt answer capacity calls (.error error) held

/-! ## Section 2: The course of an attempt -/

namespace Session

/-- The session has gone on: `calls` were made, the context holds `held`, and the context is as
    large as before. -/
structure Comes (engine : Engine σ) (context : σ → List TokenId) (calls : List Engine.Event)
    (held : List TokenId) (before later : Session (Recorded σ)) : Prop where
  events : later.events = before.events ++ calls
  capacity : later.capacity (Recorded.engine engine) = before.capacity (Recorded.engine engine)
  context : context later.vocab.engine.state = held

section Comes

variable {engine : Engine σ} {context : σ → List TokenId}
  {tokens : String → Bool → Bool → Except EngineError (List TokenId)}
  {session : Session (Recorded σ)}

theorem Comes.trans {calls more : List Engine.Event} {held held' : List TokenId}
    {first second third : Session (Recorded σ)} (h : Comes engine context calls held first second)
    (hnext : Comes engine context more held' second third) :
    Comes engine context (calls ++ more) held' first third where
  events := by rw [hnext.events, h.events, List.append_assoc]
  capacity := hnext.capacity.trans h.capacity
  context := hnext.context

/-- **One call** to the engine is on record, whether it succeeds or not. -/
theorem called {α : Type} {run : σ → Reply σ α} {call : Engine.Call}
    (context : σ → List TokenId) (recorded : Recorded σ → Reply (Recorded σ) α)
    (hrecorded : recorded = Recorded.note call run)
    (hsize : ∀ state, engine.contextSize (run state).state = engine.contextSize state)
    (session : Session (Recorded σ)) :
    ∃ later, attempt recorded session = .ok (run session.vocab.engine.state).result later
      ∧ Comes engine context [⟨call, (run session.vocab.engine.state).result.isOk⟩]
        (context (run session.vocab.engine.state).state) session later := by
  subst hrecorded
  exact ⟨_, attempt_eq _ session, rfl, hsize _, rfl⟩

/-- **Emptying the context**, the first call of an attempt. -/
theorem resetContext_comes (fills : engine.Fills context tokens) (keeps : engine.KeepsSize)
    (session : Session (Recorded σ)) :
    (∃ error later, resetContext (Recorded.engine engine) session = .error error later
      ∧ error.isOverflow = false
      ∧ Comes engine context [⟨.clear, false⟩] (context later.vocab.engine.state) session later)
    ∨ ∃ later, resetContext (Recorded.engine engine) session = .ok () later
      ∧ Comes engine context [⟨.clear, true⟩] [] session later ∧ later.position = 0 := by
  obtain ⟨emptied, hclear, hcomes⟩ :=
    called context (Recorded.engine engine).clear rfl keeps.clear session
  have hempty := fills.clear session.vocab.engine.state
  unfold resetContext
  rw [bind_ok hclear]
  cases hresult : (engine.clear session.vocab.engine.state).result with
  | error error =>
    rw [hresult] at hcomes
    refine .inl ⟨_, emptied, rfl, ?_, hcomes.events, hcomes.capacity, rfl⟩
    cases error <;> rfl
  | ok _ =>
    rw [hresult] at hcomes hempty
    exact .inr ⟨_, rfl, ⟨hcomes.events, hcomes.capacity, hcomes.context.trans (hempty rfl)⟩, rfl⟩

/-- **Tokenizing**, which leaves the context as it is. -/
theorem tokenize_comes (fills : engine.Fills context tokens) (keeps : engine.KeepsSize)
    (text : String) (addBos special : Bool) (session : Session (Recorded σ)) :
    ∃ later, later.position = session.position
      ∧ Comes engine context [⟨.tokenize, (tokens text addBos special).isOk⟩]
        (context session.vocab.engine.state) session later
      ∧ onVocab (Vocabulary.tokenize (Recorded.engine engine) text addBos special) session
        = match tokens text addBos special with
          | .ok found => .ok found later
          | .error error => .error (.vocabulary (.engine error)) later := by
  obtain ⟨hresult, hcontext⟩ := fills.tokenize text addBos special session.vocab.engine.state
  have hanswer : ((Recorded.engine engine).tokenize text addBos special
      session.vocab.engine).result = tokens text addBos special := hresult
  refine ⟨session.heard ((Recorded.engine engine).tokenize text addBos special
    session.vocab.engine), rfl, ⟨?_, keeps.tokenize text addBos special _, hcontext⟩, ?_⟩
  · rw [← hresult]
    rfl
  · cases htokens : tokens text addBos special <;>
      simp only [onVocab_tokenize_eq, hanswer, htokens]

/-- **Decoding**, which appends the batch to the context if it succeeds. -/
theorem decodeBatch_comes (fills : engine.Fills context tokens) (keeps : engine.KeepsSize)
    (batch : Batch) (session : Session (Recorded σ)) :
    (∃ error later calls, decodeBatch (Recorded.engine engine) batch session = .error error later
      ∧ error.isOverflow = false
      ∧ calls ∈ [[⟨.decode batch.size, false⟩], [⟨.decode batch.size, true⟩, ⟨.logits, false⟩]]
      ∧ Comes engine context calls (context later.vocab.engine.state) session later)
    ∨ ∃ later, decodeBatch (Recorded.engine engine) batch session = .ok () later
      ∧ Comes engine context [⟨.decode batch.size, true⟩, ⟨.logits, true⟩]
        (context session.vocab.engine.state ++ batch.tokens) session later := by
  obtain ⟨fed, hdecode, hfed⟩ :=
    called context ((Recorded.engine engine).decode batch) rfl (keeps.decode batch) session
  obtain ⟨scored, hlogits, hscored⟩ :=
    called context (Recorded.engine engine).logits rfl keeps.logits fed
  have happended := fills.decode batch session.vocab.engine.state
  have hread := fills.logits fed.vocab.engine.state
  unfold decodeBatch
  rw [bind_ok hdecode]
  cases hresult : (engine.decode batch session.vocab.engine.state).result with
  | error error =>
    rw [hresult] at hfed
    refine .inl ⟨_, fed.stop, _, rfl, rfl, List.mem_cons_self, ?_⟩
    exact ⟨hfed.events, hfed.capacity, rfl⟩
  | ok _ =>
    rw [hresult] at hfed happended
    rw [happended rfl] at hfed
    -- reading the scores changes nothing of the context
    rw [hread, hfed.context] at hscored
    have hboth := hfed.trans hscored
    dsimp only
    rw [bind_ok hlogits]
    cases hlast : (engine.logits fed.vocab.engine.state).result with
    | error error =>
      rw [hlast] at hboth
      refine .inl ⟨_, scored.stop, _, rfl, ?_, List.mem_cons_of_mem _ List.mem_cons_self, ?_⟩
      · cases error <;> rfl
      · exact ⟨hboth.events, hboth.capacity, rfl⟩
    | ok logits =>
      rw [hlast] at hboth
      exact .inr ⟨_, rfl, hboth.events, hboth.capacity, hboth.context⟩

/-- **Feeding a prompt** into an empty context, the rest of an attempt. -/
theorem prepareContext_attempt (fills : engine.Fills context tokens) (keeps : engine.KeepsSize)
    (prompt : String) (hstart : session.position = 0)
    (hempty : context session.vocab.engine.state = []) :
    ∃ calls held, Attempt (tokens prompt true true) (session.capacity (Recorded.engine engine))
        (⟨.clear, true⟩ :: calls) (result (prepareContext (Recorded.engine engine) prompt) session)
        held
      ∧ Comes engine context calls held session
        (after (prepareContext (Recorded.engine engine) prompt) session) := by
  unfold result after prepareContext
  by_cases hprompt : prompt.isEmpty = true
  · rw [if_pos hprompt]
    exact ⟨[], [], .failed rfl rfl (by simp), (List.append_nil _).symm, rfl, hempty⟩
  have hzero : (session.position == 0) = true := by rw [hstart]; rfl
  rw [if_neg hprompt]
  dsimp only
  rw [get_bind, hzero]
  obtain ⟨asked, hasked, hcomes, htokenize⟩ := tokenize_comes fills keeps prompt true true session
  rw [hempty] at hcomes
  rw [hstart] at hasked
  cases htokens : tokens prompt true true with
  | error error =>
    rw [htokens] at htokenize hcomes
    rw [bind_error htokenize]
    exact ⟨_, _, .failed rfl rfl (by simp), hcomes⟩
  | ok found =>
    rw [htokens] at htokenize hcomes
    rw [bind_ok htokenize]
    by_cases hfound : found.isEmpty = true
    · rw [if_pos hfound]
      exact ⟨_, _, .failed rfl rfl (by simp), hcomes⟩
    rw [if_neg hfound, get_bind]
    rw [hasked, Nat.zero_add, hcomes.capacity]
    by_cases hfull : session.capacity (Recorded.engine engine) < found.length
    · rw [if_pos hfull]
      exact ⟨_, _, .refused rfl hfull, hcomes⟩
    rw [if_neg hfull]
    -- the prompt fits and is fed in one batch
    have hforget : (modify fun session => { session with recent := [] } :
        SessionM (Recorded σ) Unit) asked = .ok () { asked with recent := [] } := rfl
    have hcomes : Comes engine context [⟨.tokenize, true⟩] [] session { asked with recent := [] } :=
      ⟨hcomes.events, hcomes.capacity, hcomes.context⟩
    rw [bind_ok hforget]
    generalize { asked with recent := [] } = ready at hcomes
    rcases decodeBatch_comes fills keeps (Batch.sequence found 0) ready with
      ⟨error, fed, calls, hdecode, hother, hcalls, hfed⟩ | ⟨fed, hdecode, hfed⟩
    · rw [bind_error hdecode]
      rw [List.mem_pair] at hcalls
      refine ⟨_, _, .failed hother ?_ ?_, hcomes.trans hfed⟩
      · rcases hcalls with rfl | rfl <;> rfl
      · rcases hcalls with rfl | rfl <;> simp
    · rw [bind_ok hdecode]
      rw [hcomes.context, List.nil_append, Batch.tokens_sequence, Batch.size_sequence] at hfed
      have hboth := hcomes.trans hfed
      exact ⟨_, _, .fits rfl (Nat.le_of_not_lt hfull), hboth.events, hboth.capacity, hboth.context⟩

/-- **An attempt**, made by a session. -/
theorem attempt_comes (fills : engine.Fills context tokens) (keeps : engine.KeepsSize)
    (prompt : String) (session : Session (Recorded σ)) {step : SessionM (Recorded σ) Nat}
    (hstep : step = (do
      resetContext (Recorded.engine engine)
      prepareContext (Recorded.engine engine) prompt)) :
    ∃ calls held, Attempt (tokens prompt true true) (session.capacity (Recorded.engine engine))
        calls (result step session) held
      ∧ Comes engine context calls held session (after step session) := by
  subst hstep
  unfold result after
  rcases resetContext_comes fills keeps session with
    ⟨error, later, hreset, hother, hcomes⟩ | ⟨emptied, hreset, hcomes, hstart⟩
  · rw [bind_error hreset]
    exact ⟨_, _, .failed hother rfl (by simp), hcomes⟩
  · rw [bind_ok hreset]
    obtain ⟨calls, held, hattempt, hfed⟩ :=
      prepareContext_attempt fills keeps prompt hstart hcomes.context
    rw [hcomes.capacity] at hattempt
    exact ⟨_, held, hattempt, hcomes.trans hfed⟩

end Comes

end Session

/-! ## Section 3: Histories without their oldest turns -/

namespace History

/-- The history without its `count` oldest turns. -/
def dropTurns (history : History) (count : Nat) : History :=
  { history with entries := history.entries.drop (2 * count) }

@[simp] theorem dropTurns_zero (history : History) : history.dropTurns 0 = history := rfl

theorem dropTurns_dropTurns (history : History) (count more : Nat) :
    (history.dropTurns count).dropTurns more = history.dropTurns (count + more) := by
  unfold dropTurns
  rw [List.drop_drop, Nat.mul_add]

theorem turns_dropTurns (history : History) (count : Nat) :
    (history.dropTurns count).turns = history.turns - count := by
  unfold dropTurns turns
  rw [List.length_drop]
  omega

/-- A history with a turn loses its oldest one. -/
theorem evictOldest?_of_turns {history : History} (h : 0 < history.turns) :
    history.evictOldest? = some (history.dropTurns 1) := by
  unfold turns at h
  unfold evictOldest? dropTurns
  rcases hentries : history.entries with - | ⟨first, - | ⟨second, rest⟩⟩
  · rw [hentries] at h
    contradiction
  · rw [hentries, List.length_singleton] at h
    omega
  · rfl

/-- A history without a turn has nothing to lose. -/
theorem evictOldest?_of_no_turns {history : History} (h : history.turns = 0) :
    history.evictOldest? = none := by
  unfold turns at h
  unfold evictOldest?
  rcases hentries : history.entries with - | ⟨first, - | ⟨second, rest⟩⟩
  · rfl
  · rfl
  · rw [hentries, List.length_cons, List.length_cons] at h
    omega

/-- A history of whole turns. -/
def Whole (history : History) : Prop := history.entries.length = 2 * history.turns

/-- **Histories are whole.** -/
theorem Built.whole {history : History} (h : history.Built) : history.Whole := by
  obtain ⟨capacity, turns, -, rfl, -⟩ := h.exists_holds
  have hlength : (ofTurns capacity turns).entries.length = 2 * turns.length :=
    length_messages turns
  unfold Whole History.turns
  omega

/-- Nothing is left of a history without its turns. -/
theorem Whole.dropTurns_eq_nil {history : History} (whole : history.Whole) :
    (history.dropTurns history.turns).entries = [] :=
  List.drop_eq_nil_of_le (Nat.le_of_eq whole)

end History

/-! ## Section 4: Attempt after attempt -/

namespace Client

section Primes

variable {engine : Engine σ} {context : σ → List TokenId}
  {tokens : String → Bool → Bool → Except EngineError (List TokenId)} {input : String}

/-- What the engine makes of the prompt for `input` after `dropped` turns were dropped. -/
def promptTokens (tokens : String → Bool → Bool → Except EngineError (List TokenId))
    (client : Client σ) (input : String) (dropped : Nat) : Except EngineError (List TokenId) :=
  tokens (prompt { client with history := client.history.dropTurns dropped } .turn input) true true

/-- **Too long**: after `dropped` turns were dropped, the prompt has more than `capacity` tokens. -/
def Overflows (tokens : String → Bool → Bool → Except EngineError (List TokenId))
    (client : Client σ) (input : String) (capacity dropped : Nat) : Prop :=
  ∃ prompt, client.promptTokens tokens input dropped = .ok prompt ∧ capacity < prompt.length

/-- The client was primed: it dropped `dropped` turns, one for each attempt that was refused, and
    the last attempt decided. -/
structure Primes (engine : Engine σ) (context : σ → List TokenId)
    (tokens : String → Bool → Bool → Except EngineError (List TokenId)) (input : String)
    (dropped : Nat) (calls : List Engine.Event) (held : List TokenId)
    (client : Client (Recorded σ)) (outcome : Except SessionError Nat × Client (Recorded σ)) :
    Prop where
  most : dropped ≤ client.history.turns
  refused : ∀ fewer < dropped,
    client.Overflows tokens input (client.session.capacity (Recorded.engine engine)) fewer
  attempt : Attempt (client.promptTokens tokens input dropped)
    (client.session.capacity (Recorded.engine engine)) calls outcome.1 held
  last : ∀ error, outcome.1 = .error error → error.isOverflow = true →
    dropped = client.history.turns
  session : Session.Comes engine context ((List.replicate dropped refusal).flatten ++ calls) held
    client.session outcome.2.session
  history : outcome.2.history = client.history.dropTurns dropped

/-- Turns are dropped one after the other. -/
theorem promptTokens_dropTurns (client : Client σ) (session : Session σ) (count dropped : Nat) :
    promptTokens tokens { client with session, history := client.history.dropTurns count } input
        dropped
      = client.promptTokens tokens input (count + dropped) := by
  unfold promptTokens prompt
  simp only [History.dropTurns_dropTurns]

/-- One attempt changes nothing but the session. -/
theorem tryPrime_attempt (fills : engine.Fills context tokens) (keeps : engine.KeepsSize)
    (input : String) (client : Client (Recorded σ)) :
    ∃ calls held result later,
      client.tryPrime (Recorded.engine engine) .turn input
          = (result, { client with session := later })
      ∧ Attempt (client.promptTokens tokens input 0)
        (client.session.capacity (Recorded.engine engine)) calls result held
      ∧ Session.Comes engine context calls held client.session later := by
  obtain ⟨calls, held, hattempt, hcomes⟩ :=
    Session.attempt_comes fills keeps (client.prompt .turn input) client.session rfl
  refine ⟨calls, held, _, _, ?_, hattempt, hcomes⟩
  unfold tryPrime
  exact Prod.ext (onSession_fst _ _) (onSession_snd _ _)

/-- **One more turn to drop**: an attempt is refused, and the rest is done by those that follow. -/
theorem Primes.drop {dropped : Nat} {calls : List Engine.Event} {prompt held held' : List TokenId}
    {client : Client (Recorded σ)} {later : Session (Recorded σ)}
    {outcome : Except SessionError Nat × Client (Recorded σ)} (hturns : 0 < client.history.turns)
    (hanswer : client.promptTokens tokens input 0 = .ok prompt)
    (hfull : client.session.capacity (Recorded.engine engine) < prompt.length)
    (hcomes : Session.Comes engine context refusal held' client.session later)
    (h : Primes engine context tokens input dropped calls held
      { client with session := later, history := client.history.dropTurns 1 } outcome) :
    Primes engine context tokens input (dropped + 1) calls held client outcome := by
  have hleft : (client.history.dropTurns 1).turns = client.history.turns - 1 :=
    History.turns_dropTurns _ 1
  have hmost : dropped ≤ (client.history.dropTurns 1).turns := h.most
  have hattempt := h.attempt
  rw [promptTokens_dropTurns, Nat.add_comm] at hattempt
  refine ⟨by omega, ?_, hcomes.capacity ▸ hattempt, ?_, ?_, ?_⟩
  · intro fewer hfewer
    cases fewer with
    | zero => exact ⟨prompt, hanswer, hfull⟩
    | succ fewer =>
      obtain ⟨prompt, hprompt, hlong⟩ := h.refused fewer (by omega)
      rw [promptTokens_dropTurns, Nat.add_comm] at hprompt
      exact ⟨prompt, hprompt, hcomes.capacity ▸ hlong⟩
  · intro error hresult hoverflow
    have hlast : dropped = (client.history.dropTurns 1).turns := h.last error hresult hoverflow
    omega
  · rw [List.replicate_succ, List.flatten_cons, List.append_assoc]
    exact hcomes.trans h.session
  · rw [h.history, History.dropTurns_dropTurns, Nat.add_comm]

/-- **Attempt after attempt**, by induction on the turns that are left. -/
theorem primeDropping_primes (fills : engine.Fills context tokens) (keeps : engine.KeepsSize)
    (input : String) (turns : Nat) (client : Client (Recorded σ))
    (hturns : client.history.turns = turns) :
    ∃ dropped calls held, Primes engine context tokens input dropped calls held client
      (client.primeDropping (Recorded.engine engine) .turn input turns) := by
  have hnone : ∀ {p : Nat → Prop}, ∀ fewer < 0, p fewer := by
    intro p fewer hfewer
    contradiction
  induction turns generalizing client with
  | zero =>
    obtain ⟨calls, held, result, later, htry, hattempt, hcomes⟩ :=
      tryPrime_attempt fills keeps input client
    unfold primeDropping
    rw [htry]
    exact ⟨0, calls, held, Nat.zero_le _, hnone, hattempt, fun _ _ _ => hturns.symm, hcomes, rfl⟩
  | succ turns ih =>
    obtain ⟨calls, held, result, later, htry, hattempt, hcomes⟩ :=
      tryPrime_attempt fills keeps input client
    unfold primeDropping
    rw [htry]
    cases hattempt with
    | fits hanswer hfits =>
      refine ⟨0, _, _, Nat.zero_le _, hnone, .fits hanswer hfits, ?_, hcomes, rfl⟩
      intro error hresult
      contradiction
    | @refused prompt held hanswer hfull =>
      have hevict : client.history.evictOldest? = some (client.history.dropTurns 1) :=
        History.evictOldest?_of_turns (by omega)
      dsimp only
      rw [hevict]
      have hleft : (client.history.dropTurns 1).turns = turns := by
        rw [History.turns_dropTurns]
        omega
      obtain ⟨dropped, calls, held, h⟩ :=
        ih { client with session := later, history := client.history.dropTurns 1 } hleft
      exact ⟨dropped + 1, calls, held, h.drop (by omega) hanswer hfull hcomes⟩
    | @failed calls error held hother hone hlast =>
      have hended : Primes engine context tokens input 0 calls held client
          (.error error, { client with session := later }) :=
        ⟨Nat.zero_le _, hnone, .failed hother hone hlast, by simp [hother], hcomes, rfl⟩
      refine ⟨0, calls, held, ?_⟩
      cases error with
      | contextOverflow needed capacity => contradiction
      | _ => exact hended

/-- **Priming** makes attempts until one decides. -/
theorem prime_primes (fills : engine.Fills context tokens) (keeps : engine.KeepsSize)
    (input : String) (client : Client (Recorded σ)) :
    ∃ dropped calls held, Primes engine context tokens input dropped calls held client
      (client.prime (Recorded.engine engine) .turn input) :=
  primeDropping_primes fills keeps input client.history.turns client rfl

variable {dropped : Nat} {calls : List Engine.Event} {held : List TokenId}
  {client later : Client (Recorded σ)}

/-- **Success**: the last attempt fed its prompt. -/
theorem Primes.of_ok {count : Nat} (h : Primes engine context tokens input dropped calls held client
      (.ok count, later)) :
    client.promptTokens tokens input dropped = .ok held
      ∧ held.length ≤ client.session.capacity (Recorded.engine engine)
      ∧ count = held.length ∧ calls = feeding held.length := by
  have hattempt := h.attempt
  cases hattempt with
  | fits hanswer hfits => exact ⟨hanswer, hfits, rfl, rfl⟩

/-- **No room**: the attempts were refused until no turn was left, and the last one was, too. -/
theorem Primes.of_overflow {needed capacity : Nat} (h : Primes engine context tokens input dropped
      calls held client (.error (.contextOverflow needed capacity), later)) :
    capacity = client.session.capacity (Recorded.engine engine)
      ∧ dropped = client.history.turns ∧ calls = refusal
      ∧ (∃ prompt, client.promptTokens tokens input client.history.turns = .ok prompt
        ∧ needed = prompt.length)
      ∧ ∀ fewer ≤ client.history.turns, client.Overflows tokens input capacity fewer := by
  have hall : dropped = client.history.turns := h.last _ rfl rfl
  have hattempt := h.attempt
  have hrefused := h.refused
  subst hall
  cases hattempt with
  | @refused prompt _ hanswer hfull =>
    refine ⟨rfl, rfl, rfl, ⟨prompt, hanswer, rfl⟩, ?_⟩
    intro fewer hfewer
    rcases Nat.lt_or_eq_of_le hfewer with hless | rfl
    · exact hrefused fewer hless
    · exact ⟨prompt, hanswer, hfull⟩
  | failed hother => contradiction

/-- **Any other error**: the last attempt ended with the call that failed. -/
theorem Primes.of_error {error : SessionError} (hother : error.isOverflow = false)
    (h : Primes engine context tokens input dropped calls held client (.error error, later)) :
    calls.countP (·.beginsAttempt) = 1 ∧ ∀ event ∈ calls.dropLast, event.succeeded = true := by
  have hattempt := h.attempt
  cases hattempt with
  | refused => contradiction
  | failed _ hone hlast => exact ⟨hone, hlast⟩

/-- Without all its turns, the prompt is that of a question on its own. -/
theorem promptTokens_of_whole {client : Client σ} (whole : client.history.Whole) :
    client.promptTokens tokens input client.history.turns
      = tokens (client.prompt .single input) true true := by
  unfold promptTokens prompt
  dsimp only
  rw [whole.dropTurns_eq_nil]

end Primes

/-! ## Section 5: The record changes nothing -/

section Record

variable {engine : Engine σ}

/-- The client with its engine on record from now on. -/
def onRecord (client : Client σ) : Client (Recorded σ) where
  session := client.session.onRecord
  config := client.config
  template := client.template
  history := client.history
  available := client.available

/-- The client without the record of its engine. -/
def offRecord (client : Client (Recorded σ)) : Client σ where
  session := client.session.offRecord
  config := client.config
  template := client.template
  history := client.history
  available := client.available

/-- The calls to the engine that priming for a turn makes. -/
def primingCalls (engine : Engine σ) (input : String) (client : Client σ) : List Engine.Event :=
  (client.onRecord.prime (Recorded.engine engine) .turn input).2.session.events

/-- A step of the session that makes no use of the record. -/
theorem onSession_offRecord {ε α : Type} {step : EStateM ε (Session σ) α}
    {recorded : EStateM ε (Session (Recorded σ)) α} {client : Client (Recorded σ)}
    (h : step client.session.offRecord = outcome Session.offRecord (recorded client.session)) :
    client.offRecord.onSession step = Prod.map id offRecord (client.onSession recorded) := by
  have hsession : client.offRecord.session = client.session.offRecord := rfl
  unfold onSession
  rw [hsession, h]
  cases recorded client.session <;> rfl

theorem tryPrime_offRecord (purpose : Purpose) (input : String) (client : Client (Recorded σ)) :
    client.offRecord.tryPrime engine purpose input
      = Prod.map id offRecord (client.tryPrime (Recorded.engine engine) purpose input) := by
  have hcoupled := (Session.recorded_extends engine).coupled
  refine onSession_offRecord (Engine.Extends.outcome_eq ?_)
  refine (Session.couples_resetContext hcoupled (Engine.Extends.alike_project _ _)).bind ?_
  intro _ emptied emptied' hemptied
  exact Session.couples_prepareContext hcoupled hemptied (client.prompt purpose input)

/-- **Priming on record** is priming: the same attempts are made, and the same turns dropped. -/
theorem primeDropping_offRecord (purpose : Purpose) (input : String) (turns : Nat)
    (client : Client (Recorded σ)) :
    client.offRecord.primeDropping engine purpose input turns
      = Prod.map id offRecord
        (client.primeDropping (Recorded.engine engine) purpose input turns) := by
  induction turns generalizing client with
  | zero => exact tryPrime_offRecord purpose input client
  | succ turns ih =>
    unfold primeDropping
    rw [tryPrime_offRecord]
    generalize client.tryPrime (Recorded.engine engine) purpose input = tried
    obtain ⟨result, tried⟩ := tried
    rcases result with error | count
    · cases error with
      | contextOverflow needed capacity =>
        have hsame : tried.offRecord.history.evictOldest? = tried.history.evictOldest? := rfl
        cases hevict : tried.history.evictOldest? with
        | none => simp only [Prod.map, hsame, hevict, id]
        | some history =>
          simp only [Prod.map, hsame, hevict, id]
          exact ih { tried with history }
      | _ => rfl
    · rfl

/-- What priming does is on record. -/
theorem exists_onRecord {input : String} {client later : Client σ}
    {result : Except SessionError Nat}
    (h : client.prime engine .turn input = (result, later)) :
    ∃ recorded, client.onRecord.prime (Recorded.engine engine) .turn input = (result, recorded)
      ∧ later = recorded.offRecord := by
  have hrecord : client.prime engine .turn input = Prod.map id offRecord
      (client.onRecord.prime (Recorded.engine engine) .turn input) :=
    primeDropping_offRecord .turn input client.history.turns client.onRecord
  rw [hrecord] at h
  have hresult : (client.onRecord.prime (Recorded.engine engine) .turn input).1 = result :=
    congrArg Prod.fst h
  exact ⟨_, Prod.ext hresult rfl, (congrArg Prod.snd h).symm⟩

/-- **The loop**: nothing bounds the number of attempts but the turns of the history. -/
theorem prime_eq (input : String) (client : Client σ) :
    client.prime engine .turn input
      = match client.tryPrime engine .turn input with
        | (.error (.contextOverflow needed capacity), tried) =>
          match tried.history.evictOldest? with
          | some history => prime engine .turn input { tried with history }
          | none => (.error (.contextOverflow needed capacity), tried)
        | other => other := by
  have hkept : (client.tryPrime engine .turn input).2.history = client.history :=
    history_tryPrime .turn input client
  unfold prime droppableTurns
  cases hturns : client.history.turns with
  | zero =>
    unfold primeDropping
    generalize client.tryPrime engine .turn input = tried at hkept ⊢
    obtain ⟨result, tried⟩ := tried
    have hnone : tried.history.evictOldest? = none :=
      History.evictOldest?_of_no_turns (by rw [hkept]; exact hturns)
    rcases result with error | count
    · cases error with
      | contextOverflow needed capacity => simp only [hnone]
      | _ => rfl
    · rfl
  | succ turns =>
    conv_lhs => unfold primeDropping
    generalize client.tryPrime engine .turn input = tried at hkept ⊢
    obtain ⟨result, tried⟩ := tried
    dsimp only at hkept
    have hsome : tried.history.evictOldest? = some (client.history.dropTurns 1) := by
      rw [hkept]
      exact History.evictOldest?_of_turns (by omega)
    -- the turns that are left are as many as may still be dropped
    have hleft : (client.history.dropTurns 1).turns = turns := by
      rw [History.turns_dropTurns]
      omega
    rcases result with error | count
    · cases error with
      | contextOverflow needed capacity => simp only [hsome, hleft]
      | _ => rfl
    · rfl

end Record

/-! ## Section 6: Priming for a turn -/

/-- **Priming drops as little as it can.**  A turn of the conversation is primed as in a loop that
    nothing bounds.  If that succeeds, the turns that were dropped are the fewest with which the
    prompt fits; the context holds the prompt and nothing else; and each of the longer prompts was
    tried once, and not fed.  If the prompt is refused for lack of room in the end, it does not fit
    with any number of turns dropped, and the size that is reported is that of the prompt without
    history, as histories are whole (`History.Built.whole`).  Any other error ends the attempts at
    once.  A question on its own drops nothing. -/
theorem priming_drops_least {engine : Engine σ} {context : σ → List TokenId}
    {tokens : String → Bool → Bool → Except EngineError (List TokenId)}
    (fills : engine.Fills context tokens) (keeps : engine.KeepsSize) (input : String)
    (client : Client σ) :
    client.prime engine .turn input
        = (match client.tryPrime engine .turn input with
          | (.error (.contextOverflow needed capacity), tried) =>
            match tried.history.evictOldest? with
            | some history => prime engine .turn input { tried with history }
            | none => (.error (.contextOverflow needed capacity), tried)
          | other => other)
    ∧ (∀ count later, client.prime engine .turn input = (.ok count, later) →
      ∃ dropped prompt, dropped ≤ client.history.turns
        ∧ client.promptTokens tokens input dropped = .ok prompt
        ∧ prompt.length ≤ client.session.capacity engine
        ∧ (∀ fewer < dropped,
          client.Overflows tokens input (client.session.capacity engine) fewer)
        ∧ count = prompt.length
        ∧ later.history = client.history.dropTurns dropped
        ∧ context later.session.vocab.engine = prompt
        ∧ client.primingCalls engine input
          = (List.replicate dropped refusal).flatten ++ feeding prompt.length)
    ∧ (∀ needed capacity later,
      client.prime engine .turn input = (.error (.contextOverflow needed capacity), later) →
      capacity = client.session.capacity engine
        ∧ (∀ dropped ≤ client.history.turns, client.Overflows tokens input capacity dropped)
        ∧ (∃ prompt, client.promptTokens tokens input client.history.turns = .ok prompt
          ∧ needed = prompt.length)
        ∧ (client.history.Whole → ∃ prompt, tokens (client.prompt .single input) true true
          = .ok prompt ∧ needed = prompt.length)
        ∧ later.history = client.history.dropTurns client.history.turns
        ∧ client.primingCalls engine input
          = (List.replicate (client.history.turns + 1) refusal).flatten)
    ∧ (∀ error later, client.prime engine .turn input = (.error error, later) →
      error.isOverflow = false →
      ∃ dropped calls, dropped ≤ client.history.turns
        ∧ (∀ fewer < dropped,
          client.Overflows tokens input (client.session.capacity engine) fewer)
        ∧ later.history = client.history.dropTurns dropped
        ∧ client.primingCalls engine input = (List.replicate dropped refusal).flatten ++ calls
        ∧ calls.countP (·.beginsAttempt) = 1
        ∧ ∀ event ∈ calls.dropLast, event.succeeded = true)
    ∧ (client.complete engine input).2.history = client.history := by
  obtain ⟨dropped, calls, held, h⟩ := prime_primes fills keeps input client.onRecord
  have hcalls : client.primingCalls engine input
      = (List.replicate dropped refusal).flatten ++ calls := h.session.events
  have hcontext := h.session.context
  have hhistory := h.history
  refine ⟨prime_eq input client, ?_, ?_, ?_, history_complete input client⟩
  · intro count later hprime
    obtain ⟨recorded, houtcome, rfl⟩ := exists_onRecord hprime
    rw [houtcome] at h hhistory hcontext
    obtain ⟨hanswer, hfits, hcount, rfl⟩ := h.of_ok
    exact ⟨dropped, held, h.most, hanswer, hfits, h.refused, hcount, hhistory, hcontext, hcalls⟩
  · intro needed capacity later hprime
    obtain ⟨recorded, houtcome, rfl⟩ := exists_onRecord hprime
    rw [houtcome] at h hhistory
    obtain ⟨hcapacity, rfl, rfl, ⟨prompt, hanswer, hneeded⟩, hnone⟩ := h.of_overflow
    refine ⟨hcapacity, hnone, ⟨prompt, hanswer, hneeded⟩, ?_, hhistory, ?_⟩
    · intro whole
      exact ⟨prompt, (promptTokens_of_whole whole).symm.trans hanswer, hneeded⟩
    · rw [hcalls]
      simp [List.replicate_succ', onRecord]
  · intro error later hprime hother
    obtain ⟨recorded, houtcome, rfl⟩ := exists_onRecord hprime
    rw [houtcome] at h hhistory
    obtain ⟨hone, hlast⟩ := h.of_error hother
    exact ⟨dropped, calls, h.most, h.refused, hhistory, hcalls, hone, hlast⟩

/-- The engine of tables, where a text has the tokens that the tables of `weary` give it. -/
def settled : Engine Tabulated :=
  { Tabulated.engine with
    tokenize := fun text addBos special table =>
      ⟨weary.tokenize text addBos special, table, false⟩ }

theorem settled_fills : settled.Fills Tabulated.context weary.tokenize where
  clear table hclear := by
    show table.clear.2.context = []
    have hok : table.clear.1.isOk = true := hclear
    unfold Tabulated.clear at hok ⊢
    split at hok
    · contradiction
    · simp [*]
  tokenize _ _ _ _ := ⟨rfl, rfl⟩
  decode batch table hdecode := by
    show (table.decode batch).2.context = table.context ++ batch.tokens
    have hok : (table.decode batch).1.isOk = true := hdecode
    unfold Tabulated.decode at hok ⊢
    split at hok
    · contradiction
    · simp [*]
  logits _ := rfl

theorem settled_keepsSize : settled.KeepsSize :=
  { Tabulated.keepsSize with tokenize := fun _ _ _ _ => rfl }

/-- A client that remembers two turns; its context has room for one of them. -/
def remembering : Client Tabulated where
  session := Session.new { weary with failures := {} } .greedy
  config := terse
  template := Template.plain
  history := ⟨6, [⟨.user, "a"⟩, ⟨.bot, "a"⟩, ⟨.user, "a"⟩, ⟨.bot, "a"⟩]⟩

/-- The first of the two turns has to go. -/
theorem priming_drops_least_remembering :
    ∃ later, remembering.prime settled .turn "a" = (.ok 12, later)
      ∧ later.history.entries = [⟨.user, "a"⟩, ⟨.bot, "a"⟩]
      ∧ ∃ dropped prompt, dropped ≤ remembering.history.turns
        ∧ remembering.promptTokens weary.tokenize "a" dropped = .ok prompt
        ∧ prompt.length ≤ remembering.session.capacity settled
        ∧ (∀ fewer < dropped, remembering.Overflows weary.tokenize "a"
          (remembering.session.capacity settled) fewer)
        ∧ 12 = prompt.length
        ∧ later.history = remembering.history.dropTurns dropped
        ∧ later.session.vocab.engine.context = prompt
        ∧ remembering.primingCalls settled "a"
          = (List.replicate dropped refusal).flatten ++ feeding prompt.length := by
  have hprime : remembering.prime settled .turn "a"
      = (.ok 12, (remembering.prime settled .turn "a").2) :=
    Prod.ext (by decide +kernel) rfl
  have hspec := priming_drops_least settled_fills settled_keepsSize "a" remembering
  exact ⟨_, hprime, by decide +kernel, hspec.2.1 12 _ hprime⟩

end Client

end Parley
