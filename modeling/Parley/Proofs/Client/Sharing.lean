import Mathlib.Logic.Function.Iterate
import Parley.Proofs.Client.Course

/-! # Sharing a client

    Any number of callers share a client.  A call tries to claim it and is refused if another call
    is under way; the one that is accepted works on the client in steps, between which the steps of
    other calls and requests to stop may come, and releases it at its end.  A step works on the
    session and the history under their locks, so nothing comes in between but a request to stop,
    which the replies of the engine tell of.

    A call whose steps follow each other without interruption does what the functions of a client
    do: `Shared.run_serve`. -/

namespace Parley

variable {σ ρ : Type}

/-! ## Section 1: Calls -/

/-- What may be asked of a client.  Generated JSON is read as a `ρ`. -/
inductive Request (ρ : Type)
  /-- The answer of a turn of the conversation, or of a question on its own. -/
  | answer (purpose : Purpose) (input : String)
  | generate (read : String → Except Json.Error ρ) (input schemaText : String)
  | embeddings (text : String)
  | reset

/-- What a caller gets; a turn that was refused is none. -/
inductive Outcome (ρ : Type)
  | turn (transcript : Option Transcript)
  | completion (completion : Completion)
  | json (result : Except ClientError (ρ × String))
  | embedding (result : Except ClientError (List Float32))
  | emptied (result : Except ClientError Unit)

namespace Request

/-- What a caller gets while another call is under way. -/
def refusal : Request ρ → Outcome ρ
  | .answer .turn _ => .turn none
  | .answer .single _ => .completion { text := Client.busyMessage }
  | .generate _ _ _ => .json (.error .busy)
  | .embeddings _ => .embedding (.error .busy)
  | .reset => .emptied (.error .busy)

/-- The turn that a call adds to the history, if it ends with the given outcome. -/
def turn? : Request ρ → Outcome ρ → Option (String × String)
  | .answer .turn input, .turn (some transcript) =>
    if transcript.summary.isOk && !transcript.summary.response.isEmpty then
      some (input, transcript.summary.response)
    else none
  | _, _ => none

/-- What the functions of a client do with the request; `stopAfter` says when a stop is requested
    while a turn is answered. -/
def serve (engine : Engine σ) (stopAfter : Nat → Bool) :
    Request ρ → Client σ → Outcome ρ × Client σ
  | .answer .turn input, client =>
    let (transcript, client) := client.respond engine stopAfter input
    (.turn transcript, client)
  | .answer .single input, client =>
    let (completion, client) := client.complete engine input
    (.completion completion, client)
  | .generate read input schemaText, client =>
    let (result, client) := client.generate engine read input schemaText
    (.json result, client)
  | .embeddings text, client =>
    let (result, client) := client.embeddings engine text
    (.embedding result, client)
  | .reset, client =>
    let (result, client) := client.reset engine
    (.emptied result, client)

/-- Whatever is asked for while another call is under way is refused, and changes nothing. -/
theorem serve_of_busy {engine : Engine σ} {stopAfter : Nat → Bool} {client : Client σ}
    (hbusy : client.available = false) (request : Request ρ) :
    request.serve engine stopAfter client = (request.refusal, client) := by
  have hclaim := Client.claim?_of_busy hbusy
  have hstart : ∀ purpose input, client.start engine purpose input = (.refused, client) := by
    intro purpose input
    unfold Client.start
    rw [hclaim]
  cases request with
  | answer purpose input =>
    cases purpose with
    | turn =>
      dsimp only [serve]
      unfold Client.respond
      rw [hstart]
      rfl
    | single =>
      dsimp only [serve]
      unfold Client.complete
      rw [hstart]
      rfl
  | generate read input schemaText =>
    dsimp only [serve]
    unfold Client.generate
    rw [hclaim]
    rfl
  | embeddings text =>
    dsimp only [serve]
    unfold Client.embeddings
    rw [hclaim]
    rfl
  | reset =>
    dsimp only [serve]
    unfold Client.reset
    rw [hclaim]
    rfl

end Request

/-- What a caller gets if the context could not be primed. -/
def Purpose.failure (purpose : Purpose) (error : SessionError) : Outcome ρ :=
  match purpose with
  | .turn => .turn (some (Client.failedTurn error))
  | .single => .completion { text := Client.failedAnswer }

/-- What a caller gets for what was streamed. -/
def Purpose.outcome (purpose : Purpose) (transcript : Transcript) : Outcome ρ :=
  match purpose with
  | .turn => .turn (some transcript)
  | .single => .completion
    { text := Client.responseText transcript.summary, reports := transcript.reports }

/-- The course of a call. -/
inductive Progress (ρ : Type)
  /-- The call was not made yet. -/
  | idle
  /-- The call was made, and is about to claim the client. -/
  | asking (request : Request ρ)
  /-- The client is claimed; earlier requests to stop still count. -/
  | claimed (request : Request ρ)
  /-- Earlier requests to stop are withdrawn, and the work may begin. -/
  | armed (request : Request ρ)
  /-- The context is to be primed; at most `turns` turns may be dropped for it. -/
  | priming (purpose : Purpose) (input : String) (turns : Nat)
  /-- A worker streams the answer. -/
  | streaming (call : Call)
  /-- The worker has ended, and its turn is not yet recorded. -/
  | answered (call : Call)
  /-- The history is empty, and the context is to be emptied. -/
  | emptying
  /-- The call is about to release the client. -/
  | releasing (request : Request ρ) (outcome : Outcome ρ)
  /-- The call has ended. -/
  | ended (request : Request ρ) (outcome : Outcome ρ)

namespace Progress

/-- Whether the call holds the client. -/
def holds : Progress ρ → Bool
  | .idle | .asking _ | .ended _ _ => false
  | _ => true

/-- An attempt to prime the context; if the prompt does not fit, the oldest turn is dropped. -/
def primeOnce (engine : Engine σ) (purpose : Purpose) (input : String) (turns : Nat)
    (client : Client σ) : Progress ρ × Client σ :=
  match client.tryPrime engine purpose input with
  | (.ok promptTokens, client) =>
    (.streaming (client.call engine purpose input promptTokens), client)
  | (.error error, client) =>
    match turns, error, client.history.evictOldest? with
    | turns + 1, .contextOverflow _ _, some history =>
      (.priming purpose input turns, { client with history })
    | _, _, _ => (.releasing (.answer purpose input) (purpose.failure error), client)

/-- A step of the worker. -/
def streamOnce (engine : Engine σ) (call : Call) (client : Client σ) : Progress ρ × Client σ :=
  match call.worker.stage with
  | .done _ => (.answered call, client)
  | _ =>
    let (call, client) := client.advance engine call
    (.streaming call, client)

/-- The next step of a call that holds the client. -/
def advance (engine : Engine σ) : Progress ρ → Client σ → Progress ρ × Client σ
  | .claimed request, client => (.armed request, { client with session := client.session.rearm })
  | .armed (.answer purpose input), client =>
    (.priming purpose input (client.droppableTurns purpose), client)
  | .armed (.generate read input schemaText), client =>
    let prompt := client.template.format client.config.systemPrompt [] input
    let (result, client) := client.onSession (Session.generateArmed engine read prompt schemaText)
    (.releasing (.generate read input schemaText) (.json (result.mapError .ofGeneration)), client)
  | .armed (.embeddings text), client =>
    let (result, client) := client.onSession (Session.extractEmbeddings engine text)
    (.releasing (.embeddings text) (.embedding (result.mapError .ofSession)), client)
  | .armed .reset, client => (.emptying, { client with history := client.history.clear })
  | .emptying, client =>
    let (result, client) := client.onSession (Session.resetContext engine)
    (.releasing .reset (.emptied (result.mapError .ofSession)), client)
  | .priming purpose input turns, client => primeOnce engine purpose input turns client
  | .streaming call, client => streamOnce engine call client
  | .answered call, client =>
    let transcript := Transcript.ofWorker call.worker
    (.releasing (.answer call.purpose call.input) (call.purpose.outcome transcript),
      client.record call transcript.summary)
  | .releasing request outcome, client => (.ended request outcome, client.release)
  | progress, client => (progress, client)

/-- The turn that the next step adds to the history, if it adds one. -/
def recording? : Progress ρ → Option (String × String)
  | .answered call =>
    let summary := (Transcript.ofWorker call.worker).summary
    if call.purpose = .turn && summary.isOk && !summary.response.isEmpty then
      some (call.input, summary.response)
    else none
  | _ => none

/-- The turns that the call has added to the history so far. -/
def recorded : Progress ρ → List (String × String)
  | .releasing request outcome | .ended request outcome => (request.turn? outcome).toList
  | _ => []

/-- What becomes of a call and of the client in `count` steps without interruption. -/
def goOn (engine : Engine σ) (count : Nat) (progress : Progress ρ) (client : Client σ) :
    Progress ρ × Client σ :=
  (fun state => state.1.advance engine state.2)^[count] (progress, client)

theorem goOn_succ (engine : Engine σ) (count : Nat) (progress : Progress ρ) (client : Client σ) :
    progress.goOn engine (count + 1) client
      = (progress.goOn engine count client).1.advance engine
        (progress.goOn engine count client).2 :=
  Function.iterate_succ_apply' _ _ _

end Progress

/-! ## Section 2: Sharing -/

/-- A client, and how far each of its calls is.  A caller who calls again makes another call. -/
structure Shared (σ ρ : Type) where
  client : Client σ
  calls : Nat → Progress ρ

/-- What may be seen of a step. -/
inductive Event
  /-- Somebody requests a stop. -/
  | stop
  /-- A call is made. -/
  | ask (id : Nat)
  /-- A call finds the client claimed. -/
  | refuse (id : Nat)
  /-- A call claims the client. -/
  | accept (id : Nat)
  /-- The call that holds the client goes on, and may add a turn to the history. -/
  | work (id : Nat) (turn : Option (String × String))
  /-- The call that holds the client releases it. -/
  | release (id : Nat)
  deriving DecidableEq, Repr

namespace Event

/-- The call that makes the step. -/
def caller? : Event → Option Nat
  | .stop => none
  | .ask id | .refuse id | .accept id | .work id _ | .release id => some id

/-- The turn that the call `id` adds to the history in the step, if it does. -/
def recorded? (id : Nat) : Event → Option (String × String)
  | .work other turn => if other = id then turn else none
  | _ => none

end Event

/-- The event that the next step of a call is. -/
def Progress.event (id : Nat) : Progress ρ → Event
  | .releasing _ _ => .release id
  | progress => .work id progress.recording?

/-- The turns that the call `id` added to the history, in the order of the events. -/
def turnsOf (id : Nat) (events : List Event) : List (String × String) :=
  events.filterMap (Event.recorded? id)

namespace Shared

/-- A client that no call was made to yet. -/
def fresh (client : Client σ) : Shared σ ρ := ⟨client, fun _ => .idle⟩

/-- The call `id` goes to `progress` and leaves the client as `client`. -/
def move (shared : Shared σ ρ) (id : Nat) (progress : Progress ρ) (client : Client σ) :
    Shared σ ρ where
  client
  calls := fun other => if other = id then progress else shared.calls other

@[simp] theorem move_ne (shared : Shared σ ρ) {id other : Nat} (h : other ≠ id)
    (progress : Progress ρ) (client : Client σ) :
    (shared.move id progress client).calls other = shared.calls other := if_neg h

section Move

variable (shared : Shared σ ρ) (id : Nat) (progress progress' : Progress ρ)
  (client client' : Client σ)

@[simp] theorem move_client : (shared.move id progress client).client = client := rfl

@[simp] theorem move_self : (shared.move id progress client).calls id = progress := if_pos rfl

/-- A call that stays where it is moves nothing. -/
@[simp] theorem move_same : shared.move id (shared.calls id) shared.client = shared := by
  obtain ⟨client, calls⟩ := shared
  unfold move
  congr 1
  funext other
  split
  · rename_i hother
    rw [hother]
  · rfl

@[simp] theorem move_move : (shared.move id progress client).move id progress' client'
    = shared.move id progress' client' := by
  unfold move
  congr 1
  funext other
  by_cases h : other = id
  · rw [if_pos h, if_pos h]
  · rw [if_neg h, if_neg h]
    exact if_neg h

end Move

/-- **Steps.**  `Step engine shared event later`: `event` may happen next, and leads to `later`. -/
inductive Step (engine : Engine σ) : Shared σ ρ → Event → Shared σ ρ → Prop
  | stop {shared : Shared σ ρ} :
    Step engine shared .stop { shared with client := shared.client.stop }
  | ask {shared : Shared σ ρ} {id : Nat} (request : Request ρ) (hidle : shared.calls id = .idle) :
    Step engine shared (.ask id) (shared.move id (.asking request) shared.client)
  | refuse {shared : Shared σ ρ} {id : Nat} {request : Request ρ}
    (hasking : shared.calls id = .asking request) (hbusy : shared.client.available = false) :
    Step engine shared (.refuse id) (shared.move id (.ended request request.refusal) shared.client)
  | accept {shared : Shared σ ρ} {id : Nat} {request : Request ρ}
    (hasking : shared.calls id = .asking request) (hfree : shared.client.available = true) :
    Step engine shared (.accept id)
      (shared.move id (.claimed request) { shared.client with available := false })
  | advance {shared : Shared σ ρ} {id : Nat} (hholds : (shared.calls id).holds = true) :
    Step engine shared ((shared.calls id).event id)
      (shared.move id ((shared.calls id).advance engine shared.client).1
        ((shared.calls id).advance engine shared.client).2)

/-- **Runs.**  `Run engine shared events later`: `events` may happen in this order, and lead to
    `later`. -/
inductive Run (engine : Engine σ) (shared : Shared σ ρ) : List Event → Shared σ ρ → Prop
  | refl : Run engine shared [] shared
  | step {events : List Event} {event : Event} {middle later : Shared σ ρ}
    (h : Run engine shared events middle) (hstep : Step engine middle event later) :
    Run engine shared (events ++ [event]) later

/-- **Steps without interruption.**  A call goes on as long as it holds the client. -/
theorem Run.works {engine : Engine σ} {shared middle : Shared σ ρ} {events : List Event}
    (h : Run engine shared events middle) (id count : Nat)
    (hholds : ∀ fewer < count,
      ((middle.calls id).goOn engine fewer middle.client).1.holds = true) :
    Run engine shared
      (events ++ (List.range count).map fun fewer =>
        ((middle.calls id).goOn engine fewer middle.client).1.event id)
      (middle.move id ((middle.calls id).goOn engine count middle.client).1
        ((middle.calls id).goOn engine count middle.client).2) := by
  induction count with
  | zero =>
    rw [List.range_zero, List.map_nil, List.append_nil]
    show Run engine shared events (middle.move id (middle.calls id) middle.client)
    rwa [move_same]
  | succ count ih =>
    have hrun := ih fun fewer hfewer => hholds fewer (Nat.lt_succ_of_lt hfewer)
    have hstep := @Step.advance σ ρ engine (middle.move id
      ((middle.calls id).goOn engine count middle.client).1
      ((middle.calls id).goOn engine count middle.client).2) id
      (by rw [move_self]; exact hholds count (Nat.lt_succ_self count))
    rw [move_self, move_client, move_move] at hstep
    rw [Progress.goOn_succ, List.range_succ, List.map_append, ← List.append_assoc]
    exact hrun.step hstep

end Shared

/-! ## Section 3: A call on its own -/

namespace Shared

open Progress

/-- The call `id` can come to `progress` and leave the client as `client` while every other call
    stays where it is. -/
def Reaches (engine : Engine σ) (shared : Shared σ ρ) (id : Nat) (progress : Progress ρ)
    (client : Client σ) : Prop :=
  ∃ events, Run engine shared events (shared.move id progress client)

variable {engine : Engine σ} {shared : Shared σ ρ} {id : Nat} {progress : Progress ρ}
  {client : Client σ} {request : Request ρ} {outcome : Outcome ρ} {call : Call}
  {purpose : Purpose} {input : String} {turns : Nat}

theorem Reaches.advance (h : Reaches engine shared id progress client)
    (hholds : progress.holds = true) : Reaches engine shared id
      (progress.advance engine client).1 (progress.advance engine client).2 := by
  obtain ⟨events, hrun⟩ := h
  have hstep := @Step.advance σ ρ engine (shared.move id progress client) id
    (by rw [move_self]; exact hholds)
  rw [move_self, move_client, move_move] at hstep
  exact ⟨_, .step hrun hstep⟩

theorem Reaches.stop (h : Reaches engine shared id progress client) :
    Reaches engine shared id progress client.stop := by
  obtain ⟨events, hrun⟩ := h
  exact ⟨_, .step hrun .stop⟩

theorem Reaches.release (h : Reaches engine shared id (.releasing request outcome) client) :
    Reaches engine shared id (.ended request outcome) client.release :=
  h.advance rfl

/-- **Priming**: its steps drop one turn each. -/
theorem Reaches.primed (h : Reaches engine shared id (.priming purpose input turns) client) :
    match client.primeDropping engine purpose input turns with
    | (.ok promptTokens, later) => Reaches engine shared id
      (.streaming (later.call engine purpose input promptTokens)) later
    | (.error error, later) => Reaches engine shared id
      (.releasing (.answer purpose input) (purpose.failure error)) later := by
  induction turns generalizing client with
  | zero =>
    have hnext : Reaches engine shared id (primeOnce engine purpose input 0 client).1
        (primeOnce engine purpose input 0 client).2 := h.advance rfl
    unfold primeOnce at hnext
    unfold Client.primeDropping
    generalize client.tryPrime engine purpose input = tried at hnext
    obtain ⟨result, later⟩ := tried
    cases result <;> exact hnext
  | succ turns ih =>
    have hnext : Reaches engine shared id (primeOnce engine purpose input (turns + 1) client).1
        (primeOnce engine purpose input (turns + 1) client).2 := h.advance rfl
    unfold primeOnce at hnext
    unfold Client.primeDropping
    generalize client.tryPrime engine purpose input = tried at hnext
    obtain ⟨result, later⟩ := tried
    cases result with
    | ok promptTokens => exact hnext
    | error error =>
      cases error with
      | contextOverflow needed capacity =>
        dsimp only at hnext ⊢
        cases hevict : later.history.evictOldest? with
        | some history =>
          rw [hevict] at hnext
          exact ih hnext
        | none =>
          rw [hevict] at hnext
          exact hnext
      | _ => exact hnext

/-- **Streaming**: its steps are those of the worker. -/
theorem Reaches.streamed (stopAfter : Nat → Bool) (fuel : Nat)
    (h : Reaches engine shared id (.streaming call) client) :
    Reaches engine shared id
      (.streaming
        { call with worker := (call.worker.runWithin engine stopAfter fuel client.session).1 })
      { client with
        session := (call.worker.runWithin engine stopAfter fuel client.session).2 } := by
  induction fuel generalizing call client with
  | zero => exact h
  | succ fuel ih =>
    by_cases hdone : ∃ summary, call.worker.stage = .done summary
    · obtain ⟨summary, hdone⟩ := hdone
      unfold Worker.runWithin
      rw [hdone]
      exact h
    have hgoing : ∀ summary, call.worker.stage ≠ .done summary :=
      fun summary h => hdone ⟨summary, h⟩
    have hstep : streamOnce (ρ := ρ) engine call client
        = (.streaming { call with worker := (call.worker.step engine client.session).1 },
          { client with session := (call.worker.step engine client.session).2 }) := by
      unfold streamOnce
      split
      · rename_i summary hsummary
        exact absurd hsummary (hgoing summary)
      · rfl
    have hnext : Reaches engine shared id (streamOnce engine call client).1
        (streamOnce engine call client).2 := h.advance rfl
    rw [hstep] at hnext
    obtain ⟨session, hsession, heq⟩ :=
      Worker.runWithin_succ engine stopAfter fuel client.session hgoing
    rw [heq]
    -- a stop that is requested after a counted token is a step of its own
    rcases hsession with rfl | rfl
    · exact ih hnext
    · exact ih hnext.stop

/-- A worker that has ended gives its call an outcome, and a turn is recorded. -/
theorem Reaches.concluded (stopAfter : Nat → Bool)
    (h : Reaches engine shared id (.streaming call) client) :
    Reaches engine shared id
      (.ended (.answer call.purpose call.input)
        (call.purpose.outcome (client.conclude engine stopAfter call).1))
      (client.conclude engine stopAfter call).2 := by
  have hran := h.streamed stopAfter call.worker.maxSteps
  obtain ⟨summary, hdone⟩ := Worker.run_done engine stopAfter call.worker client.session
  unfold Worker.run at hdone
  unfold Client.conclude Worker.run
  generalize call.worker.runWithin engine stopAfter call.worker.maxSteps client.session = ran
    at hran hdone
  obtain ⟨worker, session⟩ := ran
  dsimp only at hran hdone ⊢
  have hanswered : Reaches engine shared id
      (streamOnce engine { call with worker } { client with session }).1
      (streamOnce engine { call with worker } { client with session }).2 := hran.advance rfl
  unfold streamOnce at hanswered
  dsimp only at hanswered
  rw [hdone] at hanswered
  exact (hanswered.advance rfl).release

/-- A call that finds the client claimed is refused. -/
theorem reaches_refusal (hidle : shared.calls id = .idle)
    (hbusy : shared.client.available = false) (request : Request ρ) :
    Reaches engine shared id (.ended request request.refusal) shared.client := by
  have hask := @Step.ask σ ρ engine shared id request hidle
  have hrefuse := @Step.refuse σ ρ engine (shared.move id (.asking request) shared.client) id
    request (move_self ..) hbusy
  rw [move_client, move_move] at hrefuse
  exact ⟨_, .step (.step .refl hask) hrefuse⟩

/-- A call that finds the client free claims it, and then withdraws the requests to stop. -/
theorem reaches_armed (hidle : shared.calls id = .idle) (hfree : shared.client.available = true)
    (request : Request ρ) : Reaches engine shared id (.armed request) shared.client.claimed := by
  have hask := @Step.ask σ ρ engine shared id request hidle
  have haccept := @Step.accept σ ρ engine (shared.move id (.asking request) shared.client) id
    request (move_self ..) hfree
  rw [move_client, move_move] at haccept
  have hclaimed : Reaches engine shared id (.claimed request)
      { shared.client with available := false } := ⟨_, .step (.step .refl hask) haccept⟩
  exact hclaimed.advance rfl

/-- **Answers**: what becomes of a call that was claimed is what becomes of the start of one. -/
theorem Reaches.answered
    (h : Reaches engine shared id (.armed (.answer purpose input)) shared.client.claimed)
    (hfree : shared.client.available = true) (stopAfter : Nat → Bool) :
    match shared.client.start engine purpose input with
    | (.refused, later) => Reaches engine shared id
      (.ended (.answer purpose input) (Request.refusal (.answer purpose input))) later
    | (.failed error, later) => Reaches engine shared id
      (.ended (.answer purpose input) (purpose.failure error)) later
    | (.running call, later) => Reaches engine shared id
      (.ended (.answer purpose input)
        (purpose.outcome (later.conclude engine stopAfter call).1))
      (later.conclude engine stopAfter call).2 := by
  have hpriming : Reaches engine shared id
      (.priming purpose input (shared.client.claimed.droppableTurns purpose))
      shared.client.claimed := h.advance rfl
  have hprimed := hpriming.primed
  have hstarts := Client.starts engine purpose input shared.client
  generalize shared.client.start engine purpose input = opened at hstarts
  cases hstarts with
  | refused hbusy =>
    rw [hfree] at hbusy
    contradiction
  | failed _ hprime =>
    unfold Client.prime at hprime
    rw [hprime] at hprimed
    exact hprimed.release
  | running _ hprime =>
    unfold Client.prime at hprime
    rw [hprime] at hprimed
    exact hprimed.concluded stopAfter

/-- **Calls without interruption** are what the functions of a client do. -/
theorem run_serve (hidle : shared.calls id = .idle) (stopAfter : Nat → Bool)
    (request : Request ρ) : ∃ events, Run engine shared events
      (shared.move id (.ended request (request.serve engine stopAfter shared.client).1)
        (request.serve engine stopAfter shared.client).2) := by
  show Reaches engine shared id _ _
  cases havailable : shared.client.available with
  | false =>
    rw [Request.serve_of_busy havailable]
    exact reaches_refusal hidle havailable request
  | true =>
    have harmed : Reaches engine shared id (.armed request) shared.client.claimed :=
      reaches_armed hidle havailable request
    cases request with
    | answer purpose input =>
      cases purpose with
      | turn =>
        have hanswer := harmed.answered havailable stopAfter
        dsimp only [Request.serve]
        unfold Client.respond
        generalize shared.client.start engine .turn input = opened at hanswer
        obtain ⟨opening, later⟩ := opened
        cases opening <;> exact hanswer
      | single =>
        have hanswer := harmed.answered havailable fun _ => false
        dsimp only [Request.serve]
        unfold Client.complete
        generalize shared.client.start engine .single input = opened at hanswer
        obtain ⟨opening, later⟩ := opened
        cases opening <;> exact hanswer
    | generate read input schemaText =>
      dsimp only [Request.serve]
      rw [Client.generate_eq havailable]
      exact (harmed.advance rfl).release
    | embeddings text =>
      dsimp only [Request.serve]
      rw [Client.embeddings_eq havailable]
      exact (harmed.advance rfl).release
    | reset =>
      dsimp only [Request.serve]
      rw [Client.reset_eq havailable]
      exact ((harmed.advance rfl).advance rfl).release

end Shared

end Parley
