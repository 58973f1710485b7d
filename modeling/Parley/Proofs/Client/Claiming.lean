import Parley.Proofs.Client.History
import Parley.Proofs.Client.Sharing
import Parley.Proofs.Conversation.History

/-! # Taking turns

    At most one call holds a shared client at a time, and the client is available exactly if none
    does.  No other call changes anything that belongs to it; a call that is refused changes nothing
    at all.

    A turn that was answered is added to the history once, before the client is available again.
    From then on the call that added it only releases the client, and calls that come meanwhile do
    not touch the history (`Shared.Settled`), so the turn still stands at its end when the next call
    is accepted.  The main statement is `Shared.calls_take_turns`. -/

namespace Parley

variable {σ ρ : Type}

/-! ## Section 1: Steps of a call -/

namespace Progress

/-- The number of steps that a call has before it at most, from where it claims the client. -/
def stepsLeft (progress : Progress ρ) (client : Client σ) : Nat :=
  match progress with
  | .idle | .asking _ | .ended _ _ => 0
  | .releasing _ _ => 1
  | .answered _ | .emptying => 2
  | .streaming call => call.worker.stepsLeft + 3
  | .priming _ _ turns => turns + 2 * client.config.maxNewTokens + 6
  | .armed (.answer purpose _) =>
    client.droppableTurns purpose + 2 * client.config.maxNewTokens + 7
  | .armed _ => 3
  | .claimed (.answer purpose _) =>
    client.droppableTurns purpose + 2 * client.config.maxNewTokens + 8
  | .claimed _ => 4

/-- **What a step of a call can do**, if the call holds the client. -/
inductive Advances (engine : Engine σ) : Progress ρ → Client σ → Progress ρ → Client σ → Prop
  | rearm {request : Request ρ} {client : Client σ} : Advances engine (.claimed request) client
    (.armed request) { client with session := client.session.rearm }
  | begin {purpose : Purpose} {input : String} {client : Client σ} :
    Advances engine (.armed (.answer purpose input)) client
      (.priming purpose input (client.droppableTurns purpose)) client
  /-- The session is used, and the call is over. -/
  | used {progress : Progress ρ} {request : Request ρ} {outcome : Outcome ρ} {client : Client σ}
    (session : Session σ)
    (hbefore : progress = .armed request ∨ progress = .emptying ∧ request = .reset)
    (hturn : request.turn? outcome = none) :
    Advances engine progress client (.releasing request outcome) { client with session }
  | clear {client : Client σ} : Advances engine (.armed .reset) client .emptying
    { client with history := client.history.clear }
  | primed {purpose : Purpose} {input : String} {turns promptTokens : Nat} {client : Client σ}
    (session : Session σ) : Advances engine (.priming purpose input turns) client
      (.streaming ({ client with session }.call engine purpose input promptTokens))
      { client with session }
  /-- The prompt does not fit, and the oldest turn is dropped. -/
  | dropped {purpose : Purpose} {input : String} {turns : Nat} {client : Client σ}
    {history : History} (session : Session σ)
    (hevict : client.history.evictOldest? = some history) :
    Advances engine (.priming purpose input (turns + 1)) client (.priming purpose input turns)
      { client with session, history }
  | unprimed {purpose : Purpose} {input : String} {turns : Nat} {client : Client σ}
    (session : Session σ) (error : SessionError) :
    Advances engine (.priming purpose input turns) client
      (.releasing (.answer purpose input) (purpose.failure error)) { client with session }
  | streamed {call later : Call} {client : Client σ} (session : Session σ)
    (hnearer : later.worker.stepsLeft < call.worker.stepsLeft) :
    Advances engine (.streaming call) client (.streaming later) { client with session }
  | answered {call : Call} {client : Client σ} {summary : Summary}
    (hdone : call.worker.stage = .done summary) :
    Advances engine (.streaming call) client (.answered call) client
  | recorded {call : Call} {client : Client σ} :
    Advances engine (.answered call) client
      (.releasing (.answer call.purpose call.input)
        (call.purpose.outcome (Transcript.ofWorker call.worker)))
      (client.record call (Transcript.ofWorker call.worker).summary)
  | released {request : Request ρ} {outcome : Outcome ρ} {client : Client σ} :
    Advances engine (.releasing request outcome) client (.ended request outcome) client.release

theorem advances_primeOnce (engine : Engine σ) (purpose : Purpose) (input : String) (turns : Nat)
    (client : Client σ) : Advances engine (.priming purpose input turns) client
      (primeOnce (ρ := ρ) engine purpose input turns client).1
      (primeOnce (ρ := ρ) engine purpose input turns client).2 := by
  have htried := Client.onSession_snd
    (do Session.resetContext engine
        Session.prepareContext engine (client.prompt purpose input)) client
  have htried : ∃ session, (client.tryPrime engine purpose input).2 = { client with session } :=
    ⟨_, htried⟩
  unfold primeOnce
  generalize client.tryPrime engine purpose input = tried at htried
  obtain ⟨result, later⟩ := tried
  obtain ⟨session, rfl⟩ := htried
  cases result with
  | ok promptTokens => exact .primed session
  | error error =>
    dsimp only
    split
    · rename_i hevict
      exact .dropped session hevict
    · exact .unprimed session _

theorem advances_streamOnce (engine : Engine σ) (call : Call) (client : Client σ) :
    Advances engine (.streaming call) client (streamOnce (ρ := ρ) engine call client).1
      (streamOnce (ρ := ρ) engine call client).2 := by
  unfold streamOnce
  split
  · rename_i summary hdone
    exact .answered hdone
  · rename_i hgoing
    exact .streamed _ (Worker.stepsLeft_step engine client.session hgoing)

/-- Every step of a call that holds the client does one of these things. -/
theorem advances (engine : Engine σ) {progress : Progress ρ} (h : progress.holds = true)
    (client : Client σ) : Advances engine progress client (progress.advance engine client).1
      (progress.advance engine client).2 := by
  cases progress with
  | idle => contradiction
  | asking request => contradiction
  | ended request outcome => contradiction
  | claimed request => exact .rearm
  | armed request =>
    cases request with
    | answer purpose input => exact .begin
    | generate read input schemaText =>
      unfold advance
      dsimp only
      rw [Client.onSession_snd]
      exact .used _ (.inl rfl) rfl
    | embeddings text =>
      unfold advance
      dsimp only
      rw [Client.onSession_snd]
      exact .used _ (.inl rfl) rfl
    | reset => exact .clear
  | emptying =>
    unfold advance
    dsimp only
    rw [Client.onSession_snd]
    exact .used _ (.inr ⟨rfl, rfl⟩) rfl
  | priming purpose input turns => exact advances_primeOnce engine purpose input turns client
  | streaming call => exact advances_streamOnce engine call client
  | answered call => exact .recorded
  | releasing request outcome => exact .released

/-! ### The events of a call -/

section Events

variable (progress : Progress ρ) (id : Nat)

theorem event_cases : progress.event id = .work id progress.recording?
    ∨ progress.event id = .release id ∧ progress.recording? = none := by
  cases progress with
  | releasing request outcome => exact .inr ⟨rfl, rfl⟩
  | _ => exact .inl rfl

theorem caller?_event : (progress.event id).caller? = some id := by
  rcases progress.event_cases id with h | ⟨h, -⟩ <;> rw [h] <;> rfl

theorem recorded?_event (other : Nat) :
    (progress.event id).recorded? other = if id = other then progress.recording? else none := by
  rcases progress.event_cases id with h | ⟨h, hnone⟩
  · rw [h]
    rfl
  · rw [h, hnone, ite_self]
    rfl

variable {progress id}

/-- A call that holds the client does not ask for it again. -/
theorem event_ne : progress.event id ≠ .stop
    ∧ ∀ other, progress.event id ≠ .refuse other ∧ progress.event id ≠ .accept other := by
  rcases progress.event_cases id with h | ⟨h, -⟩
  · rw [h]
    exact ⟨nofun, fun _ => ⟨nofun, nofun⟩⟩
  · rw [h]
    exact ⟨nofun, fun _ => ⟨nofun, nofun⟩⟩

theorem recording?_of_event {caller : Nat} {turn : String × String}
    (h : progress.event id = .work caller (some turn)) : progress.recording? = some turn := by
  rcases progress.event_cases id with hwork | ⟨hrelease, -⟩
  · rw [hwork] at h
    exact (Event.work.inj h).2
  · rw [hrelease] at h
    contradiction

theorem recording?_eq_none (h : ∀ caller turn, progress.event id ≠ .work caller (some turn)) :
    progress.recording? = none := by
  rcases progress.event_cases id with hwork | ⟨-, hnone⟩
  · rw [hwork] at h
    exact Option.eq_none_iff_forall_ne_some.mpr fun turn hturn =>
      h id turn (congrArg (Event.work id) hturn)
  · exact hnone

end Events

section Advances

variable {engine : Engine σ} {progress progress' : Progress ρ} {client client' : Client σ}

/-- **The claim.**  A call goes on holding the client, and leaves it claimed, until it releases
    it. -/
theorem Advances.claim (h : Advances engine progress client progress' client') :
    progress'.holds = true ∧ client'.available = client.available
      ∨ progress.recording? = none ∧ (∃ request outcome, progress' = .ended request outcome)
        ∧ client' = client.release := by
  cases h with
  | used session hbefore hturn =>
    rcases hbefore with rfl | ⟨rfl, -⟩
    · exact .inl ⟨rfl, rfl⟩
    · exact .inl ⟨rfl, rfl⟩
  | recorded =>
    refine .inl ⟨rfl, ?_⟩
    unfold Client.record
    split <;> rfl
  | @released request outcome _ => exact .inr ⟨rfl, ⟨request, outcome, rfl⟩, rfl⟩
  | _ => exact .inl ⟨rfl, rfl⟩

/-- What may happen to a history to which no turn is added: nothing, or the oldest turn is dropped,
    or all turns are. -/
def NotAdded (before later : History) : Prop :=
  later = before ∨ before.evictOldest? = some later ∨ later = before.clear

/-- Whether the next step of the call may take turns from the history: it primes the context, or
    it empties the history. -/
def trims : Progress ρ → Bool
  | .priming _ _ _ | .armed .reset => true
  | _ => false

/-- **The history.**  A step adds the turn that it records, and no other; and few steps take turns
    from it. -/
theorem Advances.history (h : Advances engine progress client progress' client') :
    match progress.recording? with
    | some (input, response) => client'.history = client.history.pushTurn input response
    | none => NotAdded client.history client'.history
      ∧ (progress.trims = false → client'.history = client.history) := by
  cases h with
  | used session hbefore hturn =>
    rcases hbefore with rfl | ⟨rfl, -⟩
    · exact ⟨.inl rfl, fun _ => rfl⟩
    · exact ⟨.inl rfl, fun _ => rfl⟩
  | clear => exact ⟨.inr (.inr rfl), fun hnot => by contradiction⟩
  | dropped session hevict => exact ⟨.inr (.inl hevict), fun hnot => by contradiction⟩
  | @recorded call client =>
    unfold recording? Client.record
    dsimp only
    by_cases hrecords : (call.purpose = .turn
        && (Transcript.ofWorker call.worker).summary.isOk
        && !(Transcript.ofWorker call.worker).summary.response.isEmpty) = true
    · rw [if_pos hrecords, if_pos hrecords]
    · rw [if_neg hrecords, if_neg hrecords]
      exact ⟨.inl rfl, fun _ => rfl⟩
  | _ => exact ⟨.inl rfl, fun _ => rfl⟩

/-- What is recorded is an answer that was streamed to its end. -/
theorem exists_answered {turn : String × String} (h : progress.recording? = some turn) :
    ∃ call, progress = .answered call := by
  cases progress with
  | answered call => exact ⟨call, rfl⟩
  | _ => contradiction

/-- **The record.**  What a step records, the call has recorded after it. -/
theorem Advances.recorded_eq (h : Advances engine progress client progress' client') :
    progress'.recorded = progress.recorded ++ progress.recording?.toList := by
  cases h with
  | used session hbefore hturn =>
    have hnone : Progress.recorded (ρ := ρ) (.releasing _ _) = [] :=
      congrArg Option.toList hturn
    rcases hbefore with rfl | ⟨rfl, -⟩
    · exact hnone
    · exact hnone
  | @unprimed purpose input turns client session error => cases purpose <;> rfl
  | @recorded call client =>
    unfold Progress.recorded recording?
    cases hpurpose : call.purpose with
    | turn => simp [Request.turn?, Purpose.outcome, hpurpose]
    | single => simp [Request.turn?, hpurpose]
  | released => exact (List.append_nil _).symm
  | _ => rfl

/-- **The end.**  Every step of the call brings it nearer to its end. -/
theorem Advances.stepsLeft_lt (h : Advances engine progress client progress' client') :
    progress'.stepsLeft client' < progress.stepsLeft client := by
  cases h with
  | @rearm request client => cases request <;> exact Nat.lt_succ_self _
  | begin => exact Nat.lt_succ_self _
  | @used _ request outcome client session hbefore hturn =>
    have hreleasing : (Progress.releasing request outcome).stepsLeft { client with session } = 1 :=
      rfl
    rw [hreleasing]
    rcases hbefore with rfl | ⟨rfl, -⟩
    · cases request <;> simp only [stepsLeft] <;> omega
    · exact Nat.lt_succ_self 1
  | clear => exact Nat.lt_succ_self 2
  | @primed purpose input turns promptTokens client session =>
    have hworker : ({ client with session }.call engine purpose input promptTokens).worker.stepsLeft
        = 2 * client.config.maxNewTokens + 2 := rfl
    simp only [stepsLeft, hworker]
    omega
  | dropped =>
    simp only [stepsLeft]
    omega
  | unprimed =>
    simp only [stepsLeft]
    omega
  | streamed session hnearer => exact Nat.add_lt_add_right hnearer 3
  | answered =>
    simp only [stepsLeft]
    omega
  | recorded => exact Nat.lt_succ_self 1
  | released => exact Nat.lt_succ_self 0

end Advances

end Progress

/-! ## Section 2: Any interleaving -/

namespace Shared

open Progress

variable {engine : Engine σ} {shared later : Shared σ ρ} {event : Event} {events : List Event}

/-- **Exclusion.**  At most one call holds the client, and it is available exactly if none does. -/
structure Exclusive (shared : Shared σ ρ) : Prop where
  unique : ∀ {id other}, (shared.calls id).holds = true → (shared.calls other).holds = true →
    id = other
  available : shared.client.available = true ↔ ∀ id, (shared.calls id).holds = false

theorem holds_move (shared : Shared σ ρ) (id other : Nat) (progress : Progress ρ)
    (client : Client σ) : ((shared.move id progress client).calls other).holds
      = if other = id then progress.holds else (shared.calls other).holds := by
  by_cases h : other = id
  · rw [if_pos h, h, move_self]
  · rw [if_neg h, move_ne shared h]

/-- A move that neither takes the client nor gives it back. -/
theorem Exclusive.move_same (h : shared.Exclusive) {id : Nat} {progress : Progress ρ}
    {client : Client σ} (hsame : progress.holds = (shared.calls id).holds)
    (havailable : client.available = shared.client.available) :
    (shared.move id progress client).Exclusive := by
  have hholds : ∀ other, ((shared.move id progress client).calls other).holds
      = (shared.calls other).holds := by
    intro other
    rw [holds_move, hsame]
    split
    · rename_i heq
      rw [heq]
    · rfl
  refine ⟨fun hid hother => ?_, ?_⟩
  · rw [hholds] at hid hother
    exact h.unique hid hother
  · rw [move_client, havailable, h.available]
    exact forall_congr' fun other => by rw [hholds]

theorem exclusive_fresh {client : Client σ} (h : client.available = true) :
    (fresh client : Shared σ ρ).Exclusive :=
  ⟨fun hid => by contradiction, iff_of_true h fun _ => rfl⟩

/-- **Every step keeps exclusion.** -/
theorem Exclusive.step (h : shared.Exclusive) (hstep : Step engine shared event later) :
    later.Exclusive := by
  cases hstep with
  | stop => exact ⟨h.unique, h.available⟩
  | @ask id request hidle =>
    refine h.move_same ?_ rfl
    rw [hidle]
    rfl
  | @refuse id request hasking _ =>
    refine h.move_same ?_ rfl
    rw [hasking]
    rfl
  | @accept id request hasking hfree =>
    have hnone := h.available.mp hfree
    have honly : ∀ other, ((shared.move id (.claimed request)
        { shared.client with available := false }).calls other).holds = true → other = id := by
      intro other hother
      rw [holds_move] at hother
      by_contra hne
      rw [if_neg hne, hnone other] at hother
      contradiction
    refine ⟨fun hid hother => (honly _ hid).trans (honly _ hother).symm, ?_⟩
    refine iff_of_false (by simp) fun hfalse => ?_
    have hid := hfalse id
    rw [move_self] at hid
    contradiction
  | @advance id hholds =>
    rcases (advances engine hholds shared.client).claim with
      ⟨hkept, havailable⟩ | ⟨-, ⟨request, outcome, hended⟩, hclient⟩
    · exact h.move_same (hkept.trans hholds.symm) havailable
    · have hnone : ∀ other, ((shared.move id
          ((shared.calls id).advance engine shared.client).1
          ((shared.calls id).advance engine shared.client).2).calls other).holds = false := by
        intro other
        rw [holds_move, hended]
        by_cases hother : other = id
        · rw [if_pos hother]
          rfl
        · -- the call that released the client was the only one that held it
          rw [if_neg hother]
          by_contra hheld
          exact hother (h.unique (eq_true_of_ne_false hheld) hholds)
      refine ⟨fun hid => ?_, iff_of_true ?_ hnone⟩
      · rw [hnone] at hid
        contradiction
      · rw [move_client, hclient]
        rfl

/-- **Every run keeps exclusion.** -/
theorem Exclusive.run (h : shared.Exclusive) (hrun : Run engine shared events later) :
    later.Exclusive := by
  induction hrun with
  | refl => exact h
  | step _ hstep ih => exact ih.step hstep

/-- **Order.**  What a step does to the client and to the calls, and who may do it. -/
structure Orderly (shared : Shared σ ρ) (event : Event) (later : Shared σ ρ) : Prop where
  /-- A request to stop is all that it is. -/
  stopped : event = .stop → later = { shared with client := shared.client.stop }
  /-- A call changes no other call. -/
  others : ∀ id, event.caller? ≠ some id → later.calls id = shared.calls id
  /-- A call that does not hold the client changes nothing about it, but it may claim it. -/
  outsider : ∀ id, event.caller? = some id → (shared.calls id).holds = false →
    later.client = { shared.client with available := later.client.available }
  /-- A call that is refused changes nothing at all about the client, and says so. -/
  refused : ∀ id, event = .refuse id → later.client = shared.client
    ∧ ∃ request, later.calls id = .ended request request.refusal
  /-- A call is accepted only when every call that was accepted before has ended. -/
  accepted : ∀ id, event = .accept id → ∀ other, (shared.calls other).holds = false
  /-- A call that gives the client back has ended, and the client is available. -/
  ended : ∀ id, (shared.calls id).holds = true → (later.calls id).holds = false →
    later.client.available = true ∧ ∃ request outcome, later.calls id = .ended request outcome
  /-- A call that holds the client comes nearer to its end with each of its steps, and nothing sets
      it back. -/
  nearer : ∀ id, (shared.calls id).holds = true →
    if event.caller? = some id then
      (later.calls id).stepsLeft later.client < (shared.calls id).stepsLeft shared.client
    else (later.calls id).stepsLeft later.client = (shared.calls id).stepsLeft shared.client
  /-- A turn is added while the client is claimed. -/
  recorded : ∀ id input response, event = .work id (some (input, response)) →
    later.client.history = shared.client.history.pushTurn input response
      ∧ later.client.available = false
  /-- Nothing else adds a turn. -/
  unrecorded : (∀ id turn, event ≠ .work id (some turn)) →
    NotAdded shared.client.history later.client.history
  /-- Nothing takes one away but a call that primes the context or empties the history. -/
  untouched : (∀ id turn, event ≠ .work id (some turn)) →
    (∀ id, event.caller? = some id → (shared.calls id).trims = false) →
    later.client.history = shared.client.history

/-- While a call holds the client, it is not available. -/
theorem Exclusive.claimed (h : shared.Exclusive) {id : Nat}
    (hholds : (shared.calls id).holds = true) : shared.client.available = false := by
  by_contra havailable
  have hnone := h.available.mp (eq_true_of_ne_false havailable) id
  rw [hholds] at hnone
  contradiction

/-- A step of the call that holds the client is orderly. -/
theorem Exclusive.orderly_advance (h : shared.Exclusive) {id : Nat}
    (hholds : (shared.calls id).holds = true) :
    Orderly shared ((shared.calls id).event id)
      (shared.move id ((shared.calls id).advance engine shared.client).1
        ((shared.calls id).advance engine shared.client).2) where
  stopped hstop := absurd hstop event_ne.1
  others other hother := by
    rw [caller?_event] at hother
    exact move_ne _ (fun heq => hother (congrArg some heq.symm)) _ _
  outsider other hother hnot := by
    rw [caller?_event] at hother
    obtain rfl := Option.some.inj hother
    rw [hholds] at hnot
    contradiction
  refused other hrefuse := absurd hrefuse (event_ne.2 other).1
  accepted other haccept := absurd haccept (event_ne.2 other).2
  ended other hother hnot := by
    obtain rfl := h.unique hother hholds
    rw [move_self] at hnot ⊢
    rcases (advances engine hholds shared.client).claim with
      ⟨hkept, -⟩ | ⟨-, hended, hclient⟩
    · rw [hkept] at hnot
      contradiction
    · rw [move_client, hclient]
      exact ⟨rfl, hended⟩
  nearer other hother := by
    obtain rfl := h.unique hother hholds
    rw [if_pos (caller?_event _ _), move_self, move_client]
    exact (advances engine hholds shared.client).stepsLeft_lt
  recorded other input response hevent := by
    have hhistory := (advances engine hholds shared.client).history
    rw [recording?_of_event hevent] at hhistory
    refine ⟨hhistory, ?_⟩
    -- a call that releases the client has nothing to record
    rcases (advances engine hholds shared.client).claim with ⟨-, havailable⟩ | ⟨hnone, -⟩
    · exact havailable.trans (h.claimed hholds)
    · rw [recording?_of_event hevent] at hnone
      contradiction
  unrecorded hnone := by
    have hhistory := (advances engine hholds shared.client).history
    rw [recording?_eq_none hnone] at hhistory
    exact hhistory.1
  untouched hnone htrims := by
    have hhistory := (advances engine hholds shared.client).history
    rw [recording?_eq_none hnone] at hhistory
    exact hhistory.2 (htrims id (caller?_event _ _))

/-- A step of a call that does not hold the client is orderly, if it leaves the client as it was but
    for the claim, and takes it only when it is free. -/
theorem Exclusive.orderly_outside (h : shared.Exclusive) {id : Nat} {progress : Progress ρ}
    (available : Bool) (hcaller : event.caller? = some id)
    (houtside : (shared.calls id).holds = false)
    (hrefuse : ∀ other, event = .refuse other → available = shared.client.available
      ∧ ∃ request, progress = .ended request request.refusal)
    (haccept : ∀ other, event = .accept other → shared.client.available = true)
    (hwork : ∀ other turn, event ≠ .work other turn) :
    Orderly shared event (shared.move id progress { shared.client with available }) where
  stopped hstop := by
    rw [hstop] at hcaller
    contradiction
  others other hother := by
    refine move_ne _ ?_ _ _
    rintro rfl
    exact hother hcaller
  outsider _ _ _ := rfl
  refused other hevent := by
    obtain ⟨havailable, request, hended⟩ := hrefuse other hevent
    rw [hevent] at hcaller
    obtain rfl := Option.some.inj hcaller
    rw [move_client, move_self, havailable]
    exact ⟨rfl, request, hended⟩
  accepted other hevent := h.available.mp (haccept other hevent)
  ended other hother hnot := by
    by_cases heq : other = id
    · rw [heq, houtside] at hother
      contradiction
    · rw [move_ne _ heq, hother] at hnot
      contradiction
  nearer other hother := by
    have hne : other ≠ id := by
      rintro rfl
      rw [houtside] at hother
      contradiction
    rw [hcaller, if_neg fun hcalls => hne (Option.some.inj hcalls).symm, move_ne _ hne]
    rfl
  recorded other input response hevent := absurd hevent (hwork other _)
  unrecorded _ := .inl rfl
  untouched _ _ := rfl

/-- **Every step is orderly.** -/
theorem Exclusive.orderly (h : shared.Exclusive) (hstep : Step engine shared event later) :
    Orderly shared event later := by
  cases hstep with
  | stop =>
    exact
      { stopped := fun _ => rfl
        others := fun _ _ => rfl
        outsider := fun _ hcaller => nomatch hcaller
        refused := fun _ hevent => nomatch hevent
        accepted := fun _ hevent => nomatch hevent
        ended := fun _ hholds hnot => absurd (hholds.symm.trans hnot) (by decide)
        nearer := fun _ _ => by
          rw [if_neg nofun]
          rfl
        recorded := fun _ _ _ hevent => nomatch hevent
        unrecorded := fun _ => .inl rfl
        untouched := fun _ _ => rfl }
  | @ask id request hidle =>
    refine h.orderly_outside shared.client.available rfl ?_ ?_ ?_ ?_
    · rw [hidle]
      rfl
    · exact fun _ hevent => nomatch hevent
    · exact fun _ hevent => nomatch hevent
    · exact fun _ _ hevent => nomatch hevent
  | @refuse id request hasking _ =>
    refine h.orderly_outside shared.client.available rfl ?_ ?_ ?_ ?_
    · rw [hasking]
      rfl
    · exact fun _ _ => ⟨rfl, request, rfl⟩
    · exact fun _ hevent => nomatch hevent
    · exact fun _ _ hevent => nomatch hevent
  | @accept id request hasking hfree =>
    refine h.orderly_outside false rfl ?_ ?_ ?_ ?_
    · rw [hasking]
      rfl
    · exact fun _ hevent => nomatch hevent
    · exact fun _ _ => hfree
    · exact fun _ _ hevent => nomatch hevent
  | advance hholds => exact h.orderly_advance hholds

/-- A step that records nothing of its call records nothing of any. -/
theorem recorded_move (shared : Shared σ ρ) {caller : Nat} {progress : Progress ρ}
    (hsame : progress.recorded = (shared.calls caller).recorded) (client : Client σ) (id : Nat) :
    ((shared.move caller progress client).calls id).recorded = (shared.calls id).recorded := by
  by_cases heq : id = caller
  · rw [heq, move_self, hsame]
  · rw [move_ne _ heq]

/-- **Exactly once.**  The turns that a call has added to the history are those that its outcome
    says it has, from the step that adds them on. -/
theorem turnsOf_eq_recorded {client : Client σ}
    (hrun : Run engine (fresh client : Shared σ ρ) events shared) (id : Nat) :
    turnsOf id events = (shared.calls id).recorded := by
  induction hrun with
  | refl => rfl
  | @step events event middle later _ hstep ih =>
    have hturns : turnsOf id (events ++ [event])
        = (middle.calls id).recorded ++ (event.recorded? id).toList := by
      unfold turnsOf at ih ⊢
      rw [List.filterMap_append, ih]
      cases h : event.recorded? id <;> simp [h]
    rw [hturns]
    cases hstep with
    | stop => exact List.append_nil _
    | ask request hidle =>
      refine (List.append_nil _).trans (middle.recorded_move ?_ _ _).symm
      rw [hidle]
      rfl
    | @refuse _ request hasking _ =>
      refine (List.append_nil _).trans (middle.recorded_move ?_ _ _).symm
      rw [hasking]
      -- a call that is refused adds no turn
      have hnone : request.turn? request.refusal = none := by
        rcases request with ⟨_ | _, _⟩ | _ | _ | _ <;> rfl
      exact congrArg Option.toList hnone
    | accept hasking _ =>
      refine (List.append_nil _).trans (middle.recorded_move ?_ _ _).symm
      rw [hasking]
      rfl
    | @advance caller hholds =>
      have hadvances := advances engine hholds middle.client
      by_cases heq : id = caller
      · rw [heq, move_self, hadvances.recorded_eq, recorded?_event, if_pos rfl]
      · rw [move_ne _ heq, recorded?_event, if_neg (Ne.symm heq)]
        exact List.append_nil _

/-! ## Section 3: The turn that was added -/

/-- A history that was built is being built on. -/
theorem Orderly.built (h : Orderly shared event later) (hbuilt : shared.client.history.Built) :
    later.client.history.Built := by
  by_cases hrecords : ∃ id turn, event = .work id (some turn)
  · obtain ⟨id, ⟨input, response⟩, hevent⟩ := hrecords
    rw [(h.recorded id input response hevent).1]
    exact hbuilt.pushTurn input response
  · have hnone : ∀ id turn, event ≠ .work id (some turn) :=
      fun id turn hevent => hrecords ⟨id, turn, hevent⟩
    rcases h.unrecorded hnone with hsame | hevict | hclear
    · rwa [hsame]
    · exact hbuilt.evict hevict
    · rw [hclear]
      exact hbuilt.clear

theorem Exclusive.built (h : shared.Exclusive) (hbuilt : shared.client.history.Built)
    (hrun : Run engine shared events later) : later.client.history.Built := by
  induction hrun with
  | refl => exact hbuilt
  | step hbefore hstep ih => exact ((h.run hbefore).orderly hstep).built ih

/-- **Settled**: until another call is accepted, nothing happens to the history.  If a call holds
    the client, it is about to release it. -/
def Settled (shared : Shared σ ρ) : Prop :=
  ∀ id, (shared.calls id).holds = true →
    ∃ request outcome, shared.calls id = .releasing request outcome

theorem Settled.move (h : shared.Settled) {id : Nat} {progress : Progress ρ} {client : Client σ}
    (hends : progress.holds = false) : (shared.move id progress client).Settled := by
  intro other hother
  by_cases heq : other = id
  · rw [heq, move_self, hends] at hother
    contradiction
  · rw [move_ne _ heq] at hother ⊢
    exact h other hother

/-- A step that accepts no call leaves a settled history alone. -/
theorem Settled.step (h : shared.Settled) (hstep : Step engine shared event later)
    (haccepts : ∀ id, event ≠ .accept id) :
    later.Settled ∧ later.client.history = shared.client.history := by
  cases hstep with
  | stop => exact ⟨h, rfl⟩
  | ask request hidle => exact ⟨h.move rfl, rfl⟩
  | refuse hasking hbusy => exact ⟨h.move rfl, rfl⟩
  | @accept id => exact absurd rfl (haccepts id)
  | @advance id hholds =>
    obtain ⟨request, outcome, hreleasing⟩ := h id hholds
    rw [hreleasing]
    exact ⟨h.move rfl, rfl⟩

theorem Settled.run (h : shared.Settled) (hrun : Run engine shared events later)
    (haccepts : ∀ id, .accept id ∉ events) :
    later.Settled ∧ later.client.history = shared.client.history := by
  induction hrun with
  | refl => exact ⟨h, rfl⟩
  | @step events event middle later _ hstep ih =>
    obtain ⟨hsettled, hsame⟩ := ih fun id hmem => haccepts id (List.mem_append_left _ hmem)
    have hother : ∀ id, event ≠ .accept id := by
      rintro id rfl
      exact haccepts id (List.mem_append_right _ (List.mem_singleton_self _))
    obtain ⟨hlater, hkept⟩ := hsettled.step hstep hother
    exact ⟨hlater, hkept.trans hsame⟩

/-- **After a turn is added** the history is settled: the call that has added it is about to release
    the client, and no other holds it. -/
theorem Exclusive.settled (h : shared.Exclusive) {id : Nat} {turn : String × String}
    (hstep : Step engine shared (.work id (some turn)) later) : later.Settled := by
  have hlater := h.step hstep
  generalize hevent : Event.work id (some turn) = event at hstep
  cases hstep with
  | stop | ask | refuse | accept => contradiction
  | @advance caller hholds =>
    obtain ⟨call, hcall⟩ := exists_answered (recording?_of_event hevent.symm)
    intro other hother
    obtain rfl : other = caller := by
      refine hlater.unique hother ?_
      rw [move_self, hcall]
      rfl
    rw [move_self, hcall]
    exact ⟨_, _, rfl⟩

/-- An accepted call leaves the history as it finds it. -/
theorem Exclusive.history_accept (h : shared.Exclusive) {id : Nat}
    (hstep : Step engine shared (.accept id) later) :
    later.client.history = shared.client.history := by
  have horderly := h.orderly hstep
  rw [horderly.outsider id rfl (horderly.accepted id rfl id)]

/-- **Calls take turns.**  After any run of the calls of a client, at most one of them holds it, and
    it is available exactly if none does; each call has added the turn that its outcome tells of,
    once, and no other; and whatever happens next is orderly.

    When a call adds a turn, its two messages stand at the end of the history.  They still do after
    whatever happens until another call is accepted, such as the release of the client, and when it
    is: no call that is accepted later can miss them.

    The calls are those of a client: one that is made now may, if nothing comes in between, do what
    the functions of a client do. -/
theorem calls_take_turns {client : Client σ} (havailable : client.available = true)
    (hrun : Run engine (fresh client : Shared σ ρ) events shared) :
    shared.Exclusive ∧ (∀ id, turnsOf id events = (shared.calls id).recorded)
      ∧ (∀ {event later}, Step engine shared event later → Orderly shared event later)
      ∧ (client.history.Built → ∀ {id input response answered},
        Step engine shared (.work id (some (input, response))) answered →
        ∀ {more later}, Run engine answered more later → (∀ other, .accept other ∉ more) →
          History.Adds input response shared.client.history later.client.history
            ∧ ∀ {other next}, Step engine later (.accept other) next →
              next.client.history = later.client.history)
      ∧ ∀ {id}, shared.calls id = .idle → ∀ stopAfter request, ∃ more, Run engine shared more
        (shared.move id (.ended request (request.serve engine stopAfter shared.client).1)
          (request.serve engine stopAfter shared.client).2) := by
  have hfresh : (fresh client : Shared σ ρ).Exclusive := exclusive_fresh havailable
  have hexclusive : shared.Exclusive := hfresh.run hrun
  refine ⟨hexclusive, turnsOf_eq_recorded hrun, hexclusive.orderly, ?_, run_serve⟩
  intro hbuilt id input response answered hrecords more later hmore haccepts
  -- the step adds the turn, and what follows it leaves the history as it is
  have hadds := (hfresh.built hbuilt hrun).adds input response
  obtain ⟨hpushed, -⟩ := (hexclusive.orderly hrecords).recorded id input response rfl
  obtain ⟨-, hkept⟩ := (hexclusive.settled hrecords).run hmore haccepts
  constructor
  · rwa [hkept, hpushed]
  · intro other next haccept
    exact ((hexclusive.step hrecords).run hmore).history_accept haccept

/-- The beginning of a run: three calls are made, the first one is accepted and streams its answer,
    in the middle of which the second one is refused. -/
theorem exists_answering : ∃ before : Shared Tabulated Unit,
    Run Tabulated.engine (fresh Client.conversing)
        [.ask 0, .ask 1, .ask 2, .accept 0, .work 0 none, .work 0 none, .work 0 none, .work 0 none,
          .refuse 1, .work 0 none, .work 0 none, .work 0 none] before
      ∧ (before.calls 0).recording? = some ("a", "a")
      ∧ before.calls 2 = .asking (.answer .turn "a")
      ∧ before.client.history.entries = [] := by
  let asked : Shared Tabulated Unit :=
    (((fresh Client.conversing).move 0 (.asking (.answer .turn "a")) Client.conversing).move 1
      (.asking .reset) Client.conversing).move 2 (.asking (.answer .turn "a")) Client.conversing
  have hasked : Run Tabulated.engine (fresh Client.conversing) [.ask 0, .ask 1, .ask 2] asked :=
    .step (.step (.step .refl (.ask _ rfl)) (.ask _ rfl)) (.ask _ rfl)
  have haccepted := hasked.step (@Step.accept _ _ _ asked 0 _ rfl rfl)
  -- the first call primes the context and begins to stream, and another one comes too early
  have hstreaming := haccepted.works 0 4 (by decide +kernel)
  have hrefused := hstreaming.step (@Step.refuse _ _ _ _ 1 _ rfl (by decide +kernel))
  have hended := hrefused.works 0 3 (by decide +kernel)
  generalize hevents : _ ++ List.map _ _ = events at hended
  have hlist : events = [.ask 0, .ask 1, .ask 2, .accept 0, .work 0 none, .work 0 none,
      .work 0 none, .work 0 none, .refuse 1, .work 0 none, .work 0 none, .work 0 none] := by
    rw [← hevents]
    decide +kernel
  rw [hlist] at hended
  exact ⟨_, hended, by decide +kernel, rfl, by decide +kernel⟩

/-- Three calls come to the same client.  One is accepted and streams its answer, in the middle of
    which another one is refused; its turn is added, and the client is released; then the third one
    is accepted, and finds the turn in the history. -/
theorem calls_take_turns_three : ∃ before answered released later : Shared Tabulated Unit,
    Run Tabulated.engine (fresh Client.conversing)
        [.ask 0, .ask 1, .ask 2, .accept 0, .work 0 none, .work 0 none, .work 0 none, .work 0 none,
          .refuse 1, .work 0 none, .work 0 none, .work 0 none] before
      ∧ Step Tabulated.engine before (.work 0 (some ("a", "a"))) answered
      ∧ Run Tabulated.engine answered [.release 0] released
      ∧ Step Tabulated.engine released (.accept 2) later
      ∧ Client.conversing.available = true ∧ Client.conversing.history.Built
      ∧ before.Exclusive ∧ before.client.history.entries = []
      ∧ released.client.available = true
      ∧ later.client.history.entries = [⟨.user, "a"⟩, ⟨.bot, "a"⟩] := by
  obtain ⟨before, hrun, hturn, hwaiting, hempty⟩ := exists_answering
  obtain ⟨call, hcall⟩ := exists_answered hturn
  let request : Request Unit := .answer call.purpose call.input
  let outcome : Outcome Unit := call.purpose.outcome (Transcript.ofWorker call.worker)
  let answered : Shared Tabulated Unit := before.move 0 (.releasing request outcome)
    (before.client.record call (Transcript.ofWorker call.worker).summary)
  let released : Shared Tabulated Unit :=
    answered.move 0 (.ended request outcome) answered.client.release
  have hrecords : Step Tabulated.engine before (.work 0 (some ("a", "a"))) answered := by
    have hstep := @Step.advance _ _ Tabulated.engine before 0 (by rw [hcall]; rfl)
    have hevent : (before.calls 0).event 0 = .work 0 (some ("a", "a")) := by
      rw [← hturn, hcall]
      rfl
    rwa [hevent, hcall] at hstep
  -- the turn is added, and all that is left to the call is to release the client
  have hreleasing : answered.calls 0 = .releasing request outcome := move_self _ _ _ _
  have hreleases : Step Tabulated.engine answered (.release 0) released := by
    have hstep := @Step.advance _ _ Tabulated.engine answered 0 (by rw [hreleasing]; rfl)
    rwa [hreleasing] at hstep
  have hstill : released.calls 2 = .asking (.answer .turn "a") := by
    rw [move_ne _ (by decide), move_ne _ (by decide)]
    exact hwaiting
  have haccepts := @Step.accept _ _ Tabulated.engine released 2 _ hstill rfl
  -- so the call that is accepted next finds it
  have hbuilt : Client.conversing.history.Built := .new _
  obtain ⟨hexclusive, -, -, hstays, -⟩ := calls_take_turns rfl hrun
  obtain ⟨⟨kept, hkept, hentries⟩, hsame⟩ :=
    hstays hbuilt hrecords (Run.step .refl hreleases) (by simp)
  rw [hempty, List.suffix_nil] at hkept
  rw [hkept, ← hsame haccepts] at hentries
  exact ⟨before, answered, released, _, hrun, hrecords, .step .refl hreleases, haccepts, rfl,
    hbuilt, hexclusive, hempty, rfl, hentries⟩

end Shared

end Parley
