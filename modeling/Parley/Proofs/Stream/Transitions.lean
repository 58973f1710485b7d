import Mathlib.Tactic.Common
import Parley.Proofs.Session.Coupling
import Parley.Stream.Worker

/-! # The worker as a transition system

    A step of the worker is one of a few transitions, each labelled with the text that it hands to
    the router: the text of a token, or the marker that forces the end of thinking.  Between two
    steps, while the engine works, and between a prediction and the look at the stop flag, somebody
    may request a stop.

    Every step of the executable worker is a transition (`step_sound`), so everything that holds of
    all runs of the transition system holds of the worker.  What a transition does to the worker,
    whatever session and engine do, is one act of the worker (`Step.act`).  The worker takes few
    enough steps to reach its end (`run_done`), and over coupled engines it comes to the same
    (`abreast_run`). -/

namespace Parley.Worker

variable {σ : Type}

/-! ## Section 1: Transitions -/

/-- The worker with all tokens allowed. -/
def unmasked (worker : Worker) : Worker := { worker with excluding := TokenSet.empty }

/-- The worker at the moment it forces the end of thinking. -/
def forcing (worker : Worker) : Worker := { worker.unmasked with injected := true }

/-- Puts the marker that ends thinking into the context. -/
def injectMarker (engine : Engine σ) (marker : String) : SessionM σ Unit := do
  let tokens ← Session.onVocab (Vocabulary.tokenize engine marker false true)
  Session.inject engine tokens

/-- The worker has room for another token, and the session predicts `token`. -/
def Predicts (engine : Engine σ) (worker : Worker) (session : Session σ) (token : TokenId)
    (next : Session σ) : Prop :=
  worker.stage = .predicting ∧ worker.produced < worker.options.maxNewTokens
    ∧ session.predictNext engine worker.excluding = .ok token next

/-- The end of the sequence was predicted while nobody had asked for a stop, and the context has
    room. -/
def EndsOpen (engine : Engine σ) (worker : Worker) (session next : Session σ) : Prop :=
  Predicts engine worker session worker.eos next ∧ next.isStopped = false
    ∧ next.remaining engine ≠ 0

/-- `Step engine worker session text worker' session'`: the worker may go on so, and hands `text` to
    the router. -/
inductive Step (engine : Engine σ) :
    Worker → Session σ → List Char → Worker → Session σ → Prop
  /-- Somebody requests a stop. -/
  | stop {worker session} : Step engine worker session [] worker session.stop
  /-- What was routed is sent. -/
  | deliver {worker session routed} : worker.stage = .sending routed →
      Step engine worker session [] (worker.deliver routed) session
  /-- The budget of tokens is used up. -/
  | budget {worker session} : worker.stage = .predicting →
      worker.options.maxNewTokens ≤ worker.produced →
      Step engine worker session [] (worker.finish .length) session
  /-- No token can be predicted. -/
  | failedPrediction {worker session error next} : worker.stage = .predicting →
      worker.produced < worker.options.maxNewTokens →
      session.predictNext engine worker.excluding = .error error next →
      Step engine worker session [] (worker.fail (.session error)) next
  /-- A token is counted and its text routed. -/
  | token {worker session token next piece vocab} : Predicts engine worker session token next →
      token ≠ worker.eos → Vocabulary.piece engine token false next.vocab = .ok piece vocab →
      Step engine worker session piece.toList (worker.unmasked.produce piece.toList)
        { next with vocab }
  /-- The text of a token cannot be told. -/
  | failedPiece {worker session token next error vocab} :
      Predicts engine worker session token next → token ≠ worker.eos →
      Vocabulary.piece engine token false next.vocab = .error error vocab →
      Step engine worker session [] (worker.unmasked.fail (.vocabulary error))
        { next with vocab : Session σ }.stop
  /-- A stop was requested, at the latest before the flag is looked at. -/
  | stopped {worker session next last} : Predicts engine worker session worker.eos next →
      last = next ∨ last = next.stop → last.isStopped = true →
      Step engine worker session [] (worker.unmasked.finish .stopped) last
  /-- The context is full. -/
  | full {worker session next} : Predicts engine worker session worker.eos next →
      next.isStopped = false → next.remaining engine = 0 →
      Step engine worker session [] (worker.unmasked.finish .length) next
  /-- The end of thinking is forced. -/
  | forced {worker session next marker last} : EndsOpen engine worker session next →
      worker.forcedEnd? = some marker → injectMarker engine marker next = .ok () last →
      Step engine worker session marker.toList
        ((worker.forcing.route marker.toList).1.deliver (worker.forcing.route marker.toList).2)
        last
  /-- The end of thinking cannot be forced. -/
  | failedInjection {worker session next marker error last} :
      EndsOpen engine worker session next → worker.forcedEnd? = some marker →
      injectMarker engine marker next = .error error last →
      Step engine worker session [] (worker.forcing.fail (.injection error)) last
  /-- The model has ended the sequence. -/
  | ended {worker session next} : EndsOpen engine worker session next →
      worker.forcedEnd? = none →
      Step engine worker session [] (worker.unmasked.finish .endOfSequence) next

/-- `Run engine worker session text worker' session'`: the worker may come so far, and the texts
    that it hands to the router on the way make up `text`. -/
inductive Run (engine : Engine σ) (worker : Worker) (session : Session σ) :
    List Char → Worker → Session σ → Prop
  | refl : Run engine worker session [] worker session
  | step {text more worker' session' worker'' session''} :
      Run engine worker session text worker' session' →
      Step engine worker' session' more worker'' session'' →
      Run engine worker session (text ++ more) worker'' session''

/-! ### What the worker does by itself -/

/-- The later worker has the same router and the same channels, and is at the same stage. -/
structure SameOutput (worker later : Worker) : Prop where
  router : later.router = worker.router
  channels : later.channels = worker.channels
  stage : later.stage = worker.stage

theorem sameOutput_refl (worker : Worker) : worker.SameOutput worker := ⟨rfl, rfl, rfl⟩

theorem sameOutput_unmasked (worker : Worker) : worker.SameOutput worker.unmasked := ⟨rfl, rfl, rfl⟩

/-- **What a worker does by itself**, whatever the session and the engine do: an act is labelled
    with the text that it hands to the router. -/
inductive Act (worker : Worker) : List Char → Worker → Prop
  /-- Nothing is routed, and nothing is sent. -/
  | rest {later : Worker} (hsame : worker.SameOutput later) : Act worker [] later
  /-- What was routed is sent. -/
  | deliver {routed : Routed} (hstage : worker.stage = .sending routed) :
    Act worker [] (worker.deliver routed)
  /-- The generation ends. -/
  | finish {marked : Worker} (hsame : worker.SameOutput marked)
    (hstage : worker.stage = .predicting) {finish : Finish}
    (hok : ∀ error, finish ≠ .failed error) : Act worker [] (marked.finish finish)
  /-- The generation fails. -/
  | fail {marked : Worker} (hsame : worker.SameOutput marked) (hstage : worker.stage = .predicting)
    (error : StreamError) : Act worker [] (marked.fail error)
  /-- The text of a token is routed. -/
  | produce {marked : Worker} (hsame : worker.SameOutput marked)
    (hstage : worker.stage = .predicting) (text : List Char) :
    Act worker text (marked.produce text)
  /-- The marker that ends thinking is routed and sent. -/
  | force {marked : Worker} (hsame : worker.SameOutput marked)
    (hstage : worker.stage = .predicting) (text : List Char) :
    Act worker text ((marked.route text).1.deliver (marked.route text).2)

/-- **A transition is an act of the worker.** -/
theorem Step.act {engine : Engine σ} {worker later : Worker} {session last : Session σ}
    {text : List Char} (h : Step engine worker session text later last) :
    worker.Act text later := by
  have hsame : worker.SameOutput worker := worker.sameOutput_refl
  have hunmasked : worker.SameOutput worker.unmasked := worker.sameOutput_unmasked
  have hforcing : worker.SameOutput worker.forcing := ⟨rfl, rfl, rfl⟩
  cases h with
  | stop => exact .rest hsame
  | deliver hstage => exact .deliver hstage
  | budget hstage => exact .finish hsame hstage (by simp)
  | failedPrediction hstage => exact .fail hsame hstage _
  | token hpredicts => exact .produce hunmasked hpredicts.1 _
  | failedPiece hpredicts => exact .fail hunmasked hpredicts.1 _
  | stopped hpredicts => exact .finish hunmasked hpredicts.1 (by simp)
  | full hpredicts => exact .finish hunmasked hpredicts.1 (by simp)
  | forced hopen => exact .force hforcing hopen.1.1 _
  | failedInjection hopen => exact .fail hforcing hopen.1.1 _
  | ended hopen => exact .finish hunmasked hopen.1.1 (by simp)

/-! ## Section 2: The executable worker -/

theorem forceEnd_of_error {engine : Engine σ} {marker : String} {session later : Session σ}
    {error : SessionError} (worker : Worker)
    (h : injectMarker engine marker session = .error error later) :
    forceEnd engine worker marker session
      = ({ worker with injected := true }.fail (.injection error), later) := by
  unfold injectMarker at h
  unfold forceEnd
  simp only [h]

theorem forceEnd_of_ok {engine : Engine σ} {marker : String} {session later : Session σ}
    (worker : Worker) (h : injectMarker engine marker session = .ok () later) :
    forceEnd engine worker marker session
      = (({ worker with injected := true }.route marker.toList).1.deliver
        ({ worker with injected := true }.route marker.toList).2, later) := by
  unfold injectMarker at h
  unfold forceEnd
  simp only [h]

/-- Going on after the end-of-sequence token is a transition. -/
theorem endSequence_sound {engine : Engine σ} {worker : Worker} {session next : Session σ}
    (h : Predicts engine worker session worker.eos next) :
    ∃ text, Step engine worker session text (worker.unmasked.endSequence engine next).1
      (worker.unmasked.endSequence engine next).2 := by
  unfold endSequence
  by_cases hstop : next.isStopped = true
  · rw [if_pos hstop]
    exact ⟨[], .stopped h (.inl rfl) hstop⟩
  rw [if_neg hstop]
  have hrunning : next.isStopped = false := by simpa using hstop
  by_cases hroom : next.remaining engine = 0
  · rw [if_pos hroom]
    exact ⟨[], .full h hrunning hroom⟩
  rw [if_neg hroom]
  have hopen : EndsOpen engine worker session next := ⟨h, hrunning, hroom⟩
  have hforced : worker.unmasked.forcedEnd? = worker.forcedEnd? := rfl
  cases hmarker : worker.forcedEnd? with
  | none =>
    simp only [hforced, hmarker]
    exact ⟨[], .ended hopen hmarker⟩
  | some marker =>
    simp only [hforced, hmarker]
    cases hinject : injectMarker engine marker next with
    | error error last =>
      rw [forceEnd_of_error _ hinject]
      exact ⟨[], .failedInjection hopen hmarker hinject⟩
    | ok value last =>
      rw [forceEnd_of_ok _ hinject]
      exact ⟨marker.toList, .forced hopen hmarker hinject⟩

/-- **Every step of the worker is a transition.** -/
theorem step_sound (engine : Engine σ) (worker : Worker) (session : Session σ)
    (h : ∀ summary, worker.stage ≠ .done summary) :
    ∃ text, Step engine worker session text (worker.step engine session).1
      (worker.step engine session).2 := by
  unfold step
  cases hstage : worker.stage with
  | done summary => exact absurd hstage (h summary)
  | sending routed => exact ⟨[], .deliver hstage⟩
  | predicting =>
    by_cases hbudget : worker.options.maxNewTokens ≤ worker.produced
    · simp only [if_pos hbudget]
      exact ⟨[], .budget hstage hbudget⟩
    simp only [if_neg hbudget]
    have hroom : worker.produced < worker.options.maxNewTokens := by omega
    unfold predict
    cases hpredict : session.predictNext engine worker.excluding with
    | error error next => exact ⟨[], .failedPrediction hstage hroom hpredict⟩
    | ok token next =>
      have hpredicts : Predicts engine worker session token next := ⟨hstage, hroom, hpredict⟩
      by_cases heos : token = worker.eos
      · subst heos
        simp only [if_true]
        exact endSequence_sound hpredicts
      simp only [if_neg heos]
      cases hpiece : Vocabulary.piece engine token false next.vocab with
      | error error vocab => exact ⟨[], .failedPiece hpredicts heos hpiece⟩
      | ok piece vocab => exact ⟨piece.toList, .token hpredicts heos hpiece⟩

/-- A run that follows a run continues it. -/
theorem Run.trans {engine : Engine σ} {worker worker' worker'' : Worker}
    {session session' session'' : Session σ} {text more : List Char}
    (h : Run engine worker session text worker' session')
    (h' : Run engine worker' session' more worker'' session'') :
    Run engine worker session (text ++ more) worker'' session'' := by
  induction h' with
  | refl => simpa using h
  | step _ hstep ih =>
    rw [← List.append_assoc]
    exact .step ih hstep

/-- A worker that has not ended spends one unit of fuel on a step, after which a stop may be
    requested. -/
theorem runWithin_succ (engine : Engine σ) (stopAfter : Nat → Bool) (fuel : Nat)
    {worker : Worker} (session : Session σ) (h : ∀ summary, worker.stage ≠ .done summary) :
    ∃ next, (next = (worker.step engine session).2 ∨ next = (worker.step engine session).2.stop)
      ∧ runWithin engine stopAfter (fuel + 1) worker session
        = runWithin engine stopAfter fuel (worker.step engine session).1 next := by
  rw [runWithin]
  generalize worker.step engine session = stepped
  obtain ⟨later, left⟩ := stepped
  split
  · rename_i summary hstage
    exact absurd hstage (h summary)
  · refine ⟨_, ?_, rfl⟩
    -- only a worker that sends is asked whether to stop
    dsimp only
    split
    · split
      · exact .inr rfl
      · exact .inl rfl
    · exact .inl rfl

/-- What the worker does with its fuel is a run. -/
theorem runWithin_sound (engine : Engine σ) (stopAfter : Nat → Bool) (fuel : Nat)
    (worker : Worker) (session : Session σ) :
    ∃ text, Run engine worker session text
      (runWithin engine stopAfter fuel worker session).1
      (runWithin engine stopAfter fuel worker session).2 := by
  induction fuel generalizing worker session with
  | zero => exact ⟨[], .refl⟩
  | succ fuel ih =>
    by_cases hdone : ∃ summary, worker.stage = .done summary
    · obtain ⟨summary, hdone⟩ := hdone
      simp only [runWithin, hdone]
      exact ⟨[], .refl⟩
    have hgoing : ∀ summary, worker.stage ≠ .done summary := fun summary h => hdone ⟨summary, h⟩
    -- a stop that is requested between two steps is a transition of its own
    obtain ⟨first, hfirst⟩ := step_sound engine worker session hgoing
    obtain ⟨next, hnext, heq⟩ := runWithin_succ engine stopAfter fuel session hgoing
    have hone : Run engine worker session ([] ++ first) (worker.step engine session).1 next := by
      obtain rfl | rfl := hnext
      · exact .step .refl hfirst
      · rw [← List.append_nil ([] ++ first)]
        exact .step (.step .refl hfirst) .stop
    obtain ⟨more, hmore⟩ := ih (worker.step engine session).1 next
    rw [heq]
    exact ⟨_, hone.trans hmore⟩

/-! ## Section 3: The end -/

/-- The number of steps that are left at most: two a token, one for a forced end of thinking, and
    one for the end. -/
def stepsLeft (worker : Worker) : Nat :=
  match worker.stage with
  | .done _ => 0
  | .predicting =>
    2 * (worker.options.maxNewTokens - worker.produced) + (if worker.injected then 0 else 1) + 1
  | .sending _ =>
    2 * (worker.options.maxNewTokens - worker.produced) + (if worker.injected then 0 else 1) + 2

@[simp] theorem stepsLeft_finish (worker : Worker) (finish : Finish) :
    (worker.finish finish).stepsLeft = 0 := rfl

/-- The end of thinking is forced once. -/
theorem forcedEnd?_injected {worker : Worker} {marker : String}
    (h : worker.forcedEnd? = some marker) : worker.injected = false := by
  unfold forcedEnd? at h
  by_cases hinjected : worker.injected = true
  · simp [hinjected] at h
  · simpa using hinjected

/-- Going on after the end-of-sequence token brings the worker nearer to its end. -/
theorem stepsLeft_endSequence (engine : Engine σ) {worker : Worker} (session : Session σ)
    (hstage : worker.stage = .predicting) :
    (worker.endSequence engine session).1.stepsLeft < worker.stepsLeft := by
  have hpos : 0 < worker.stepsLeft := by simp [stepsLeft, hstage]
  unfold endSequence
  split
  · exact hpos
  split
  · exact hpos
  split
  · next marker hmarker =>
    -- what is forced once is not forced again, which is worth one step
    have hinjected := forcedEnd?_injected hmarker
    unfold forceEnd
    simp only []
    split
    · exact hpos
    · simp [stepsLeft, hstage, hinjected, deliver, route]
  · exact hpos

/-- Every step of a worker that has not ended brings it nearer to its end. -/
theorem stepsLeft_step (engine : Engine σ) {worker : Worker} (session : Session σ)
    (h : ∀ summary, worker.stage ≠ .done summary) :
    (worker.step engine session).1.stepsLeft < worker.stepsLeft := by
  unfold step
  cases hstage : worker.stage with
  | done summary => exact absurd hstage (h summary)
  | sending routed =>
    simp only [stepsLeft, hstage, deliver]
    exact Nat.lt_succ_self _
  | predicting =>
    have hpos : 0 < worker.stepsLeft := by simp [stepsLeft, hstage]
    by_cases hbudget : worker.options.maxNewTokens ≤ worker.produced
    · simp only [if_pos hbudget, stepsLeft_finish]
      exact hpos
    simp only [if_neg hbudget, predict]
    split
    · exact hpos
    split
    · exact stepsLeft_endSequence engine _ hstage
    split
    · exact hpos
    · -- One token more is counted, which is worth two steps.
      simp [stepsLeft, hstage, produce, route]
      omega

/-- With enough fuel the worker reaches its end. -/
theorem runWithin_done (engine : Engine σ) (stopAfter : Nat → Bool) (fuel : Nat)
    (worker : Worker) (session : Session σ) (hfuel : worker.stepsLeft ≤ fuel) :
    ∃ summary, (runWithin engine stopAfter fuel worker session).1.stage = .done summary := by
  induction fuel generalizing worker session with
  | zero =>
    cases hstage : worker.stage with
    | done summary => exact ⟨summary, by simpa [runWithin] using hstage⟩
    | predicting => simp [stepsLeft, hstage] at hfuel
    | sending routed => simp [stepsLeft, hstage] at hfuel
  | succ fuel ih =>
    by_cases hdone : ∃ summary, worker.stage = .done summary
    · obtain ⟨summary, hdone⟩ := hdone
      exact ⟨summary, by simp [runWithin, hdone]⟩
    have hgoing : ∀ summary, worker.stage ≠ .done summary := fun summary h => hdone ⟨summary, h⟩
    obtain ⟨next, -, heq⟩ := runWithin_succ engine stopAfter fuel session hgoing
    have hless := stepsLeft_step engine session hgoing
    rw [heq]
    exact ih _ next (by omega)

/-- **The worker ends**: its fuel is enough. -/
theorem run_done (engine : Engine σ) (stopAfter : Nat → Bool) (worker : Worker)
    (session : Session σ) :
    ∃ summary, (run engine stopAfter worker session).1.stage = .done summary := by
  refine runWithin_done engine stopAfter _ worker session ?_
  unfold stepsLeft maxSteps
  split
  · exact Nat.zero_le _
  · split <;> omega
  · split <;> omega

/-! ## Section 4: Workers side by side

    Over coupled engines, and with the same pieces, a worker comes to the same. -/

section Coupled

open Parley.Step

variable {τ : Type} {related : Vocabulary σ → Vocabulary τ → Prop}
  {engine : Engine σ} {engine' : Engine τ}
  {session : Session σ} {session' : Session τ} (hcoupled : engine.Coupled related engine')
  (hpiece : ∀ token {vocab vocab'}, related vocab vocab' →
    Couples related (Vocabulary.piece engine token false) (Vocabulary.piece engine' token false)
      vocab vocab')

/-- What two workers came to: the same worker, and sessions that are alike. -/
def Abreast (related : Vocabulary σ → Vocabulary τ → Prop) (left : Worker × Session σ)
    (right : Worker × Session τ) : Prop :=
  left.1 = right.1 ∧ left.2.Alike related right.2

include hcoupled

theorem abreast_endSequence (worker : Worker) (h : session.Alike related session') :
    Abreast related (worker.endSequence engine session) (worker.endSequence engine' session') := by
  have hroom : session.remaining engine = session'.remaining engine' := by
    unfold Session.remaining
    rw [h.capacity hcoupled, h.position]
  have hinject : ∀ marker, Couples (Session.Alike related) (injectMarker engine marker)
      (injectMarker engine' marker) session session' := by
    intro marker
    exact (Session.couples_tokenize hcoupled h marker false true).bind fun tokens _ _ h =>
      Session.couples_inject hcoupled h tokens
  unfold endSequence
  rw [h.isStopped hcoupled, hroom]
  by_cases hstopped : session'.isStopped = true
  · rw [if_pos hstopped, if_pos hstopped]
    exact ⟨rfl, h⟩
  rw [if_neg hstopped, if_neg hstopped]
  by_cases hfull : session'.remaining engine' = 0
  · rw [if_pos hfull, if_pos hfull]
    exact ⟨rfl, h⟩
  rw [if_neg hfull, if_neg hfull]
  cases worker.forcedEnd? with
  | none => exact ⟨rfl, h⟩
  | some marker =>
    dsimp only
    rcases (hinject marker).outcomes with ⟨_, later, later', hstep, hstep', hlater⟩ |
      ⟨error, later, later', hstep, hstep', hlater⟩
    · rw [forceEnd_of_ok _ hstep, forceEnd_of_ok _ hstep']
      exact ⟨rfl, hlater⟩
    · rw [forceEnd_of_error _ hstep, forceEnd_of_error _ hstep']
      exact ⟨rfl, hlater⟩

include hpiece

theorem abreast_predict (worker : Worker) (h : session.Alike related session') :
    Abreast related (worker.predict engine session) (worker.predict engine' session') := by
  unfold predict
  rcases (Session.couples_predictNext hcoupled h worker.excluding).outcomes with
    ⟨token, later, later', hpredict, hpredict', hlater⟩ |
    ⟨error, later, later', hpredict, hpredict', hlater⟩
  · rw [hpredict, hpredict']
    dsimp only
    by_cases heos : token = worker.eos
    · rw [if_pos heos, if_pos heos]
      exact abreast_endSequence hcoupled _ hlater
    rw [if_neg heos, if_neg heos]
    rcases (hpiece token hlater.vocab).outcomes with ⟨piece, vocab, vocab', hask, hask', hvocab⟩ |
      ⟨error, vocab, vocab', hask, hask', hvocab⟩
    · rw [hask, hask']
      exact ⟨rfl, { hlater with vocab := hvocab }⟩
    · rw [hask, hask']
      have halike : Session.Alike related { later with vocab } { later' with vocab := vocab' } :=
        { hlater with vocab := hvocab }
      exact ⟨rfl, halike.stop hcoupled⟩
  · rw [hpredict, hpredict']
    exact ⟨rfl, hlater⟩

theorem abreast_step (worker : Worker) (h : session.Alike related session') :
    Abreast related (worker.step engine session) (worker.step engine' session') := by
  unfold step
  cases worker.stage with
  | done summary => exact ⟨rfl, h⟩
  | sending routed => exact ⟨rfl, h⟩
  | predicting =>
    dsimp only
    by_cases hbudget : worker.options.maxNewTokens ≤ worker.produced
    · rw [if_pos hbudget, if_pos hbudget]
      exact ⟨rfl, h⟩
    · rw [if_neg hbudget, if_neg hbudget]
      exact abreast_predict hcoupled hpiece worker h

/-- **Streams side by side.**  Over sessions that are alike, a worker comes to the same. -/
theorem abreast_run (stopAfter : Nat → Bool) (worker : Worker)
    (h : session.Alike related session') :
    Abreast related (worker.run engine stopAfter session)
      (worker.run engine' stopAfter session') := by
  unfold run
  generalize worker.maxSteps = fuel
  induction fuel generalizing worker session session' with
  | zero => exact ⟨rfl, h⟩
  | succ fuel ih =>
    have hstep := abreast_step hcoupled hpiece worker h
    rw [runWithin, runWithin]
    generalize worker.step engine session = left at hstep
    generalize worker.step engine' session' = right at hstep
    obtain ⟨later, session⟩ := left
    obtain ⟨later', session'⟩ := right
    obtain ⟨rfl, hlater⟩ := hstep
    split
    · exact ⟨rfl, h⟩
    · refine ih _ ?_
      dsimp only
      split
      · split
        · exact hlater.stop hcoupled
        · exact hlater
      · exact hlater

end Coupled

end Parley.Worker
