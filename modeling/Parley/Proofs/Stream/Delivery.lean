import Parley.Proofs.Stream.Router
import Parley.Proofs.Stream.Transitions

/-! # What a streamed generation delivers

    The worker keeps three views of the generated text: the router, which holds a part of it back,
    the two channels, of which one may be closed early, and the texts of the summary.  The invariant
    `Follows` keeps them in step with the text that was handed to the router, and every act of the
    worker preserves it.

    The main statement is `run_delivers`: the summary of a generation that did not fail holds the
    two texts of the split of its text, that of a failed one what the router had released before. -/

namespace Parley

/-! ## Section 1: Routers that are past the thinking -/

namespace Router

/-- No text leaves a new router unchanged. -/
theorem new_step_nil (mode : ThinkingMode) (startMarker endMarker : Option String) :
    (Router.new mode startMarker endMarker).step []
      = (Router.new mode startMarker endMarker, {}) := by
  generalize hrouter : Router.new mode startMarker endMarker = router
  have hbreaks : router.trimming = false := by rw [← hrouter]; rfl
  have hpending : router.pending = [] := by rw [← hrouter]; rfl
  have hstart : router.startMarker = marker? startMarker := by rw [← hrouter]; rfl
  have hphase : firstPhase mode (marker? startMarker) = router.phase := by rw [← hrouter]; rfl
  have hself : { router with pending := [] } = router := by rw [← hpending]
  have hresponse : router.stepResponse [] [] [] = (router, {}) := by
    rw [stepResponse_of_pending_nil hpending, respond_of_not_trimming hbreaks]
    rfl
  unfold step
  rw [hpending, List.nil_append]
  cases h : router.phase with
  | disabled => exact hresponse
  | inResponse => exact hresponse
  | inThinking =>
    rw [h] at hphase
    unfold firstPhase at hphase
    split at hphase <;> cases hphase
  | searchingForStart =>
    have hnone : router.startMarker.bind (Text.splitAtFirst · []) = none := by
      rw [hstart]
      cases hmarker : marker? startMarker with
      | none => rfl
      | some marker => simp [Text.splitAtFirst, (marker?_eq_some_iff.mp hmarker).2]
    simp only [stepSearching_of_missing hbreaks hnone, Text.splitLast_nil, hself]

/-- Past the thinking no text is thinking any more. -/
theorem step_of_isPastThinking {router : Router} (h : router.isPastThinking = true)
    (chunk : List Char) :
    (router.step chunk).1.isPastThinking = true ∧ (router.step chunk).2.thinking = [] := by
  have hphase : router.phase = .disabled ∨ router.phase = .inResponse := by
    simpa [isPastThinking] using h
  unfold step
  obtain h | h := hphase <;> simp [h, stepResponse, isPastThinking]

theorem stepThinking_isPastThinking {router : Router} {text before : List Char}
    (h : (router.stepThinking text before).1.isPastThinking = true) :
    (router.stepThinking text before).1.pending = [] := by
  unfold stepThinking at h ⊢
  cases hcut : router.endMarker.bind fun marker => Text.splitAtFirst marker text with
  | none =>
    rw [hcut] at h
    simp [isPastThinking] at h
  | some cut => simp [stepResponse]

/-- A router that is past the thinking has just released all that it held. -/
theorem pending_of_isPastThinking {router : Router} {chunk : List Char}
    (h : (router.step chunk).1.isPastThinking = true) : (router.step chunk).1.pending = [] := by
  unfold step at h ⊢
  cases hphase : router.phase with
  | disabled => simp [stepResponse]
  | inResponse => simp [stepResponse]
  | inThinking =>
    simp only [hphase] at h ⊢
    exact stepThinking_isPastThinking h
  | searchingForStart =>
    simp only [hphase] at h ⊢
    unfold stepSearching at h ⊢
    cases hcut : router.startMarker.bind fun marker =>
        Text.splitAtFirst marker (router.pending ++ chunk) with
    | none =>
      rw [hcut] at h
      simp [isPastThinking, hphase] at h
    | some cut =>
      simp only [hcut] at h ⊢
      exact stepThinking_isPastThinking h

theorem finish_of_isPastThinking {router : Router} (h : router.isPastThinking = true) :
    router.finish.thinking = [] := by
  have hphase : router.phase = .disabled ∨ router.phase = .inResponse := by
    simpa [isPastThinking] using h
  unfold finish
  obtain h | h := hphase <;> simp [isThinking, h]

end Router

/-! ## Section 2: Channels -/

namespace Channels

/-- The texts that were produced. -/
def texts (channels : Channels) : Routed where
  thinking := channels.thinkingText.toList
  response := channels.responseText.toList

/-- The chunks of each channel make up the text that was produced for it. -/
structure Delivered (channels : Channels) : Prop where
  thinking : String.join channels.thinkingChunks = channels.thinkingText
  response : String.join channels.responseChunks = channels.responseText

/-- What is sent is produced. -/
@[simp] theorem send_texts (channels : Channels) (routed : Routed) :
    (channels.send routed).texts = channels.texts.append routed := by
  unfold send sendThinking sendResponse texts Routed.append
  cases routed.thinking <;> cases routed.response <;> simp

@[simp] theorem send_thinkingOpen (channels : Channels) (routed : Routed) :
    (channels.send routed).thinkingOpen = channels.thinkingOpen := by
  unfold send sendThinking sendResponse
  split <;> split <;> rfl

/-- What is sent is delivered, unless it is thinking and the channel is closed. -/
theorem send_delivered {channels : Channels} (h : channels.Delivered) (routed : Routed)
    (hopen : channels.thinkingOpen = false → routed.thinking = []) :
    (channels.send routed).Delivered := by
  have hthinking : (channels.sendThinking routed.thinking).Delivered := by
    unfold sendThinking
    split
    · exact h
    · next hsome =>
      have hopen' : channels.thinkingOpen = true := by
        by_contra hclosed
        simp [hopen (by simpa using hclosed)] at hsome
      exact ⟨by simp [hopen', String.join_append, h.thinking], h.response⟩
  unfold send sendResponse
  split
  · exact hthinking
  · exact ⟨hthinking.thinking, by simp [String.join_append, hthinking.response]⟩

@[simp] theorem sync_texts (channels : Channels) (router : Router) :
    (channels.sync router).texts = channels.texts := by
  unfold sync
  split <;> rfl

theorem sync_delivered {channels : Channels} (h : channels.Delivered) (router : Router) :
    (channels.sync router).Delivered := by
  unfold sync
  split
  · exact ⟨h.thinking, h.response⟩
  · exact h

/-- The thinking channel is closed when the router is past the thinking. -/
theorem sync_closed {channels : Channels} {router : Router}
    (h : (channels.sync router).thinkingOpen = false) :
    channels.thinkingOpen = false ∨ router.isPastThinking = true := by
  unfold sync at h
  split at h
  · next hpast => exact .inr hpast
  · exact .inl h

/-- Without thinking in it, what is sent leaves the thinking as it was. -/
theorem send_thinkingText {channels : Channels} {routed : Routed} (h : routed.thinking = []) :
    (channels.send routed).thinkingText = channels.thinkingText := by
  unfold send sendThinking sendResponse
  rw [h]
  simp only [List.isEmpty_nil, if_true]
  split <;> rfl

@[simp] theorem sync_thinkingText (channels : Channels) (router : Router) :
    (channels.sync router).thinkingText = channels.thinkingText := by
  unfold sync
  split <;> rfl

/-- A closed channel stays closed. -/
theorem sync_of_closed {channels : Channels} (h : channels.thinkingOpen = false)
    (router : Router) : (channels.sync router).thinkingOpen = false := by
  unfold sync
  split
  · rfl
  · exact h

end Channels

/-- The texts of a summary. -/
def Summary.texts (summary : Summary) : Routed where
  thinking := summary.thinking.toList
  response := summary.response.toList

/-! ## Section 3: The invariant of the worker -/

namespace Worker

variable {σ : Type}

/-- The router at the start of a generation. -/
def firstRouter (options : StreamOptions) : Router :=
  Router.new options.thinking options.startMarker options.endMarker

/-- The texts produced are what the router has released, and at the end also what it has held back,
    unless the generation failed. -/
def Accounts (released held : Routed) (worker : Worker) : Prop :=
  match worker.stage with
  | .predicting => worker.channels.texts = released
  | .sending routed => worker.channels.texts.append routed = released
  | .done summary =>
    worker.channels.texts = (if summary.isOk then released.append held else released)
      ∧ summary.thinking = worker.channels.thinkingText
      ∧ summary.response = worker.channels.responseText

/-- **Invariant**: the worker has handed `text` to its router, and the channels are in step with
    it. -/
structure Follows (options : StreamOptions) (text : List Char) (worker : Worker) : Prop where
  router_eq : worker.router = ((firstRouter options).step text).1
  accounts : Accounts ((firstRouter options).step text).2 ((firstRouter options).step text).1.finish
    worker
  delivered : worker.channels.Delivered
  closed : worker.channels.thinkingOpen = false → worker.router.isPastThinking = true
  quiet : worker.channels.thinkingOpen = false →
    ∀ routed, worker.stage = .sending routed → routed.thinking = []

/-- The invariant does not look at the counts and masks of the worker. -/
theorem Follows.of_same {options : StreamOptions} {text : List Char} {worker later : Worker}
    (h : Follows options text worker) (hsame : worker.SameOutput later) :
    Follows options text later := by
  obtain ⟨hrouter, hchannels, hstage⟩ := hsame
  refine ⟨?_, ?_, ?_, ?_, ?_⟩
  · rw [hrouter]; exact h.router_eq
  · unfold Accounts; rw [hchannels, hstage]; exact h.accounts
  · rw [hchannels]; exact h.delivered
  · rw [hchannels, hrouter]; exact h.closed
  · rw [hchannels, hstage]; exact h.quiet

/-- At the start nothing was handed to the router. -/
theorem start_follows (engine : Engine σ) (session : Session σ) (options : StreamOptions)
    (timer : Timer) : Follows options [] (start engine session options timer) := by
  have hnil : (firstRouter options).step [] = (firstRouter options, {}) :=
    Router.new_step_nil _ _ _
  have hchannels : (start engine session options timer).channels
      = ({} : Channels).sync (firstRouter options) := rfl
  refine ⟨?_, ?_, ?_, fun hclosed => ?_, fun _ _ h => by cases h⟩
  · rw [hnil]; rfl
  · change (start engine session options timer).channels.texts = _
    rw [hchannels, Channels.sync_texts, hnil]
    rfl
  · rw [hchannels]
    exact Channels.sync_delivered ⟨rfl, rfl⟩ _
  · rw [hchannels] at hclosed
    obtain h | h := Channels.sync_closed hclosed
    · cases h
    · exact h

theorem Follows.texts_of_predicting {options : StreamOptions} {text : List Char} {worker : Worker}
    (h : Follows options text worker) (hstage : worker.stage = .predicting) :
    worker.channels.texts = ((firstRouter options).step text).2 := by
  have haccounts := h.accounts
  unfold Accounts at haccounts
  rwa [hstage] at haccounts

/-- At the end what was held back is sent. -/
theorem Follows.finish {options : StreamOptions} {text : List Char} {worker : Worker}
    (h : Follows options text worker) (hstage : worker.stage = .predicting) {finish : Finish}
    (hok : ∀ error, finish ≠ .failed error) : Follows options text (worker.finish finish) := by
  -- a router past its thinking holds back no thinking
  have hheld : worker.channels.thinkingOpen = false → worker.router.finish.thinking = [] :=
    fun hclosed => Router.finish_of_isPastThinking (h.closed hclosed)
  refine ⟨h.router_eq, ?_, Channels.send_delivered h.delivered _ hheld, fun hclosed => ?_,
    fun _ _ hsending => by cases hsending⟩
  · refine ⟨?_, rfl, rfl⟩
    have hisOk : ∀ worker : Worker, (worker.summarize finish).isOk = true := by
      intro worker
      cases finish with
      | failed error => exact absurd rfl (hok error)
      | endOfSequence => rfl
      | stopped => rfl
      | length => rfl
    change (worker.channels.send worker.router.finish).texts = _
    rw [hisOk, Channels.send_texts, h.texts_of_predicting hstage, h.router_eq]
    rfl
  · refine h.closed ?_
    simpa [Worker.finish] using hclosed

/-- After a failure what was held back is dropped. -/
theorem Follows.fail {options : StreamOptions} {text : List Char} {worker : Worker}
    (h : Follows options text worker) (hstage : worker.stage = .predicting) (error : StreamError) :
    Follows options text (worker.fail error) := by
  refine ⟨h.router_eq, ⟨?_, rfl, rfl⟩, h.delivered, h.closed, fun _ _ hsending => by cases hsending⟩
  exact h.texts_of_predicting hstage

/-- What was routed is sent. -/
theorem Follows.deliver {options : StreamOptions} {text : List Char} {worker : Worker}
    {routed : Routed} (h : Follows options text worker) (hstage : worker.stage = .sending routed) :
    Follows options text (worker.deliver routed) := by
  have haccounts := h.accounts
  unfold Accounts at haccounts
  rw [hstage] at haccounts
  refine ⟨h.router_eq, ?_, ?_, fun hclosed => ?_, fun _ _ hsending => by cases hsending⟩
  · change ((worker.channels.send routed).sync worker.router).texts = _
    rw [Channels.sync_texts, Channels.send_texts]
    exact haccounts
  · exact Channels.sync_delivered
      (Channels.send_delivered h.delivered routed fun hclosed => h.quiet hclosed routed hstage) _
  · obtain hclosed | hpast := Channels.sync_closed hclosed
    · exact h.closed (by simpa using hclosed)
    · exact hpast

/-- The router takes more text, which is then to be sent. -/
theorem Follows.route {options : StreamOptions} {text : List Char} {worker : Worker}
    (h : Follows options text worker) (hstage : worker.stage = .predicting) (more : List Char) :
    Follows options (text ++ more)
      { (worker.route more).1 with stage := .sending (worker.route more).2 } := by
  -- the texts in two steps come to the same as the two texts in one
  have happend : (firstRouter options).step (text ++ more)
      = Router.followedBy ((firstRouter options).step text) more :=
    Router.step_append (Router.new_watchful _ _ _) text more
  have hpast := fun hclosed => Router.step_of_isPastThinking (h.closed hclosed) more
  refine ⟨?_, ?_, h.delivered, fun hclosed => (hpast hclosed).1, fun hclosed routed hsending => ?_⟩
  · change (worker.router.step more).1 = _
    rw [happend, h.router_eq]
    rfl
  · change worker.channels.texts.append (worker.router.step more).2 = _
    rw [happend, h.texts_of_predicting hstage, h.router_eq]
    rfl
  · cases hsending
    exact (hpast hclosed).2

/-- **Every act preserves the invariant**, with the text of its label added. -/
theorem Follows.act {options : StreamOptions} {text more : List Char} {worker later : Worker}
    (h : Follows options text worker) (hact : worker.Act more later) :
    Follows options (text ++ more) later := by
  have hmarked : ∀ {marked : Worker}, worker.SameOutput marked → Follows options text marked :=
    fun hsame => h.of_same hsame
  cases hact with
  | rest hsame =>
    rw [List.append_nil]
    exact hmarked hsame
  | deliver hstage =>
    rw [List.append_nil]
    exact h.deliver hstage
  | finish hsame hstage hok =>
    rw [List.append_nil]
    exact (hmarked hsame).finish (hsame.stage.trans hstage) hok
  | fail hsame hstage error =>
    rw [List.append_nil]
    exact (hmarked hsame).fail (hsame.stage.trans hstage) error
  | produce hsame hstage =>
    exact ((hmarked hsame).route (hsame.stage.trans hstage) more).of_same ⟨rfl, rfl, rfl⟩
  | force hsame hstage =>
    -- the marker is routed and delivered within one act
    have hrouted := (hmarked hsame).route (hsame.stage.trans hstage) more
    exact (hrouted.deliver rfl).of_same ⟨rfl, rfl, rfl⟩

/-- The invariant holds along every run. -/
theorem Follows.run {engine : Engine σ} {options : StreamOptions} {text more : List Char}
    {worker worker' : Worker} {session session' : Session σ} (h : Follows options text worker)
    (hrun : Run engine worker session more worker' session') :
    Follows options (text ++ more) worker' := by
  induction hrun with
  | refl => rwa [List.append_nil]
  | step _ hstep ih =>
    rw [← List.append_assoc]
    exact ih.act hstep.act

/-! ## Section 4: After the thinking channel was closed -/

/-- Once the thinking channel is closed, no act produces thinking. -/
theorem Follows.quiet_act {options : StreamOptions} {text more : List Char}
    {worker later : Worker} (h : Follows options text worker)
    (hclosed : worker.channels.thinkingOpen = false) (hact : worker.Act more later) :
    later.channels.thinkingOpen = false
      ∧ later.channels.thinkingText = worker.channels.thinkingText := by
  have hpast := h.closed hclosed
  -- what is sent without thinking leaves the channel closed and its text alone
  have hsend : ∀ {routed : Routed}, routed.thinking = [] →
      (worker.channels.send routed).thinkingOpen = false
        ∧ (worker.channels.send routed).thinkingText = worker.channels.thinkingText :=
    fun hquiet => ⟨by simpa using hclosed, Channels.send_thinkingText hquiet⟩
  have hdeliver : ∀ (next : Worker) {routed : Routed}, next.channels = worker.channels →
      routed.thinking = [] → (next.deliver routed).channels.thinkingOpen = false
        ∧ (next.deliver routed).channels.thinkingText = worker.channels.thinkingText := by
    intro next routed hchannels hquiet
    obtain ⟨hstill, hsame⟩ := hsend hquiet
    show ((next.channels.send routed).sync next.router).thinkingOpen = false
      ∧ ((next.channels.send routed).sync next.router).thinkingText = _
    rw [hchannels, Channels.sync_thinkingText]
    exact ⟨Channels.sync_of_closed hstill _, hsame⟩
  cases hact with
  | rest hsame => rw [hsame.channels]; exact ⟨hclosed, rfl⟩
  | deliver hstage => exact hdeliver worker rfl (h.quiet hclosed _ hstage)
  | @finish marked hsame =>
    show (marked.channels.send marked.router.finish).thinkingOpen = false
      ∧ (marked.channels.send marked.router.finish).thinkingText = _
    rw [hsame.channels, hsame.router]
    exact hsend (Router.finish_of_isPastThinking hpast)
  | @fail marked hsame =>
    show marked.channels.thinkingOpen = false ∧ marked.channels.thinkingText = _
    rw [hsame.channels]
    exact ⟨hclosed, rfl⟩
  | @produce marked hsame =>
    show marked.channels.thinkingOpen = false ∧ marked.channels.thinkingText = _
    rw [hsame.channels]
    exact ⟨hclosed, rfl⟩
  | @force marked hsame =>
    refine hdeliver _ hsame.channels ?_
    show (marked.router.step more).2.thinking = []
    rw [hsame.router]
    exact (Router.step_of_isPastThinking hpast _).2

/-- Once the thinking channel is closed, no run produces thinking. -/
theorem Follows.quiet_run {engine : Engine σ} {options : StreamOptions} {text more : List Char}
    {worker worker' : Worker} {session session' : Session σ} (h : Follows options text worker)
    (hclosed : worker.channels.thinkingOpen = false)
    (hrun : Run engine worker session more worker' session') :
    worker'.channels.thinkingOpen = false
      ∧ worker'.channels.thinkingText = worker.channels.thinkingText := by
  induction hrun with
  | refl => exact ⟨hclosed, rfl⟩
  | step hbefore hstep ih =>
    obtain ⟨hstill, hsame⟩ := (h.run hbefore).quiet_act ih.1 hstep.act
    exact ⟨hstill, hsame.trans ih.2⟩

/-! ## Section 5: Whole generations -/

/-- **A generation delivers its text**: the worker reaches its end, and however it gets there, with
    stops at any time and failing calls of the engine, the summary of a generation that did not fail
    holds what the router makes of its text, to the last flush, and the summary of a failed one
    what the router had released.  The chunks of each channel make up the text of the summary, and
    no thinking is produced after the thinking channel was closed. -/
theorem run_delivers (engine : Engine σ) (session : Session σ) (options : StreamOptions)
    (timer : Timer) :
    (∀ stopAfter, ∃ text summary,
      Run engine (start engine session options timer) session text
          (run engine stopAfter (start engine session options timer) session).1
          (run engine stopAfter (start engine session options timer) session).2
        ∧ (run engine stopAfter (start engine session options timer) session).1.stage
          = .done summary)
    ∧ ∀ text worker last,
      Run engine (start engine session options timer) session text worker last →
        (∀ summary, worker.stage = .done summary →
          (summary.isOk = true → summary.texts
            = Router.split options.thinking options.startMarker options.endMarker [text])
          ∧ (summary.isOk = false → summary.texts = ((firstRouter options).step text).2)
          ∧ String.join worker.channels.thinkingChunks = summary.thinking
          ∧ String.join worker.channels.responseChunks = summary.response)
        ∧ (worker.channels.thinkingOpen = false → ∀ more worker' last',
          Run engine worker last more worker' last' →
            worker'.channels.thinkingText = worker.channels.thinkingText) := by
  refine ⟨fun stopAfter => ?_, fun text worker last hrun => ?_⟩
  · -- the fuel of the worker is enough, so its run is one that ends
    obtain ⟨text, hrun⟩ := runWithin_sound engine stopAfter
      (start engine session options timer).maxSteps (start engine session options timer) session
    obtain ⟨summary, hdone⟩ :=
      run_done engine stopAfter (start engine session options timer) session
    exact ⟨text, summary, hrun, hdone⟩
  -- everything else follows from the invariant at the worker that was reached
  have hfollows : Follows options text worker := by
    simpa using (start_follows engine session options timer).run hrun
  refine ⟨fun summary hdone => ?_, fun hclosed more worker' last' hmore =>
    (hfollows.quiet_run hclosed hmore).2⟩
  have haccounts := hfollows.accounts
  unfold Accounts at haccounts
  rw [hdone] at haccounts
  obtain ⟨htexts, hthinking, hresponse⟩ := haccounts
  have hsummary : summary.texts = worker.channels.texts := by
    simp [Summary.texts, Channels.texts, hthinking, hresponse]
  refine ⟨fun hok => ?_, fun hfailed => ?_, ?_, ?_⟩
  · rw [hsummary, htexts, if_pos hok, Router.split, Router.feed_cons (Router.new_watchful _ _ _)]
    simp [firstRouter]
  · rw [hsummary, htexts, if_neg (by simp [hfailed])]
  · rw [hthinking]; exact hfollows.delivered.thinking
  · rw [hresponse]; exact hfollows.delivered.response

end Worker

end Parley
