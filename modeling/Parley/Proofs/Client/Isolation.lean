import Parley.Client.Answer
import Parley.Proofs.Client.Course
import Parley.Proofs.Session.Extraction

/-! # Calls do not leak into each other

    Over a scripted engine a client is reached by calls, answered or failed, by stops at any time,
    and by changes of its template or of the script.  What such a client keeps from its past shows
    in no call: two of them that agree on their settings and their random numbers answer alike, and
    agree again, `Client.calls_do_not_leak`.  With greedy parameters no random number is ever drawn,
    so the past makes no difference at all.
-/

namespace Parley

open Step

variable {α : Type}

/-! ## Section 1: Sessions over a scripted engine -/

/-- A draw changes nothing about the sampler but the random numbers, and at a very low temperature
    not even those. -/
theorem Sampler.sample_sampler (sampler : Sampler) (scores : List Float32) (history : List Nat) :
    (sampler.sample scores history).2 = sampler
      ∨ ¬ sampler.temperature < 1e-3
        ∧ (sampler.sample scores history).2
          = { sampler with generator := sampler.generator.next } := by
  unfold Sampler.sample
  by_cases hempty : scores.isEmpty = true
  · exact .inl (by rw [if_pos hempty])
  by_cases htemperature : sampler.temperature ≤ 0
  · exact .inl (by rw [if_neg hempty, if_pos htemperature])
  by_cases hfinite : (!scores.any (·.isFinite)) = true
  · exact .inl (by rw [if_neg hempty, if_neg htemperature, if_pos hfinite])
  rw [if_neg hempty, if_neg htemperature, if_neg hfinite]
  by_cases hgreedy : sampler.temperature < 1e-3
  · exact .inl (by rw [if_pos hgreedy])
  · refine .inr ⟨hgreedy, ?_⟩
    rw [if_neg hgreedy]
    unfold Sampler.drawIndex
    dsimp only
    split <;> rfl

/-- The tokens that end a generation by the template. -/
def Template.stopTokens (template : Template) : Except EngineError (List TokenId) :=
  if (template.stopSequence.getD "").isEmpty then .ok []
  else Scripted.tokenize (template.stopSequence.getD "") false true

/-- A property of states that decoding and emptying the context do not affect. -/
structure Scripted.Steady (idle : Scripted → Prop) : Prop where
  decode : ∀ batch {state}, idle state → idle (Scripted.decode batch state).2
  clear : ∀ {state}, idle state → idle (Scripted.clear state)

/-- The state with no call that is to fail. -/
def Scripted.Healthy (state : Scripted) : Prop := state.failAt = none

/-- The state with no call that is to fail, and with the engine generating. -/
def Scripted.Generating (state : Scripted) : Prop :=
  state.failAt = none ∧ state.embeddingMode = false

theorem Scripted.steady_healthy : Steady Healthy where
  decode batch state h := (decode_settings batch state).1.trans h
  clear h := h

theorem Scripted.steady_generating : Steady Generating where
  decode batch state h :=
    ⟨(decode_settings batch state).1.trans h.1, (decode_settings batch state).2.1.trans h.2⟩
  clear h := h

/-- The state with the given script and size of the context. -/
def Scripted.Recites (script : Option Script) (contextSize : Nat) (state : Scripted) : Prop :=
  state.script = script ∧ state.contextSize = contextSize

theorem Scripted.steady_recites (script : Option Script) (contextSize : Nat) :
    Steady (Recites script contextSize) where
  decode batch state h := by
    obtain ⟨-, -, hscript, hsize⟩ := decode_settings batch state
    exact ⟨hscript.trans h.1, hsize.trans h.2⟩
  clear h := h

namespace Session

/-- **A session that fits** its parameters and its stop sequence, over an engine that is idle.  What
    it has learnt is true, and with greedy parameters no random number was drawn. -/
structure Fits (params : SamplingParams) (stopSequence : List TokenId) (idle : Scripted → Prop)
    (session : Session Scripted) : Prop where
  settings : session.params = params
  ending : session.stopSequence = stopSequence
  sampler : ∃ generator, session.sampler = { Sampler.ofParams params with generator }
  greedy : params.temperature < 1e-3 → session.sampler = Sampler.ofParams params
  truthful : session.vocab.Truthful Scripted.lexicon
  idle : idle session.vocab.engine

section Fits

variable {params : SamplingParams} {stopSequence : List TokenId} {idle : Scripted → Prop}

/-- The session fits if it fitted before. -/
def StaysFit (params : SamplingParams) (stopSequence : List TokenId) (idle : Scripted → Prop)
    (before later : Session Scripted) : Prop :=
  before.Fits params stopSequence idle → later.Fits params stopSequence idle

/-- The state of the engine, as long as it is idle, and whether a stop was requested, are nothing to
    fit. -/
theorem Fits.touched {session : Session Scripted} (h : session.Fits params stopSequence idle)
    {state : Scripted} (hidle : idle state) (stopped : Bool) :
    ({ session with vocab := { session.vocab with engine := state, stopped } } :
      Session Scripted).Fits params stopSequence idle :=
  { h with truthful := h.truthful.touched _ _, idle := hidle }

/-- To arm the session anew is nothing to fit. -/
theorem staysFit_rearm (session : Session Scripted) :
    StaysFit params stopSequence idle session session.rearm :=
  fun h => h.touched h.idle false

/-- A draw fits: it uses up random numbers only if the parameters are not greedy. -/
theorem Fits.drawn {session : Session Scripted} (h : session.Fits params stopSequence idle)
    (scores : List Float32) :
    ({ session with sampler := (session.sampler.sample scores session.penalized).2 } :
      Session Scripted).Fits params stopSequence idle := by
  rcases session.sampler.sample_sampler scores session.penalized with hsame | ⟨hwarm, hnext⟩
  · rw [hsame]
    exact h
  · rw [hnext]
    obtain ⟨generator, hsampler⟩ := h.sampler
    refine { h with sampler := ⟨session.sampler.generator.next, ?_⟩, greedy := fun hgreedy => ?_ }
    · rw [hsampler]
    · rw [h.greedy hgreedy] at hwarm
      exact absurd hgreedy hwarm

/-- What a vocabulary is asked for leaves the session fit. -/
theorem staysFit_onVocab {step : VocabularyM Scripted α} {answer : Except VocabularyError α}
    (hstep : ∀ {vocab}, Vocabulary.Sound Scripted.lexicon (fun state _ => idle state) vocab →
      Answers (Vocabulary.Sound Scripted.lexicon fun state _ => idle state) answer step vocab)
    (session : Session Scripted) :
    Keeps (StaysFit params stopSequence idle) (onVocab step) session := by
  refine keeps_onVocab fun h => ?_
  have hgives := hstep ⟨h.truthful, h.idle⟩
  unfold Answers at hgives
  unfold after
  cases hrun : step session.vocab <;> rw [hrun] at hgives <;> cases hgives
  · rename_i hsound
    exact { h with truthful := hsound.truthful, idle := hsound.still }
  · rename_i hsound
    exact { h with truthful := hsound.truthful, idle := hsound.still }

variable {engine : Engine Scripted} (hsilent : engine.silent = Scripted.engine)

include hsilent

theorem staysFit_piece (token : TokenId) (session : Session Scripted) :
    Keeps (StaysFit params stopSequence idle) (onVocab (Vocabulary.piece engine token false))
      session :=
  staysFit_onVocab (fun h =>
    Vocabulary.answers_piece (Scripted.speaks_of_silent hsilent idle) h token false) session

theorem staysFit_learn (session : Session Scripted) :
    Keeps (StaysFit params stopSequence idle) (onVocab (Palette.learn engine)) session :=
  staysFit_onVocab (fun h =>
    Vocabulary.answers_learn (Scripted.speaks_of_silent hsilent idle) h) session

/-- **Sessions stay fit**, whatever is asked of them. -/
theorem enduring_staysFit (hsteady : Scripted.Steady idle) :
    Enduring engine (StaysFit params stopSequence idle) where
  piece := staysFit_piece hsilent
  refl _ h := h
  trans h h' hfirst := h' (h hfirst)
  stop _ h := h.touched h.idle true
  note _ _ _ _ h := { h with }
  draw _ scores h := h.drawn scores
  tokenize text addBos special session h := by
    refine h.touched ?_ _
    rw [Scripted.tokenize_state hsilent]
    exact h.idle
  decode batch session h := by
    refine h.touched ?_ _
    rw [Scripted.decode_state hsilent]
    exact hsteady.decode batch h.idle
  logits session h := by
    refine h.touched ?_ _
    rw [Scripted.logits_state hsilent]
    exact h.idle
  clear session h := by
    refine h.touched ?_ _
    rw [(Scripted.clear_reply hsilent _).2]
    exact hsteady.clear h.idle

/-! ### Embeddings -/

/-- **Embeddings** leave the session fit, if the mode of the engine is nothing to be idle. -/
theorem staysFit_extract (hsteady : Scripted.Steady idle)
    (hmode : ∀ enabled {state}, idle state → idle { state with embeddingMode := enabled })
    (text : String) (session : Session Scripted) :
    Keeps (StaysFit params stopSequence idle) (extractEmbeddings engine text) session := by
  have hlasting : Enduring engine (StaysFit params stopSequence idle) :=
    enduring_staysFit hsilent hsteady
  have hembeddings : ∀ session, StaysFit params stopSequence idle session
      (session.heard (engine.embeddings session.vocab.engine)) := by
    intro session h
    refine h.touched ?_ _
    rw [Scripted.embeddings_state hsilent]
    exact h.idle
  have hswitch : ∀ enabled session, StaysFit params stopSequence idle session
      (session.heard (engine.setEmbeddings enabled session.vocab.engine)) := by
    intro enabled session h
    refine h.touched ?_ _
    rw [(Scripted.setEmbeddings_reply hsilent _ _).2]
    exact hmode enabled h.idle
  exact hlasting.keeps_extractEmbeddings hembeddings hswitch text

/-- **Embeddings** leave the session fit, and the engine generating. -/
theorem staysFit_extractEmbeddings (text : String) (session : Session Scripted) :
    Keeps (StaysFit params stopSequence Scripted.Generating) (extractEmbeddings engine text)
      session := by
  intro h
  have hkept : Keeps (StaysFit params stopSequence Scripted.Healthy)
      (extractEmbeddings engine text) session :=
    staysFit_extract hsilent Scripted.steady_healthy (fun _ _ h => h) text session
  have hlater := hkept { h with idle := h.idle.1 }
  exact { hlater with
    idle := ⟨hlater.idle, staysGenerating_extractEmbeddings hsilent text session h.idle.2⟩ }

end Fits

/-! ## Section 2: Two sessions -/

/-- The sessions are the same, but for what their vocabularies know and for the calls that were
    counted. -/
def Twins : Session Scripted → Session Scripted → Prop :=
  Alike (Vocabulary.Akin Scripted.lexicon Scripted.Matches)

/-- **Kindred sessions** become twins when their contexts are emptied. -/
structure Kindred (session session' : Session Scripted) : Prop where
  vocab : Vocabulary.Akin Scripted.lexicon Scripted.Kindred session.vocab session'.vocab
  params : session.params = session'.params
  sampler : session.sampler = session'.sampler
  stopSequence : session.stopSequence = session'.stopSequence

section Kindred

variable {session session' : Session Scripted}

theorem Twins.kindred (h : Twins session session') : Kindred session session' where
  vocab := { h.vocab with same := h.vocab.same.kindred }
  params := h.params
  sampler := h.sampler
  stopSequence := h.stopSequence

/-- Sessions that fit the same settings are kindred, if they agree on the random numbers. -/
theorem Fits.kindred {params : SamplingParams} {stopSequence : List TokenId}
    (h : session.Fits params stopSequence Scripted.Generating)
    (h' : session'.Fits params stopSequence Scripted.Generating)
    (hgenerator : session.sampler.generator = session'.sampler.generator)
    (hscript : session.vocab.engine.script = session'.vocab.engine.script)
    (hsize : session.vocab.engine.contextSize = session'.vocab.engine.contextSize)
    (hstopped : session.vocab.stopped = session'.vocab.stopped) : Kindred session session' where
  vocab := by
    refine ⟨h.truthful, h'.truthful, hstopped, Scripted.kindred_iff.mpr ?_⟩
    exact ⟨hsize, hscript, h.idle.2.trans h'.idle.2.symm, h.idle.1, h'.idle.1⟩
  params := h.settings.trans h'.settings.symm
  sampler := by
    obtain ⟨generator, hsampler⟩ := h.sampler
    obtain ⟨generator', hsampler'⟩ := h'.sampler
    rw [hsampler, hsampler'] at hgenerator
    rw [hsampler, hsampler']
    exact congrArg (fun generator => { Sampler.ofParams params with generator }) hgenerator
  stopSequence := h.ending.trans h'.ending.symm

theorem couples_piece_scripted (token : TokenId) {vocab vocab' : Vocabulary Scripted}
    (h : Vocabulary.Akin Scripted.lexicon Scripted.Matches vocab vocab') :
    Couples (Vocabulary.Akin Scripted.lexicon Scripted.Matches)
      (Vocabulary.piece Scripted.engine token false) (Vocabulary.piece Scripted.engine token false)
      vocab vocab' :=
  Vocabulary.couples_piece Scripted.recites h token false

/-- What was in the contexts does not matter once they are emptied. -/
theorem Kindred.couples_resetContext (h : Kindred session session') :
    Couples Twins (resetContext Scripted.engine) (resetContext Scripted.engine) session
      session' := by
  refine .of_ok (resetContext_eq rfl session) (resetContext_eq rfl session') ?_
  have hvocab : Vocabulary.Akin Scripted.lexicon Scripted.Matches
      (session.vocab.heard (Scripted.engine.clear session.vocab.engine))
      (session'.vocab.heard (Scripted.engine.clear session'.vocab.engine)) := by
    refine ⟨h.vocab.truthful.touched _ _, h.vocab.truthful'.touched _ _, ?_, h.vocab.same⟩
    exact congrArg (· || false) h.vocab.stopped
  exact ⟨hvocab, h.params, h.sampler, rfl, rfl, h.stopSequence, rfl⟩

/-- **Priming** makes twins of kindred sessions. -/
theorem Kindred.couples_prime (h : Kindred session session') (prompt : String) :
    Couples Twins (do resetContext Scripted.engine; prepareContext Scripted.engine prompt)
      (do resetContext Scripted.engine; prepareContext Scripted.engine prompt) session session' :=
  h.couples_resetContext.bind fun _ _ _ h =>
    couples_prepareContext Scripted.coupled h prompt

theorem Kindred.couples_learn (h : Kindred session session') :
    Couples Kindred (onVocab (Palette.learn Scripted.engine))
      (onVocab (Palette.learn Scripted.engine)) session session' :=
  couples_onVocab_of (Vocabulary.couples_learn Scripted.recites h.vocab) fun hvocab =>
    { h with vocab := hvocab }

/-- **Structured generation** has the same result in kindred sessions. -/
theorem Kindred.couples_generateArmed (h : Kindred session session')
    (read : String → Except Json.Error α) (prompt schemaText : String) :
    Couples Kindred (generateArmed Scripted.engine read prompt schemaText)
      (generateArmed Scripted.engine read prompt schemaText) session session' := by
  unfold generateArmed
  cases Schema.parse schemaText with
  | error error => exact couples_throw _ h
  | ok schema =>
    have hwrite : Couples Kindred (writeJson Scripted.engine prompt schema)
        (writeJson Scripted.engine prompt schema) session session' := by
      unfold writeJson
      refine h.couples_learn.adaptExcept.bind fun palette _ _ h => Couples.mono ?_ Twins.kindred
      refine h.couples_resetContext.adaptExcept.bind fun _ _ _ h => ?_
      refine Couples.bind ?_ fun _ _ _ h => ?_
      · exact (couples_prepareContext Scripted.coupled h prompt).adaptExcept.discard
      · exact couples_writeObject Scripted.coupled couples_piece_scripted h palette schema
    refine hwrite.bind fun raw _ _ h => ?_
    cases read raw with
    | error error => exact couples_throw _ h
    | ok value => exact couples_pure _ h

/-- **Embeddings** are the same in kindred sessions. -/
theorem Kindred.couples_extractEmbeddings (h : Kindred session session') (text : String) :
    Couples Kindred (extractEmbeddings Scripted.engine text)
      (extractEmbeddings Scripted.engine text) session session' :=
  couples_extractEmbeddings_of_reset Scripted.coupled Twins.kindred h h.couples_resetContext text

end Kindred

end Session

/-! ## Section 3: Clients that were reached -/

namespace Client

/-- **Reached.**  The client was new once, over a scripted engine none of whose calls is to fail.
    Since then it was given templates and scripts, calls were made, and stops were requested:
    between the calls, after tokens of an answer, and during calls of the engine. -/
inductive Reached : Client Scripted → Prop
  | new {state : Scripted} {config : Config} {client : Client Scripted}
    (hgenerating : state.Generating)
    (hclient : Client.new Scripted.engine state config = .ok client) : Reached client
  | withTemplate {client later : Client Scripted} {template : Template} (h : Reached client)
    (hlater : client.withTemplate Scripted.engine template = .ok later) : Reached later
  | setScript {client : Client Scripted} (h : Reached client) (script : Option String) :
    Reached { client with session := { client.session with vocab := { client.session.vocab with
      engine := client.session.vocab.engine.setScript script } } }
  | stop {client : Client Scripted} (h : Reached client) : Reached client.stop
  | respond {client : Client Scripted} {engine : Engine Scripted} (h : Reached client)
    (hsilent : engine.silent = Scripted.engine) (stopAfter : Nat → Bool) (input : String) :
    Reached (client.respond engine stopAfter input).2
  | complete {client : Client Scripted} {engine : Engine Scripted} (h : Reached client)
    (hsilent : engine.silent = Scripted.engine) (input : String) :
    Reached (client.complete engine input).2
  | generate {client : Client Scripted} {engine : Engine Scripted} (h : Reached client)
    (hsilent : engine.silent = Scripted.engine) {β : Type} (read : String → Except Json.Error β)
    (input schemaText : String) : Reached (client.generate engine read input schemaText).2
  | embeddings {client : Client Scripted} {engine : Engine Scripted} (h : Reached client)
    (hsilent : engine.silent = Scripted.engine) (text : String) :
    Reached (client.embeddings engine text).2
  | reset {client : Client Scripted} {engine : Engine Scripted} (h : Reached client)
    (hsilent : engine.silent = Scripted.engine) : Reached (client.reset engine).2

/-- **A client that fits**: it is available, its history has the limit of its configuration, and its
    session fits the configuration and the template. -/
structure Fits (client : Client Scripted) : Prop where
  available : client.available = true
  limit : client.history.limit = History.normalizeLimit client.config.historyLimit
  session : ∃ stopSequence, client.template.stopTokens = .ok stopSequence
    ∧ client.session.Fits client.config.sampling stopSequence Scripted.Generating

theorem Fits.proceeds {client later : Client Scripted} (h : client.Fits)
    (hproceeds : ∀ params stopSequence, Proceeds
      (Session.StaysFit params stopSequence Scripted.Generating) client later)
    (havailable : later.available = true) : later.Fits := by
  obtain ⟨stopSequence, hstop, hsession⟩ := h.session
  obtain ⟨hlasts, hconfig, htemplate, hlimit⟩ := hproceeds client.config.sampling stopSequence
  refine ⟨havailable, ?_, stopSequence, ?_, ?_⟩
  · rw [hlimit, hconfig, h.limit]
  · rw [htemplate, hstop]
  · rw [hconfig]
    exact hlasts hsession

/-- A template that is given to a client fits it. -/
theorem fits_withTemplate {client later : Client Scripted} {template : Template}
    {stopSequence : List TokenId} (havailable : client.available = true)
    (hlimit : client.history.limit = History.normalizeLimit client.config.historyLimit)
    (hfits : client.session.Fits client.config.sampling stopSequence Scripted.Generating)
    (hlater : client.withTemplate Scripted.engine template = .ok later) : later.Fits := by
  unfold withTemplate at hlater
  cases hset : Session.setStopSequence Scripted.engine template.stopSequence client.session with
  | error error session =>
    rw [hset] at hlater
    contradiction
  | ok _ session =>
    rw [hset] at hlater
    cases hlater
    refine ⟨havailable, hlimit, ?_⟩
    unfold Session.setStopSequence at hset
    dsimp only at hset
    unfold Template.stopTokens
    by_cases hempty : (template.stopSequence.getD "").isEmpty = true
    · rw [if_pos hempty] at hset
      cases hset
      exact ⟨[], if_pos hempty, { hfits with ending := rfl }⟩
    · rw [if_neg hempty] at hset
      obtain ⟨tokens, middle, htokens, hset⟩ := bind_eq_ok hset
      cases hset
      rw [Session.onVocab_tokenize_eq] at htokens
      cases hresult : Scripted.tokenize (template.stopSequence.getD "") false true with
      | error error =>
        rw [show (Scripted.engine.tokenize _ _ _ _).result = _ from hresult] at htokens
        contradiction
      | ok stopTokens =>
        rw [show (Scripted.engine.tokenize _ _ _ _).result = _ from hresult] at htokens
        cases htokens
        refine ⟨_, ?_, { hfits.touched hfits.idle _ with ending := rfl }⟩
        rw [if_neg hempty]

/-- A new session fits any parameters. -/
theorem fits_new {state : Scripted} (hgenerating : state.Generating) (params : SamplingParams) :
    (Session.new state params).Fits params [] Scripted.Generating where
  settings := rfl
  ending := rfl
  sampler := ⟨Generator.ofSeed params.seed, rfl⟩
  greedy _ := rfl
  truthful := Vocabulary.truthful_new _ _ _
  idle := hgenerating

/-- **Clients that were reached fit.** -/
theorem Reached.fits {client : Client Scripted} (h : client.Reached) : client.Fits := by
  induction h with
  | @new state config client hgenerating hclient =>
    unfold Client.new at hclient
    obtain ⟨_, -, hclient⟩ := except_bind_eq_ok hclient
    exact fits_withTemplate rfl rfl (fits_new hgenerating config.sampling) hclient
  | withTemplate _ hlater ih =>
    obtain ⟨stopSequence, -, hsession⟩ := ih.session
    exact fits_withTemplate ih.available ih.limit hsession hlater
  | @setScript client _ script ih =>
    obtain ⟨stopSequence, hstop, hsession⟩ := ih.session
    have hidle : Scripted.Generating (client.session.vocab.engine.setScript script) := hsession.idle
    exact ⟨ih.available, ih.limit, stopSequence, hstop, hsession.touched hidle _⟩
  | stop _ ih =>
    obtain ⟨stopSequence, hstop, hsession⟩ := ih.session
    exact ⟨ih.available, ih.limit, stopSequence, hstop, hsession.touched hsession.idle true⟩
  | respond _ hsilent stopAfter input ih =>
    refine ih.proceeds (fun params stopSequence => ?_)
      ((available_respond stopAfter input _).trans ih.available)
    exact proceeds_respond (Session.enduring_staysFit hsilent Scripted.steady_generating)
      Session.staysFit_rearm stopAfter input _
  | complete _ hsilent input ih =>
    refine ih.proceeds (fun params stopSequence => ?_)
      ((available_complete input _).trans ih.available)
    exact proceeds_complete (Session.enduring_staysFit hsilent Scripted.steady_generating)
      Session.staysFit_rearm input _
  | generate _ hsilent read input schemaText ih =>
    refine ih.proceeds (fun params stopSequence => ?_) (by rw [generate_eq ih.available]; rfl)
    exact proceeds_generate (Session.enduring_staysFit hsilent Scripted.steady_generating)
      Session.staysFit_rearm ih.available (Session.staysFit_learn hsilent) read input schemaText
  | embeddings _ hsilent text ih =>
    refine ih.proceeds (fun params stopSequence => ?_) (by rw [embeddings_eq ih.available]; rfl)
    exact proceeds_embeddings (Session.enduring_staysFit hsilent Scripted.steady_generating)
      Session.staysFit_rearm ih.available (Session.staysFit_extractEmbeddings hsilent text)
  | reset _ hsilent ih =>
    refine ih.proceeds (fun params stopSequence => ?_) (by rw [reset_eq ih.available]; rfl)
    exact proceeds_reset (Session.enduring_staysFit hsilent Scripted.steady_generating)
      Session.staysFit_rearm ih.available

/-! ## Section 4: Two clients -/

/-- The clients have related sessions, and the same settings. -/
structure Beside (related : Session Scripted → Session Scripted → Prop)
    (client client' : Client Scripted) : Prop where
  session : related client.session client'.session
  config : client.config = client'.config
  template : client.template = client'.template

section Beside

variable {related : Session Scripted → Session Scripted → Prop} {client client' : Client Scripted}

theorem Beside.mono {wider : Session Scripted → Session Scripted → Prop}
    (h : Beside related client client')
    (hwider : ∀ {session session'}, related session session' → wider session session') :
    Beside wider client client' :=
  { h with session := hwider h.session }

/-- Coupled steps of the sessions have the same result, and leave the clients beside each other. -/
theorem Beside.onSession {before : Session Scripted → Session Scripted → Prop} {ε : Type}
    (h : Beside before client client') {step step' : EStateM ε (Session Scripted) α}
    (hstep : Couples related step step' client.session client'.session) :
    (client.onSession step).1 = (client'.onSession step').1
      ∧ Beside related (client.onSession step).2 (client'.onSession step').2 := by
  rcases hstep.outcomes with ⟨value, later, later', hrun, hrun', hrelated⟩ |
    ⟨error, later, later', hrun, hrun', hrelated⟩
  · rw [onSession_ok hrun, onSession_ok hrun']
    exact ⟨rfl, hrelated, h.config, h.template⟩
  · rw [onSession_error hrun, onSession_error hrun']
    exact ⟨rfl, hrelated, h.config, h.template⟩

theorem Beside.tryPrime {purpose : Purpose} {input : String}
    (h : Beside Session.Kindred client client')
    (hprompt : client.prompt purpose input = client'.prompt purpose input) :
    (client.tryPrime Scripted.engine purpose input).1
        = (client'.tryPrime Scripted.engine purpose input).1
      ∧ Beside Session.Twins (client.tryPrime Scripted.engine purpose input).2
        (client'.tryPrime Scripted.engine purpose input).2 := by
  unfold Client.tryPrime
  rw [hprompt]
  exact h.onSession (h.session.couples_prime _)

theorem Beside.prompt_eq {purpose : Purpose} (h : Beside related client client') (input : String)
    (hhistory : purpose = .turn → client.history = client'.history) :
    client.prompt purpose input = client'.prompt purpose input := by
  unfold Client.prompt
  rw [h.config, h.template]
  cases purpose with
  | turn => rw [hhistory rfl]
  | single => rfl

/-- With the same history, the same turns are dropped. -/
theorem Beside.primeDropping (h : Beside Session.Kindred client client') (purpose : Purpose)
    (input : String) (turns : Nat) (hhistory : client.history = client'.history) :
    (client.primeDropping Scripted.engine purpose input turns).1
        = (client'.primeDropping Scripted.engine purpose input turns).1
      ∧ Beside Session.Twins (client.primeDropping Scripted.engine purpose input turns).2
        (client'.primeDropping Scripted.engine purpose input turns).2
      ∧ (client.primeDropping Scripted.engine purpose input turns).2.history
        = (client'.primeDropping Scripted.engine purpose input turns).2.history := by
  induction turns generalizing client client' with
  | zero =>
    obtain ⟨hresult, hlater⟩ := h.tryPrime (h.prompt_eq input fun _ => hhistory)
    refine ⟨hresult, hlater, ?_⟩
    exact (history_tryPrime _ _ _).trans (hhistory.trans (history_tryPrime _ _ _).symm)
  | succ turns ih =>
    obtain ⟨hresult, hlater⟩ := h.tryPrime (h.prompt_eq input fun _ => hhistory)
    have hkept : (client.tryPrime Scripted.engine purpose input).2.history
        = (client'.tryPrime Scripted.engine purpose input).2.history :=
      (history_tryPrime _ _ _).trans (hhistory.trans (history_tryPrime _ _ _).symm)
    unfold Client.primeDropping
    generalize client.tryPrime Scripted.engine purpose input = left at hresult hlater hkept
    generalize client'.tryPrime Scripted.engine purpose input = right at hresult hlater hkept
    obtain ⟨result, later⟩ := left
    obtain ⟨result', later'⟩ := right
    cases hresult
    rcases result with error | promptTokens
    · cases error with
      | contextOverflow needed capacity =>
        dsimp only at hkept hlater ⊢
        rw [hkept]
        cases later'.history.evictOldest? with
        | none => exact ⟨rfl, hlater, hkept⟩
        | some history =>
          -- both drop their oldest turn and try again
          have hdropped : Beside Session.Kindred { later with history }
              { later' with history } :=
            ⟨hlater.session.kindred, hlater.config, hlater.template⟩
          exact ih hdropped rfl
      | _ => exact ⟨rfl, hlater, hkept⟩
    · exact ⟨rfl, hlater, hkept⟩

/-- **Priming side by side.**  Only a turn looks at the history. -/
theorem Beside.prime (h : Beside Session.Kindred client client') (purpose : Purpose)
    (input : String) (hhistory : purpose = .turn → client.history = client'.history) :
    (client.prime Scripted.engine purpose input).1 = (client'.prime Scripted.engine purpose input).1
      ∧ Beside Session.Twins (client.prime Scripted.engine purpose input).2
        (client'.prime Scripted.engine purpose input).2
      ∧ (client.history = client'.history →
        (client.prime Scripted.engine purpose input).2.history
          = (client'.prime Scripted.engine purpose input).2.history) := by
  unfold Client.prime
  cases purpose with
  | turn =>
    have hturns : client.droppableTurns .turn = client'.droppableTurns .turn :=
      congrArg History.turns (hhistory rfl)
    rw [hturns]
    obtain ⟨hresult, hlater, hkept⟩ :=
      h.primeDropping .turn input (client'.droppableTurns .turn) (hhistory rfl)
    exact ⟨hresult, hlater, fun _ => hkept⟩
  | single =>
    obtain ⟨hresult, hlater⟩ := h.tryPrime (h.prompt_eq input hhistory)
    refine ⟨hresult, hlater, fun hsame => ?_⟩
    exact (history_tryPrime _ _ _).trans (hsame.trans (history_tryPrime _ _ _).symm)

/-- **Starting side by side.** -/
theorem Beside.launch (h : Beside Session.Kindred client client') (purpose : Purpose)
    (input : String) (hhistory : purpose = .turn → client.history = client'.history) :
    (client.launch Scripted.engine purpose input).1
        = (client'.launch Scripted.engine purpose input).1
      ∧ Beside Session.Twins (client.launch Scripted.engine purpose input).2
        (client'.launch Scripted.engine purpose input).2
      ∧ (client.history = client'.history →
        (client.launch Scripted.engine purpose input).2.history
          = (client'.launch Scripted.engine purpose input).2.history) := by
  obtain ⟨hresult, hlater, hkept⟩ := h.prime purpose input hhistory
  unfold Client.launch
  generalize client.prime Scripted.engine purpose input = left at hresult hlater hkept
  generalize client'.prime Scripted.engine purpose input = right at hresult hlater hkept
  obtain ⟨result, later⟩ := left
  obtain ⟨result', later'⟩ := right
  cases hresult
  cases result with
  | error error => exact ⟨rfl, ⟨hlater.session, hlater.config, hlater.template⟩, hkept⟩
  | ok promptTokens =>
    refine ⟨?_, hlater, hkept⟩
    -- the workers start from the same settings
    have hoptions : later.streamOptions = later'.streamOptions := by
      unfold Client.streamOptions
      rw [hlater.config, hlater.template]
    dsimp only
    rw [hoptions]
    rfl

/-- **Answering side by side.** -/
theorem Beside.conclude (h : Beside Session.Twins client client') (stopAfter : Nat → Bool)
    (call : Call) :
    (client.conclude Scripted.engine stopAfter call).1
        = (client'.conclude Scripted.engine stopAfter call).1
      ∧ Beside Session.Twins (client.conclude Scripted.engine stopAfter call).2
        (client'.conclude Scripted.engine stopAfter call).2
      ∧ (client.history = client'.history →
        (client.conclude Scripted.engine stopAfter call).2.history
          = (client'.conclude Scripted.engine stopAfter call).2.history) := by
  obtain ⟨hworker, hsession⟩ := Worker.abreast_run Scripted.coupled
    Session.couples_piece_scripted stopAfter call.worker h.session
  unfold Client.conclude
  generalize call.worker.run Scripted.engine stopAfter client.session = left at hworker hsession
  generalize call.worker.run Scripted.engine stopAfter client'.session = right at hworker hsession
  obtain ⟨worker, session⟩ := left
  obtain ⟨worker', session'⟩ := right
  cases hworker
  dsimp only
  unfold Client.record
  split
  · refine ⟨rfl, ⟨hsession, h.config, h.template⟩, fun hhistory => ?_⟩
    exact congrArg (History.pushTurn · _ _) hhistory
  · exact ⟨rfl, ⟨hsession, h.config, h.template⟩, id⟩

end Beside

/-! ## Section 5: Isolation -/

/-- The clients share the configuration, the template, the script and the size of the context. -/
structure SharesSettings (client client' : Client Scripted) : Prop where
  config : client.config = client'.config
  template : client.template = client'.template
  script : client.session.vocab.engine.script = client'.session.vocab.engine.script
  contextSize : client.session.vocab.engine.contextSize = client'.session.vocab.engine.contextSize

/-- **Agreement**: on the settings, and on the random numbers to come. -/
structure Agrees (client client' : Client Scripted) : Prop
    extends SharesSettings client client' where
  generator : client.session.sampler.generator = client'.session.sampler.generator

/-- The calls that end with `left` and `right` went the same way: their answers are the same, and
    the clients `client` and `client'` that they were made of agree after them. -/
structure SameCourse {ρ : Type} (client client' : Client Scripted)
    (left right : ρ × Client Scripted) : Prop where
  answer : left.1 = right.1
  agrees : left.2.Agrees right.2
  history : client.history.entries = client'.history.entries →
    left.2.history.entries = right.2.history.entries

/-- **The same answers** to whatever is asked while nobody asks for a stop; a turn of the
    conversation is answered in the same way if the histories agree. -/
structure AnswersLike (client client' : Client Scripted) : Prop where
  complete : ∀ input, SameCourse client client' (client.complete Scripted.engine input)
    (client'.complete Scripted.engine input)
  generate : ∀ {β : Type} (read : String → Except Json.Error β) input schemaText,
    SameCourse client client' (client.generate Scripted.engine read input schemaText)
      (client'.generate Scripted.engine read input schemaText)
  embeddings : ∀ text, SameCourse client client' (client.embeddings Scripted.engine text)
    (client'.embeddings Scripted.engine text)
  respond : client.history.entries = client'.history.entries → ∀ input,
    SameCourse client client' (client.respond Scripted.engine (fun _ => false) input)
      (client'.respond Scripted.engine (fun _ => false) input)

section Isolation

variable {client client' : Client Scripted}

theorem Beside.agrees (h : Beside Session.Kindred client client') : client.Agrees client' := by
  obtain ⟨hsize, hscript, -⟩ := Scripted.kindred_iff.mp h.session.vocab.same
  exact ⟨⟨h.config, h.template, hscript, hsize⟩, congrArg Sampler.generator h.session.sampler⟩

/-- Clients that agree stand beside each other once they are claimed. -/
theorem Agrees.beside (hagrees : client.Agrees client') (h : client.Fits) (h' : client'.Fits) :
    Beside Session.Kindred client.claimed client'.claimed := by
  obtain ⟨stopSequence, hstop, hsession⟩ := h.session
  obtain ⟨stopSequence', hstop', hsession'⟩ := h'.session
  rw [← hagrees.template, hstop] at hstop'
  cases hstop'
  rw [← hagrees.config] at hsession'
  have hrearmed := hsession.touched hsession.idle false
  have hrearmed' := hsession'.touched hsession'.idle false
  refine ⟨?_, hagrees.config, hagrees.template⟩
  exact hrearmed.kindred hrearmed' hagrees.generator hagrees.script hagrees.contextSize rfl

/-- A call without a stream goes the same way in clients that stand beside each other. -/
theorem Beside.finishWith {ε : Type} (h : Beside Session.Kindred client client')
    {step : EStateM ε (Session Scripted) α}
    (hstep : Couples Session.Kindred step step client.session client'.session) :
    (client.finishWith step).1 = (client'.finishWith step).1
      ∧ Beside Session.Kindred (client.finishWith step).2 (client'.finishWith step).2 := by
  obtain ⟨hresult, hlater⟩ := h.onSession hstep
  exact ⟨hresult, hlater.session, hlater.config, hlater.template⟩

/-- With the same configuration, histories with the same entries are the same. -/
theorem Agrees.history_eq (hagrees : client.Agrees client') (h : client.Fits) (h' : client'.Fits)
    (hentries : client.history.entries = client'.history.entries) :
    client.history = client'.history := by
  have hlimit : client.history.limit = client'.history.limit := by
    rw [h.limit, h'.limit, hagrees.config]
  calc client.history = ⟨client.history.limit, client.history.entries⟩ := rfl
    _ = ⟨client'.history.limit, client'.history.entries⟩ := by rw [hlimit, hentries]

theorem Beside.sameCourse {ρ : Type} {left right : ρ × Client Scripted}
    (h : Beside Session.Kindred left.2 right.2) (hanswer : left.1 = right.1)
    (hhistory : client.history.entries = client'.history.entries →
      left.2.history = right.2.history) : SameCourse client client' left right :=
  ⟨hanswer, h.agrees, fun hentries => congrArg History.entries (hhistory hentries)⟩

variable (hagrees : client.Agrees client') (h : client.Fits) (h' : client'.Fits)

include hagrees h h'

theorem sameCourse_complete (input : String) : SameCourse client client'
    (client.complete Scripted.engine input) (client'.complete Scripted.engine input) := by
  have hsame : client.history.entries = client'.history.entries →
      client.claimed.history = client'.claimed.history := hagrees.history_eq h h'
  have hlaunch := (hagrees.beside h h').launch .single input nofun
  unfold Client.complete
  rw [start_of_available _ _ h.available, start_of_available _ _ h'.available]
  generalize client.claimed.launch Scripted.engine .single input = left at hlaunch
  generalize client'.claimed.launch Scripted.engine .single input = right at hlaunch
  obtain ⟨opening, later⟩ := left
  obtain ⟨opening', later'⟩ := right
  obtain ⟨hopening, hlater, hkept⟩ := hlaunch
  cases hopening
  dsimp only at hlater hkept ⊢
  have hkindred := hlater.mono Session.Twins.kindred
  cases opening with
  | refused => exact hkindred.sameCourse rfl fun hentries => hkept (hsame hentries)
  | failed error => exact hkindred.sameCourse rfl fun hentries => hkept (hsame hentries)
  | running call =>
    obtain ⟨htranscript, hended, hrecorded⟩ := hlater.conclude (fun _ => false) call
    refine Beside.sameCourse (hended.mono Session.Twins.kindred) ?_
      fun hentries => hrecorded (hkept (hsame hentries))
    exact congrArg (fun transcript : Transcript =>
      (⟨responseText transcript.summary, transcript.reports⟩ : Completion)) htranscript

theorem sameCourse_respond (hentries : client.history.entries = client'.history.entries)
    (input : String) : SameCourse client client'
      (client.respond Scripted.engine (fun _ => false) input)
      (client'.respond Scripted.engine (fun _ => false) input) := by
  have hsame : client.claimed.history = client'.claimed.history := hagrees.history_eq h h' hentries
  have hlaunch := (hagrees.beside h h').launch .turn input fun _ => hsame
  unfold Client.respond
  rw [start_of_available _ _ h.available, start_of_available _ _ h'.available]
  generalize client.claimed.launch Scripted.engine .turn input = left at hlaunch
  generalize client'.claimed.launch Scripted.engine .turn input = right at hlaunch
  obtain ⟨opening, later⟩ := left
  obtain ⟨opening', later'⟩ := right
  obtain ⟨hopening, hlater, hkept⟩ := hlaunch
  cases hopening
  dsimp only at hlater hkept ⊢
  have hkindred := hlater.mono Session.Twins.kindred
  cases opening with
  | refused => exact hkindred.sameCourse rfl fun _ => hkept hsame
  | failed error => exact hkindred.sameCourse rfl fun _ => hkept hsame
  | running call =>
    obtain ⟨htranscript, hended, hrecorded⟩ := hlater.conclude (fun _ => false) call
    refine Beside.sameCourse (hended.mono Session.Twins.kindred) ?_
      fun _ => hrecorded (hkept hsame)
    exact congrArg some htranscript

theorem sameCourse_generate (read : String → Except Json.Error α) (input schemaText : String) :
    SameCourse client client' (client.generate Scripted.engine read input schemaText)
      (client'.generate Scripted.engine read input schemaText) := by
  have hbeside := hagrees.beside h h'
  rw [generate_eq h.available, generate_eq h'.available, hagrees.config, hagrees.template]
  obtain ⟨hresult, hlater⟩ := hbeside.finishWith (hbeside.session.couples_generateArmed read
    (client'.template.format client'.config.systemPrompt [] input) schemaText)
  refine ⟨congrArg (Except.mapError _) hresult, hlater.agrees, fun hentries => ?_⟩
  rw [history_finishWith, history_finishWith]
  exact hentries

theorem sameCourse_embeddings (text : String) : SameCourse client client'
    (client.embeddings Scripted.engine text) (client'.embeddings Scripted.engine text) := by
  have hbeside := hagrees.beside h h'
  rw [embeddings_eq h.available, embeddings_eq h'.available]
  obtain ⟨hresult, hlater⟩ := hbeside.finishWith (hbeside.session.couples_extractEmbeddings text)
  refine ⟨congrArg (Except.mapError _) hresult, hlater.agrees, fun hentries => ?_⟩
  rw [history_finishWith, history_finishWith]
  exact hentries

theorem Agrees.answersLike : client.AnswersLike client' where
  complete := sameCourse_complete hagrees h h'
  generate := sameCourse_generate hagrees h h'
  embeddings := sameCourse_embeddings hagrees h h'
  respond := sameCourse_respond hagrees h h'

end Isolation

/-- With greedy parameters the random numbers are those that the seed gave. -/
theorem Fits.generator_eq {client : Client Scripted} (h : client.Fits)
    (hgreedy : client.config.sampling.temperature < 1e-3) :
    client.session.sampler.generator = Generator.ofSeed client.config.sampling.seed := by
  obtain ⟨stopSequence, -, hsession⟩ := h.session
  rw [hsession.greedy hgreedy]
  rfl

/-- **Calls do not leak into each other.**  Two clients that were reached, by whatever calls, and
    that share their settings, answer like each other if they agree on the random numbers; and then
    they agree again.  With greedy parameters the random numbers never change, and the clients
    answer like each other in any case. -/
theorem calls_do_not_leak {client client' : Client Scripted} (h : client.Reached)
    (h' : client'.Reached) (hsettings : client.SharesSettings client') :
    (client.session.sampler.generator = client'.session.sampler.generator →
      client.AnswersLike client')
    ∧ (client.config.sampling.temperature < 1e-3 →
      client.session.sampler.generator = Generator.ofSeed client.config.sampling.seed
        ∧ client.AnswersLike client') := by
  have hagreeing : client.session.sampler.generator = client'.session.sampler.generator →
      client.AnswersLike client' := fun hgenerator =>
    Agrees.answersLike { hsettings with generator := hgenerator } h.fits h'.fits
  refine ⟨hagreeing, fun hgreedy => ?_⟩
  have hseeded := h.fits.generator_eq hgreedy
  refine ⟨hseeded, hagreeing ?_⟩
  rw [hseeded, h'.fits.generator_eq (hsettings.config ▸ hgreedy), hsettings.config]

/-! ### Clients that were used -/

/-- The engine has the script of the client, and a context of the same size. -/
def Recites (client : Client Scripted) : Scripted → Prop :=
  Scripted.Recites client.session.vocab.engine.script client.session.vocab.engine.contextSize

/-- The client goes on, with a session that stays fit and an engine that recites the same script. -/
def Continues (client later : Client Scripted) : Prop :=
  ∀ params stopSequence,
    Proceeds (Session.StaysFit params stopSequence client.Recites) client later

/-- **A client that goes on** keeps its settings. -/
theorem Continues.sharesSettings {client later : Client Scripted} (h : Continues client later)
    (hfits : client.Fits) : client.SharesSettings later := by
  obtain ⟨stopSequence, -, hsession⟩ := hfits.session
  obtain ⟨hlasts, hconfig, htemplate, -⟩ := h client.config.sampling stopSequence
  obtain ⟨hscript, hsize⟩ := (hlasts { hsession with idle := ⟨rfl, rfl⟩ }).idle
  exact ⟨hconfig.symm, htemplate.symm, hscript.symm, hsize.symm⟩

section Continues

variable {client : Client Scripted}

theorem enduring_recites (client : Client Scripted) (params : SamplingParams)
    (stopSequence : List TokenId) :
    Session.Enduring Scripted.engine (Session.StaysFit params stopSequence client.Recites) :=
  Session.enduring_staysFit rfl (Scripted.steady_recites _ _)

theorem continues_respond (stopAfter : Nat → Bool) (input : String) :
    Continues client (client.respond Scripted.engine stopAfter input).2 := by
  intro params stopSequence
  exact proceeds_respond (enduring_recites client params stopSequence) Session.staysFit_rearm
    stopAfter input client

theorem continues_complete (input : String) :
    Continues client (client.complete Scripted.engine input).2 := by
  intro params stopSequence
  exact proceeds_complete (enduring_recites client params stopSequence) Session.staysFit_rearm
    input client

variable (havailable : client.available = true)

include havailable

theorem continues_generate (read : String → Except Json.Error α) (input schemaText : String) :
    Continues client (client.generate Scripted.engine read input schemaText).2 := by
  intro params stopSequence
  exact proceeds_generate (enduring_recites client params stopSequence) Session.staysFit_rearm
    havailable (Session.staysFit_learn rfl) read input schemaText

theorem continues_embeddings (text : String) :
    Continues client (client.embeddings Scripted.engine text).2 := by
  intro params stopSequence
  refine proceeds_embeddings (enduring_recites client params stopSequence) Session.staysFit_rearm
    havailable ?_
  exact Session.staysFit_extract rfl (Scripted.steady_recites _ _) (fun _ _ h => h) text

theorem continues_reset : Continues client (client.reset Scripted.engine).2 := by
  intro params stopSequence
  exact proceeds_reset (enduring_recites client params stopSequence) Session.staysFit_rearm
    havailable

theorem entries_reset :
    (client.reset Scripted.engine).2.history.entries = [] := by
  rw [reset_eq havailable, history_finishWith]
  rfl

end Continues

theorem sharesSettings_stop (client : Client Scripted) : client.SharesSettings client.stop :=
  ⟨rfl, rfl, rfl, rfl⟩

theorem SharesSettings.trans {first second third : Client Scripted}
    (h : first.SharesSettings second) (hnext : second.SharesSettings third) :
    first.SharesSettings third where
  config := h.config.trans hnext.config
  template := h.template.trans hnext.template
  script := h.script.trans hnext.script
  contextSize := h.contextSize.trans hnext.contextSize

/-- A client that has answered a turn and a question, written JSON and extracted an embedding, and
    was stopped then, answers like a new one; once it is reset, in the conversation too. -/
theorem calls_do_not_leak_used : ∃ client : Client Scripted, client.Reached
    ∧ client.config.sampling.temperature < 1e-3
    ∧ let chatted := (client.respond Scripted.engine (fun _ => false) "Hi").2
      let asked := (chatted.complete Scripted.engine "Why?").2
      let written := (asked.generate Scripted.engine Except.ok "Go"
        "\x7b\"properties\":\x7b\"kind\":\x7b\"enum\":[\"ok\"]\x7d\x7d\x7d").2
      let extracted := (written.embeddings Scripted.engine "Hello").2
      let cleared := (extracted.stop.reset Scripted.engine).2
      client.SharesSettings extracted.stop ∧ client.AnswersLike extracted.stop
        ∧ client.SharesSettings cleared ∧ client.AnswersLike cleared
        ∧ client.history.entries = cleared.history.entries := by
  let client : Client Scripted :=
    { session := Session.new { script := some (Script.parse "Hello") } .greedy
      config := { sampling := .greedy, template := .plain }
      template := Template.plain, history := History.new 6 }
  have hnew : Client.new Scripted.engine { script := some (Script.parse "Hello") }
      { sampling := .greedy, template := .plain } = .ok client := by
    have hvalid : ({ sampling := .greedy, template := .plain } : Config).validate = .ok () := by
      decide +kernel
    unfold Client.new
    rw [hvalid]
    rfl
  have hgreedy : client.config.sampling.temperature < 1e-3 := by decide +kernel
  have h : client.Reached := .new ⟨rfl, rfl⟩ hnew
  refine ⟨client, h, hgreedy, ?_⟩
  intro chatted asked written extracted cleared
  have hchatted : chatted.Reached := h.respond rfl _ _
  have hasked : asked.Reached := hchatted.complete rfl _
  have hwritten : written.Reached := hasked.generate rfl _ _ _
  have hextracted : extracted.stop.Reached := (hwritten.embeddings rfl _).stop
  have hcleared : cleared.Reached := hextracted.reset rfl
  -- whatever the calls left in the session, they left the settings alone
  have hchat : client.SharesSettings chatted := (continues_respond _ _).sharesSettings h.fits
  have hask : chatted.SharesSettings asked := (continues_complete _).sharesSettings hchatted.fits
  have hwrite : asked.SharesSettings written :=
    (continues_generate hasked.fits.available _ _ _).sharesSettings hasked.fits
  have hextract : written.SharesSettings extracted :=
    (continues_embeddings hwritten.fits.available _).sharesSettings hwritten.fits
  have hstop : extracted.SharesSettings extracted.stop := extracted.sharesSettings_stop
  have hclear : extracted.stop.SharesSettings cleared :=
    (continues_reset hextracted.fits.available).sharesSettings hextracted.fits
  have hused : client.SharesSettings extracted.stop :=
    (((hchat.trans hask).trans hwrite).trans hextract).trans hstop
  refine ⟨hused, ((calls_do_not_leak h hextracted hused).2 hgreedy).2, hused.trans hclear, ?_, ?_⟩
  · exact ((calls_do_not_leak h hcleared (hused.trans hclear)).2 hgreedy).2
  · exact (entries_reset hextracted.fits.available).symm

end Client

end Parley
