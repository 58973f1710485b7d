import Parley.Client.Answer
import Parley.Proofs.Constrained.Hand
import Parley.Proofs.Session.Knowledge
import Parley.Proofs.Stream.Moments

/-! # The course of a call

    A call uses its session by operations, and looks up pieces in between.  A relation that lasts
    through both lasts through the call, be it one that writes JSON or one that streams an answer.
    Calls over coupled engines take the same course: they have the same results, and their sessions
    stay alike.
-/

namespace Parley

open Step

variable {σ τ α : Type}

/-! ## Section 1: What lasts through a call -/

namespace Session.Enduring

variable {engine : Engine σ} {lasts : Session σ → Session σ → Prop} {session : Session σ}
  (h : Enduring engine lasts)

include h

theorem keeps_writeObject (palette : Palette) (schema : Schema) :
    Keeps lasts (writeObject engine palette schema) session := by
  have hparallel := Writer.parallel_keeps (hand engine) h.refl h.trans
    (fun allowed _ => (h.keeps_sampleConstrained allowed).adaptExcept)
    (fun token _ => (h.keeps_accept token).adaptExcept)
    (fun text _ => (h.keeps_feedText text).discard.adaptExcept)
    (fun token session => (h.piece token session).adaptExcept)
  have hobject : Keeps (fun draft later => lasts draft.hand later.hand)
      (Writer.object (hand engine) palette schema) { hand := session } := hparallel.object schema _
  unfold Keeps after at hobject
  unfold Keeps after writeObject
  cases hwrite : Writer.object (hand engine) palette schema { hand := session } <;>
    rw [hwrite] at hobject <;> simpa only [hwrite] using hobject

/-- **Structured generation** keeps what lasts and is kept while the palette is learnt. -/
theorem keeps_generateArmed
    (hlearn : ∀ session, Keeps lasts (onVocab (Palette.learn engine)) session)
    (read : String → Except Json.Error α) (prompt schemaText : String) :
    Keeps lasts (generateArmed engine read prompt schemaText) session := by
  unfold generateArmed
  cases Schema.parse schemaText with
  | error error => exact h.refl session
  | ok schema =>
    have hwrite : ∀ session, Keeps lasts (writeJson engine prompt schema) session := by
      intro session
      unfold writeJson
      refine (hlearn session).adaptExcept.bind h.trans fun palette session => ?_
      refine h.keeps_resetContext.adaptExcept.bind h.trans fun _ session => ?_
      refine (h.keeps_prepareContext prompt).adaptExcept.discard.bind h.trans fun _ session => ?_
      exact h.keeps_writeObject palette schema
    refine (hwrite session).bind h.trans fun raw session => ?_
    cases read raw <;> exact h.refl session

/-- **Streaming** keeps what lasts. -/
theorem lasts_run (stopAfter : Nat → Bool) (worker : Worker) :
    lasts session (worker.run engine stopAfter session).2 :=
  (Moment.reaches_run engine stopAfter worker session).keeps h

end Session.Enduring

/-! ## Section 2: Calls side by side -/

namespace Session

variable {related : Vocabulary σ → Vocabulary τ → Prop} {engine : Engine σ} {engine' : Engine τ}
  {session : Session σ} {session' : Session τ} (hcoupled : engine.Coupled related engine')
  (hpiece : ∀ token {vocab vocab'}, related vocab vocab' →
    Couples related (Vocabulary.piece engine token false) (Vocabulary.piece engine' token false)
      vocab vocab')

include hcoupled hpiece

theorem couples_writeObject (h : session.Alike related session') (palette : Palette)
    (schema : Schema) : Couples (Alike related) (writeObject engine palette schema)
      (writeObject engine' palette schema) session session' := by
  have hroom : ∀ {session : Session σ} {session' : Session τ}, session.Alike related session' →
      session.remaining engine = session'.remaining engine' := by
    intro session session' h
    unfold remaining
    rw [h.capacity hcoupled, h.position]
  have hparallel := Writer.parallel_couples (hand engine) (hand engine')
    (fun allowed _ _ h => (couples_sampleConstrained hcoupled h allowed).adaptExcept)
    (fun token _ _ h => (couples_accept hcoupled h token).adaptExcept)
    (fun text _ _ h => (couples_feedText hcoupled h text).discard.adaptExcept)
    (fun token _ _ h => (couples_onVocab h (hpiece token h.vocab)).adaptExcept)
    hroom
  have hobject : Couples (Writer.AlikeDrafts (Alike related))
      (Writer.object (hand engine) palette schema) (Writer.object (hand engine') palette schema)
      { hand := session } { hand := session' } := hparallel.object schema _ _ ⟨h, rfl⟩
  unfold Couples writeObject
  rcases hobject.outcomes with ⟨_, draft, draft', hwrite, hwrite', hdrafts⟩ |
    ⟨error, draft, draft', hwrite, hwrite', hdrafts⟩
  · rw [hwrite, hwrite']
    show Step.Alike _ (.ok draft.text draft.hand) (.ok draft'.text draft'.hand)
    rw [hdrafts.text]
    exact .ok draft'.text hdrafts.hand
  · rw [hwrite, hwrite']
    exact .error error hdrafts.hand

end Session

/-! ## Section 3: Clients -/

namespace Client

variable {ε : Type} {engine : Engine σ} {client : Client σ}

/-- The client claimed for a call. -/
def claimed (client : Client σ) : Client σ :=
  { client with session := client.session.rearm, available := false }

theorem claim?_of_available (h : client.available = true) :
    client.claim? = some client.claimed := by
  unfold claim?
  rw [if_pos h]
  rfl

theorem claim?_of_busy (h : client.available = false) : client.claim? = none := by
  unfold claim?
  rw [h]
  rfl

theorem onSession_ok {step : EStateM ε (Session σ) α} {value : α} {session : Session σ}
    (h : step client.session = .ok value session) :
    client.onSession step = (.ok value, { client with session }) := by
  unfold onSession
  rw [h]

theorem onSession_error {step : EStateM ε (Session σ) α} {error : ε} {session : Session σ}
    (h : step client.session = .error error session) :
    client.onSession step = (.error error, { client with session }) := by
  unfold onSession
  rw [h]

/-- A step of the session returns what it returns for the session. -/
theorem onSession_fst (step : EStateM ε (Session σ) α) (client : Client σ) :
    (client.onSession step).1 = result step client.session := by
  unfold onSession result
  cases step client.session <;> rfl

/-- A step of the session leaves the session behind, and all else as it was. -/
theorem onSession_snd (step : EStateM ε (Session σ) α) (client : Client σ) :
    (client.onSession step).2 = { client with session := after step client.session } := by
  unfold onSession after
  cases step client.session <;> rfl

theorem history_onSession (step : EStateM ε (Session σ) α) (client : Client σ) :
    (client.onSession step).2.history = client.history := by
  rw [onSession_snd]

theorem history_finishWith (step : EStateM ε (Session σ) α) (client : Client σ) :
    (client.finishWith step).2.history = client.history :=
  history_onSession step client

/-- An attempt to prime the context drops nothing of the history. -/
theorem history_tryPrime (purpose : Purpose) (input : String) (client : Client σ) :
    (client.tryPrime engine purpose input).2.history = client.history :=
  history_onSession _ client

/-- The call that a primed client answers. -/
def call (engine : Engine σ) (purpose : Purpose) (input : String) (promptTokens : Nat)
    (client : Client σ) : Call where
  purpose
  input
  worker := Worker.start engine client.session client.streamOptions
    (({} : Timer).markPrefilled promptTokens)

theorem start_of_available (purpose : Purpose) (input : String) (h : client.available = true) :
    client.start engine purpose input = client.claimed.launch engine purpose input := by
  unfold start
  rw [claim?_of_available h]

/-- **What asking for an answer can do.** -/
inductive Starts (engine : Engine σ) (purpose : Purpose) (input : String) (client : Client σ) :
    Opening × Client σ → Prop
  /-- Another call is under way. -/
  | refused (hbusy : client.available = false) :
    Starts engine purpose input client (.refused, client)
  /-- The context cannot be primed. -/
  | failed {error : SessionError} {primed : Client σ} (hfree : client.available = true)
    (hprime : client.claimed.prime engine purpose input = (.error error, primed)) :
    Starts engine purpose input client (.failed error, primed.release)
  /-- The context is primed, and the call goes on. -/
  | running {promptTokens : Nat} {primed : Client σ} (hfree : client.available = true)
    (hprime : client.claimed.prime engine purpose input = (.ok promptTokens, primed)) :
    Starts engine purpose input client
      (.running (primed.call engine purpose input promptTokens), primed)

theorem starts (engine : Engine σ) (purpose : Purpose) (input : String) (client : Client σ) :
    Starts engine purpose input client (client.start engine purpose input) := by
  unfold start
  cases hfree : client.available with
  | false =>
    rw [claim?_of_busy hfree]
    exact .refused hfree
  | true =>
    rw [claim?_of_available hfree]
    dsimp only
    unfold launch
    cases hprime : client.claimed.prime engine purpose input with
    | mk result primed =>
      cases result with
      | error error => exact .failed hfree hprime
      | ok promptTokens => exact .running hfree hprime

section Direct

variable (h : client.available = true)

include h

theorem generate_eq (read : String → Except Json.Error α) (input schemaText : String) :
    client.generate engine read input schemaText
      = ((client.claimed.finishWith (Session.generateArmed engine read
          (client.template.format client.config.systemPrompt [] input) schemaText)).1.mapError
            .ofGeneration,
        (client.claimed.finishWith (Session.generateArmed engine read
          (client.template.format client.config.systemPrompt [] input) schemaText)).2) := by
  unfold generate
  rw [claim?_of_available h]
  rfl

theorem embeddings_eq (text : String) :
    client.embeddings engine text
      = ((client.claimed.finishWith (Session.extractEmbeddings engine text)).1.mapError .ofSession,
        (client.claimed.finishWith (Session.extractEmbeddings engine text)).2) := by
  unfold embeddings
  rw [claim?_of_available h]

theorem reset_eq :
    client.reset engine
      = (({ client.claimed with history := client.history.clear }.finishWith
          (Session.resetContext engine)).1.mapError .ofSession,
        ({ client.claimed with history := client.history.clear }.finishWith
          (Session.resetContext engine)).2) := by
  unfold reset
  rw [claim?_of_available h]
  rfl

end Direct

/-! ### What lasts -/

/-- The client went on: its session did what lasts, and its settings stayed. -/
structure Proceeds (lasts : Session σ → Session σ → Prop) (before later : Client σ) : Prop where
  session : lasts before.session later.session
  config : later.config = before.config
  template : later.template = before.template
  limit : later.history.limit = before.history.limit

theorem proceeds_finishWith {lasts : Session σ → Session σ → Prop} {step : EStateM ε (Session σ) α}
    (hstep : Keeps lasts step client.session) :
    Proceeds lasts client (client.finishWith step).2 := by
  have hafter : (client.finishWith step).2 = (client.onSession step).2.release := rfl
  rw [hafter, onSession_snd]
  exact ⟨hstep, rfl, rfl, rfl⟩

theorem proceeds_claimed {lasts : Session σ → Session σ → Prop}
    (hrearm : ∀ session, lasts session session.rearm) (client : Client σ) :
    Proceeds lasts client client.claimed :=
  ⟨hrearm client.session, rfl, rfl, rfl⟩

section Proceeds

variable {lasts : Session σ → Session σ → Prop} (h : Session.Enduring engine lasts)

include h

theorem Proceeds.trans {first second third : Client σ} (hfirst : Proceeds lasts first second)
    (hsecond : Proceeds lasts second third) : Proceeds lasts first third where
  session := h.trans hfirst.session hsecond.session
  config := hsecond.config.trans hfirst.config
  template := hsecond.template.trans hfirst.template
  limit := hsecond.limit.trans hfirst.limit

theorem proceeds_primeDropping (purpose : Purpose) (input : String) (turns : Nat)
    (client : Client σ) :
    Proceeds lasts client (client.primeDropping engine purpose input turns).2 := by
  have htry : ∀ client : Client σ,
      Proceeds lasts client (client.tryPrime engine purpose input).2 := by
    intro client
    unfold tryPrime
    rw [onSession_snd]
    refine ⟨?_, rfl, rfl, rfl⟩
    exact h.keeps_resetContext.bind h.trans fun _ _ => h.keeps_prepareContext _
  induction turns generalizing client with
  | zero => exact htry client
  | succ turns ih =>
    have hfirst := htry client
    unfold primeDropping
    split
    · rename_i needed capacity tried htried
      rw [htried] at hfirst
      split
      · -- the oldest turn is dropped, and the next attempt follows
        rename_i history hevict
        have hlimit : history.limit = tried.history.limit := by
          unfold History.evictOldest? at hevict
          split at hevict
          · cases hevict
            rfl
          · contradiction
        refine Proceeds.trans h hfirst (Proceeds.trans h ?_ (ih { tried with history }))
        exact ⟨h.refl _, rfl, rfl, hlimit⟩
      · exact hfirst
    · exact hfirst

theorem proceeds_conclude (stopAfter : Nat → Bool) (call : Call) (client : Client σ) :
    Proceeds lasts client (client.conclude engine stopAfter call).2 := by
  have hrun : lasts client.session (call.worker.run engine stopAfter client.session).2 :=
    h.lasts_run stopAfter call.worker
  unfold conclude
  generalize call.worker.run engine stopAfter client.session = ran at hrun
  obtain ⟨worker, session⟩ := ran
  dsimp only
  unfold record
  split
  · exact ⟨hrun, rfl, rfl, rfl⟩
  · exact ⟨hrun, rfl, rfl, rfl⟩

variable (hrearm : ∀ session, lasts session session.rearm)

include hrearm

theorem proceeds_start (purpose : Purpose) (input : String) (client : Client σ) :
    Proceeds lasts client (client.start engine purpose input).2 := by
  have hprimed := Proceeds.trans h (proceeds_claimed hrearm client)
    (proceeds_primeDropping h purpose input (client.claimed.droppableTurns purpose) client.claimed)
  have hstarts := starts engine purpose input client
  generalize client.start engine purpose input = started at hstarts
  cases hstarts with
  | refused _ => exact ⟨h.refl _, rfl, rfl, rfl⟩
  | failed _ hprime =>
    unfold prime at hprime
    rw [hprime] at hprimed
    exact ⟨hprimed.session, hprimed.config, hprimed.template, hprimed.limit⟩
  | running _ hprime =>
    unfold prime at hprime
    rw [hprime] at hprimed
    exact hprimed

/-- **Turns** of a conversation keep what lasts. -/
theorem proceeds_respond (stopAfter : Nat → Bool) (input : String) (client : Client σ) :
    Proceeds lasts client (client.respond engine stopAfter input).2 := by
  have hstart := proceeds_start h hrearm .turn input client
  unfold respond
  split
  · rename_i later hstarted
    rwa [hstarted] at hstart
  · rename_i error later hstarted
    rwa [hstarted] at hstart
  · rename_i call later hstarted
    rw [hstarted] at hstart
    exact Proceeds.trans h hstart (proceeds_conclude h stopAfter call later)

/-- **Questions** keep what lasts. -/
theorem proceeds_complete (input : String) (client : Client σ) :
    Proceeds lasts client (client.complete engine input).2 := by
  have hstart := proceeds_start h hrearm .single input client
  unfold complete
  split
  · rename_i later hstarted
    rwa [hstarted] at hstart
  · rename_i error later hstarted
    rwa [hstarted] at hstart
  · rename_i call later hstarted
    rw [hstarted] at hstart
    exact Proceeds.trans h hstart (proceeds_conclude h _ call later)

/-- **Calls without a stream** keep what lasts and is kept by the step of the session. -/
theorem proceeds_direct {step : EStateM ε (Session σ) α}
    (hstep : ∀ session, Keeps lasts step session) (client : Client σ) :
    Proceeds lasts client (client.claimed.finishWith step).2 :=
  Proceeds.trans h (proceeds_claimed hrearm client) (proceeds_finishWith (hstep _))

variable {client : Client σ} (havailable : client.available = true)

include havailable

/-- **Structured generation** keeps what lasts and is kept while the palette is learnt. -/
theorem proceeds_generate
    (hlearn : ∀ session, Keeps lasts (Session.onVocab (Palette.learn engine)) session)
    (read : String → Except Json.Error α) (input schemaText : String) :
    Proceeds lasts client (client.generate engine read input schemaText).2 := by
  rw [generate_eq havailable]
  refine proceeds_direct h hrearm (fun session => ?_) client
  exact h.keeps_generateArmed hlearn read _ schemaText

/-- **Embeddings** keep what their extraction keeps. -/
theorem proceeds_embeddings {text : String}
    (hextract : ∀ session, Keeps lasts (Session.extractEmbeddings engine text) session) :
    Proceeds lasts client (client.embeddings engine text).2 := by
  rw [embeddings_eq havailable]
  exact proceeds_direct h hrearm hextract client

/-- **A reset** keeps what lasts, and the limit of the history. -/
theorem proceeds_reset : Proceeds lasts client (client.reset engine).2 := by
  have hclear : Proceeds lasts client.claimed
      { client.claimed with history := client.history.clear } := ⟨h.refl _, rfl, rfl, rfl⟩
  rw [reset_eq havailable]
  refine Proceeds.trans h (proceeds_claimed hrearm client) ?_
  exact Proceeds.trans h hclear (proceeds_finishWith h.keeps_resetContext)

end Proceeds

/-! ### Availability -/

theorem available_conclude (stopAfter : Nat → Bool) (call : Call) (client : Client σ) :
    (client.conclude engine stopAfter call).2.available = true := by
  unfold conclude
  cases call.worker.run engine stopAfter client.session
  rfl

/-- A turn leaves the client available if it was so before. -/
theorem available_respond (stopAfter : Nat → Bool) (input : String) (client : Client σ) :
    (client.respond engine stopAfter input).2.available = client.available := by
  have hstarts := starts engine .turn input client
  unfold respond
  generalize client.start engine .turn input = started at hstarts
  cases hstarts with
  | refused _ => rfl
  | failed hfree _ => exact hfree.symm
  | running hfree _ => exact (available_conclude _ _ _).trans hfree.symm

/-- A question leaves the client available if it was so before. -/
theorem available_complete (input : String) (client : Client σ) :
    (client.complete engine input).2.available = client.available := by
  have hstarts := starts engine .single input client
  unfold complete
  generalize client.start engine .single input = started at hstarts
  cases hstarts with
  | refused _ => rfl
  | failed hfree _ => exact hfree.symm
  | @running promptTokens primed hfree _ =>
    have hended := @available_conclude σ engine (fun _ => false)
      (primed.call engine .single input promptTokens) primed
    exact hended.trans hfree.symm

end Client

end Parley
