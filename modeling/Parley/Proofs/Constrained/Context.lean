import Parley.Proofs.Constrained.Generate
import Parley.Proofs.Constrained.Watching
import Parley.Proofs.Engine.Scripted
import Parley.Proofs.Session.Alignment

/-! # The text and the context

    What a session writes goes into a text and into the context of its engine, and it goes there in
    two ways: a literal text is fed as the tokens of that text, and a chosen token is accepted and
    adds its own text.  If the tokens of a text always say that text again, then the two do not
    drift apart, `Session.text_in_step`, and a token that was chosen and not taken is in neither.

    The context of an engine need not show.  So the engine is given one that does, `Contextual`,
    which makes no difference to what it answers.
-/

namespace Parley

open Step

variable {σ α : Type}

/-! ## Section 1: Engines that abide by a lexicon -/

/-- **An engine that abides by a lexicon**: it speaks by it as long as `still` holds of its state,
    and nothing that happens while a text is written puts an end to that. -/
structure Engine.Abides (engine : Engine σ) (lexicon : Lexicon) (still : σ → Prop) : Prop where
  speaks : engine.Speaks lexicon fun state _ => still state
  decode : ∀ batch {state}, still state → still (engine.decode batch state).state
  logits : ∀ {state}, still state → still (engine.logits state).state
  clear : ∀ {state}, still state → still (engine.clear state).state

section Abides

variable {engine : Engine σ} {lexicon : Lexicon} {still : σ → Prop} {state : σ}
  (h : engine.Abides lexicon still) (hstill : still state)
include h

include hstill in
theorem Engine.Abides.tokenize (text : String) (addBos special : Bool) :
    (engine.tokenize text addBos special state).result = lexicon.tokens text addBos special
      ∧ still (engine.tokenize text addBos special state).state :=
  @Engine.Speaks.tokenize _ _ _ _ h.speaks text addBos special state false hstill

include hstill in
theorem Engine.Abides.piece (token : TokenId) (special : Bool) :
    (engine.piece token special state).result = lexicon.text token special
      ∧ still (engine.piece token special state).state :=
  @Engine.Speaks.piece _ _ _ _ h.speaks token special state false hstill

/-- To speak by the lexicon leaves the context as it is. -/
theorem Engine.Abides.speaks_holding {context : σ → List TokenId} (hkeeps : engine.Keeps context)
    (tokens : List TokenId) :
    engine.Speaks lexicon fun state _ => still state ∧ context state = tokens where
  vocabSize := by
    rintro state stopped ⟨hstill, -⟩
    exact @Engine.Speaks.vocabSize _ _ _ _ h.speaks state stopped hstill
  tokenize text addBos special := by
    rintro state stopped ⟨hstill, rfl⟩
    obtain ⟨hresult, hlater⟩ := h.tokenize hstill text addBos special
    exact ⟨hresult, hlater, hkeeps.tokenize text addBos special state⟩
  piece token special := by
    rintro state stopped ⟨hstill, rfl⟩
    obtain ⟨hresult, hlater⟩ := h.piece hstill token special
    exact ⟨hresult, hlater, hkeeps.piece token special state⟩

end Abides

/-! ## Section 2: The hand of a session -/

namespace Session

variable {engine : Engine σ} {lexicon : Lexicon} {still : σ → Prop} {context : σ → List TokenId}
  {session : Session σ}

/-- Whatever the session has learnt is what the lexicon says, and its engine still speaks by it. -/
def Sound (lexicon : Lexicon) (still : σ → Prop) (session : Session σ) : Prop :=
  session.vocab.Sound lexicon fun state _ => still state

/-- The context of the engine. -/
def contents (context : σ → List TokenId) (session : Session σ) : List TokenId :=
  context session.vocab.engine

/-- Only what was learnt and the state of the engine matter. -/
theorem Sound.of_vocab {later : Session σ} (h : session.Sound lexicon still)
    (hvocab : later.vocab = session.vocab) : later.Sound lexicon still := by
  unfold Sound
  rw [hvocab]
  exact h

theorem Sound.stop (h : session.Sound lexicon still) : session.stop.Sound lexicon still :=
  ⟨h.truthful.touched _ _, h.still⟩

theorem Sound.heard {reply : Reply σ α} (h : session.Sound lexicon still)
    (hstill : still reply.state) : (session.heard reply).Sound lexicon still :=
  ⟨h.truthful.touched _ _, hstill⟩

/-- **Soundness lasts** over an engine that abides by the lexicon. -/
theorem lasting_sound (habides : engine.Abides lexicon still) :
    Lasting engine fun before later => before.Sound lexicon still → later.Sound lexicon still where
  refl _ := id
  trans h hnext := hnext ∘ h
  stop _ := Sound.stop
  note _ _ _ _ := id
  draw _ _ := id
  tokenize _ _ _ _ h := h.heard (habides.tokenize h.still _ _ _).2
  decode _ _ h := h.heard (habides.decode _ h.still)
  logits _ h := h.heard (habides.logits h.still)
  clear _ h := h.heard (habides.clear h.still)

section Feeds

variable (habides : engine.Abides lexicon still) (hkeeps : engine.Keeps context)
include habides hkeeps

/-- Asking about texts and tokens leaves the context as it is. -/
theorem grows_onVocab {ask : VocabularyM σ α} {answer : Except VocabularyError α}
    (hask : ∀ {still : σ → Bool → Prop}, engine.Speaks lexicon still →
      session.vocab.Sound lexicon still →
      Answers (Vocabulary.Sound lexicon still) answer ask session.vocab)
    (h : session.Sound lexicon still) :
    Grows (Sound lexicon still) (contents context) (onVocab ask) session
      (fun value tokens => answer = .ok value ∧ tokens = []) fun tokens => tokens = [] := by
  have hanswers := hask (habides.speaks_holding hkeeps (session.contents context))
    ⟨h.truthful, h.still, rfl⟩
  unfold Answers at hanswers
  cases hstep : ask session.vocab with
  | ok value vocab =>
    rw [hstep] at hanswers
    cases hanswers with
    | ok _ hsound =>
      exact grows_of_ok (onVocab_ok hstep) ⟨hsound.truthful, hsound.still.1⟩ ⟨rfl, rfl⟩
        (hsound.still.2.trans (List.append_nil _).symm)
  | error error vocab =>
    rw [hstep] at hanswers
    cases hanswers with
    | error _ hsound =>
      exact grows_of_error (onVocab_error hstep) rfl
        (hsound.still.2.trans (List.append_nil _).symm)

/-- **A batch** is in the context if its tokens were decoded and scored.  It may be there as well if
    they were not. -/
theorem grows_decodeBatch (batch : Batch) (h : session.Sound lexicon still) :
    Grows (Sound lexicon still) (contents context) (decodeBatch engine batch) session
      (fun _ tokens => tokens = batch.tokens)
      fun tokens => tokens = [] ∨ tokens = batch.tokens := by
  have hdecode : Grows (Sound lexicon still) (contents context) (attempt (engine.decode batch))
      session (fun result tokens => tokens = if result.isOk then batch.tokens else [])
      fun tokens => tokens = [] ∨ tokens = batch.tokens := by
    refine grows_of_ok (attempt_eq _ session) (h.heard (habides.decode batch h.still)) rfl ?_
    refine (hkeeps.decode batch session.vocab.engine).trans ?_
    split <;> simp [contents]
  unfold decodeBatch
  refine hdecode.bind fun decoded fed tokens htokens hfed => ?_
  cases decoded with
  | error error =>
    refine grows_of_error rfl (.inl ?_) (List.append_nil _).symm
    rw [htokens]
    rfl
  | ok _ =>
    -- from now on the tokens are in the context, whether their scores can be had or not
    have hbatch : tokens ++ [] = batch.tokens := by rw [htokens]; exact List.append_nil _
    have hlogits : Grows (Sound lexicon still) (contents context) (attempt engine.logits) fed
        (fun _ more => more = []) fun more => tokens ++ more = [] ∨ tokens ++ more = batch.tokens :=
      grows_of_ok (attempt_eq _ fed) (hfed.heard (habides.logits hfed.still)) rfl
        ((hkeeps.logits fed.vocab.engine).trans (List.append_nil _).symm)
    refine hlogits.bind fun scored later none hnone hlater => ?_
    cases scored with
    | error error =>
      refine grows_of_error rfl (.inr ?_) (List.append_nil _).symm
      rw [hnone]
      exact hbatch
    | ok logits =>
      refine grows_of_ok rfl (hlater.of_vocab rfl) ?_ (List.append_nil _).symm
      rw [hnone]
      exact hbatch

theorem grows_inject (tokens : List TokenId) (h : session.Sound lexicon still) :
    Grows (Sound lexicon still) (contents context) (inject engine tokens) session
      (fun _ fed => fed = tokens) fun fed => fed = [] ∨ fed = tokens := by
  unfold inject
  refine grows_ite (fun _ => grows_get ?_) fun hempty => grows_pure h ?_
  · refine grows_ite (fun _ => grows_of_error rfl (.inl rfl) (List.append_nil _).symm) fun _ => ?_
    have hbatch := grows_decodeBatch habides hkeeps (Batch.sequence tokens session.position) h
    rw [Batch.tokens_sequence] at hbatch
    refine hbatch.bind fun _ later fed hfed hlater => ?_
    refine grows_of_ok rfl (hlater.of_vocab rfl) ?_ (List.append_nil _).symm
    rw [hfed, List.append_nil]
  · simpa using hempty

theorem grows_accept (token : TokenId) (h : session.Sound lexicon still) :
    Grows (Sound lexicon still) (contents context) (accept engine token) session
      (fun _ tokens => tokens = [token]) fun tokens => tokens = [] ∨ tokens = [token] := by
  -- to remember a token does not put it into the context
  have hremembered : (session.remember token).Sound lexicon still := h.of_vocab rfl
  exact grows_inject habides hkeeps [token] hremembered

theorem grows_feedText (text : String) (h : session.Sound lexicon still) :
    Grows (Sound lexicon still) (contents context) (feedText engine text) session
      (fun tokens fed => lexicon.tokens text false false = .ok tokens ∧ fed = tokens)
      fun fed => fed = [] ∨ lexicon.tokens text false false = .ok fed := by
  have htokenize := grows_onVocab habides hkeeps (fun hspeaks hsound =>
    Vocabulary.answers_tokenize hspeaks hsound text false false) h
  unfold feedText
  refine (htokenize.mono (fun _ _ => id) fun _ => .inl).bind ?_
  rintro tokens found _ ⟨htokens, rfl⟩ hsound
  have hfound := Lexicon.tokens_of_tokenize htokens
  refine ((grows_inject habides hkeeps tokens hsound).mono (fun _ _ => id) ?_).bind ?_
  · rintro fed (rfl | rfl)
    · exact .inl rfl
    · exact .inr hfound
  · rintro _ later fed rfl hlater
    exact grows_pure hlater ⟨hfound, List.append_nil _⟩

end Feeds

theorem grows_forGeneration {inv : Session σ → Prop} {shown : Session σ → List TokenId}
    {step : SessionM σ α} {post : α → List TokenId → Prop} {left : List TokenId → Prop}
    (h : Grows inv shown step session post left) :
    Grows inv shown (forGeneration step) session post left := by
  cases hstep : step session with
  | ok value later =>
    obtain ⟨hinv, tokens, hpost, hcontext⟩ := h.of_ok hstep
    exact grows_of_ok (forGeneration_eq_ok.mpr hstep) hinv hpost hcontext
  | error error later =>
    obtain ⟨tokens, hleft, hcontext⟩ := h.of_error hstep
    have hfailed : forGeneration step session = .error (.ofSession error) later := by
      unfold forGeneration EStateM.adaptExcept
      rw [hstep]
    exact grows_of_error hfailed hleft hcontext

/-- The session has the same vocabulary, and so the same engine in the same state. -/
def SameVocab (before later : Session σ) : Prop := later.vocab = before.vocab

theorem SameVocab.trans {first second third : Session σ} (h : first.SameVocab second)
    (hnext : second.SameVocab third) : first.SameVocab third := Eq.trans hnext h

/-- The model chooses by the scores that it gave before. -/
theorem sameVocab_sampleConstrained (allowed : TokenSet) (session : Session σ) :
    Keeps SameVocab (sampleConstrained allowed) session := by
  have hsame : ∀ session : Session σ, session.SameVocab session := fun _ => rfl
  have hpristine : Keeps SameVocab pristine session := by
    unfold pristine
    exact keeps_get (keeps_ite (fun _ => hsame session) fun _ => hsame session)
  have hdraw : ∀ scores (later : Session σ), Keeps SameVocab (drawToken scores) later :=
    fun _ _ => rfl
  unfold sampleConstrained
  refine keeps_get (keeps_ite (fun _ => hsame session) fun _ => ?_)
  refine keeps_ite (fun _ => hsame session) fun _ => ?_
  refine hpristine.bind SameVocab.trans fun scores later => ?_
  refine (hdraw _ later).bind SameVocab.trans fun drawn later => ?_
  rcases drawn with error | token
  · cases error <;> exact hsame later
  · exact hsame later

/-- **The hand of a session feeds the context** of its engine, whatever it chooses and however that
    changes the session, if only the choices leave the vocabulary alone. -/
theorem hand_feeds (habides : engine.Abides lexicon still) (hkeeps : engine.Keeps context)
    {choose : TokenSet → GenerationM σ (Option TokenId)}
    (hchoose : ∀ allowed session, Keeps SameVocab (choose allowed) session) :
    ((hand engine).choosing choose).Feeds lexicon (Sound lexicon still) (contents context) where
  choose allowed session h := by
    have hvocab := hchoose allowed session
    show Grows _ _ (choose allowed) session _ _
    cases hstep : choose allowed session with
    | ok chosen later =>
      have hlater : later.vocab = session.vocab := hvocab.of_ok hstep
      refine grows_of_ok hstep (h.of_vocab hlater) rfl ?_
      unfold contents
      rw [List.append_nil, hlater]
    | error error later =>
      have hlater : later.vocab = session.vocab := hvocab.of_error hstep
      have hsame : later.contents context = session.contents context ++ [] := by
        unfold contents
        rw [List.append_nil, hlater]
      exact grows_of_error hstep rfl hsame
  accept token _ h := grows_forGeneration (grows_accept habides hkeeps token h)
  feed text session h := by
    refine grows_forGeneration ((grows_feedText habides hkeeps text h).bind ?_)
    rintro tokens later fed ⟨htokens, rfl⟩ hlater
    refine grows_pure hlater ?_
    rw [List.append_nil]
    exact htokens
  piece token session h := by
    refine grows_forGeneration ((grows_onVocab habides hkeeps (fun hspeaks hsound =>
      Vocabulary.answers_piece hspeaks hsound token false) h).mono ?_ ?_)
    · rintro text tokens ⟨hpiece, rfl⟩
      exact ⟨rfl, Lexicon.text_of_piece hpiece⟩
    · exact fun _ => id

/-- Primes a fresh context with the prompt. -/
def prime (engine : Engine σ) (prompt : String) : GenerationM σ Unit := do
  forGeneration (resetContext engine)
  discard (forGeneration (prepareContext engine prompt))

theorem sound_prime (habides : engine.Abides lexicon still) {ready : Session σ} {prompt : String}
    (h : session.Sound lexicon still) (hprime : prime engine prompt session = .ok () ready) :
    ready.Sound lexicon still := by
  have hlasting := lasting_sound habides
  have hkeeps : Keeps (fun before later => before.Sound lexicon still → later.Sound lexicon still)
      (prime engine prompt) session :=
    hlasting.keeps_resetContext.adaptExcept.bind hlasting.trans fun _ _ =>
      (hlasting.keeps_prepareContext prompt).adaptExcept.discard
  exact hkeeps.of_ok hprime h

/-! ## Section 3: Writing with a watched hand -/

/-- Writes an object with the given choices until the hand acted `count` times. -/
def writeUpTo (engine : Engine σ) (choose : TokenSet → GenerationM σ (Option TokenId))
    (palette : Palette) (schema : Schema) (count : ℕ) (session : Session σ) :
    EStateM.Result (Option GenerationError) (Draft (Watch (Session σ))) Unit :=
  Writer.object ((hand engine).choosing choose).watched palette schema
    { hand := { state := session, left := count } }

theorem writeUpTo_ends (engine : Engine σ) (choose : TokenSet → GenerationM σ (Option TokenId))
    (palette : Palette) (schema : Schema) (session : Session σ) :
    ∃ count, SameEnd 0 (writeUpTo engine choose palette schema count session)
      (Writer.object ((hand engine).choosing choose) palette schema { hand := session }) := by
  obtain ⟨count, hcount⟩ := (Writer.parallel_actsEnough ((hand engine).choosing choose)).object
    schema { hand := session }
  exact ⟨count, hcount 0 []⟩

theorem steady_writeUpTo (habides : engine.Abides lexicon still) (hkeeps : engine.Keeps context)
    (hlossless : lexicon.Lossless) (h : session.Sound lexicon still)
    {choose : TokenSet → GenerationM σ (Option TokenId)}
    (hchoose : ∀ allowed session, Keeps SameVocab (choose allowed) session) (palette : Palette)
    (schema : Schema) (count : ℕ) :
    Writer.Steady lexicon (Sound lexicon still) (contents context) (session.contents context) count
      (writeUpTo engine choose palette schema count session) := by
  have hfeeds := hand_feeds habides hkeeps hchoose
  have hblank : Draft.InStep lexicon (contents context) (session.contents context)
      { hand := { state := session, left := count } } :=
    ⟨[], (List.append_nil _).symm, .none, rfl⟩
  exact (Writer.together_staysInStep hfeeds hlossless).object schema _ h hblank

/-- A text that is written is rendered by the tokens that went into the context. -/
theorem rendered_writeObject (habides : engine.Abides lexicon still) (hkeeps : engine.Keeps context)
    (hlossless : lexicon.Lossless) (h : session.Sound lexicon still) {palette : Palette}
    {schema : Schema} {raw : String} {later : Session σ}
    (hwrite : writeObject engine palette schema session = .ok raw later) :
    ∃ tokens, later.contents context = session.contents context ++ tokens
      ∧ lexicon.rendered tokens = .ok raw := by
  -- the choices of the model are choices, and its run comes to an end
  have hchoose : ∀ allowed (session : Session σ),
      Keeps SameVocab (forGeneration (sampleConstrained allowed)) session :=
    fun allowed session => (sameVocab_sampleConstrained allowed session).adaptExcept
  obtain ⟨count, hend⟩ := writeUpTo_ends engine
    (fun allowed => forGeneration (sampleConstrained allowed)) palette schema session
  have hsteady := steady_writeUpTo habides hkeeps hlossless h hchoose palette schema count
  generalize writeUpTo engine _ palette schema count session = outcome at hend hsteady
  unfold writeObject at hwrite
  cases hobject : Writer.object (hand engine) palette schema { hand := session } with
  | error error draft =>
    rw [hobject] at hwrite
    contradiction
  | ok result draft =>
    rw [hobject] at hwrite
    cases hwrite
    rw [show Writer.object ((hand engine).choosing _) palette schema { hand := session } = _
      from hobject] at hend
    cases hend
    cases hsteady with
    | ok _ _ hin =>
      obtain ⟨tokens, hcontext, -, hrendered⟩ := hin
      exact ⟨tokens, hcontext, hrendered⟩

end Session

/-! ## Section 4: Any engine -/

/-- The state of an engine whose context can be told: that of the engine, and the tokens that it
    decoded since its context was emptied. -/
structure Contextual (σ : Type) where
  state : σ
  context : List TokenId := []

namespace Contextual

/-- Makes a call to the engine; `context` tells the context behind it. -/
def call (run : σ → Reply σ α) (context : Except EngineError α → List TokenId)
    (contextual : Contextual σ) : Reply (Contextual σ) α :=
  let reply := run contextual.state
  { reply with state := ⟨reply.state, context reply.result⟩ }

/-- Makes a call that is not about the context. -/
def pass (run : σ → Reply σ α) (contextual : Contextual σ) : Reply (Contextual σ) α :=
  contextual.call run fun _ => contextual.context

/-- The functions of an engine whose context can be told. -/
def engine (inner : Engine σ) : Engine (Contextual σ) where
  tokenize text addBos special := pass (inner.tokenize text addBos special)
  piece token special := pass (inner.piece token special)
  vocabSize contextual := inner.vocabSize contextual.state
  contextSize contextual := inner.contextSize contextual.state
  bos contextual := inner.bos contextual.state
  eos contextual := inner.eos contextual.state
  decode batch contextual := contextual.call (inner.decode batch) fun result =>
    if result.isOk then contextual.context ++ batch.tokens else contextual.context
  logits := pass inner.logits
  clear contextual := contextual.call inner.clear fun result =>
    if result.isOk then [] else contextual.context
  setEmbeddings enabled := pass (inner.setEmbeddings enabled)
  embeddings := pass inner.embeddings

/-- To tell the context makes no difference to the engine. -/
theorem extends_inner (inner : Engine σ) : (engine inner).Extends Contextual.state inner where
  contextSize _ := rfl
  eos _ := rfl
  tokenize _ _ _ _ := rfl
  decode _ _ := rfl
  logits _ := rfl
  clear _ := rfl
  setEmbeddings _ _ := rfl
  embeddings _ := rfl

theorem keeps (inner : Engine σ) : (engine inner).Keeps Contextual.context where
  tokenize _ _ _ _ := rfl
  piece _ _ _ := rfl
  decode _ _ := rfl
  logits _ := rfl
  clear _ := rfl
  setEmbeddings _ _ := rfl
  embeddings _ := rfl

theorem abides {inner : Engine σ} {lexicon : Lexicon} {still : σ → Prop}
    (h : inner.Abides lexicon still) :
    (engine inner).Abides lexicon fun contextual => still contextual.state where
  speaks := by
    refine ⟨?_, ?_, ?_⟩
    · rintro ⟨state, context⟩ stopped hstill
      exact @Engine.Speaks.vocabSize _ _ _ _ h.speaks state stopped hstill
    · rintro text addBos special ⟨state, context⟩ stopped hstill
      exact h.tokenize hstill text addBos special
    · rintro token special ⟨state, context⟩ stopped hstill
      exact h.piece hstill token special
  decode batch _ hstill := h.decode batch hstill
  logits hstill := h.logits hstill
  clear hstill := h.clear hstill

end Contextual

namespace Scripted

/-- A scripted engine abides by its lexicon. -/
theorem abides : engine.Abides lexicon fun _ => True where
  speaks := recites.speaks _
  decode _ _ _ := trivial
  logits _ := trivial
  clear _ := trivial

/-- The tokens of a scripted engine for values that are not there, and for truth values. -/
def truths : Palette where
  quote := none
  comma := none
  openBrace := none
  closeBrace := none
  openBracket := none
  closeBracket := none
  minus := none
  dot := none
  null := tokenOf? "null"
  yes := tokenOf? "true"
  no := tokenOf? "false"
  stringBody := {}
  stringOpen := {}
  digits := []

end Scripted

namespace Session

/-- The tokens that were decoded since the context was emptied. -/
def decoded (session : Session (Contextual σ)) : List TokenId :=
  session.contents Contextual.context

/-- **The text and the context do not drift apart.**  The engine may be any that abides by a
    lossless lexicon, the session any that was primed with a prompt, the choices any that leave the
    vocabulary alone.

    A hand that may act `count` times comes to rest behind so many acts, unless the run is at its
    end before, and some count is enough for that.  At rest and at the end, the tokens decoded since
    the prompt are those of the acts, of which to choose adds none, and they are rendered as the
    text.  Only where the hand fails there may be more of them, those of one act.  So a text that is
    returned is what the tokens decoded since the prompt are rendered as. -/
theorem text_in_step {lexicon : Lexicon} {still : σ → Prop} {engine : Engine σ}
    (habides : engine.Abides lexicon still) (hlossless : lexicon.Lossless)
    {session ready : Session (Contextual σ)}
    (hsound : session.Sound lexicon fun contextual => still contextual.state) {prompt : String}
    (hprime : prime (Contextual.engine engine) prompt session = .ok () ready)
    (palette : Palette) (schema : Schema) :
    (∀ choose : TokenSet → GenerationM (Contextual σ) (Option TokenId),
      (∀ allowed session, Keeps SameVocab (choose allowed) session) →
      (∀ count draft,
        writeUpTo (Contextual.engine engine) choose palette schema count ready
          = .error none draft →
        draft.hand.acts.length = count ∧ draft.InStep lexicon decoded ready.decoded)
      ∧ (∀ count draft,
        writeUpTo (Contextual.engine engine) choose palette schema count ready = .ok () draft →
        draft.InStep lexicon decoded ready.decoded)
      ∧ (∀ count error draft,
        writeUpTo (Contextual.engine engine) choose palette schema count ready
          = .error (some error) draft → draft.Ahead lexicon decoded ready.decoded)
      ∧ ∃ count, SameEnd 0
        (writeUpTo (Contextual.engine engine) choose palette schema count ready)
        (Writer.object ((hand (Contextual.engine engine)).choosing choose) palette schema
          { hand := ready }))
    ∧ ∀ raw later, writeObject (Contextual.engine engine) palette schema ready = .ok raw later →
      ∃ tokens, later.decoded = ready.decoded ++ tokens ∧ lexicon.rendered tokens = .ok raw := by
  have habides := Contextual.abides habides
  have hkeeps := Contextual.keeps engine
  have hready := sound_prime habides hsound hprime
  refine ⟨fun choose hchoose => ?_, fun raw later hwrite =>
    rendered_writeObject habides hkeeps hlossless hready hwrite⟩
  -- rest, success and failure are the three ways to a steady end
  have hsteady := steady_writeUpTo habides hkeeps hlossless hready hchoose palette schema
  refine ⟨fun count draft hrun => ?_, fun count draft hrun => ?_, fun count error draft hrun => ?_,
    writeUpTo_ends _ _ _ _ _⟩
  · have hend := hsteady count
    rw [hrun] at hend
    cases hend with
    | rested hcount h => exact ⟨hcount, h⟩
  · have hend := hsteady count
    rw [hrun] at hend
    cases hend with
    | ok _ _ h => exact h
  · have hend := hsteady count
    rw [hrun] at hend
    cases hend with
    | failed h => exact h

/-- Always chooses `true`. -/
def affirm {σ : Type} (_ : TokenSet) : GenerationM σ (Option TokenId) :=
  pure (Scripted.tokenOf? "true")

/-- A schema with one field that need not be there. -/
def maybeSchema : Schema where
  fields := [⟨"ok", .boolean, false⟩]

/-- A schema that leaves no choice. -/
def redSchema : Schema where
  fields := [⟨"color", .string (some ["red"]), true⟩]

/-- In front of a value that need not be there, `true` is chosen and not taken.  Then it is chosen
    again and taken. -/
theorem text_in_step_scripted :
    let engine := Contextual.engine Scripted.engine
    ∃ ready, prime engine "x" (.new { state := {} } .greedy) = .ok () ready
      ∧ (∃ draft, writeUpTo engine affirm Scripted.truths maybeSchema 3 ready = .error none draft
        ∧ draft.hand.acts = [.fed "\x7b", .fed "\"ok\":", .chose (Scripted.tokenOf? "true")]
        ∧ draft.text = "\x7b\"ok\":" ∧ draft.InStep Scripted.lexicon decoded ready.decoded)
      ∧ (∃ draft, writeUpTo engine affirm Scripted.truths maybeSchema 6 ready = .ok () draft
        ∧ draft.text = "\x7b\"ok\":true\x7d"
        ∧ draft.InStep Scripted.lexicon decoded ready.decoded)
      ∧ ∃ later tokens, writeObject engine Scripted.truths redSchema ready
          = .ok "\x7b\"color\":\"red\"\x7d" later
        ∧ later.decoded = ready.decoded ++ tokens
        ∧ Scripted.lexicon.rendered tokens = .ok "\x7b\"color\":\"red\"\x7d" := by
  intro engine
  obtain ⟨_, ready, hprime, hchecks⟩ := exists_ok (prime engine "x") (.new { state := {} } .greedy)
    (fun _ ready =>
      failsWith (Writer.object ((hand engine).choosing affirm).watched Scripted.truths maybeSchema)
          { hand := { state := ready, left := 3 } } (fun error draft =>
        decide (error = none ∧ draft.hand.acts
          = [.fed "\x7b", .fed "\"ok\":", .chose (Scripted.tokenOf? "true")]
          ∧ draft.text = "\x7b\"ok\":"))
      && succeedsWith (Writer.object ((hand engine).choosing affirm).watched Scripted.truths
          maybeSchema) { hand := { state := ready, left := 6 } } (fun _ draft =>
        decide (draft.text = "\x7b\"ok\":true\x7d"))
      && succeedsWith (writeObject engine Scripted.truths redSchema) ready (fun raw _ =>
        decide (raw = "\x7b\"color\":\"red\"\x7d")))
    (by decide +kernel)
  rw [Bool.and_eq_true, Bool.and_eq_true] at hchecks
  obtain ⟨⟨hrests, hends⟩, hwrites⟩ := hchecks
  obtain ⟨_, draft, hrest, herror⟩ := exists_error _ _ _ hrests
  obtain ⟨_, last, hend, htext⟩ := exists_ok _ _ _ hends
  obtain ⟨_, later, hwrite, hraw⟩ := exists_ok _ _ _ hwrites
  obtain ⟨rfl, hacts, hkey⟩ := of_decide_eq_true herror
  cases of_decide_eq_true hraw
  have hsound : Session.Sound Scripted.lexicon (fun _ => True)
      (.new { state := {} } .greedy : Session (Contextual Scripted)) :=
    ⟨Vocabulary.truthful_new _ _ _, trivial⟩
  have hinStep := text_in_step Scripted.abides Scripted.lossless hsound hprime Scripted.truths
  obtain ⟨hrested, hended, -⟩ := (hinStep maybeSchema).1 affirm fun _ _ => rfl
  obtain ⟨tokens, hdecoded, hrendered⟩ := (hinStep redSchema).2 _ later hwrite
  exact ⟨ready, hprime, ⟨draft, hrest, hacts, hkey, (hrested 3 draft hrest).2⟩,
    ⟨last, hend, of_decide_eq_true htext, hended 6 last hend⟩,
    later, tokens, hwrite, hdecoded, hrendered⟩

end Session

end Parley
