import Parley.Proofs.Engine.Scripted
import Parley.Proofs.Inquiry
import Parley.Proofs.Session.Knowledge
import Parley.Proofs.Token.Batch

/-! # Extracting embeddings between generations

    To extract an embedding a session empties the context, switches the engine to embeddings, feeds
    the text past its own counter, and switches back; it may fail at each of these.  Over a scripted
    engine every way out leaves the session as if the context had only been emptied, and what is
    returned depends on the text and on the size of the context alone, unless the decoding is to
    fail: `Session.extraction_leaves_no_trace`.

    Switching back is right only if the engine was generating before, and in every session that can
    be reached it was: `Session.Reached.generating`. -/

namespace Parley

open Step

/-! ## Section 1: Sessions that were reached -/

namespace Session

/-- The engine is generating if it was before. -/
def StaysGenerating (before later : Session Scripted) : Prop :=
  before.vocab.engine.embeddingMode = false → later.vocab.engine.embeddingMode = false

section Silent

variable {engine : Engine Scripted} (hsilent : engine.silent = Scripted.engine)

include hsilent

theorem resetContext_eq (session : Session Scripted) : resetContext engine session
    = .ok () { session.heard (engine.clear session.vocab.engine) with
        position := 0, recent := [], logits := [] } := by
  unfold resetContext
  rw [bind_ok (attempt_eq _ _), (Scripted.clear_reply hsilent _).1]
  rfl

theorem lasting_staysGenerating : Lasting engine StaysGenerating where
  refl _ := id
  trans h hnext := hnext ∘ h
  stop _ := id
  note _ _ _ _ := id
  draw _ _ := id
  tokenize text addBos special session h := by
    show (engine.tokenize text addBos special session.vocab.engine).state.embeddingMode = false
    rw [Scripted.tokenize_state hsilent]
    exact h
  decode batch session h := by
    show (engine.decode batch session.vocab.engine).state.embeddingMode = false
    rw [Scripted.decode_state hsilent, (Scripted.decode_settings _ _).2.1]
    exact h
  logits session h := by
    show (engine.logits session.vocab.engine).state.embeddingMode = false
    rw [Scripted.logits_state hsilent]
    exact h
  clear session h := by
    show (engine.clear session.vocab.engine).state.embeddingMode = false
    rw [(Scripted.clear_reply hsilent _).2]
    exact h

/-- Whatever happens to the embedding, the engine goes back to generating. -/
theorem staysGenerating_extractEmbeddings (text : String) (session : Session Scripted) :
    Keeps StaysGenerating (extractEmbeddings engine text) session := by
  have hback : ∀ state, (engine.clear (engine.setEmbeddings false state).state).state.embeddingMode
      = false := by
    intro state
    rw [(Scripted.clear_reply hsilent _).2, (Scripted.setEmbeddings_reply hsilent _ _).2]
    rfl
  unfold extractEmbeddings
  apply keeps_ite
  · exact fun _ h => h
  · intro _ _
    rw [after_bind_ok (resetContext_eq hsilent session), after_bind_ok (attempt_eq _ _),
      (Scripted.setEmbeddings_reply hsilent _ _).1]
    dsimp only
    rw [after_bind_ok (observe_eq _ _), after_bind_ok (attempt_eq _ _),
      after_bind_ok (resetContext_eq hsilent _), (Scripted.setEmbeddings_reply hsilent _ _).1]
    split
    · exact hback _
    · exact hback _
    · exact hback _

theorem Operation.staysGenerating (operation : Operation) (session : Session Scripted) :
    StaysGenerating session (operation.apply engine session) := by
  apply (lasting_staysGenerating hsilent).keeps_apply
  · exact staysGenerating_extractEmbeddings hsilent
  · exact fun _ _ _ _ => id
  · exact fun _ _ => id

end Silent

end Session

/-- Questions leave the state of a scripted engine alone. -/
theorem Vocabulary.lasting_engine {engine : Engine Scripted}
    (hsilent : engine.silent = Scripted.engine) :
    Vocabulary.Lasting engine fun before later => later.engine = before.engine where
  refl _ := rfl
  trans h hnext := hnext.trans h
  tokenize text addBos special vocab := by
    unfold Keeps tokenize
    rw [after_ask]
    exact Scripted.tokenize_state hsilent text addBos special vocab.engine
  piece token special vocab := by
    have hasked := piece_asked engine token special vocab
    unfold Keeps after
    generalize piece engine token special vocab = outcome at hasked
    cases hasked with
    | invalid => rfl
    | known => rfl
    | failed => exact Scripted.piece_state hsilent token special vocab.engine
    | learnt => cases special <;> exact Scripted.piece_state hsilent token _ vocab.engine
  note _ _ _ := rfl

namespace Session

/-- **Reached.**  The session was new once, over a scripted engine that was generating.  Since then
    operations were asked of it, answered or failed, and its vocabulary was asked; the script was
    changed and failures of the engine were planned; and stops were requested, also during calls of
    the engine. -/
inductive Reached : Session Scripted → Prop
  | new {state : Scripted} (params : SamplingParams) (hmode : state.embeddingMode = false) :
    Reached (Session.new state params)
  | operation {session : Session Scripted} {engine : Engine Scripted} (h : Reached session)
    (hsilent : engine.silent = Scripted.engine) (operation : Operation) :
    Reached (operation.apply engine session)
  | query {session : Session Scripted} {engine : Engine Scripted} (h : Reached session)
    (hsilent : engine.silent = Scripted.engine) (query : Vocabulary.Query) :
    Reached (after (onVocab (query.run engine)) session)
  | setScript {session : Session Scripted} (h : Reached session) (script : Option String) :
    Reached (session.onEngine (session.vocab.engine.setScript script))
  | failAfter {session : Session Scripted} (h : Reached session) (count : Nat) :
    Reached (session.onEngine (session.vocab.engine.failAfter count))

/-- **The engine is generating** in every session that was reached. -/
theorem Reached.generating {session : Session Scripted} (h : session.Reached) :
    session.vocab.engine.embeddingMode = false := by
  induction h with
  | new params hmode => exact hmode
  | operation _ hsilent operation ih => exact operation.staysGenerating hsilent _ ih
  | @query session engine _ hsilent query ih =>
    have hsame : Keeps (fun before later : Session Scripted =>
        later.vocab.engine = before.vocab.engine) (onVocab (query.run engine)) session :=
      keeps_onVocab ((Vocabulary.lasting_engine hsilent).keeps_run query session.vocab)
    exact hsame ▸ ih
  | setScript _ _ ih => exact ih
  | failAfter _ _ ih => exact ih

end Session

/-! ## Section 2: The embedding of a text -/

namespace Scripted

/-- The next decoding is to fail. -/
def FailsNext (state : Scripted) : Prop := state.failAt.any (· < state.decodeCalls + 1) = true

instance (state : Scripted) : Decidable state.FailsNext := inferInstanceAs (Decidable (_ = true))

/-- The tokens of a text that is to fill an empty context of the given size. -/
def fitted (text : String) (size : Nat) : Except SessionError (List TokenId) :=
  match tokenize text true false with
  | .error error => .error (.vocabulary (.engine error))
  | .ok tokens => if size < tokens.length then .error (.contextOverflow tokens.length size)
    else .ok tokens

/-- The embedding of a text, if the context has the given size. -/
def embeddingOf (text : String) (size : Nat) : Except SessionError (List Float32) :=
  if text.toList.all Text.isBlank then .error (.embeddings "input is empty")
  else (fitted text size).map (normalize ∘ components)

theorem length_components (context : List TokenId) :
    (components context).length = embeddingSize := by
  unfold components
  refine List.foldlRecOn _ _ (motive := fun sums : List Float32 => sums.length = embeddingSize)
    ?_ ?_
  · rfl
  · intro sums hsums entry _
    rw [List.length_modify, hsums]

theorem length_normalize (values : List Float32) : (normalize values).length = values.length := by
  unfold normalize
  dsimp only
  split
  · exact List.length_map _
  · rfl

/-- What the engine returns is an embedding, and not empty. -/
theorem normalize_components_ne_nil (context : List TokenId) :
    normalize (components context) ≠ [] := by
  intro hnone
  have hlength := length_normalize (components context)
  rw [hnone, length_components] at hlength
  contradiction

/-- The state with an empty context, generating, with no calls counted. -/
def emptied (state : Scripted) : Scripted :=
  { state with
    context := [], promptLength := none, hasLogits := false, embeddingMode := false
    decodeCalls := 0, clearCalls := 0 }

theorem fitted_eq_ok {text : String} {size : Nat} {tokens : List TokenId}
    (h : fitted text size = .ok tokens) :
    tokenize text true false = .ok tokens ∧ tokens.length ≤ size := by
  unfold fitted at h
  split at h
  · contradiction
  · rename_i found hfound
    split at h
    · contradiction
    · rename_i hfits
      cases h
      exact ⟨hfound, Nat.not_lt.mp hfits⟩

/-- The state with the tokens in the context, all scores wanted. -/
def filled (state : Scripted) (tokens : List TokenId) : Scripted :=
  state.counted.extend (Batch.sequence tokens 0).requestAll

/-- Tokens that fit are fed into an empty context, unless the decoding is to fail. -/
theorem decode_fitted {state : Scripted} {text : String} {tokens : List TokenId}
    (hempty : state.context = []) (h : fitted text state.contextSize = .ok tokens) :
    decode (Batch.sequence tokens 0).requestAll state
      = if state.FailsNext then (.error (.decode "injected failure"), state.counted)
        else (.ok (), state.filled tokens) := by
  obtain ⟨htokens, hfits⟩ := fitted_eq_ok h
  have hrefusal : refusal? state.counted (Batch.sequence tokens 0).requestAll = none := by
    rw [refusal?_requestAll]
    exact refusal?_of_tokenize hempty htokens hfits
  unfold counted at hrefusal
  unfold decode
  dsimp only
  rw [hrefusal]
  rfl

/-- The embedding of what was fed into an empty context. -/
theorem embeddings_filled {state : Scripted} {text : String} {tokens : List TokenId}
    (hempty : state.context = []) (hmode : state.embeddingMode = true)
    (h : fitted text state.contextSize = .ok tokens) :
    embeddings (state.filled tokens) = .ok (normalize (components tokens)) := by
  have hcontext : (state.filled tokens).context = tokens := by
    show state.context ++ (Batch.sequence tokens 0).requestAll.tokens = tokens
    rw [Batch.tokens_requestAll, Batch.tokens_sequence, hempty, List.nil_append]
  have hlater : (state.filled tokens).embeddingMode = true := hmode
  have hsome : tokens.isEmpty = false := by
    obtain ⟨rest, rfl⟩ := exists_cons_of_tokenize (fitted_eq_ok h).1
    rfl
  unfold embeddings
  rw [hlater, hcontext, hsome]
  rfl

end Scripted

/-! ## Section 3: No trace -/

namespace Session

/-- The session with no calls counted. -/
def uncounted (session : Session Scripted) : Session Scripted :=
  session.onEngine session.vocab.engine.uncounted

/-- The session with an empty context, over an engine that is generating, with no calls counted;
    everything else is as it was. -/
def emptied (session : Session Scripted) : Session Scripted :=
  { session.onEngine session.vocab.engine.emptied with position := 0, recent := [], logits := [] }

theorem heard_quiet {α : Type} {session : Session Scripted} {reply : Reply Scripted α}
    (hstop : reply.stop = false) : session.heard reply = session.onEngine reply.state := by
  unfold heard onEngine Vocabulary.heard
  rw [hstop, Bool.or_false]

theorem uncounted_resetContext {session : Session Scripted}
    (hmode : session.vocab.engine.embeddingMode = false) :
    (after (resetContext Scripted.engine) session).uncounted = session.emptied := by
  have hstate : (Scripted.clear session.vocab.engine).uncounted = session.vocab.engine.emptied := by
    unfold Scripted.clear Scripted.uncounted Scripted.emptied
    dsimp only
    rw [hmode]
  rw [after_ok (resetContext_eq rfl session), heard_quiet rfl]
  unfold emptied
  rw [← hstate]
  rfl

theorem attempt_decode_fitted {session : Session Scripted} {text : String} {tokens : List TokenId}
    (hempty : session.vocab.engine.context = [])
    (h : Scripted.fitted text session.vocab.engine.contextSize = .ok tokens) :
    attempt (Scripted.engine.decode (Batch.sequence tokens 0).requestAll) session
      = if session.vocab.engine.FailsNext then
          .ok (.error (.decode "injected failure")) (session.onEngine session.vocab.engine.counted)
        else .ok (.ok ()) (session.onEngine (session.vocab.engine.filled tokens)) := by
  rw [attempt_eq, heard_quiet rfl]
  show EStateM.Result.ok (Scripted.decode _ _).1 (session.onEngine (Scripted.decode _ _).2) = _
  rw [Scripted.decode_fitted hempty h]
  split <;> rfl

theorem attempt_embeddings {session : Session Scripted} {embedding : List Float32}
    (h : Scripted.embeddings session.vocab.engine = .ok embedding) :
    attempt Scripted.engine.embeddings session = .ok (.ok embedding) session := by
  rw [attempt_eq, heard_quiet rfl]
  show EStateM.Result.ok (Scripted.embeddings _) _ = _
  rw [h]
  rfl

theorem onVocab_tokenize_ok {session : Session Scripted} {text : String} {addBos special : Bool}
    {tokens : List TokenId} (h : Scripted.tokenize text addBos special = .ok tokens) :
    onVocab (Vocabulary.tokenize Scripted.engine text addBos special) session
      = .ok tokens session := by
  have hresult : (Scripted.engine.tokenize text addBos special session.vocab.engine).result
      = .ok tokens := h
  rw [onVocab_tokenize_eq, hresult, heard_quiet rfl]
  rfl

theorem onVocab_tokenize_error {session : Session Scripted} {text : String} {addBos special : Bool}
    {error : EngineError} (h : Scripted.tokenize text addBos special = .error error) :
    onVocab (Vocabulary.tokenize Scripted.engine text addBos special) session
      = .error (.vocabulary (.engine error)) session := by
  have hresult : (Scripted.engine.tokenize text addBos special session.vocab.engine).result
      = .error error := h
  rw [onVocab_tokenize_eq, hresult, heard_quiet rfl]
  rfl

/-- What is extracted over an engine that is ready for it; only its context and its counts change. -/
theorem embed_spec {session : Session Scripted} (hempty : session.vocab.engine.context = [])
    (hmode : session.vocab.engine.embeddingMode = true) (text : String) :
    result (embed Scripted.engine text) session
        = (Scripted.fitted text session.vocab.engine.contextSize).bind (fun tokens =>
          if session.vocab.engine.FailsNext then
            .error (.embeddings (EngineError.decode "injected failure").message)
          else .ok (Scripted.normalize (Scripted.components tokens)))
      ∧ (after (embed Scripted.engine text) session).emptied = session.emptied := by
  cases hfound : Scripted.tokenize text true false with
  | error error =>
    have hembed : embed Scripted.engine text session
        = .error (.vocabulary (.engine error)) session := bind_error (onVocab_tokenize_error hfound)
    rw [result_error hembed, after_error hembed, Scripted.fitted, hfound]
    exact ⟨rfl, rfl⟩
  | ok tokens =>
    by_cases hover : session.vocab.engine.contextSize < tokens.length
    · have hembed : embed Scripted.engine text session
          = .error (.contextOverflow tokens.length session.vocab.engine.contextSize) session := by
        unfold embed
        rw [bind_ok (onVocab_tokenize_ok hfound)]
        exact congrFun (if_pos hover) session
      rw [result_error hembed, after_error hembed, Scripted.fitted, hfound]
      dsimp only
      rw [if_pos hover]
      exact ⟨rfl, rfl⟩
    have hfitted : Scripted.fitted text session.vocab.engine.contextSize = .ok tokens := by
      rw [Scripted.fitted, hfound]
      exact if_neg hover
    have hdecode := attempt_decode_fitted hempty hfitted
    rw [hfitted]
    show _ = (if _ then _ else _) ∧ _
    by_cases hfails : session.vocab.engine.FailsNext
    · rw [if_pos hfails] at hdecode
      have hembed : embed Scripted.engine text session
          = .error (.embeddings (EngineError.decode "injected failure").message)
            (session.onEngine session.vocab.engine.counted) := by
        unfold embed
        rw [bind_ok (onVocab_tokenize_ok hfound)]
        exact (congrFun (if_neg hover) session).trans (bind_ok hdecode)
      rw [result_error hembed, after_error hembed, if_pos hfails]
      exact ⟨rfl, rfl⟩
    · rw [if_neg hfails] at hdecode
      have hembed : embed Scripted.engine text session
          = .ok (Scripted.normalize (Scripted.components tokens))
            (session.onEngine (session.vocab.engine.filled tokens)) := by
        unfold embed
        rw [bind_ok (onVocab_tokenize_ok hfound)]
        refine (congrFun (if_neg hover) session).trans ((bind_ok hdecode).trans ?_)
        have hembeddings : Scripted.embeddings (session.vocab.engine.filled tokens)
            = .ok (Scripted.normalize (Scripted.components tokens)) :=
          Scripted.embeddings_filled hempty hmode hfitted
        refine (bind_ok (attempt_embeddings hembeddings)).trans ?_
        -- an embedding is never empty
        obtain ⟨first, rest, hsome⟩ :=
          List.exists_cons_of_ne_nil (Scripted.normalize_components_ne_nil tokens)
        rw [hsome]
        rfl
      rw [result_ok hembed, after_ok hembed, if_neg hfails]
      exact ⟨rfl, rfl⟩

/-- The session before the extraction itself, over an empty context and an engine that is switched to
    embeddings. -/
def ready (session : Session Scripted) : Session Scripted :=
  { session.onEngine { Scripted.clear session.vocab.engine with embeddingMode := true } with
    position := 0, recent := [], logits := [] }

/-- The session after the extraction itself, over an empty context and an engine that is switched
    back. -/
def restored (session : Session Scripted) : Session Scripted :=
  { session.onEngine (Scripted.clear { session.vocab.engine with embeddingMode := false }) with
    position := 0, recent := [], logits := [] }

/-- What goes on around the extraction itself: it is made ready for, and the session is emptied. -/
theorem extractEmbeddings_spec {text : String} (htext : text.toList.all Text.isBlank = false)
    (session : Session Scripted) :
    result (extractEmbeddings Scripted.engine text) session
        = result (embed Scripted.engine text) session.ready
      ∧ (after (extractEmbeddings Scripted.engine text) session).uncounted
        = (after (embed Scripted.engine text) session.ready).emptied := by
  have hreset (session : Session Scripted) : resetContext Scripted.engine session
      = .ok () { session.onEngine (Scripted.clear session.vocab.engine) with
          position := 0, recent := [], logits := [] } := by
    rw [resetContext_eq rfl, heard_quiet rfl]
    rfl
  have hswitch (enabled : Bool) (session : Session Scripted) :
      attempt (Scripted.engine.setEmbeddings enabled) session
        = .ok (.ok ()) (session.onEngine
          { session.vocab.engine with embeddingMode := enabled }) := by
    rw [attempt_eq, heard_quiet rfl]
    rfl
  have hextract : extractEmbeddings Scripted.engine text session
      = match result (embed Scripted.engine text) session.ready with
        | .error error => .error error (after (embed Scripted.engine text) session.ready).restored
        | .ok embedding =>
          .ok embedding (after (embed Scripted.engine text) session.ready).restored := by
    unfold extractEmbeddings
    rw [htext, if_neg Bool.false_ne_true]
    dsimp only
    rw [bind_ok (hreset session), bind_ok (hswitch true _)]
    refine (bind_ok (observe_eq _ session.ready)).trans ?_
    rw [bind_ok (hswitch false _), bind_ok (hreset _)]
    cases result (embed Scripted.engine text) session.ready <;> rfl
  cases hembedded : result (embed Scripted.engine text) session.ready with
  | error error =>
    rw [hembedded] at hextract
    exact ⟨result_error hextract, congrArg uncounted (after_error hextract)⟩
  | ok embedding =>
    rw [hembedded] at hextract
    exact ⟨result_ok hextract, congrArg uncounted (after_ok hextract)⟩

/-- **Extraction leaves no trace.**  A blank text is refused and changes nothing.  With any other
    text a session that was reached is left as if its context had only been emptied, but for the
    calls that were counted, whether the extraction fails or not.  What is extracted depends on the
    text and on the size of the context, and it fails if the decoding is to fail. -/
theorem extraction_leaves_no_trace {session : Session Scripted} (h : session.Reached)
    (text : String) :
    (text.toList.all Text.isBlank = true → extractEmbeddings Scripted.engine text session
        = .error (.embeddings "input is empty") session)
      ∧ (text.toList.all Text.isBlank = false →
        (after (extractEmbeddings Scripted.engine text) session).uncounted
            = (after (resetContext Scripted.engine) session).uncounted
          ∧ (after (extractEmbeddings Scripted.engine text) session).uncounted = session.emptied)
      ∧ (¬ session.vocab.engine.FailsNext →
        result (extractEmbeddings Scripted.engine text) session
          = Scripted.embeddingOf text session.vocab.engine.contextSize)
      ∧ (session.vocab.engine.FailsNext →
        ∃ error, result (extractEmbeddings Scripted.engine text) session = .error error) := by
  have hblank : text.toList.all Text.isBlank = true → extractEmbeddings Scripted.engine text session
      = .error (.embeddings "input is empty") session := by
    intro htext
    unfold extractEmbeddings
    rw [if_pos htext]
    rfl
  have hother : text.toList.all Text.isBlank = false →
      result (extractEmbeddings Scripted.engine text) session
          = (Scripted.fitted text session.vocab.engine.contextSize).bind (fun tokens =>
            if session.vocab.engine.FailsNext then
              .error (.embeddings (EngineError.decode "injected failure").message)
            else .ok (Scripted.normalize (Scripted.components tokens)))
        ∧ (after (extractEmbeddings Scripted.engine text) session).uncounted = session.emptied := by
    intro htext
    obtain ⟨hresult, hafter⟩ := extractEmbeddings_spec htext session
    have hready : session.ready.vocab.engine.context = []
      ∧ session.ready.vocab.engine.embeddingMode = true := ⟨rfl, rfl⟩
    obtain ⟨hembedded, hemptied⟩ := embed_spec hready.1 hready.2 text
    exact ⟨hresult.trans hembedded, hafter.trans hemptied⟩
  refine ⟨hblank, fun htext => ?_, fun hworks => ?_, fun hfails => ?_⟩
  · rw [uncounted_resetContext h.generating]
    exact ⟨(hother htext).2, (hother htext).2⟩
  · unfold Scripted.embeddingOf
    cases htext : text.toList.all Text.isBlank with
    | true => exact result_error (hblank htext)
    | false =>
      rw [(hother htext).1, if_neg Bool.false_ne_true]
      cases Scripted.fitted text session.vocab.engine.contextSize with
      | error error => rfl
      | ok tokens => exact if_neg hworks
  · cases htext : text.toList.all Text.isBlank with
    | true => exact ⟨_, result_error (hblank htext)⟩
    | false =>
      rw [(hother htext).1]
      cases Scripted.fitted text session.vocab.engine.contextSize with
      | error error => exact ⟨error, rfl⟩
      | ok tokens => exact ⟨_, if_pos hfails⟩

/-- With a prompt in the context, an extraction works as it would without it; and where a failure is
    planned, the extraction leaves nothing of the prompt and no trace of its own. -/
theorem extraction_leaves_no_trace_primed :
    let primed := Operation.apply Scripted.engine (.prepareContext "Hi")
      (Session.new ({ contextSize := 8 } : Scripted) .greedy)
    let failing := primed.onEngine (primed.vocab.engine.failAfter 0)
    primed.Reached ∧ failing.Reached
      ∧ (failing.position = 3 ∧ failing.vocab.engine.context.length = 3 ∧ failing.logits ≠ [])
      ∧ result (extractEmbeddings Scripted.engine "hi") primed = Scripted.embeddingOf "hi" 8
      ∧ (after (extractEmbeddings Scripted.engine "hi") primed).uncounted = primed.emptied
      ∧ (∃ error, result (extractEmbeddings Scripted.engine "hi") failing = .error error)
      ∧ (after (extractEmbeddings Scripted.engine "hi") failing).uncounted = failing.emptied := by
  intro primed failing
  have hprimed : primed.Reached := .operation (.new _ rfl) rfl _
  have hfailing : failing.Reached := .failAfter hprimed 0
  have hleft : failing.position = 3 ∧ failing.vocab.engine.context.length = 3
      ∧ failing.logits ≠ [] := by decide +kernel
  have hworks : ¬ primed.vocab.engine.FailsNext := by decide +kernel
  have hsize : primed.vocab.engine.contextSize = 8 := by decide +kernel
  obtain ⟨-, htrace, hresult, -⟩ := extraction_leaves_no_trace hprimed "hi"
  obtain ⟨-, htrace', -, hfails⟩ := extraction_leaves_no_trace hfailing "hi"
  refine ⟨hprimed, hfailing, hleft, ?_, (htrace (by decide)).2, hfails (by decide +kernel),
    (htrace' (by decide)).2⟩
  rw [hresult hworks, hsize]

end Session

end Parley
