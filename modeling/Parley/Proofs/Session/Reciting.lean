import Parley.Proofs.Engine.Reciting
import Parley.Proofs.Session.Extraction
import Parley.Proofs.Session.Masking
import Parley.Proofs.Stream.Moments

/-! # Greedy sessions recite the script

    With greedy parameters the highest score wins, so over a scripted engine a session draws the
    token that continues the script, and decodes it; then the engine is where the script goes on
    behind that token.  So what is decoded behind a prompt is the recital of the script, as far as
    the context has room for it, and what comes next is the end of the sequence:
    `Session.script_recited`. -/

namespace Parley

open Number Sampling Step

/-! ## Section 1: Greedy draws -/

/-- **The best score wins** with greedy parameters, whatever came before. -/
theorem Sampler.sample_greedy {sampler : Sampler} {scores : List Float32} {history : List Nat}
    (h : ∃ generator, sampler = { Sampler.ofParams .greedy with generator })
    (hfinite : scores.any (·.isFinite) = true) :
    sampler.sample scores history = (.ok (lastMaximum scores), sampler) := by
  obtain ⟨generator, rfl⟩ := h
  have hsome : scores.isEmpty = false := by
    cases scores with
    | nil => contradiction
    | cons score rest => rfl
  have hstages : (Sampler.ofParams .greedy).penalty = none ∧ (Sampler.ofParams .greedy).topK = none
      ∧ (Sampler.ofParams .greedy).topP = none := by decide +kernel
  have hwarm : ¬ (Sampler.ofParams .greedy).temperature ≤ 0 := by decide +kernel
  have hcold : (Sampler.ofParams .greedy).temperature < 1e-3 := by decide +kernel
  have hfilter : ({ Sampler.ofParams .greedy with generator } : Sampler).filter scores history
      = scores := by
    unfold Sampler.filter
    dsimp only
    rw [hstages.1, hstages.2.1, hstages.2.2]
  unfold Sampler.sample
  rw [hsome, if_neg Bool.false_ne_true, if_neg hwarm, hfinite, Bool.not_true,
    if_neg Bool.false_ne_true, hfilter]
  exact if_pos hcold

namespace Session

/-- Nothing is masked if nothing is excluded. -/
theorem maskOut_empty (scores : List Float32) : maskOut TokenSet.empty scores = scores := by
  have hmember (index : Nat) : TokenSet.empty.containsIndex index = false := Bool.and_false _
  apply List.ext_getElem?
  intro index
  unfold maskOut
  rw [List.getElem?_mapIdx, hmember]
  simp

/-! ## Section 2: Sessions on their way through a script -/

/-- **Steered.**  The session is greedy, with no stop sequence and no stop requested, over an engine
    that follows the script, and none of whose calls is to fail.  It is generating, as it is in
    every session that was reached: `Reached.generating`. -/
structure Steered (script : Script) (session : Session Scripted) : Prop where
  greedy : ∃ generator, session.sampler = { Sampler.ofParams .greedy with generator }
  unending : session.stopSequence = []
  running : session.isStopped = false
  healthy : session.vocab.engine.failAt = none
  generating : session.vocab.engine.embeddingMode = false
  follows : session.vocab.engine.script = some script

/-- **Reciting.**  Behind the prompt the tokens `done` were decoded, and the scores are those that
    the script gives behind them. -/
structure Reciting (script : Script) (prompt done : List TokenId) (session : Session Scripted) :
    Prop extends Steered script session where
  context : session.vocab.engine.context = prompt ++ done
  promptLength : session.vocab.engine.promptLength = some prompt.length
  position : session.position = prompt.length + done.length
  logits : session.logits = Scripted.scores (some script) (Scripted.render done)

/-- The session over an engine that decoded a batch, with the scores behind it. -/
def fed (session : Session Scripted) (batch : Batch) : Session Scripted :=
  { session.onEngine (session.vocab.engine.counted.extend batch) with
    logits := Scripted.scores session.vocab.engine.script
      (session.vocab.engine.counted.extend batch).generated }

/-- A batch that fits is decoded, and the scores behind it are kept. -/
theorem decodeBatch_eq {session : Session Scripted} {batch : Batch}
    (hhealthy : session.vocab.engine.failAt = none)
    (hrefusal : Scripted.refusal? session.vocab.engine batch = none)
    (hwish : batch.wishes.any id = true) :
    decodeBatch Scripted.engine batch session = .ok () (session.fed batch) := by
  have hdecode : attempt (Scripted.engine.decode batch) session
      = .ok (.ok ()) (session.onEngine (session.vocab.engine.counted.extend batch)) := by
    rw [attempt_eq, heard_quiet rfl]
    show EStateM.Result.ok (Scripted.decode _ _).1 (session.onEngine (Scripted.decode _ _).2) = _
    rw [Scripted.decode_of_failAt hhealthy, hrefusal]
  have hlogits : attempt Scripted.engine.logits
      (session.onEngine (session.vocab.engine.counted.extend batch))
      = .ok (.ok (Scripted.scores session.vocab.engine.script
          (session.vocab.engine.counted.extend batch).generated))
          (session.onEngine (session.vocab.engine.counted.extend batch)) := by
    rw [attempt_eq, heard_quiet rfl]
    have hscored : (session.vocab.engine.counted.extend batch).hasLogits = true := hwish
    show EStateM.Result.ok (Scripted.logits (session.vocab.engine.counted.extend batch)) _ = _
    unfold Scripted.logits
    rw [hscored]
    rfl
  unfold decodeBatch
  rw [bind_ok hdecode]
  dsimp only
  rw [bind_ok hlogits]
  rfl

/-- Behind a batch that holds what was missing of the prompt and of what was done, the session is
    reciting. -/
theorem Steered.reciting_fed {script : Script} {session : Session Scripted} {batch : Batch}
    {prompt done : List TokenId} (h : session.Steered script)
    (hcontext : session.vocab.engine.context ++ batch.tokens = prompt ++ done)
    (hprompt : (session.vocab.engine.counted.extend batch).promptLength = some prompt.length)
    {position : Nat} (hposition : position = prompt.length + done.length) :
    { session.fed batch with position }.Reciting script prompt done where
  greedy := h.greedy
  unending := h.unending
  running := h.running
  healthy := h.healthy
  generating := h.generating
  follows := h.follows
  context := hcontext
  promptLength := hprompt
  position := hposition
  logits := by
    have hextended : (session.vocab.engine.counted.extend batch).context = prompt ++ done :=
      hcontext
    have hgenerated : (session.vocab.engine.counted.extend batch).generated
        = Scripted.render done := by
      unfold Scripted.generated
      rw [hextended, hprompt, Option.getD_some, List.drop_left]
    show Scripted.scores session.vocab.engine.script _ = _
    rw [hgenerated, h.follows]

/-! ### Priming -/

/-- The session with an empty context. -/
def cleared (session : Session Scripted) : Session Scripted :=
  { session.onEngine (Scripted.clear session.vocab.engine) with
    position := 0, recent := [], logits := [] }

theorem resetContext_cleared (session : Session Scripted) :
    resetContext Scripted.engine session = .ok () session.cleared := by
  rw [resetContext_eq rfl, heard_quiet rfl]
  rfl

/-- A prompt that fits is fed into an empty context in one batch. -/
theorem prepareContext_cleared {session : Session Scripted} {prompt : String}
    {tokens : List TokenId} (hhealthy : session.vocab.engine.failAt = none) (hprompt : prompt ≠ "")
    (htokens : Scripted.tokenize prompt true true = .ok tokens)
    (hfits : tokens.length ≤ session.vocab.engine.contextSize) :
    prepareContext Scripted.engine prompt session.cleared = .ok tokens.length
      { session.cleared.fed (Batch.sequence tokens 0) with position := tokens.length } := by
  have htokenize : onVocab (Vocabulary.tokenize Scripted.engine prompt
      (session.cleared.position == 0) true) session.cleared = .ok tokens session.cleared :=
    onVocab_tokenize_ok htokens
  have hrefusal : Scripted.refusal? session.cleared.vocab.engine (Batch.sequence tokens 0) = none :=
    Scripted.refusal?_of_tokenize rfl htokens hfits
  obtain ⟨rest, rfl⟩ := Scripted.exists_cons_of_tokenize htokens
  have hdecode : decodeBatch Scripted.engine (Batch.sequence (Scripted.bos :: rest) 0)
      session.cleared = .ok () (session.cleared.fed (Batch.sequence (Scripted.bos :: rest) 0)) :=
    decodeBatch_eq hhealthy hrefusal (Batch.any_wishes_sequence (List.cons_ne_nil _ _) 0)
  have hforgotten : (modify fun session => { session with recent := [] } : SessionM Scripted Unit)
      session.cleared = .ok () session.cleared := rfl
  have hposition : session.cleared.position = 0 := rfl
  have hnonempty : ¬ prompt.isEmpty = true := by simpa using hprompt
  have hopen : ¬ session.cleared.capacity Scripted.engine
      < session.cleared.position + (Scripted.bos :: rest).length :=
    Nat.not_lt.mpr ((Nat.zero_add _).trans_le hfits)
  unfold prepareContext
  rw [if_neg hnonempty]
  dsimp only
  rw [get_bind, bind_ok htokenize, List.isEmpty_cons, if_neg Bool.false_ne_true, get_bind,
    if_neg hopen, bind_ok hforgotten, hposition, bind_ok hdecode, Nat.zero_add]
  rfl

/-- **Priming.**  Behind a prompt that was fed into the emptied context nothing is done yet. -/
theorem Steered.prime {script : Script} {session : Session Scripted} (h : session.Steered script)
    {prompt : String} {tokens : List TokenId} (hprompt : prompt ≠ "")
    (htokens : Scripted.tokenize prompt true true = .ok tokens)
    (hfits : tokens.length ≤ session.vocab.engine.contextSize) :
    ∃ primed, (do resetContext Scripted.engine; prepareContext Scripted.engine prompt) session
        = .ok tokens.length primed
      ∧ primed.Reciting script tokens []
      ∧ primed.vocab.engine.contextSize = session.vocab.engine.contextSize := by
  have hsteered : session.cleared.Steered script := { h with }
  have hprepared := prepareContext_cleared h.healthy hprompt htokens hfits
  refine ⟨_, (bind_ok (resetContext_cleared session)).trans hprepared,
    hsteered.reciting_fed ?_ ?_ rfl, rfl⟩
  · rw [Batch.tokens_sequence, List.append_nil]
    rfl
  · show (if Option.isNone none && !session.vocab.engine.embeddingMode then
      some (Batch.sequence tokens 0).tokens.length else _) = _
    rw [h.generating, Batch.tokens_sequence]
    rfl

/-! ### Predictions -/

section Predictions

variable {script : Script} {prompt done : List TokenId} {session : Session Scripted}

/-- **What is drawn** is the token with the highest score, if there is room for it and it does not
    end the sequence. -/
theorem Reciting.drawNext_eq (h : session.Reciting script prompt done)
    (hroom : session.position < session.vocab.engine.contextSize) :
    drawNext Scripted.engine TokenSet.empty session
      = .ok (if Int32.ofNat (lastMaximum session.logits) = Scripted.eos then none
          else some (Int32.ofNat (lastMaximum session.logits)))
        (session.remember (Int32.ofNat (lastMaximum session.logits))) := by
  have hfinite : session.logits.any (·.isFinite) = true := by
    rw [h.logits]
    exact Scripted.any_isFinite_scores _ _
  have hprimed : session.logits ≠ [] := by
    rw [h.logits]
    exact List.ne_nil_of_mem (List.mem_of_getElem? (Scripted.scores_bos _ _))
  have hdraw : drawToken session.logits session
      = .ok (.ok (Int32.ofNat (lastMaximum session.logits))) session := by
    rw [drawToken_eq, Sampler.sample_greedy h.greedy hfinite]
    rfl
  have hnoted : (modify (·.remember (Int32.ofNat (lastMaximum session.logits))) :
      SessionM Scripted Unit) session
      = .ok () (session.remember (Int32.ofNat (lastMaximum session.logits))) := rfl
  have hunmatched : (session.remember (Int32.ofNat (lastMaximum session.logits))).stopSequenceMatched
      = false := by
    unfold stopSequenceMatched remember
    rw [h.unending]
    rfl
  have hopen : ¬ session.capacity Scripted.engine ≤ session.position := Nat.not_le.mpr hroom
  unfold drawNext
  rw [get_bind, if_neg hopen, bind_ok (pristine_of_primed hprimed), maskOut_empty, bind_ok hdraw]
  dsimp only
  rw [bind_ok hnoted, get_bind, hunmatched, if_neg Bool.false_ne_true]
  by_cases heos : Int32.ofNat (lastMaximum session.logits) = Scripted.eos
  · rw [if_pos heos]
    exact congrFun (if_pos heos) _
  · rw [if_neg heos]
    exact congrFun (if_neg heos) _

/-- A token that is decoded stands behind those that were, and the scores are those behind it. -/
theorem Reciting.decodeNext_eq (h : session.Reciting script prompt done) {token : TokenId}
    (hvalid : (Scripted.piece? token).isSome = true)
    (hroom : session.position < session.vocab.engine.contextSize) :
    ∃ later, decodeNext Scripted.engine token session = .ok () later
      ∧ later.Reciting script prompt (done ++ [token])
      ∧ later.vocab.engine.contextSize = session.vocab.engine.contextSize := by
  have hlength : session.vocab.engine.context.length = session.position := by
    rw [h.context, List.length_append, h.position]
  have hrefusal : Scripted.refusal? session.vocab.engine (Batch.single token session.position)
      = none := by
    apply Scripted.refusal?_eq_none
    · exact congrArg some hlength.symm
    · rw [hlength]
      exact hroom
    · intro other hother
      rw [List.mem_singleton.mp hother]
      exact hvalid
  have hdecode : decodeNext Scripted.engine token session = .ok ()
      { session.fed (Batch.single token session.position) with
        position := session.position + 1 } := by
    unfold decodeNext
    rw [get_bind, bind_ok (decodeBatch_eq h.healthy hrefusal rfl)]
    rfl
  refine ⟨_, hdecode, h.toSteered.reciting_fed ?_ ?_ ?_, rfl⟩
  · rw [h.context, List.append_assoc]
    rfl
  · show (if session.vocab.engine.promptLength.isNone && _ then _
      else session.vocab.engine.promptLength) = _
    rw [h.promptLength]
    rfl
  · rw [h.position, List.length_append]
    rfl

/-- **One token further.**  Where the script goes on, the token that continues it is decoded. -/
theorem Reciting.predict {c : Char} {rest : List Char} {piece : Scripted.Piece}
    (h : session.Reciting ⟨Scripted.render done ++ c :: rest, []⟩ prompt done)
    (hpiece : Scripted.pieces[Scripted.nextIndex (c :: rest)]? = some piece)
    (hgoes : Scripted.nextIndex (c :: rest) ≠ 1)
    (hroom : session.position < session.vocab.engine.contextSize) :
    ∃ later, predictNext Scripted.engine TokenSet.empty session
        = .ok (Scripted.nextToken (c :: rest)) later
      ∧ later.Reciting ⟨Scripted.render done ++ c :: rest, []⟩ prompt
        (done ++ [Scripted.nextToken (c :: rest)])
      ∧ later.vocab.engine.contextSize = session.vocab.engine.contextSize := by
  have htoken : Int32.ofNat (lastMaximum session.logits) = Scripted.nextToken (c :: rest) := by
    rw [h.logits, Scripted.scores_within]
    rfl
  have hdrawn := h.drawNext_eq hroom
  rw [htoken, if_neg (Scripted.nextToken_ne_eos hpiece hgoes)] at hdrawn
  have hvalid : (Scripted.piece? (Scripted.nextToken (c :: rest))).isSome = true := by
    rw [Scripted.nextToken, Scripted.piece?_ofNat hpiece]
    rfl
  have hnoted : (session.remember (Scripted.nextToken (c :: rest))).Reciting
      ⟨Scripted.render done ++ c :: rest, []⟩ prompt done := { h with }
  obtain ⟨later, hlater, hreciting, hsize⟩ := hnoted.decodeNext_eq hvalid hroom
  refine ⟨later, ?_, hreciting, hsize⟩
  rw [predictNext_eq, h.running, if_neg Bool.false_ne_true, bind_ok hdrawn]
  dsimp only
  rw [bind_ok hlater]
  rfl

/-- **No room.**  Where the context is full, the end of the sequence is predicted and nothing is
    decoded. -/
theorem Reciting.predict_full (h : session.Reciting script prompt done)
    (hfull : session.vocab.engine.contextSize ≤ session.position) :
    ∃ later, predictNext Scripted.engine TokenSet.empty session = .ok Scripted.eos later
      ∧ later.vocab = session.vocab := by
  have hdrawn : drawNext Scripted.engine TokenSet.empty session = .ok none session := by
    unfold drawNext
    rw [get_bind]
    exact congrFun (if_pos hfull) session
  refine ⟨session, ?_, rfl⟩
  rw [predictNext_eq, h.running, if_neg Bool.false_ne_true, bind_ok hdrawn]
  rfl

/-- **The end.**  Where the script is complete, the end of the sequence is predicted and nothing is
    decoded. -/
theorem Reciting.predict_end (h : session.Reciting ⟨Scripted.render done, []⟩ prompt done) :
    ∃ later, predictNext Scripted.engine TokenSet.empty session = .ok Scripted.eos later
      ∧ later.vocab = session.vocab := by
  rcases Nat.lt_or_ge session.position session.vocab.engine.contextSize with hroom | hfull
  · have heos : Int32.ofNat (lastMaximum session.logits) = Scripted.eos := by
      rw [h.logits, Scripted.scores_atEnd, Scripted.lastMaximum_scoresAtEnd]
      rfl
    have hdrawn := h.drawNext_eq hroom
    rw [if_pos heos] at hdrawn
    refine ⟨session.remember (Int32.ofNat (lastMaximum session.logits)), ?_, rfl⟩
    rw [predictNext_eq, h.running, if_neg Bool.false_ne_true, bind_ok hdrawn]
    rfl
  · exact h.predict_full hfull

end Predictions

/-! ## Section 3: Runs -/

/-- Predicts the given number of tokens, nothing excluded; returns them in order. -/
def predictTimes {σ : Type} (engine : Engine σ) : (count : Nat) → SessionM σ (List TokenId)
  | 0 => return []
  | count + 1 => do
    let token ← predictNext engine TokenSet.empty
    return token :: (← predictTimes engine count)

/-- **A run along the script**, by induction on the recital of what is still to come. -/
theorem predictTimes_recital {rest : List Char} {tokens : List TokenId}
    (hrecital : Scripted.Recital rest tokens) {text : List Char} {prompt done : List TokenId}
    {session : Session Scripted} (h : session.Reciting ⟨text, []⟩ prompt done)
    (htext : Scripted.render done ++ rest = text) {count : Nat} (hcount : count ≤ tokens.length)
    (hroom : prompt.length + done.length + count ≤ session.vocab.engine.contextSize) :
    ∃ last, predictTimes Scripted.engine count session = .ok (tokens.take count) last
      ∧ last.Reciting ⟨text, []⟩ prompt (done ++ tokens.take count)
      ∧ last.vocab.engine.contextSize = session.vocab.engine.contextSize := by
  induction hrecital generalizing done session count with
  | done =>
    cases Nat.le_zero.mp hcount
    exact ⟨session, rfl, by simpa using h, rfl⟩
  | @token c rest later piece tokens hpiece hsplit hgoes _ ih =>
    cases count with
    | zero => exact ⟨session, rfl, by simpa using h, rfl⟩
    | succ count =>
      subst htext
      have hspace : session.position < session.vocab.engine.contextSize := by
        rw [h.position]
        omega
      obtain ⟨next, hnext, hreciting, hsize⟩ := h.predict hpiece hgoes hspace
      have hrendered : Scripted.render (done ++ [Scripted.nextToken (c :: rest)]) ++ later
          = Scripted.render done ++ c :: rest := by
        rw [Scripted.render_append, Scripted.nextToken,
          Scripted.render_singleton (Scripted.piece?_ofNat hpiece), List.append_assoc, hsplit]
      have hroom' : prompt.length + (done ++ [Scripted.nextToken (c :: rest)]).length + count
          ≤ next.vocab.engine.contextSize := by
        rw [hsize, List.length_append, List.length_singleton]
        omega
      obtain ⟨last, hlast, hend, hkept⟩ :=
        ih hreciting hrendered (Nat.le_of_succ_le_succ hcount) hroom'
      refine ⟨last, ?_, ?_, hkept.trans hsize⟩
      · unfold predictTimes
        rw [bind_ok hnext, bind_ok hlast]
        rfl
      · rw [List.append_assoc] at hend
        exact hend

/-- **Scripts are recited.**  A printable script that does not ask for a stop is made of the texts
    of certain tokens, none of them the end of the sequence.  Behind every printable prompt that
    fits, a greedy session decodes these tokens one after the other, as far as the context has room
    for them; then it predicts the end of the sequence and decodes nothing. -/
theorem script_recited {raw : String} (hplain : Scripted.Printable raw.toList)
    (hmark : ¬ Script.stopMark <:+: raw.toList) :
    ∃ (tokens : List TokenId) (texts : List String),
      tokens.mapM (Scripted.pieceText · true) = .ok texts
      ∧ texts.flatMap String.toList = raw.toList
      ∧ Scripted.eos ∉ tokens
      ∧ ∀ session : Session Scripted, session.Steered (Script.parse raw) →
        ∀ prompt : String, Scripted.Printable prompt.toList → prompt ≠ "" →
          ∃ promptTokens, Scripted.tokenize prompt true true = .ok promptTokens
          ∧ (promptTokens.length ≤ session.vocab.engine.contextSize →
            let decoded := tokens.take (session.vocab.engine.contextSize - promptTokens.length)
            ∃ primed last later,
              (do resetContext Scripted.engine; prepareContext Scripted.engine prompt) session
                = .ok promptTokens.length primed
              ∧ predictTimes Scripted.engine decoded.length primed = .ok decoded last
              ∧ last.vocab.engine.context = promptTokens ++ decoded
              ∧ predictNext Scripted.engine TokenSet.empty last = .ok Scripted.eos later
              ∧ later.vocab = last.vocab) := by
  obtain ⟨tokens, hrecital⟩ := Scripted.exists_recital hplain hmark
  obtain ⟨texts, htexts, hjoined⟩ := hrecital.texts
  refine ⟨tokens, texts, htexts, hjoined, hrecital.eos_notMem, ?_⟩
  intro session hsteered prompt hprompt hsome
  obtain ⟨promptTokens, htokens⟩ := Scripted.exists_tokenize hprompt true true
  refine ⟨promptTokens, htokens, fun hfits => ?_⟩
  rw [Scripted.parse_of_unmarked hmark] at hsteered
  obtain ⟨primed, hprimed, hstart, hsize⟩ := hsteered.prime hsome htokens hfits
  generalize hroom : session.vocab.engine.contextSize - promptTokens.length = room
  intro decoded
  have hlength : decoded.length = min room tokens.length := List.length_take
  have hcount : decoded.length ≤ tokens.length := hlength.trans_le (Nat.min_le_right _ _)
  have hdecoded : tokens.take decoded.length = decoded := by
    rw [hlength]
    exact (List.take_eq_take_min).symm
  have hspace : promptTokens.length + ([] : List TokenId).length + decoded.length
      ≤ primed.vocab.engine.contextSize := by
    rw [hsize, List.length_nil]
    omega
  obtain ⟨last, hlast, hreciting, hkept⟩ := predictTimes_recital hrecital hstart rfl hcount hspace
  rw [hdecoded] at hlast hreciting
  have hend : ∃ later, predictNext Scripted.engine TokenSet.empty last = .ok Scripted.eos later
      ∧ later.vocab = last.vocab := by
    rcases Nat.lt_or_ge room tokens.length with hcut | hwhole
    · apply hreciting.predict_full
      rw [hkept, hsize, hreciting.position, List.nil_append, hlength, Nat.min_eq_left hcut.le]
      omega
    · have hall : decoded = tokens := List.take_of_length_le hwhole
      rw [← hrecital.rendered, List.nil_append, hall] at hreciting
      exact hreciting.predict_end
  obtain ⟨later, hlater, hsame⟩ := hend
  exact ⟨primed, last, later, hprimed, hlast, hreciting.context, hlater, hsame⟩

/-- A short script, with room for the first of its tokens. -/
theorem script_recited_cut :
    let session := Session.new
      ({ contextSize := 4, script := some (Script.parse "ok") } : Scripted) .greedy
    session.Steered (Script.parse "ok")
      ∧ ∃ (tokens : List TokenId) (texts : List String) (primed last later : Session Scripted),
      tokens.mapM (Scripted.pieceText · true) = .ok texts
      ∧ texts.flatMap String.toList = "ok".toList
      ∧ (do resetContext Scripted.engine; prepareContext Scripted.engine "hi") session = .ok 3 primed
      ∧ predictTimes Scripted.engine (tokens.take 1).length primed = .ok (tokens.take 1) last
      ∧ last.vocab.engine.context = [0, 80, 81] ++ tokens.take 1
      ∧ predictNext Scripted.engine TokenSet.empty last = .ok Scripted.eos later
      ∧ later.vocab = last.vocab := by
  intro session
  have hsteered : session.Steered (Script.parse "ok") :=
    ⟨⟨_, rfl⟩, rfl, rfl, rfl, rfl, rfl⟩
  have hplain (text : String) (h : text.toList.all (fun c => c = '\n' ∨ ' ' ≤ c ∧ c ≤ '~') = true) :
      Scripted.Printable text.toList := fun c hc => of_decide_eq_true (List.all_eq_true.mp h c hc)
  obtain ⟨tokens, texts, htexts, hjoined, -, hruns⟩ :=
    script_recited (hplain "ok" (by decide)) (by decide)
  obtain ⟨promptTokens, htokens, hfits⟩ :=
    hruns session hsteered "hi" (hplain "hi" (by decide)) (by decide)
  have hprompt : Scripted.tokenize "hi" true true = .ok [0, 80, 81] := by decide +kernel
  cases hprompt.symm.trans htokens
  obtain ⟨primed, last, later, hrun⟩ := hfits (by decide)
  exact ⟨hsteered, tokens, texts, primed, last, later, htexts, hjoined, hrun⟩

end Session

end Parley
