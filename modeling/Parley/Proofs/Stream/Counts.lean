import Parley.Proofs.Session.Masking
import Parley.Proofs.Stream.Stopping

/-! # What is counted along a generation

    Along a generation the predictions are counted, the tokens that they decode, and the tokens of
    the marker that is injected: `Moment.Tallied`.  Each count is bounded or met by a quantity of
    the moment, and one lemma for each says how a move changes the two: the predictions that are
    left, the injection that the worker notes, the position of the session, and the tokens that the
    timer has counted.
-/

namespace Parley

open Step Sampling

variable {σ : Type}

/-! ## Section 1: Positions -/

namespace Session

variable {α : Type}

/-- The step moves the position on by `count` if it succeeds, and not at all if it fails. -/
structure Advances (count : Nat) (step : SessionM σ α) (session : Session σ) : Prop where
  ok : ∀ {value later}, step session = .ok value later →
    later.position = session.position + count
  error : ∀ {error later}, step session = .error error later →
    later.position = session.position

theorem Advances.of_eq {count : Nat} {step other : SessionM σ α} {session : Session σ}
    (h : Advances count other session) (hsame : step session = other session) :
    Advances count step session :=
  ⟨fun hstep => h.ok (hsame.symm.trans hstep), fun hstep => h.error (hsame.symm.trans hstep)⟩

/-- The step leaves the position alone, whether it fails or not. -/
def Stays (before later : Session σ) : Prop := later.position = before.position

theorem Stays.trans {first second third : Session σ} (h : Stays first second)
    (hnext : Stays second third) : Stays first third := Eq.trans hnext h

theorem advances_of_stays {step : SessionM σ α} {session : Session σ}
    (h : Keeps Stays step session) : Advances 0 step session :=
  ⟨fun hstep => h.of_ok hstep, fun hstep => h.of_error hstep⟩

theorem advances_onVocab (step : VocabularyM σ α) (session : Session σ) :
    Advances 0 (onVocab step) session :=
  advances_of_stays (keeps_onVocab rfl)

theorem stays_decodeBatch (engine : Engine σ) (batch : Batch) (session : Session σ) :
    Keeps Stays (decodeBatch engine batch) session :=
  (sameMemory_decodeBatch engine batch session).position

/-- A batch does not move the position; whoever hands it over does. -/
theorem advances_batch (engine : Engine σ) (batch : Batch) (count : Nat) (session : Session σ)
    (position : Session σ → Nat)
    (h : ∀ later : Session σ, later.position = session.position →
      position later = session.position + count) :
    Advances count (decodeBatch engine batch >>= fun _ =>
      modify fun session => { session with position := position session }) session := by
  have hstays := stays_decodeBatch engine batch session
  constructor
  · intro value later hok
    obtain ⟨_, handed, hbatch, hmoved⟩ := bind_eq_ok hok
    cases hmoved
    exact h handed (hstays.of_ok hbatch)
  · intro error later herror
    cases hbatch : decodeBatch engine batch session with
    | ok _ handed =>
      rw [bind_ok hbatch] at herror
      contradiction
    | error error handed =>
      rw [bind_error hbatch] at herror
      cases herror
      exact hstays.of_error hbatch

theorem advances_decodeNext (engine : Engine σ) (token : TokenId) (session : Session σ) :
    Advances 1 (decodeNext engine token) session :=
  (advances_batch engine (Batch.single token session.position) 1 session
    (fun later => later.position + 1) fun _ hsame => by rw [hsame]).of_eq rfl

theorem advances_inject (engine : Engine σ) (tokens : List TokenId) (session : Session σ) :
    Advances tokens.length (inject engine tokens) session := by
  cases tokens with
  | nil => exact advances_of_stays rfl
  | cons token rest =>
    by_cases hfull : session.capacity engine < session.position + (token :: rest).length
    · -- the tokens are refused, and the session is as before
      have hrefused : inject engine (token :: rest) session = .error
          (.contextOverflow (session.position + (token :: rest).length) (session.capacity engine))
          session := by
        simp only [inject, List.isEmpty_cons, Bool.not_false, if_true, get_bind, if_pos hfull]
        rfl
      refine ⟨fun hok => ?_, fun herror => ?_⟩
      · exact absurd (hrefused.symm.trans hok) (by simp)
      · cases hrefused.symm.trans herror
        rfl
    · have hfed : inject engine (token :: rest) session
          = (decodeBatch engine (Batch.sequence (token :: rest) session.position) >>= fun _ =>
            modify fun later =>
              { later with position := session.position + (token :: rest).length }) session := by
        simp only [inject, List.isEmpty_cons, Bool.not_false, if_true, get_bind, if_neg hfull]
      exact (advances_batch engine (Batch.sequence (token :: rest) session.position) _ session
        (fun _ => session.position + (token :: rest).length) fun _ _ => rfl).of_eq hfed

theorem advances_drawNext (engine : Engine σ) (excluding : TokenSet) (session : Session σ) :
    Advances 0 (drawNext engine excluding) session := by
  apply advances_of_stays
  unfold drawNext pristine
  refine keeps_get (keeps_ite (fun _ => rfl) fun _ => ?_)
  refine Keeps.bind Stays.trans (keeps_get (keeps_ite (fun _ => rfl) fun _ => rfl)) fun _ _ => ?_
  refine Keeps.bind Stays.trans rfl fun drawn _ => ?_
  cases drawn with
  | error error => exact rfl
  | ok token =>
    refine Keeps.bind Stays.trans rfl fun _ _ => keeps_get ?_
    exact keeps_ite (fun _ => rfl) fun _ => keeps_ite (fun _ => rfl) fun _ => rfl

/-- To draw is not to ask for a stop. -/
theorem isStopped_drawToken {scores : List Float32} {session later : Session σ}
    {drawn : Except SamplingError TokenId} (h : drawToken scores session = .ok drawn later) :
    later.isStopped = session.isStopped := by
  have hafter : after (drawToken scores) session = later := after_ok h
  rw [← hafter]
  rfl

/-- The sampler draws no token that is excluded: what it returns for the masked scores is not the
    index of a score of negative infinity.  There are no more scores than tokens can be numbered. -/
structure HeedsMask (excluding : TokenSet) (session : Session σ) : Prop where
  unmasked : ∀ index,
    (session.sampler.sample (maskOut excluding session.logits) session.penalized).1 = .ok index →
      ¬ Masked (maskOut excluding session.logits) index
  numbered : session.logits.length ≤ 0x80000000

theorem HeedsMask.not_mem {excluding : TokenSet} {session aware : Session σ}
    {token : TokenId} (h : session.HeedsMask excluding) (hexcluding : excluding.Increasing)
    (hdraw : drawToken (maskOut excluding session.logits) session = .ok (.ok token) aware) :
    token ∉ excluding := by
  rw [drawToken_eq] at hdraw
  obtain ⟨hresult, -⟩ := EStateM.Result.ok.inj hdraw
  obtain ⟨index, hindex, rfl⟩ := except_map_eq_ok hresult
  obtain ⟨hcontains, hlength⟩ := not_excluded_of_not_masked (h.unmasked index hindex)
  have hnumbered := h.numbered
  intro hmem
  unfold TokenSet.containsIndex at hcontains
  rw [hexcluding.contains_iff.mpr hmem, Bool.and_true, decide_eq_false_iff_not] at hcontains
  omega

end Session

/-! ## Section 2: Counts -/

/-- What is counted along a generation. -/
structure Tally where
  /-- The moves of the worker. -/
  moves : Nat := 0
  /-- The predictions that were begun. -/
  predictions : Nat := 0
  /-- The tokens that predictions decoded. -/
  decoded : Nat := 0
  /-- How often the end of thinking was forced, with success or not. -/
  injections : Nat := 0
  /-- The tokens of the marker that were injected. -/
  injected : Nat := 0

/-- Both counts together. -/
def Tally.add (tally other : Tally) : Tally where
  moves := tally.moves + other.moves
  predictions := tally.predictions + other.predictions
  decoded := tally.decoded + other.decoded
  injections := tally.injections + other.injections
  injected := tally.injected + other.injected

theorem Tally.add_assoc (first second third : Tally) :
    (first.add second).add third = first.add (second.add third) := by
  simp only [Tally.add, Nat.add_assoc]

namespace Moment

/-- What the next move adds to the counts. -/
def counts (engine : Engine σ) (moment : Moment σ) : Tally :=
  match moment.worker.stage, moment.point with
  | .predicting, .head =>
    { moves := 1
      predictions := if moment.worker.produced < moment.worker.options.maxNewTokens then 1 else 0 }
  | .predicting, .drawn token =>
    { moves := 1
      decoded := match moment.session.decodeNext engine token with
        | .ok _ _ => 1
        | .error _ _ => 0 }
  | .predicting, .ended =>
    { moves := 1
      injections :=
        if moment.session.remaining engine ≠ 0 ∧ moment.worker.forcedEnd?.isSome then 1 else 0 }
  | .predicting, .forcing _ tokens =>
    { moves := 1
      injected := match moment.session.inject engine tokens with
        | .ok _ _ => tokens.length
        | .error _ _ => 0 }
  | _, _ => { moves := 1 }

/-- `Tallied engine start tally moment`: so the generation may go on from `start` to `moment`, with
    stops at any time, and `tally` is what was counted on the way. -/
inductive Tallied (engine : Engine σ) (start : Moment σ) : Tally → Moment σ → Prop
  | refl : Tallied engine start {} start
  | go {tally : Tally} {moment : Moment σ} : Tallied engine start tally moment →
    Tallied engine start (tally.add (moment.counts engine)) (moment.go engine)
  | stop {tally : Tally} {moment : Moment σ} : Tallied engine start tally moment →
    Tallied engine start tally moment.stop

theorem Tallied.reaches {engine : Engine σ} {start moment : Moment σ} {tally : Tally}
    (h : Tallied engine start tally moment) : Reaches engine start moment := by
  induction h with
  | refl => exact .refl
  | go _ ih => exact ih.go
  | stop _ ih => exact ih.stop

theorem Reaches.exists_tallied {engine : Engine σ} {start moment : Moment σ}
    (h : Reaches engine start moment) : ∃ tally, Tallied engine start tally moment := by
  induction h with
  | refl => exact ⟨_, .refl⟩
  | go _ ih =>
    obtain ⟨tally, htally⟩ := ih
    exact ⟨_, htally.go⟩
  | stop _ ih =>
    obtain ⟨tally, htally⟩ := ih
    exact ⟨tally, htally.stop⟩

/-- **Invariants of counts.**  What moves and stops preserve holds of all that is counted. -/
theorem Tallied.preserves {engine : Engine σ} {start : Moment σ} {inv : Tally → Moment σ → Prop}
    {tally : Tally} {moment : Moment σ} (h : Tallied engine start tally moment)
    (hmove : ∀ {tally : Tally} {before : Moment σ}, Tallied engine start tally before →
      before.isDone = false → Move engine before (before.go engine) → inv tally before →
      inv (tally.add (before.counts engine)) (before.go engine))
    (hstop : ∀ {tally : Tally} {before : Moment σ}, inv tally before → inv tally before.stop)
    (hdone : ∀ {tally : Tally} {before : Moment σ}, before.isDone = true → inv tally before →
      inv (tally.add (before.counts engine)) before)
    (hstart : inv {} start) : inv tally moment := by
  induction h with
  | refl => exact hstart
  | stop _ ih => exact hstop ih
  | @go tally before htally ih =>
    cases hlast : before.isDone with
    | true =>
      rw [go_of_isDone engine hlast]
      exact hdone hlast ih
    | false => exact hmove htally hlast (go_move engine hlast) ih

/-- At the end only moves are counted, which lead nowhere. -/
theorem counts_of_isDone (engine : Engine σ) {moment : Moment σ} (h : moment.isDone = true) :
    moment.counts engine = { moves := 1 } := by
  obtain ⟨summary, hstage⟩ := exists_summary h
  unfold counts
  rw [hstage]

/-! ## Section 3: What one move adds -/

end Moment

/-- One token more is counted. -/
theorem Worker.generated_produce (worker : Worker) (text : List Char) :
    (worker.produce text).timer.metrics.generatedTokens
      = worker.timer.metrics.generatedTokens + 1 := by
  have hthinking : worker.timer.markThinking.metrics.generatedTokens
      = worker.timer.metrics.generatedTokens + 1 := Nat.add_right_comm _ _ _
  have hresponse : worker.timer.markResponse.metrics.generatedTokens
      = worker.timer.metrics.generatedTokens + 1 := rfl
  unfold Worker.produce
  dsimp only
  split
  · exact hthinking
  · exact hresponse

namespace Moment

section Moves

variable {engine : Engine σ} {moment later : Moment σ}

/-- Every move is counted. -/
theorem counts_moves (engine : Engine σ) (moment : Moment σ) :
    (moment.counts engine).moves = 1 := by
  unfold counts
  split <;> rfl

/-- The number of predictions that may still begin: one a token of the budget, and one for the end
    of thinking if it was not forced yet. -/
def predictionsLeft (moment : Moment σ) : Nat :=
  let rounds := moment.worker.options.maxNewTokens - moment.worker.produced
  let later := moment.worker.options.maxNewTokens - (moment.worker.produced + 1)
  let marker := (!moment.worker.injected).toNat
  match moment.worker.stage, moment.point with
  | .done _, _ => 0
  | .sending _, _ => rounds + marker
  | .predicting, .head => rounds + marker
  | .predicting, .forcing _ _ => later + 1 + marker
  | .predicting, _ => later + marker

/-- **A prediction that begins** is one of those that were left. -/
theorem Move.predictions (h : Move engine moment later) :
    (moment.counts engine).predictions + later.predictionsLeft ≤ moment.predictionsLeft := by
  cases h with
  | deliver hstage =>
    simp only [counts, predictionsLeft, hstage, Worker.deliver]
    omega
  | budget hstage hspent =>
    simp [counts, predictionsLeft, hstage, Worker.finish, Nat.not_lt.mpr hspent]
  | heed hstage hroom | enter hstage hroom =>
    simp only [counts, predictionsLeft, hstage, if_pos hroom]
    omega
  | silent hstage | drawn hstage | decoded hstage => simp [counts, predictionsLeft, hstage]
  | undrawn hstage | undecoded hstage | untold hstage | unmarked hstage | unforced hstage =>
    simp [counts, predictionsLeft, hstage, Worker.fail]
  | stopped hstage | full hstage | finished hstage =>
    simp [counts, predictionsLeft, hstage, Worker.finish]
  | ended hstage => simp [counts, predictionsLeft, hstage, Worker.unmasked]
  | told hstage =>
    simp [counts, predictionsLeft, hstage, Worker.produce, Worker.route, Worker.unmasked]
  | marked hstage _ hmarker =>
    -- the end of thinking was not forced before
    simp [counts, predictionsLeft, hstage, Worker.forcedEnd?_injected hmarker]
  | forced hstage =>
    simp only [counts, predictionsLeft, hstage, Worker.deliver, Worker.route]
    omega

/-- **An injection that begins** is noted by the worker, which makes none after it. -/
theorem Move.injections (h : Move engine moment later) :
    (moment.counts engine).injections + moment.worker.injected.toNat
      = later.worker.injected.toNat := by
  cases h with
  | deliver hstage => simp [counts, hstage, Worker.deliver]
  | heed hstage | enter hstage | silent hstage | drawn hstage | decoded hstage =>
    simp [counts, hstage]
  | budget hstage | stopped hstage => simp [counts, hstage, Worker.finish, Worker.unmasked]
  | full hstage hfull => simp [counts, hstage, hfull, Worker.finish]
  | finished hstage hroom hmarker => simp [counts, hstage, hmarker, Worker.finish]
  | undrawn hstage | undecoded hstage | untold hstage | unforced hstage =>
    simp [counts, hstage, Worker.fail, Worker.unmasked]
  | ended hstage => simp [counts, hstage, Worker.unmasked]
  | told hstage => simp [counts, hstage, Worker.produce, Worker.route, Worker.unmasked]
  | unmarked hstage hroom hmarker =>
    simp [counts, hstage, hroom, hmarker, Worker.fail, Worker.forcedEnd?_injected hmarker]
  | marked hstage hroom hmarker =>
    simp [counts, hstage, hroom, hmarker, Worker.forcedEnd?_injected hmarker]
  | forced hstage => simp [counts, hstage, Worker.deliver, Worker.route]

/-- **The position** grows by the tokens that are decoded and by those of the marker. -/
theorem Move.position (h : Move engine moment later) :
    later.session.position = moment.session.position + (moment.counts engine).decoded
      + (moment.counts engine).injected := by
  cases h with
  | deliver hstage | budget hstage | heed hstage | enter hstage | stopped hstage | ended hstage
  | untold hstage | told hstage | full hstage | finished hstage =>
    simp [counts, hstage, Session.stop]
  | undrawn hstage hdraw =>
    simpa [counts, hstage] using (Session.advances_drawNext _ _ _).error hdraw
  | silent hstage hdraw | drawn hstage hdraw =>
    simpa [counts, hstage] using (Session.advances_drawNext _ _ _).ok hdraw
  | undecoded hstage hdecode =>
    simpa [counts, hstage, hdecode] using (Session.advances_decodeNext _ _ _).error hdecode
  | decoded hstage hdecode =>
    simpa [counts, hstage, hdecode] using (Session.advances_decodeNext _ _ _).ok hdecode
  | unmarked hstage _ _ htokens =>
    simpa [counts, hstage] using (Session.advances_onVocab _ _).error htokens
  | marked hstage _ _ htokens =>
    simpa [counts, hstage] using (Session.advances_onVocab _ _).ok htokens
  | unforced hstage hinject =>
    simpa [counts, hstage, hinject] using (Session.advances_inject _ _ _).error hinject
  | forced hstage hinject =>
    simpa [counts, hstage, hinject] using (Session.advances_inject _ _ _).ok hinject

/-- **The timer** counts the tokens that the worker counts. -/
theorem Move.generated (h : Move engine moment later) :
    later.worker.timer.metrics.generatedTokens + moment.worker.produced
      = moment.worker.timer.metrics.generatedTokens + later.worker.produced := by
  cases h with
  | @told worker _ _ piece =>
    have hcounted := worker.unmasked.generated_produce piece.toList
    show (worker.unmasked.produce piece.toList).timer.metrics.generatedTokens + worker.produced
      = worker.unmasked.timer.metrics.generatedTokens + (worker.produced + 1)
    omega
  | _ => rfl

end Moves

end Moment

end Parley
