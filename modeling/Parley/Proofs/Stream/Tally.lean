import Parley.Engine.Tabulated
import Parley.Proofs.Stream.Counts

/-! # The balance of a generation

    What the worker reports at its end is held against what was counted along the generation.  The
    invariants say that the worker keeps within its budget, that it has counted what was decoded
    (`Even`), and that it comes to the end of the sequence by a choice of the model (`Heralded`),
    which lies on the way to that end (`Chosen`).  A request to stop that the worker is still to see
    keeps it from reporting that end (`Forestalled`).  Before the first token is decoded the session
    is as it was, so the end of the sequence is still excluded (`Fresh`).  The main statement is
    `generation_counts`. -/

namespace Parley

open Step Sampling

variable {σ : Type}

namespace Moment

/-! ## Section 1: What is reported at the end -/

section Invariants

variable {engine : Engine σ} {moment later : Moment σ} {tally : Tally}

/-- The worker stays within its budget, and within a round there is room for another token. -/
def HasRoom (moment : Moment σ) : Prop :=
  match moment.worker.stage, moment.point with
  | .predicting, .head => moment.worker.produced ≤ moment.worker.options.maxNewTokens
  | .predicting, _ => moment.worker.produced < moment.worker.options.maxNewTokens
  | _, _ => moment.worker.produced ≤ moment.worker.options.maxNewTokens

theorem Move.hasRoom (h : Move engine moment later) (hroom : moment.HasRoom) : later.HasRoom := by
  unfold HasRoom at hroom ⊢
  cases h with
  | deliver hstage => simpa [hstage, Worker.deliver] using hroom
  | budget hstage => simpa [hstage, Worker.finish] using hroom
  | heed hstage hleft | enter hstage hleft => simpa [hstage] using hleft
  | silent hstage | drawn hstage | decoded hstage => simpa [hstage] using hroom
  | undrawn hstage | undecoded hstage | untold hstage | unmarked hstage | unforced hstage =>
    simp only [hstage] at hroom
    exact hroom.le
  | stopped hstage | full hstage | finished hstage =>
    simp only [hstage] at hroom
    exact hroom.le
  | ended hstage => simpa [hstage, Worker.unmasked] using hroom
  | told hstage =>
    simp only [hstage] at hroom
    exact hroom
  | marked hstage => simpa [hstage] using hroom
  | forced hstage =>
    simp only [hstage] at hroom
    exact hroom.le

/-- Whether the generation has failed. -/
def hasFailed (moment : Moment σ) : Bool :=
  match moment.worker.stage with
  | .done summary => !summary.isOk
  | _ => false

/-- The tokens that were decoded and are not counted by the worker yet. -/
def uncounted (moment : Moment σ) : Nat :=
  match moment.worker.stage, moment.point with
  | .predicting, .predicted token => if token = moment.worker.eos then 0 else 1
  | _, _ => 0

/-- **Invariant**: what was decoded is what the worker has counted, unless the generation has
    failed; and a token that is to be decoded does not end the sequence. -/
structure Even (tally : Tally) (moment : Moment σ) : Prop where
  drawn : ∀ token, moment.worker.stage = .predicting → moment.point = .drawn token →
    token ≠ moment.worker.eos
  decoded : moment.hasFailed = false →
    tally.decoded = moment.worker.produced + moment.uncounted

theorem Move.even (h : Move engine moment later)
    (heos : moment.session.eos engine = moment.worker.eos) (heven : Even tally moment) :
    Even (tally.add (moment.counts engine)) later := by
  obtain ⟨hdrawn, hdecoded⟩ := heven
  unfold hasFailed uncounted at hdecoded
  -- a failure leaves nothing to show
  have hfailed : ∀ {tally : Tally} {later : Moment σ}, later.hasFailed = true →
      Even tally later := by
    intro tally later hlost
    refine ⟨fun _ hstage => ?_, fun h => ?_⟩
    · unfold hasFailed at hlost
      rw [hstage] at hlost
      contradiction
    · rw [hlost] at h
      contradiction
  cases h with
  | undrawn | undecoded | untold | unmarked | unforced => exact hfailed rfl
  | deliver hstage =>
    refine ⟨fun _ _ hpoint => by contradiction, fun _ => ?_⟩
    simpa [Tally.add, counts, uncounted, hstage, Worker.deliver] using hdecoded
  | budget hstage | full hstage | finished hstage =>
    refine ⟨fun _ _ hpoint => by contradiction, fun _ => ?_⟩
    simpa [Tally.add, counts, uncounted, hstage, Worker.finish] using hdecoded
  | heed hstage | silent hstage =>
    -- the end of the sequence is no token to be counted
    refine ⟨fun _ _ hpoint => by contradiction, fun _ => ?_⟩
    simpa [Tally.add, counts, uncounted, hstage, heos] using hdecoded
  | enter hstage | marked hstage =>
    refine ⟨fun _ _ hpoint => by contradiction, fun _ => ?_⟩
    simpa [Tally.add, counts, uncounted, hstage] using hdecoded
  | drawn hstage hdraw =>
    refine ⟨fun other _ hpoint => ?_, fun _ => ?_⟩
    · cases hpoint
      obtain ⟨-, hnone, -⟩ | ⟨-, token, aware, -, ⟨-, hnone, -⟩ | ⟨-, -, hchoice⟩⟩ :=
        Session.drawNext_cases hdraw
      · contradiction
      · contradiction
      · obtain ⟨-, hnone⟩ | ⟨hother, hsome⟩ := hchoice
        · contradiction
        · cases hsome
          rwa [heos] at hother
    · simpa [Tally.add, counts, uncounted, hstage] using hdecoded
  | decoded hstage hdecode =>
    have htoken := hdrawn _ hstage rfl
    refine ⟨fun _ _ hpoint => by contradiction, fun _ => ?_⟩
    simpa [Tally.add, counts, uncounted, hstage, hdecode, htoken] using hdecoded
  | stopped hstage =>
    refine ⟨fun _ _ hpoint => by contradiction, fun _ => ?_⟩
    simpa [Tally.add, counts, uncounted, hstage, Worker.finish, Worker.unmasked] using hdecoded
  | ended hstage =>
    refine ⟨fun _ _ hpoint => by contradiction, fun _ => ?_⟩
    simpa [Tally.add, counts, uncounted, hstage, Worker.unmasked] using hdecoded
  | told hstage htoken =>
    refine ⟨fun _ _ hpoint => by contradiction, fun _ => ?_⟩
    simpa [Tally.add, counts, uncounted, hstage, htoken, Worker.produce, Worker.route,
      Worker.unmasked] using hdecoded
  | forced hstage =>
    refine ⟨fun _ _ hpoint => by contradiction, fun _ => ?_⟩
    simpa [Tally.add, counts, uncounted, hstage, Worker.deliver, Worker.route] using hdecoded

/-- What a summary says of the moment at which it is given. -/
structure Reported (engine : Engine σ) (moment : Moment σ) (summary : Summary) : Prop where
  metrics : summary.metrics = moment.worker.timer.metrics
  stopped : summary.finish = .stopped → moment.isStopped = true
  length : summary.finish = .length →
    moment.worker.options.maxNewTokens ≤ moment.worker.produced
      ∨ moment.session.remaining engine = 0

theorem Move.reported (h : Move engine moment later) {summary : Summary}
    (hdone : later.worker.stage = .done summary) : Reported engine later summary := by
  cases h with
  | deliver => contradiction
  | told | forced => contradiction
  | heed hstage | enter hstage | silent hstage | drawn hstage | decoded hstage | ended hstage
  | marked hstage => exact absurd (hstage.symm.trans hdone) (by simp)
  | undrawn | undecoded | untold | unmarked | unforced =>
    cases hdone
    exact ⟨rfl, by simp [Worker.summarize], by simp [Worker.summarize]⟩
  | budget _ hspent =>
    cases hdone
    exact ⟨rfl, by simp [Worker.summarize], fun _ => .inl hspent⟩
  | stopped _ hstopped =>
    cases hdone
    exact ⟨rfl, fun _ => hstopped, by simp [Worker.summarize]⟩
  | full _ hfull =>
    cases hdone
    exact ⟨rfl, by simp [Worker.summarize], fun _ => .inr hfull⟩
  | finished =>
    cases hdone
    exact ⟨rfl, by simp [Worker.summarize], by simp [Worker.summarize]⟩

/-! ## Section 2: The end of the sequence -/

/-- If the generation is about to find that the model has chosen the end of the sequence, then
    `choice` holds; if it has found so, or has ended for it, then `origin` does. -/
def Heralded (engine : Engine σ) (choice origin : Prop) (moment : Moment σ) : Prop :=
  match moment.worker.stage, moment.point with
  | .predicting, .predicted token => token = moment.worker.eos → moment.isStopped = false →
    moment.session.remaining engine ≠ 0 → choice
  | .predicting, .ended => moment.session.remaining engine ≠ 0 → origin
  | .done summary, _ => summary.finish = .endOfSequence → origin
  | _, _ => True

/-- The model chooses the end of the sequence, while nobody has asked for a stop and the context has
    room. -/
def Chooses (engine : Engine σ) (moment : Moment σ) : Prop :=
  moment.worker.stage = .predicting ∧ moment.point = .drawing ∧ moment.isStopped = false
    ∧ moment.session.remaining engine ≠ 0
    ∧ ∃ aware, Session.drawToken
      (Session.maskOut moment.worker.excluding moment.session.logits) moment.session
        = .ok (.ok moment.worker.eos) aware

/-- **A choice of the model** is the only way to the end of the sequence but for a stop and a full
    context. -/
theorem Move.heralded {choice choice' origin origin' : Prop} (h : Move engine moment later)
    (heos : moment.session.eos engine = moment.worker.eos) (heven : Even tally moment)
    (hchooses : moment.Chooses engine → choice')
    (hfinds : moment.counts engine = { moves := 1 } → moment.isStopped = false → choice → origin')
    (hsame : moment.counts engine = { moves := 1 } → origin → origin')
    (hbefore : Heralded engine choice origin moment) : Heralded engine choice' origin' later := by
  unfold Heralded at hbefore
  cases h with
  | deliver | told | forced => trivial
  | enter hstage | drawn hstage | marked hstage =>
    simp only [Heralded, hstage]
  | budget | stopped | full => exact fun hfinish => by simp [Worker.summarize] at hfinish
  | undrawn | undecoded | untold | unmarked | unforced =>
    exact fun hfinish => by simp [Worker.summarize] at hfinish
  | heed hstage _ hstopped =>
    simp only [Heralded, hstage]
    intro _ hgoing
    exact absurd (hstopped.symm.trans hgoing) (by simp)
  | @silent worker session later hstage hdraw =>
    simp only [Heralded, hstage]
    intro _ hgoing hroom
    obtain ⟨hfull, -, rfl⟩ | ⟨hspace, token, aware, hdrawn, hending⟩ :=
      Session.drawNext_cases hdraw
    · exact absurd hfull hroom
    obtain ⟨-, -, rfl⟩ | ⟨-, rfl, ⟨rfl, -⟩ | ⟨-, hnone⟩⟩ := hending
    · -- a completed stop sequence is a request to stop
      cases hgoing
    · -- the draw itself does not look at the flag, which is still as it was
      have haware := Session.isStopped_drawToken hdrawn
      rw [heos] at hdrawn
      exact hchooses ⟨hstage, rfl, haware.symm.trans hgoing, hspace, aware, hdrawn⟩
    · contradiction
  | decoded hstage =>
    simp only [Heralded, hstage]
    intro htoken
    exact absurd htoken (heven.drawn _ hstage rfl)
  | ended hstage hgoing =>
    simp only [hstage] at hbefore
    show Heralded engine choice' origin' _
    simp only [Heralded, Worker.unmasked, hstage]
    intro hroom
    exact hfinds (by simp [counts, hstage]) hgoing (hbefore trivial hgoing hroom)
  | finished hstage hroom hmarker =>
    simp only [hstage] at hbefore
    intro _
    exact hsame (by simp [counts, hstage, hmarker]) (hbefore hroom)

/-- After a stop nobody finds a choice of the model. -/
theorem Heralded.stop {choice choice' origin origin' : Prop}
    (h : Heralded engine choice origin moment) (himp : origin → origin') :
    Heralded engine choice' origin' moment.stop := by
  obtain ⟨worker, session, point⟩ := moment
  unfold Heralded Moment.stop at *
  cases hstage : worker.stage with
  | sending routed => trivial
  | done summary =>
    simp only [hstage] at h
    exact fun hfinish => himp (h hfinish)
  | predicting =>
    cases point with
    | predicted token => exact fun _ hgoing => by cases hgoing
    | ended =>
      simp only [hstage] at h
      exact fun hroom => himp (h hroom)
    | head | drawing | drawn token | forcing marker tokens => trivial

/-- At the end there is nothing left to find. -/
theorem Heralded.of_isDone {choice choice' origin origin' : Prop}
    (h : Heralded engine choice origin moment) (hdone : moment.isDone = true)
    (himp : origin → origin') : Heralded engine choice' origin' moment := by
  obtain ⟨summary, hstage⟩ := exists_summary hdone
  simp only [Heralded, hstage] at h ⊢
  exact fun hfinish => himp (h hfinish)

/-! ### After a stop -/

/-- Whether the worker looks at the flag once more before it can report the end of the sequence. -/
def looksAgain (moment : Moment σ) : Bool :=
  match moment.worker.stage, moment.point with
  | .done _, _ => false
  | .predicting, .ended => false
  | _, _ => true

/-- **Invariant**: a stop was requested, and the end of the sequence is not reported: neither has it
    been, nor has the worker looked at the flag for the last time. -/
def Forestalled (moment : Moment σ) : Prop :=
  moment.isStopped = true ∧ match moment.worker.stage, moment.point with
    | .done summary, _ => summary.finish ≠ .endOfSequence
    | .predicting, .ended => False
    | _, _ => True

theorem forestalled_of_looksAgain (hstopped : moment.isStopped = true)
    (hlooks : moment.looksAgain = true) : moment.Forestalled := by
  refine ⟨hstopped, ?_⟩
  unfold looksAgain at hlooks
  split at hlooks
  · contradiction
  · contradiction
  · trivial

theorem Move.forestalled (h : Move engine moment later) (hbefore : moment.Forestalled) :
    later.Forestalled := by
  obtain ⟨hstopped, hbefore⟩ := hbefore
  have hstays : later.isStopped = true :=
    h.keeps (Session.enduring_staysStopped engine) hstopped
  refine ⟨hstays, ?_⟩
  cases h with
  | deliver | told | forced => trivial
  | budget | stopped => simp [Worker.finish, Worker.summarize]
  | undrawn | undecoded | untold => simp [Worker.fail, Worker.summarize]
  | unforced => simp [Worker.fail, Worker.summarize]
  | heed hstage | silent hstage | drawn hstage | decoded hstage => simp only [hstage]
  | enter _ _ hgoing | ended _ hgoing =>
    -- the worker looks, and does not go on
    rw [isStopped, hgoing] at hstopped
    contradiction
  | full hstage | finished hstage | unmarked hstage | marked hstage =>
    simp only [hstage] at hbefore

/-- **After a stop** that the worker is still to see, the end of the sequence is never reported. -/
theorem Reaches.forestalled (h : Reaches engine moment later) (hmoment : moment.Forestalled) :
    later.Forestalled := by
  apply h.preserves
  · intro before after hmove hbefore
    exact hmove.forestalled hbefore
  · intro before hbefore
    exact ⟨rfl, hbefore.2⟩
  · exact hmoment

end Invariants

/-! ## Section 3: Along a generation -/

section Runs

variable {engine : Engine σ} {start moment : Moment σ} {tally : Tally}

/-- **Invariant**: the counts and the moments that they lead to are held against each other. -/
structure Squares (start : Moment σ) (tally : Tally) (moment : Moment σ) : Prop where
  moves : moment.isDone = false → tally.moves + moment.movesLeft ≤ start.movesLeft
  predictions : tally.predictions + moment.predictionsLeft ≤ start.predictionsLeft
  injections : tally.injections + start.worker.injected.toNat = moment.worker.injected.toNat
  position : moment.session.position = start.session.position + tally.decoded + tally.injected
  generated : moment.worker.timer.metrics.generatedTokens + start.worker.produced
    = start.worker.timer.metrics.generatedTokens + moment.worker.produced

theorem Move.squares {later : Moment σ} (h : Move engine moment later)
    (hgoing : moment.isDone = false) (hsquares : Squares start tally moment) :
    Squares start (tally.add (moment.counts engine)) later := by
  have hcounted := counts_moves engine moment
  have hmoves := h.movesLeft_lt
  have hbefore := hsquares.moves hgoing
  have hpredictions := h.predictions
  have hinjections := h.injections
  have hposition := h.position
  have hgenerated := h.generated
  obtain ⟨-, hleft, hforced, hplace, htimed⟩ := hsquares
  refine ⟨fun _ => ?_, ?_, ?_, ?_, ?_⟩
  · show tally.moves + (moment.counts engine).moves + later.movesLeft ≤ start.movesLeft
    omega
  · show tally.predictions + (moment.counts engine).predictions + later.predictionsLeft
      ≤ start.predictionsLeft
    omega
  · show tally.injections + (moment.counts engine).injections + start.worker.injected.toNat
      = later.worker.injected.toNat
    omega
  · show later.session.position = start.session.position
      + (tally.decoded + (moment.counts engine).decoded)
      + (tally.injected + (moment.counts engine).injected)
    omega
  · omega

theorem Tallied.squares (h : Tallied engine start tally moment) : Squares start tally moment := by
  apply h.preserves
  · intro tally before _ hgoing hmove hsquares
    exact hmove.squares hgoing hsquares
  · intro tally before hsquares
    exact ⟨hsquares.moves, hsquares.predictions, hsquares.injections, hsquares.position,
      hsquares.generated⟩
  · intro tally before hdone hsquares
    rw [counts_of_isDone engine hdone]
    refine ⟨fun hgoing => ?_, hsquares.predictions, hsquares.injections, hsquares.position,
      hsquares.generated⟩
    exact absurd (hdone.symm.trans hgoing) (by simp)
  · exact ⟨fun _ => by simp, by simp, by simp, by simp, rfl⟩

/-- The model has just chosen the end of the sequence. -/
def JustChosen (engine : Engine σ) (start : Moment σ) (tally : Tally) (moment : Moment σ) : Prop :=
  ∃ earlier choosing, Tallied engine start earlier choosing ∧ choosing.Chooses engine
    ∧ moment = choosing.go engine ∧ tally = earlier.add { moves := 1 }

/-- **The origin of the end**: on the way from `start` to `moment`, on which `tally` was counted,
    the model chose the end of the sequence.  When it had done so, nobody had asked for a stop, and
    the worker found so in its next move.  Since then no prediction was begun and no token
    decoded. -/
def Chosen (engine : Engine σ) (start : Moment σ) (tally : Tally) (moment : Moment σ) : Prop :=
  ∃ earlier choosing since, Tallied engine start earlier choosing ∧ choosing.Chooses engine
    ∧ (choosing.go engine).isStopped = false
    ∧ Tallied engine ((choosing.go engine).go engine) since moment
    ∧ tally = (earlier.add { moves := 2 }).add since
    ∧ since.predictions = 0 ∧ since.decoded = 0

theorem Tallied.justChosen (h : Tallied engine start tally moment)
    (hchooses : moment.Chooses engine) :
    JustChosen engine start (tally.add (moment.counts engine)) (moment.go engine) := by
  have hnothing : moment.counts engine = { moves := 1 } := by
    obtain ⟨hstage, hpoint, -⟩ := hchooses
    unfold counts
    rw [hstage, hpoint]
  rw [hnothing]
  exact ⟨tally, moment, h, hchooses, rfl, rfl⟩

theorem JustChosen.chosen (h : JustChosen engine start tally moment)
    (hgoing : moment.isStopped = false) :
    Chosen engine start (tally.add { moves := 1 }) (moment.go engine) := by
  obtain ⟨earlier, choosing, hearlier, hchooses, rfl, rfl⟩ := h
  exact ⟨earlier, choosing, {}, hearlier, hchooses, hgoing, .refl, Tally.add_assoc _ _ _, rfl, rfl⟩

theorem Chosen.go (h : Chosen engine start tally moment)
    (hnothing : moment.counts engine = { moves := 1 }) :
    Chosen engine start (tally.add (moment.counts engine)) (moment.go engine) := by
  obtain ⟨earlier, choosing, since, hearlier, hchooses, hgoing, hsince, rfl, hnone, hempty⟩ := h
  refine ⟨earlier, choosing, _, hearlier, hchooses, hgoing, hsince.go, Tally.add_assoc _ _ _, ?_,
    ?_⟩
  · rw [hnothing]
    exact hnone
  · rw [hnothing]
    exact hempty

theorem Chosen.stop (h : Chosen engine start tally moment) :
    Chosen engine start tally moment.stop := by
  obtain ⟨earlier, choosing, since, hearlier, hchooses, hgoing, hsince, hcounts⟩ := h
  exact ⟨earlier, choosing, since, hearlier, hchooses, hgoing, hsince.stop, hcounts⟩

/-- **Invariant**: the worker keeps within its budget and counts what was decoded, and comes to the
    end of the sequence by a choice of the model. -/
structure Orderly (engine : Engine σ) (start : Moment σ) (tally : Tally) (moment : Moment σ) :
    Prop where
  hasRoom : moment.HasRoom
  even : Even tally moment
  heralded : Heralded engine (JustChosen engine start tally moment)
    (Chosen engine start tally moment) moment

theorem Orderly.stop (h : Orderly engine start tally moment) :
    Orderly engine start tally moment.stop :=
  ⟨h.hasRoom, ⟨h.even.drawn, h.even.decoded⟩, h.heralded.stop Chosen.stop⟩

/-- At the end a move leaves everything as it is. -/
theorem Orderly.waits (h : Orderly engine start tally moment) (hdone : moment.isDone = true) :
    Orderly engine start (tally.add (moment.counts engine)) moment := by
  have hnothing := counts_of_isDone engine hdone
  refine ⟨h.hasRoom, ?_, h.heralded.of_isDone hdone fun hchosen => ?_⟩
  · rw [hnothing]
    exact ⟨h.even.drawn, h.even.decoded⟩
  · have hlater := hchosen.go hnothing
    rwa [go_of_isDone engine hdone] at hlater

/-- The token that ends the sequence is the one that the worker has known from the start. -/
theorem Tallied.eos_eq (h : Tallied engine start tally moment) (keeps : engine.KeepsEos)
    (hstart : start.session.eos engine = start.worker.eos) :
    moment.session.eos engine = moment.worker.eos := by
  rw [h.reaches.keeps (enduring_eos keeps), h.reaches.eos_eq, hstart]

theorem Tallied.orderly (h : Tallied engine start tally moment) (keeps : engine.KeepsEos)
    (heos : start.session.eos engine = start.worker.eos)
    (hstart : Orderly engine start {} start) : Orderly engine start tally moment := by
  apply h.preserves
  · intro tally before htally hgoing hmove horderly
    have hsame := htally.eos_eq keeps heos
    refine ⟨hmove.hasRoom horderly.hasRoom, hmove.even hsame horderly.even, ?_⟩
    refine hmove.heralded hsame horderly.even htally.justChosen ?_ ?_ horderly.heralded
    · intro hnothing hgoing hjust
      rw [hnothing]
      exact hjust.chosen hgoing
    · intro hnothing hchosen
      exact hchosen.go hnothing
  · intro tally before horderly
    exact horderly.stop
  · intro tally before hdone horderly
    exact horderly.waits hdone
  · exact hstart

/-! ### The first token -/

/-- **Invariant**: until a token is decoded, the session is as it was at the start but for a stop,
    and the end of the sequence is excluded. -/
def Fresh (start : Moment σ) (tally : Tally) (moment : Moment σ) : Prop :=
  match moment.worker.stage, moment.point with
  | .predicting, .head | .predicting, .drawing => tally.decoded = 0 →
    moment.worker.excluding = start.worker.excluding
      ∧ (moment.session = start.session ∨ moment.session = start.session.stop)
  | .sending _, _ | .predicting, .forcing _ _ => 0 < tally.decoded
  | _, _ => True

theorem Move.fresh {later : Moment σ} (h : Move engine moment later) (heven : Even tally moment)
    (hheralded : Heralded engine (0 < tally.decoded) (0 < tally.decoded) moment)
    (hfresh : Fresh start tally moment) :
    Fresh start (tally.add (moment.counts engine)) later := by
  unfold Fresh at hfresh
  have hmore : tally.decoded ≤ (tally.add (moment.counts engine)).decoded := Nat.le_add_right _ _
  cases h with
  | budget | undrawn | undecoded | stopped | untold | full | finished | unmarked | unforced =>
    trivial
  | heed hstage | silent hstage | drawn hstage | decoded hstage | ended hstage =>
    simp only [Fresh, Worker.unmasked, hstage]
  | deliver hstage =>
    simp only [hstage] at hfresh
    intro hnone
    omega
  | enter hstage =>
    simp only [hstage] at hfresh
    simp only [Fresh, hstage]
    intro hnone
    exact hfresh (by omega)
  | told hstage htoken =>
    -- the token that is counted was decoded
    have hdecoded := heven.decoded (by simp [hasFailed, hstage])
    simp only [uncounted, hstage, if_neg htoken] at hdecoded
    show 0 < _
    omega
  | marked hstage hroom =>
    simp only [Heralded, hstage] at hheralded
    simp only [Fresh, hstage]
    exact Nat.lt_of_lt_of_le (hheralded hroom) hmore
  | forced hstage =>
    simp only [hstage] at hfresh
    intro hnone
    omega

theorem Fresh.stop (h : Fresh start tally moment) : Fresh start tally moment.stop := by
  obtain ⟨worker, session, point⟩ := moment
  unfold Fresh Moment.stop at *
  have hagain : session = start.session ∨ session = start.session.stop →
      session.stop = start.session ∨ session.stop = start.session.stop := by
    rintro (rfl | rfl)
    · exact .inr rfl
    · exact .inr rfl
  cases hstage : worker.stage with
  | done summary => trivial
  | sending routed => simpa only [hstage] using h
  | predicting =>
    simp only [hstage] at h
    cases point with
    | head => exact fun hnone => ⟨(h hnone).1, hagain (h hnone).2⟩
    | drawing => exact fun hnone => ⟨(h hnone).1, hagain (h hnone).2⟩
    | forcing marker tokens => exact h
    | drawn token | predicted token | ended => trivial

theorem Tallied.fresh (h : Tallied engine start tally moment) (keeps : engine.KeepsEos)
    (heos : start.session.eos engine = start.worker.eos)
    (hexcluding : start.worker.excluding = TokenSet.ofList [start.worker.eos])
    (hmask : start.session.HeedsMask start.worker.excluding)
    (hstart : Orderly engine start {} start) (hfirst : start.isBetween = true) :
    Fresh start tally moment
      ∧ Heralded engine (0 < tally.decoded) (0 < tally.decoded) moment := by
  obtain ⟨hstage, hpoint⟩ := isBetween_iff.mp hfirst
  apply h.preserves
  · rintro tally before htally hgoing hmove ⟨hfresh, hheralded⟩
    have heven := (htally.orderly keeps heos hstart).even
    refine ⟨hmove.fresh heven hheralded hfresh, ?_⟩
    have hmore : tally.decoded ≤ (tally.add (before.counts engine)).decoded :=
      Nat.le_add_right _ _
    refine hmove.heralded (htally.eos_eq keeps heos) heven ?_ ?_ ?_ hheralded
    · -- the first token is drawn with the end of the sequence excluded
      rintro ⟨hdrawing, hat, -, -, aware, hdraw⟩
      by_contra hnone
      have hempty : tally.decoded = 0 := by omega
      simp only [Fresh, hdrawing, hat] at hfresh
      obtain ⟨hsame, hsession⟩ := hfresh hempty
      have hmem : before.worker.eos ∈ start.worker.excluding := by
        rw [htally.reaches.eos_eq, hexcluding, TokenSet.mem_ofList]
        exact List.mem_singleton_self _
      have hincreasing : start.worker.excluding.Increasing := by
        rw [hexcluding]
        exact TokenSet.ofList_increasing _
      rw [hsame] at hdraw
      obtain hsession | hsession := hsession
      · rw [hsession] at hdraw
        exact hmask.not_mem hincreasing hdraw hmem
      · rw [hsession] at hdraw
        have hstopped : start.session.stop.HeedsMask start.worker.excluding :=
          ⟨hmask.unmasked, hmask.numbered⟩
        exact hstopped.not_mem hincreasing hdraw hmem
    · exact fun _ _ hsome => hsome.trans_le hmore
    · exact fun _ hsome => hsome.trans_le hmore
  · rintro tally before ⟨hfresh, hheralded⟩
    exact ⟨hfresh.stop, hheralded.stop id⟩
  · rintro tally before hdone ⟨hfresh, hheralded⟩
    rw [counts_of_isDone engine hdone]
    exact ⟨hfresh, hheralded.of_isDone hdone id⟩
  · constructor
    · simp only [Fresh, hstage, hpoint]
      exact fun _ => ⟨trivial, .inl trivial⟩
    · simp only [Heralded, hstage, hpoint]

end Runs

/-! ## Section 4: Whole generations -/

/-- **What a generation reports** that has not failed, against what was counted: the tokens of the
    two channels are those that predictions decoded, the position has moved on by these and by the
    injected ones, and the reason to end is given for what it is. -/
structure Balances (engine : Engine σ) (start : Moment σ) (tally : Tally) (moment : Moment σ)
    (summary : Summary) : Prop where
  generated : summary.metrics.generatedTokens
    = start.worker.timer.metrics.generatedTokens + tally.decoded
  within : tally.decoded ≤ start.worker.options.maxNewTokens
  position : moment.session.position = start.session.position + tally.decoded + tally.injected
  stopped : summary.finish = .stopped → moment.isStopped = true
  length : summary.finish = .length → tally.decoded = start.worker.options.maxNewTokens
    ∨ moment.session.remaining engine = 0
  ended : summary.finish = .endOfSequence → Chosen engine start tally moment
    ∧ (start.session.HeedsMask start.worker.excluding → 0 < tally.decoded)

theorem first_orderly (engine : Engine σ) (session : Session σ) (options : StreamOptions)
    (timer : Timer) :
    Orderly engine (first engine session options timer) {} (first engine session options timer) :=
  ⟨Nat.zero_le _, ⟨fun _ _ hpoint => (by cases hpoint), fun _ => rfl⟩, trivial⟩

theorem Tallied.options_eq {engine : Engine σ} {start moment : Moment σ} {tally : Tally}
    (h : Tallied engine start tally moment) : moment.worker.options = start.worker.options := by
  apply h.reaches.preserves
  · intro before after hmove hbefore
    rw [← hbefore]
    cases hmove <;> rfl
  · intro before hbefore
    exact hbefore
  · rfl

theorem Tallied.reported {engine : Engine σ} {start moment : Moment σ} {tally : Tally}
    (h : Tallied engine start tally moment) (hstart : start.isDone = false) {summary : Summary}
    (hdone : moment.worker.stage = .done summary) : Reported engine moment summary := by
  have hreported : ∀ summary, moment.worker.stage = .done summary →
      Reported engine moment summary := by
    apply h.reaches.preserves
    · intro before after hmove _ summary hend
      exact hmove.reported hend
    · intro before hbefore summary hend
      obtain ⟨hmetrics, -, hlength⟩ := hbefore summary hend
      exact ⟨hmetrics, fun _ => rfl, hlength⟩
    · intro summary hend
      simp [isDone, hend] at hstart
  exact hreported summary hdone

/-- **The counts of a generation.**  However it goes on, with stops at any time, it comes to an end
    within a bounded number of moves, begins one prediction more than its budget at most, and forces
    the end of thinking once at most.  If a stop was requested and the worker is still to look at
    the flag, however it goes on from there, it never reports that the model has ended the sequence.
    As long as the engine has one end of the sequence, a generation that has not failed reports what
    was counted. -/
theorem generation_counts (engine : Engine σ) (session : Session σ) (options : StreamOptions)
    (timer : Timer) :
    let start := first engine session options timer
    (∀ stopAfter, ∃ tally last, Tallied engine start tally last ∧ last.isDone = true
      ∧ (Worker.start engine session options timer).run engine stopAfter session
        = (last.worker, last.session))
    ∧ ∀ tally moment, Tallied engine start tally moment →
      tally.predictions ≤ options.maxNewTokens + 1 ∧ tally.injections ≤ 1
      ∧ (moment.isDone = false → tally.moves ≤ 7 * (options.maxNewTokens + 1) + 1)
      ∧ (moment.isStopped = true → moment.looksAgain = true →
        ∀ later summary, Reaches engine moment later → later.worker.stage = .done summary →
          summary.finish ≠ .endOfSequence)
      ∧ (engine.KeepsEos → ∀ summary, moment.worker.stage = .done summary →
        summary.isOk = true → Balances engine start tally moment summary) := by
  intro start
  refine ⟨fun stopAfter => ?_, fun tally moment htally => ?_⟩
  · obtain ⟨summary, hsummary⟩ := Worker.run_done engine stopAfter start.worker session
    obtain ⟨tally, htally⟩ :=
      (reaches_run engine stopAfter start.worker session).exists_tallied
    exact ⟨tally, _, htally, by simp only [isDone, hsummary], rfl⟩
  have hsquares := htally.squares
  have hpredictions : tally.predictions + moment.predictionsLeft ≤ options.maxNewTokens + 1 :=
    hsquares.predictions
  have hinjections : tally.injections + 0 = moment.worker.injected.toNat := hsquares.injections
  refine ⟨by omega, ?_, fun hgoing => ?_, ?_, ?_⟩
  · have hbit := moment.worker.injected.toNat_le
    omega
  · have hmoves : tally.moves + moment.movesLeft ≤ 7 * (options.maxNewTokens + 1) + 1 :=
      hsquares.moves hgoing
    omega
  · intro hstopped hlooks later summary hreaches hdone
    obtain ⟨-, hunended⟩ := hreaches.forestalled (forestalled_of_looksAgain hstopped hlooks)
    simpa only [hdone] using hunended
  intro keeps summary hdone hok
  have horderly := htally.orderly keeps rfl (first_orderly engine session options timer)
  have hreported := htally.reported rfl hdone
  -- at the end nothing is left to be counted
  have hdecoded : tally.decoded = moment.worker.produced := by
    have heven := horderly.even.decoded (by simp [hasFailed, hdone, hok])
    simpa [uncounted, hdone] using heven
  have hroom : moment.worker.produced ≤ options.maxNewTokens := by
    have hroom := horderly.hasRoom
    simp only [HasRoom, hdone] at hroom
    rwa [htally.options_eq] at hroom
  have hgenerated : moment.worker.timer.metrics.generatedTokens + 0
      = timer.metrics.generatedTokens + moment.worker.produced := hsquares.generated
  have hheralded := horderly.heralded
  simp only [Heralded, hdone] at hheralded
  refine ⟨?_, ?_, hsquares.position, hreported.stopped, fun hlength => ?_, fun hend => ?_⟩
  · rw [hreported.metrics, hdecoded]
    exact hgenerated
  · rw [hdecoded]
    exact hroom
  · obtain hspent | hfull := hreported.length hlength
    · rw [htally.options_eq] at hspent
      exact .inl (hdecoded.trans (Nat.le_antisymm hroom hspent))
    · exact .inr hfull
  · refine ⟨hheralded hend, fun hmask => ?_⟩
    have hfresh := (htally.fresh keeps rfl rfl hmask (first_orderly engine session options timer)
      rfl).2
    simp only [Heralded, hdone] at hfresh
    exact hfresh hend

/-- An engine that writes a letter and then ends its sequence. -/
def brief : Tabulated where
  pieces := [['^'], ['$'], ['h'], ['a']]
  rows := [[(3, 5)], [(1, 5)]]

/-- A session over it, primed with one letter. -/
def briefSession : Session Tabulated :=
  after (Session.prepareContext Tabulated.engine "h") (Session.new brief .greedy)

/-- The sampler draws the letter, whose score is not masked. -/
theorem briefSession_heedsMask :
    briefSession.HeedsMask (TokenSet.ofList [briefSession.eos Tabulated.engine]) := by
  have hdrawn : (briefSession.sampler.sample
      (Session.maskOut (TokenSet.ofList [briefSession.eos Tabulated.engine]) briefSession.logits)
      briefSession.penalized).1 = .ok 3 := by decide +kernel
  refine ⟨fun index hindex hmasked => ?_, by decide +kernel⟩
  obtain rfl : 3 = index := Except.ok.inj (hdrawn.symm.trans hindex)
  have hscore : (Session.maskOut (TokenSet.ofList [briefSession.eos Tabulated.engine])
      briefSession.logits)[3]? = some 5 := by decide +kernel
  exact absurd (hmasked 5 hscore) (by decide +kernel)

/-- It writes one letter, and the model ends the sequence; with a stop just before the model does
    so, that would not be reported. -/
theorem generation_counts_brief :
    let start := first Tabulated.engine briefSession {} {}
    Tabulated.engine.KeepsEos ∧ ∃ tally last summary,
      Tallied Tabulated.engine start tally last ∧ last.worker.stage = .done summary
        ∧ summary.isOk = true ∧ summary.finish = .endOfSequence
        ∧ start.session.HeedsMask start.worker.excluding
        ∧ Balances Tabulated.engine start tally last summary ∧ 0 < tally.decoded
        ∧ ∃ earlier choosing, Tallied Tabulated.engine start earlier choosing
          ∧ choosing.Chooses Tabulated.engine ∧ Reaches Tabulated.engine choosing last
          ∧ choosing.stop.isStopped = true ∧ choosing.stop.looksAgain = true
          ∧ ∀ later summary, Reaches Tabulated.engine choosing.stop later →
            later.worker.stage = .done summary → summary.finish ≠ .endOfSequence := by
  intro start
  obtain ⟨hruns, hcounts⟩ := generation_counts Tabulated.engine briefSession {} {}
  obtain ⟨tally, last, htally, hdone, hrun⟩ := hruns fun _ => false
  obtain ⟨summary, hsummary⟩ := exists_summary hdone
  have hend : (match ((Worker.start Tabulated.engine briefSession {} {}).run Tabulated.engine
      (fun _ => false) briefSession).1.stage with
    | .done summary => decide (summary.finish = .endOfSequence)
    | _ => false) = true := by decide +kernel
  rw [hrun] at hend
  simp only [hsummary, decide_eq_true_eq] at hend
  have hok : summary.isOk = true := by simp [Summary.isOk, Summary.error?, hend]
  obtain ⟨-, -, -, -, hreports⟩ := hcounts tally last htally
  have hbalances := hreports Tabulated.keepsEos summary hsummary hok
  obtain ⟨hchosen, hsome⟩ := hbalances.ended hend
  obtain ⟨earlier, choosing, since, hearlier, hchooses, -, hsince, -⟩ := hchosen
  have hlooks : choosing.stop.looksAgain = true := by
    obtain ⟨hstage, hpoint, -⟩ := hchooses
    simp only [looksAgain, Moment.stop, hstage, hpoint]
  -- the same generation with a stop between the look at the flag and the draw
  obtain ⟨-, -, -, hstopped, -⟩ := hcounts earlier choosing.stop hearlier.stop
  exact ⟨Tabulated.keepsEos, tally, last, summary, htally, hsummary, hok, hend,
    briefSession_heedsMask, hbalances, hsome briefSession_heedsMask, earlier, choosing, hearlier,
    hchooses, (Reaches.refl.go.go).trans hsince.reaches, rfl, hlooks, hstopped rfl hlooks⟩

end Moment

end Parley
