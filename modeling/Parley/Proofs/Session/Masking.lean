import Parley.Proofs.Sampling.Sampler
import Parley.Proofs.Session.Journal
import Parley.Proofs.Token.Set

/-! # Masks hold

    A session draws from a masked copy of the scores: under constraints all but the allowed tokens
    are masked, in free generation the excluded ones are.  As long as the best score that is not
    masked settles, no masked token is drawn, and none is decoded: `Session.masks_hold`.  A penalty
    or a temperature that takes the best score out of the finite numbers makes all tokens equal,
    masked or not: `Session.masks_break`.
-/

namespace Parley

open Step Number Sampling

variable {σ : Type}

/-! ## Section 1: Parameters -/

theorem SamplingParams.sound_ofParams {params : SamplingParams} (hvalid : params.validate = .ok ())
    (generator : Generator) : ({ Sampler.ofParams params with generator } : Sampler).Sound := by
  have hranges : ∀ {x : Float32}, (0 < x && x.isFinite) = true → 0 < rank x ∧ rank x < topRank := by
    intro x hx
    rw [Bool.and_eq_true, decide_eq_true_iff] at hx
    have hnumber := number_of_isFinite hx.2
    exact ⟨pos_iff.mp hx.1, ((isFinite_iff hnumber).mp hx.2).2⟩
  unfold SamplingParams.validate at hvalid
  split_ifs at hvalid with htemperature htopP hpenalty
  obtain ⟨hpositive, hfinite⟩ := hranges (by simpa using htemperature)
  refine ⟨hpositive, hfinite, fun penalty hsome => ?_⟩
  -- a penalty that is switched on is the one that was checked
  have hsame : penalty = params.repeatPenalty := by
    unfold Sampler.ofParams at hsome
    dsimp only at hsome
    split at hsome
    · exact (Option.some.inj hsome).symm
    · contradiction
  rw [hsame]
  exact hranges (by simpa using hpenalty)

/-! ## Section 2: Masks -/

namespace Session

theorem maskOut_getElem? (excluding : TokenSet) (scores : List Float32) (index : ℕ) :
    (maskOut excluding scores)[index]? = scores[index]?.map fun score =>
      if excluding.containsIndex index then negInfinity else score := by
  unfold maskOut
  rw [List.getElem?_mapIdx]

theorem maskAllBut_getElem? (allowed : TokenSet) (scores : List Float32) (index : ℕ) :
    (maskAllBut allowed scores)[index]? = scores[index]?.map fun score =>
      if allowed.containsIndex index then score else negInfinity := by
  unfold maskAllBut
  rw [List.getElem?_mapIdx]

/-- What is drawn from masked scores has a number below `2 ^ 31` and is allowed. -/
theorem allowed_of_not_masked {allowed : TokenSet} {scores : List Float32} {index : ℕ}
    (h : ¬ Masked (maskAllBut allowed scores) index) :
    allowed.containsIndex index = true ∧ ∃ score, scores[index]? = some score
      ∧ rank score ≠ -topRank := by
  obtain ⟨score, hscore, hrank⟩ := exists_of_not_masked h
  rw [maskAllBut_getElem?, Option.map_eq_some_iff] at hscore
  obtain ⟨pristine, hpristine, rfl⟩ := hscore
  by_cases hallowed : allowed.containsIndex index = true
  · rw [if_pos hallowed] at hrank
    exact ⟨hallowed, pristine, hpristine, hrank⟩
  · rw [if_neg hallowed] at hrank
    exact absurd rank_negInfinity hrank

theorem not_excluded_of_not_masked {excluding : TokenSet} {scores : List Float32} {index : ℕ}
    (h : ¬ Masked (maskOut excluding scores) index) :
    excluding.containsIndex index = false ∧ index < scores.length := by
  obtain ⟨score, hscore, hrank⟩ := exists_of_not_masked h
  rw [maskOut_getElem?, Option.map_eq_some_iff] at hscore
  obtain ⟨pristine, hpristine, rfl⟩ := hscore
  refine ⟨?_, (List.getElem?_eq_some_iff.mp hpristine).1⟩
  by_contra hexcluded
  rw [if_pos (eq_true_of_ne_false hexcluded)] at hrank
  exact hrank rank_negInfinity

/-! ## Section 3: Drawing under a mask -/

/-- The session is not stopped, has scores behind its context that are numbers below infinity, and
    samples with parameters within their ranges, whatever random numbers come next. -/
structure Draws (session : Session σ) : Prop where
  notStopped : session.isStopped = false
  primed : session.logits ≠ []
  valid : session.params.validate = .ok ()
  sampler : ∃ generator, session.sampler = { Sampler.ofParams session.params with generator }
  numbers : ∀ logit ∈ session.logits, logit.isNaN = false ∧ rank logit < topRank

section Drawing

variable {session : Session σ} (hdraws : session.Draws)

include hdraws

theorem Draws.sound : session.sampler.Sound := by
  obtain ⟨generator, hsampler⟩ := hdraws.sampler
  rw [hsampler]
  exact SamplingParams.sound_ofParams hdraws.valid generator

theorem Draws.isFinite_iff {logit : Float32} (hmem : logit ∈ session.logits) :
    logit.isFinite = true ↔ rank logit ≠ -topRank := by
  obtain ⟨hnumber, hbelow⟩ := hdraws.numbers logit hmem
  have hlow := (rank_bounds logit).1
  rw [Number.isFinite_iff hnumber]
  constructor
  · intro h
    omega
  · intro h
    exact ⟨by omega, hbelow⟩

theorem Draws.numbers_maskAllBut (allowed : TokenSet) :
    Numbers (maskAllBut allowed session.logits) := by
  intro score hmem
  obtain ⟨index, hindex⟩ := List.getElem?_of_mem hmem
  rw [maskAllBut_getElem?, Option.map_eq_some_iff] at hindex
  obtain ⟨logit, hlogit, rfl⟩ := hindex
  split
  · exact (hdraws.numbers logit (List.mem_of_getElem? hlogit)).1
  · exact isNaN_negInfinity

theorem Draws.numbers_maskOut (excluding : TokenSet) :
    Numbers (maskOut excluding session.logits) := by
  intro score hmem
  obtain ⟨index, hindex⟩ := List.getElem?_of_mem hmem
  rw [maskOut_getElem?, Option.map_eq_some_iff] at hindex
  obtain ⟨logit, hlogit, rfl⟩ := hindex
  split
  · exact isNaN_negInfinity
  · exact (hdraws.numbers logit (List.mem_of_getElem? hlogit)).1

end Drawing

/-- The token is allowed and has a finite score. -/
def Reachable (session : Session σ) (allowed : TokenSet) (token : TokenId) : Prop :=
  token ∈ allowed ∧ 0 ≤ token
    ∧ ∃ logit, session.logits[token.toInt.toNat]? = some logit ∧ logit.isFinite = true

theorem drawToken_eq (scores : List Float32) (session : Session σ) :
    drawToken scores session
      = .ok ((session.sampler.sample scores session.penalized).1.map Int32.ofNat)
        { session with sampler := (session.sampler.sample scores session.penalized).2 } := rfl

theorem toInt_ofNat {index : ℕ} (h : index < 0x80000000) :
    (Int32.ofNat index).toInt = index ∧ 0 ≤ Int32.ofNat index := by
  have hint : (Int32.ofNat index).toInt = index := Int32.toInt_ofNat_of_lt h
  refine ⟨hint, ?_⟩
  rw [Int32.le_iff_toInt_le, hint]
  exact Int.natCast_nonneg index

theorem ofNat_toInt {token : TokenId} (h : 0 ≤ token) :
    token.toInt.toNat < 0x80000000 ∧ Int32.ofNat token.toInt.toNat = token := by
  have hnonneg : 0 ≤ token.toInt := Int32.le_iff_toInt_le.mp h
  have hlt := Int32.toInt_lt token
  have hbound : token.toInt.toNat < 0x80000000 := by omega
  refine ⟨hbound, Int32.toInt_inj.mp ?_⟩
  rw [(toInt_ofNat hbound).1]
  omega

theorem pristine_of_primed {session : Session σ} (h : session.logits ≠ []) :
    pristine session = .ok session.logits session := by
  have hprimed : ¬ session.logits.isEmpty = true := by
    rw [List.isEmpty_iff]
    exact h
  unfold pristine
  rw [get_bind, if_neg hprimed]
  rfl

theorem Draws.sampleConstrained_eq {session : Session σ} (hdraws : session.Draws)
    {allowed : TokenSet} (hsome : ¬ allowed.isEmpty = true) :
    sampleConstrained allowed session
      = (match (session.sampler.sample (maskAllBut allowed session.logits)
            session.penalized).1.map Int32.ofNat with
          | .ok token => pure (some token)
          | .error .noValidTokens => pure none
          | .error error => throw (.sampling error) : SessionM σ (Option TokenId))
        { session with sampler := (session.sampler.sample (maskAllBut allowed session.logits)
            session.penalized).2 } := by
  have hstopped : ¬ session.isStopped = true := by
    rw [hdraws.notStopped]
    decide
  unfold sampleConstrained
  rw [get_bind, if_neg hstopped, if_neg hsome]
  dsimp only
  rw [bind_ok (pristine_of_primed hdraws.primed), bind_ok (drawToken_eq _ session)]
  rfl

/-- **Drawing under constraints.**  What is drawn is allowed and has a finite score, and nothing is
    drawn only if there is no such token. -/
theorem Draws.sampleConstrained_spec {session : Session σ} (hdraws : session.Draws)
    {allowed : TokenSet} (hallowed : allowed.Increasing)
    (hsettles : session.sampler.Settles (maskAllBut allowed session.logits) session.penalized) :
    ∃ result later, sampleConstrained allowed session = .ok result later
      ∧ later.logits = session.logits
      ∧ (result = none ↔ ∀ token, ¬ session.Reachable allowed token)
      ∧ ∀ token, result = some token → session.Reachable allowed token := by
  by_cases hempty : allowed.isEmpty = true
  · have hstopped : ¬ session.isStopped = true := by
      rw [hdraws.notStopped]
      decide
    refine ⟨none, session, ?_, rfl, iff_of_true rfl ?_, nofun⟩
    · unfold sampleConstrained
      rw [get_bind, if_neg hstopped, if_pos hempty]
      rfl
    · rintro token ⟨hmem, -⟩
      have hnone : allowed.toList = [] := by
        simpa [TokenSet.isEmpty, TokenSet.toList] using hempty
      rw [← TokenSet.mem_toList, hnone] at hmem
      contradiction
  rw [hdraws.sampleConstrained_eq hempty]
  have hnonempty : maskAllBut allowed session.logits ≠ [] := by
    unfold maskAllBut
    rw [Ne, List.mapIdx_eq_nil_iff]
    exact hdraws.primed
  rcases Sampler.sample_spec hdraws.sound hsettles (hdraws.numbers_maskAllBut allowed) hnonempty with
    ⟨hnone, hdrawn⟩ | ⟨-, index, hdrawn, hunmasked⟩
  · rw [hdrawn]
    refine ⟨none, _, rfl, rfl, iff_of_true rfl ?_, nofun⟩
    rintro token ⟨hmem, hnonneg, logit, hlogit, hfinite⟩
    -- the finite score of an allowed token is not masked
    obtain ⟨hbound, htoken⟩ := ofNat_toInt hnonneg
    have hcontains : allowed.containsIndex token.toInt.toNat = true := by
      unfold TokenSet.containsIndex
      rw [htoken, hallowed.contains_iff.mpr hmem, Bool.and_true]
      exact decide_eq_true hbound
    have hkept : (maskAllBut allowed session.logits)[token.toInt.toNat]? = some logit := by
      rw [maskAllBut_getElem?, hlogit]
      exact congrArg some (if_pos hcontains)
    have hany := List.any_eq_true.mpr ⟨logit, List.mem_of_getElem? hkept, hfinite⟩
    rw [hnone] at hany
    contradiction
  · rw [hdrawn]
    obtain ⟨hcontains, logit, hlogit, hrank⟩ := allowed_of_not_masked hunmasked
    unfold TokenSet.containsIndex at hcontains
    rw [Bool.and_eq_true, decide_eq_true_iff] at hcontains
    obtain ⟨hint, hnonneg⟩ := toInt_ofNat hcontains.1
    have hreachable : session.Reachable allowed (Int32.ofNat index) := by
      refine ⟨TokenSet.mem_of_contains hcontains.2, hnonneg, logit, ?_, ?_⟩
      · rw [hint]
        exact hlogit
      · exact (hdraws.isFinite_iff (List.mem_of_getElem? hlogit)).mpr hrank
    refine ⟨some (Int32.ofNat index), _, rfl, rfl, iff_of_false nofun ?_, ?_⟩
    · exact fun hnone => hnone _ hreachable
    · rintro token htoken
      rwa [← Option.some.inj htoken]

/-! ### Free generation -/

/-- What is handed over from `before` to `later` are tokens that are not excluded. -/
def Spares (excluding : TokenSet) (before later : Session (Journaled σ)) : Prop :=
  ∃ handed, later.journal = before.journal ++ handed
    ∧ ∀ batch ∈ handed, ∀ token ∈ batch.tokens, token ∉ excluding

theorem spares_of_same {excluding : TokenSet} {before later : Session (Journaled σ)}
    (h : later.journal = before.journal) : Spares excluding before later :=
  ⟨[], h.trans (List.append_nil _).symm, nofun⟩

theorem Spares.trans {excluding : TokenSet} {first second third : Session (Journaled σ)}
    (h : Spares excluding first second) (h' : Spares excluding second third) :
    Spares excluding first third := by
  obtain ⟨handed, hjournal, hspares⟩ := h
  obtain ⟨further, hjournal', hspares'⟩ := h'
  refine ⟨handed ++ further, by rw [hjournal', hjournal, List.append_assoc], ?_⟩
  intro batch hbatch
  rcases List.mem_append.mp hbatch with hbatch | hbatch
  · exact hspares batch hbatch
  · exact hspares' batch hbatch

theorem spares_decodeBatch {engine : Engine σ} {excluding : TokenSet} {token : TokenId}
    (hspared : token ∉ excluding) (position : ℕ) (session : Session (Journaled σ)) :
    Keeps (Spares excluding)
      (decodeBatch (Journaled.engine engine) (Batch.single token position)) session := by
  have hspares : ∀ later : Session (Journaled σ),
      later.journal = session.journal ++ [Batch.single token position] →
      Spares excluding session later := by
    intro later hjournal
    refine ⟨_, hjournal, fun batch hbatch other hother => ?_⟩
    rw [List.mem_singleton.mp hbatch, Batch.single, Batch.tokens_sequence] at hother
    rwa [List.mem_singleton.mp hother]
  unfold Keeps
  rcases @decodeBatch_journal _ engine (Batch.single token position) session with
    ⟨error, later, hstep, hjournal, -⟩ | ⟨later, hstep, hjournal, -⟩
  · rw [after_error hstep]
    exact hspares later hjournal
  · rw [after_ok hstep]
    exact hspares later hjournal

/-- **Drawing freely.**  What is decoded is not excluded. -/
theorem Draws.predictNext_spares {engine : Engine σ} {session : Session (Journaled σ)}
    (hdraws : session.Draws) {excluding : TokenSet} (hexcluding : excluding.Increasing)
    (hlength : session.logits.length ≤ 0x80000000)
    (hsettles : session.sampler.Settles (maskOut excluding session.logits) session.penalized) :
    Keeps (Spares excluding) (predictNext (Journaled.engine engine) excluding) session := by
  have hstopped : ¬ session.isStopped = true := by
    rw [hdraws.notStopped]
    decide
  have hnonempty : maskOut excluding session.logits ≠ [] := by
    unfold maskOut
    rw [Ne, List.mapIdx_eq_nil_iff]
    exact hdraws.primed
  have hdraw := drawToken_eq (maskOut excluding session.logits) session
  have hsample := Sampler.sample_spec hdraws.sound hsettles (hdraws.numbers_maskOut excluding)
    hnonempty
  unfold predictNext
  refine keeps_get (keeps_ite (fun h => absurd h hstopped) fun _ => ?_)
  refine keeps_ite (fun _ => spares_of_same rfl) fun _ => ?_
  unfold Keeps
  rw [after_bind_ok (pristine_of_primed hdraws.primed), after_bind_ok hdraw]
  rcases hsample with ⟨-, hdrawn⟩ | ⟨-, index, hdrawn, hunmasked⟩
  · rw [hdrawn]
    exact spares_of_same rfl
  · -- the token drawn is not excluded, and it is the only one that may be handed over
    obtain ⟨hcontains, hindex⟩ := not_excluded_of_not_masked hunmasked
    have hspared : Int32.ofNat index ∉ excluding := by
      intro hmem
      unfold TokenSet.containsIndex at hcontains
      rw [hexcluding.contains_iff.mpr hmem, Bool.and_true, decide_eq_false_iff_not] at hcontains
      omega
    rw [hdrawn]
    have hdrawnSession : Spares excluding session { session with
        sampler := (session.sampler.sample (maskOut excluding session.logits)
          session.penalized).2 } := spares_of_same rfl
    refine hdrawnSession.trans ?_
    show Keeps (Spares excluding) (modify (·.remember (Int32.ofNat index)) >>= _) _
    have hremember : ∀ session : Session (Journaled σ), Keeps (Spares excluding)
        (modify (·.remember (Int32.ofNat index)) : SessionM (Journaled σ) PUnit) session :=
      fun _ => spares_of_same rfl
    refine (hremember _).bind Spares.trans fun _ aware => keeps_get ?_
    refine keeps_ite (fun _ => spares_of_same rfl) fun _ => ?_
    refine keeps_ite (fun _ => spares_of_same rfl) fun _ => ?_
    exact (spares_decodeBatch hspared _ aware).bind Spares.trans fun _ _ => spares_of_same rfl

/-! ## Section 4: The scores behind the context -/

/-- The scores stay, or are what the engine said of some state. -/
def Rescored (engine : Engine σ) (before later : Session σ) : Prop :=
  later.logits = before.logits ∨ ∃ state, (engine.logits state).result = .ok later.logits

section Rescored

variable {engine : Engine σ} {session : Session σ}

theorem Rescored.trans {first second third : Session σ} (h : Rescored engine first second)
    (h' : Rescored engine second third) : Rescored engine first third := by
  rcases h' with hsame | hsaid
  · rcases h with hfirst | hsaid
    · exact .inl (hsame.trans hfirst)
    · rw [← hsame] at hsaid
      exact .inr hsaid
  · exact .inr hsaid

theorem rescored_decodeBatch (batch : Batch) :
    Keeps (Rescored engine) (decodeBatch engine batch) session := by
  unfold decodeBatch
  have hdecoded : Keeps (Rescored engine) (attempt (engine.decode batch)) session := by
    unfold Keeps
    rw [after_ok (attempt_eq _ session)]
    exact .inl rfl
  refine hdecoded.bind Rescored.trans fun decoded fed => ?_
  cases decoded with
  | error error => exact .inl rfl
  | ok _ =>
    dsimp only
    unfold Keeps
    rw [after_bind_ok (attempt_eq engine.logits fed)]
    cases hlogits : (engine.logits fed.vocab.engine).result with
    | error error => exact .inl rfl
    | ok logits => exact .inr ⟨_, hlogits⟩

theorem rescored_predictNext (excluding : TokenSet) :
    Keeps (Rescored engine) (predictNext engine excluding) session := by
  have hsame : ∀ {before later : Session σ}, later.logits = before.logits →
      Rescored engine before later := .inl
  have hpristine : Keeps (Rescored engine) pristine session := by
    unfold pristine
    exact keeps_get (keeps_ite (fun _ => hsame rfl) (fun _ => hsame rfl))
  have hdraw : ∀ scores (later : Session σ), Keeps (Rescored engine) (drawToken scores) later :=
    fun _ _ => hsame rfl
  unfold predictNext
  refine keeps_get (keeps_ite (fun _ => hsame rfl) fun _ => ?_)
  refine keeps_ite (fun _ => hsame rfl) fun _ => ?_
  refine hpristine.bind Rescored.trans fun scores primed => ?_
  refine (hdraw _ primed).bind Rescored.trans fun drawn later => ?_
  cases drawn with
  | error error => exact hsame rfl
  | ok token =>
    have hremember : Keeps (Rescored engine)
        (modify (·.remember token) : SessionM σ PUnit) later := hsame rfl
    refine hremember.bind Rescored.trans fun _ aware => keeps_get ?_
    refine keeps_ite (fun _ => hsame rfl) fun _ => ?_
    refine keeps_ite (fun _ => hsame rfl) fun _ => ?_
    exact (rescored_decodeBatch _).bind Rescored.trans fun _ _ => hsame rfl

end Rescored

/-! ## Section 5: Masks hold -/

/-- **Masks hold** as long as the best score that is not masked settles.  Under constraints a token
    is drawn exactly if an allowed one has a finite score, and it is such a one; in free generation
    no excluded token is decoded.  The scores behind the context stay as the engine gave them. -/
theorem masks_hold (engine : Engine σ) {session : Session σ} (hdraws : session.Draws) :
    (∀ allowed : TokenSet, allowed.Increasing →
      session.sampler.Settles (maskAllBut allowed session.logits) session.penalized →
      ∃ result later, sampleConstrained allowed session = .ok result later
        ∧ later.logits = session.logits
        ∧ (result = none ↔ ∀ token, ¬ session.Reachable allowed token)
        ∧ ∀ token, result = some token → session.Reachable allowed token)
    ∧ (∀ excluding : TokenSet, excluding.Increasing → session.logits.length ≤ 0x80000000 →
      session.sampler.Settles (maskOut excluding session.logits) session.penalized →
      (∀ batch ∈
          (after (predictNext (Journaled.engine engine) excluding) session.onJournal).journal,
        ∀ token ∈ batch.tokens, token ∉ excluding)
      ∧ Rescored engine session (after (predictNext engine excluding) session)) := by
  refine ⟨fun allowed hallowed hsettles => hdraws.sampleConstrained_spec hallowed hsettles,
    fun excluding hexcluding hlength hsettles => ⟨?_, rescored_predictNext excluding⟩⟩
  have hjournaled : session.onJournal.Draws :=
    ⟨hdraws.notStopped, hdraws.primed, hdraws.valid, hdraws.sampler, hdraws.numbers⟩
  obtain ⟨handed, hjournal, hspares⟩ :=
    hjournaled.predictNext_spares hexcluding hlength hsettles
  intro batch hbatch
  rw [hjournal] at hbatch
  exact hspares batch hbatch

/-- A session with two tokens, both with finite scores, of which the first was accepted last. -/
def repeating (repeatPenalty : Float32) : Session Tabulated :=
  { Session.new { pieces := [['a'], ['b']], eos := 5 } { SamplingParams.greedy with repeatPenalty } with
    logits := [-10, 5], recent := [0], position := 1 }

theorem repeating_draws {penalty : Float32} (hvalid : (repeating penalty).params.validate = .ok ()) :
    (repeating penalty).Draws where
  notStopped := rfl
  primed := List.cons_ne_nil _ _
  valid := hvalid
  sampler := ⟨_, rfl⟩
  numbers := by
    show ∀ logit ∈ [-10, 5], Float32.isNaN logit = false ∧ rank logit < topRank
    decide +kernel

/-- Without a penalty the allowed token is drawn, and the other one, though its score is better, is
    not. -/
theorem masks_hold_repeating : (repeating 1).Draws
    ∧ ∃ later, sampleConstrained (TokenSet.ofList [0]) (repeating 1) = .ok (some 0) later := by
  have hdraws : (repeating 1).Draws := repeating_draws (by decide +kernel)
  refine ⟨hdraws, ?_⟩
  have hsettles : (repeating 1).sampler.Settles
      (maskAllBut (TokenSet.ofList [0]) (repeating 1).logits) (repeating 1).penalized := by
    unfold Sampler.Settles
    decide +kernel
  obtain ⟨hallowed, -⟩ := masks_hold Tabulated.engine hdraws
  obtain ⟨result, later, hresult, -, hnone, hsome⟩ :=
    hallowed (TokenSet.ofList [0]) (TokenSet.ofList_increasing _) hsettles
  have hreachable : (repeating 1).Reachable (TokenSet.ofList [0]) 0 :=
    ⟨TokenSet.mem_ofList.mpr (List.mem_singleton_self _), by decide, -10, rfl, by decide +kernel⟩
  cases result with
  | none => exact absurd hreachable (hnone.mp rfl 0)
  | some token =>
    obtain ⟨hmem, -⟩ := hsome token rfl
    rw [List.mem_singleton.mp (TokenSet.mem_ofList.mp hmem)] at hresult
    exact ⟨later, hresult⟩

/-- **Masks break**: a penalty takes the one allowed score, which is finite, to negative infinity,
    and the token that is masked is drawn. -/
theorem masks_break : (repeating 1e38).Draws
    ∧ (repeating 1e38).Reachable (TokenSet.ofList [0]) 0 ∧ 1 ∉ TokenSet.ofList [0]
    ∧ ∃ later, sampleConstrained (TokenSet.ofList [0]) (repeating 1e38) = .ok (some 1) later := by
  have hdraws : (repeating 1e38).Draws := repeating_draws (by decide +kernel)
  refine ⟨hdraws, ?_, ?_, ?_⟩
  · exact ⟨TokenSet.mem_ofList.mpr (List.mem_singleton_self _), by decide, -10, rfl,
      by decide +kernel⟩
  · rw [TokenSet.mem_ofList]
    decide
  · have hdrawn : ((repeating 1e38).sampler.sample
        (maskAllBut (TokenSet.ofList [0]) (repeating 1e38).logits) (repeating 1e38).penalized).1
        = .ok 1 := by decide +kernel
    rw [hdraws.sampleConstrained_eq (by decide +kernel), hdrawn]
    exact ⟨_, rfl⟩

end Session

end Parley
