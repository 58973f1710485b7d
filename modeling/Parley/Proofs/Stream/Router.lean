import Parley.Proofs.Text.Search
import Parley.Stream.Router

/-! # The split of a generated text

    A router is given a text in chunks and holds a part of it back, so what it releases for a chunk
    depends on the cuts.  The sum of what it releases does not: two chunks one behind the other are
    the same as one (`step_append`), so the chunks of a generation are the same as its whole text.

    The split of a whole text is said without a router by `Split`.  The main statement is
    `split_eq_iff`: however the text is cut into chunks, the two channels receive the two texts of
    its split, and nothing else. -/

namespace Parley

/-! ## Section 1: The split of a whole text -/

/-- `text` is a marker that can be found: it is given, and it is not empty. -/
def Router.IsMarker (marker : Option String) (text : List Char) : Prop :=
  marker = some (String.ofList text) ∧ text ≠ []

/-- `text` splits into the two texts `thinking` and `response`. -/
inductive Router.Split (mode : ThinkingMode) (startMarker endMarker : Option String)
    (text : List Char) : (thinking response : List Char) → Prop
  /-- Markers are plain text. -/
  | disabled : mode = .disabled → Split mode startMarker endMarker text [] text
  /-- There is no start marker. -/
  | unmarked : (∀ marker, ¬ IsMarker startMarker marker) →
      Split mode startMarker endMarker text [] text
  /-- The start marker does not occur. -/
  | absent {marker : List Char} : IsMarker startMarker marker → ¬ marker <:+: text →
      Split mode startMarker endMarker text [] text
  /-- The thinking is not ended. -/
  | unclosed {marker a b : List Char} : mode = .enabled → IsMarker startMarker marker →
      Text.FirstCut marker text a b → (∀ last, IsMarker endMarker last → ¬ last <:+: b) →
      Split mode startMarker endMarker text b a
  /-- The thinking is ended, and the line breaks behind its end are dropped. -/
  | closed {marker last a b c d : List Char} : mode = .enabled → IsMarker startMarker marker →
      Text.FirstCut marker text a b → IsMarker endMarker last → Text.FirstCut last b c d →
      Split mode startMarker endMarker text c
        (a ++ d.dropWhile fun char => char = '\n' || char = '\r')

/-- **The order of the phases.**  The start marker may be found, and after it the end marker; a
    router that honours no markers stays as it is. -/
inductive Phase.Leads : (phase later : Phase) → Prop
  | stay (phase : Phase) : Leads phase phase
  | start : Leads .searchingForStart .inThinking
  | finish : Leads .inThinking .inResponse
  | pass : Leads .searchingForStart .inResponse

theorem Phase.Leads.trans {first second third : Phase} (h : first.Leads second)
    (hnext : second.Leads third) : first.Leads third := by
  cases h with
  | stay => exact hnext
  | start =>
    cases hnext with
    | stay => exact .start
    | finish => exact .pass
  | finish =>
    cases hnext with
    | stay => exact .finish
  | pass =>
    cases hnext with
    | stay => exact .pass

namespace Routed

@[simp] theorem append_empty (routed : Routed) : routed.append {} = routed := by
  simp [append]

end Routed

namespace Router

/-! ## Section 2: Chunks -/

/-- Takes chunks one after the other; returns the router behind them and all that it released. -/
def feed : (router : Router) → (chunks : List (List Char)) → Router × Routed
  | router, [] => (router, {})
  | router, chunk :: rest =>
    let stepped := router.step chunk
    let fed := stepped.1.feed rest
    (fed.1, stepped.2.append fed.2)

/-- All that a router releases for the chunks of a generation, to its end. -/
def split (mode : ThinkingMode) (startMarker endMarker : Option String)
    (chunks : List (List Char)) : Routed :=
  let fed := (Router.new mode startMarker endMarker).feed chunks
  fed.2.append fed.1.finish

/-- What comes of a step if another chunk follows it. -/
def followedBy (stepped : Router × Routed) (chunk : List Char) : Router × Routed :=
  ((stepped.1.step chunk).1, stepped.2.append (stepped.1.step chunk).2)

/-- **Invariant**: as long as a marker may come, as much text is held back as the marker is long,
    and no line breaks are dropped before the thinking. -/
structure Watchful (router : Router) : Prop where
  fits : router.phase = .searchingForStart ∨ router.phase = .inThinking →
    ∀ marker, router.startMarker = some marker ∨ router.endMarker = some marker →
      marker ≠ [] ∧ Text.byteLength marker ≤ router.hold
  keepsBreaks : router.phase = .searchingForStart → router.trimming = false

/-! ### Response -/

@[simp] theorem respond_phase (router : Router) (text : List Char) :
    (router.respond text).1.phase = router.phase := by
  unfold respond
  split <;> rfl

@[simp] theorem respond_pending (router : Router) (text : List Char) :
    (router.respond text).1.pending = router.pending := by
  unfold respond
  split <;> rfl

@[simp] theorem respond_nil (router : Router) : (router.respond []).2 = [] := by
  unfold respond
  split <;> rfl

/-- Without dropping line breaks a text is released as it is. -/
theorem respond_of_not_trimming {router : Router} (h : router.trimming = false)
    (text : List Char) : router.respond text = (router, text) := by
  simp [respond, h]

/-- The dropping of line breaks goes on until another character comes. -/
theorem respond_append (router : Router) (text more : List Char) :
    router.respond (text ++ more)
      = (((router.respond text).1.respond more).1,
          (router.respond text).2 ++ ((router.respond text).1.respond more).2) := by
  by_cases htrim : router.trimming = true
  · by_cases hall : text.dropWhile isLineBreak = []
    · have hdrop : (text ++ more).dropWhile isLineBreak = more.dropWhile isLineBreak := by
        simp [List.dropWhile_append, hall]
      simp [respond, htrim, hall, hdrop]
    · have hdrop :
          (text ++ more).dropWhile isLineBreak = text.dropWhile isLineBreak ++ more := by
        simp [List.dropWhile_append, hall]
      have hsome : (text.dropWhile isLineBreak ++ more).isEmpty = false := by simp [hall]
      have hsome' : (text.dropWhile isLineBreak).isEmpty = false := by simp [hall]
      simp [respond, htrim, hdrop, hsome, hsome']
  · simp [respond, htrim]

theorem stepResponse_of_pending_nil {router : Router} (h : router.pending = [])
    (text thinking before : List Char) :
    router.stepResponse text thinking before
      = ((router.respond text).1, { thinking, response := before ++ (router.respond text).2 }) := by
  have hself : { router with pending := [] } = router := by rw [← h]
  rw [stepResponse, hself]

theorem stepResponse_append (router : Router) (text more thinking before : List Char)
    (hphase : router.phase = .disabled ∨ router.phase = .inResponse) :
    router.stepResponse (text ++ more) thinking before
      = followedBy (router.stepResponse text thinking before) more := by
  -- Nothing is held back in the response, so the router may be taken to hold nothing.
  suffices h : ∀ base : Router, base.pending = [] → base.phase = router.phase →
      base.stepResponse (text ++ more) thinking before
        = followedBy (base.stepResponse text thinking before) more from
    h { router with pending := [] } rfl rfl
  intro base hpending hbase
  have hstep : (base.respond text).1.step more = (base.respond text).1.stepResponse more [] [] := by
    obtain h | h := hphase <;> simp [step, hbase, h, hpending]
  have hnext : (base.respond text).1.pending = [] := by simp [hpending]
  rw [stepResponse_of_pending_nil hpending, stepResponse_of_pending_nil hpending, followedBy, hstep,
    stepResponse_of_pending_nil hnext, respond_append]
  simp [Routed.append]

/-! ### Thinking -/

theorem stepThinking_append {router : Router} (text more before : List Char)
    (hfits : ∀ marker, router.endMarker = some marker →
      marker ≠ [] ∧ Text.byteLength marker ≤ router.hold) :
    router.stepThinking (text ++ more) before
      = followedBy (router.stepThinking text before) more := by
  cases hmarker : router.endMarker with
  | none =>
    simp [stepThinking, followedBy, step, hmarker, Routed.append,
      Text.splitLast_append router.hold text more]
  | some marker =>
    obtain ⟨hne, hle⟩ := hfits marker hmarker
    cases hcut : Text.splitAtFirst marker text with
    | none =>
      -- The marker is not in the first chunk; what is held back of it decides with the second.
      have hwhole := Text.splitAtFirst_splitLast hle hcut more
      cases hnext : Text.splitAtFirst marker ((Text.splitLast router.hold text).2 ++ more) with
      | none =>
        simp [stepThinking, followedBy, step, hmarker, hcut, hwhole, hnext, Routed.append,
          Text.splitLast_append router.hold text more]
      | some cut =>
        simp [stepThinking, stepResponse, followedBy, step, hmarker, hcut, hwhole, hnext,
          Routed.append]
    | some cut =>
      obtain ⟨thinking, after⟩ := cut
      have hwhole := Text.splitAtFirst_append hcut more hne
      simp only [stepThinking, hmarker, Option.bind_some, hwhole, hcut]
      exact stepResponse_append _ after more thinking before (.inr rfl)

/-- Text released before the thinking is released first. -/
theorem stepThinking_before (router : Router) (text first before : List Char) :
    router.stepThinking text (first ++ before)
      = ((router.stepThinking text before).1,
          ({ response := first } : Routed).append (router.stepThinking text before).2) := by
  cases hcut : router.endMarker.bind fun marker => Text.splitAtFirst marker text with
  | none => simp [stepThinking, hcut, Routed.append]
  | some cut => simp [stepThinking, stepResponse, hcut, Routed.append]

/-! ### Searching -/

/-- Without a start marker in sight, what need not be held back is response. -/
theorem stepSearching_of_missing {router : Router} (hbreaks : router.trimming = false)
    {text : List Char}
    (h : router.startMarker.bind (fun marker => Text.splitAtFirst marker text) = none) :
    router.stepSearching text
      = ({ router with pending := (Text.splitLast router.hold text).2 },
          { response := (Text.splitLast router.hold text).1 }) := by
  simp [stepSearching, h, respond, hbreaks]

/-- What stands before the start marker is response, and the thinking begins behind it. -/
theorem stepSearching_of_found {router : Router} (hbreaks : router.trimming = false)
    {text before after : List Char}
    (h : router.startMarker.bind (fun marker => Text.splitAtFirst marker text)
      = some (before, after)) :
    router.stepSearching text = router.stepThinking after before := by
  simp [stepSearching, h, respond, hbreaks]

/-- The text held back is part of the text that is stepped over, so it counts no more. -/
theorem stepSearching_pending {router : Router} (hbreaks : router.trimming = false)
    (kept text : List Char) :
    { router with pending := kept }.stepSearching text = router.stepSearching text := by
  cases hcut : router.startMarker.bind fun marker => Text.splitAtFirst marker text with
  | none =>
    rw [@stepSearching_of_missing { router with pending := kept } hbreaks text hcut,
      stepSearching_of_missing hbreaks hcut]
  | some cut =>
    rw [@stepSearching_of_found { router with pending := kept } hbreaks text _ _ hcut,
      stepSearching_of_found hbreaks hcut]
    cases hend : router.endMarker.bind fun marker => Text.splitAtFirst marker cut.2 with
    | none => simp [stepThinking, hend]
    | some cut => simp [stepThinking, stepResponse, hend]

theorem stepSearching_append {router : Router} (text more : List Char) (h : router.Watchful)
    (hphase : router.phase = .searchingForStart) :
    router.stepSearching (text ++ more) = followedBy (router.stepSearching text) more := by
  have hbreaks := h.keepsBreaks hphase
  have hfits := h.fits (.inl hphase)
  -- What a router that has found nothing yet does with the second chunk.
  have hkept : ∀ kept : List Char,
      { router with pending := kept }.step more = router.stepSearching (kept ++ more) := by
    intro kept
    rw [← stepSearching_pending hbreaks kept]
    simp [step, hphase]
  cases hmarker : router.startMarker with
  | none =>
    have hnone : ∀ t,
        router.startMarker.bind (fun marker => Text.splitAtFirst marker t) = none := by
      simp [hmarker]
    rw [stepSearching_of_missing hbreaks (hnone _), stepSearching_of_missing hbreaks (hnone _),
      followedBy, hkept, stepSearching_of_missing hbreaks (hnone _), Text.splitLast_append]
    simp [Routed.append]
  | some marker =>
    obtain ⟨hne, hle⟩ := hfits marker (.inl hmarker)
    have hfind : ∀ t, router.startMarker.bind (fun marker => Text.splitAtFirst marker t)
        = Text.splitAtFirst marker t := by
      simp [hmarker]
    cases hcut : Text.splitAtFirst marker text with
    | none =>
      have hwhole := Text.splitAtFirst_splitLast hle hcut more
      rw [stepSearching_of_missing hbreaks ((hfind _).trans hcut), followedBy, hkept]
      cases hnext : Text.splitAtFirst marker ((Text.splitLast router.hold text).2 ++ more) with
      | none =>
        rw [hnext] at hwhole
        rw [stepSearching_of_missing hbreaks ((hfind _).trans hwhole),
          stepSearching_of_missing hbreaks ((hfind _).trans hnext), Text.splitLast_append]
        simp [Routed.append]
      | some cut =>
        obtain ⟨before, after⟩ := cut
        rw [hnext] at hwhole
        rw [stepSearching_of_found hbreaks ((hfind _).trans hwhole),
          stepSearching_of_found hbreaks ((hfind _).trans hnext)]
        exact stepThinking_before router after _ before
    | some cut =>
      obtain ⟨before, after⟩ := cut
      have hwhole := Text.splitAtFirst_append hcut more hne
      rw [stepSearching_of_found hbreaks ((hfind _).trans hwhole),
        stepSearching_of_found hbreaks ((hfind _).trans hcut)]
      exact stepThinking_append after more before fun marker hm => hfits marker (.inr hm)

/-! ### Whole generations -/

/-- **A step of the router is additive**: two chunks one behind the other lead to the same router as
    one, and release the same text. -/
theorem step_append {router : Router} (h : router.Watchful) (text more : List Char) :
    router.step (text ++ more) = followedBy (router.step text) more := by
  unfold step
  rw [← List.append_assoc]
  cases hphase : router.phase with
  | disabled => exact stepResponse_append router _ more [] [] (.inl hphase)
  | searchingForStart => exact stepSearching_append _ more h hphase
  | inThinking =>
    exact stepThinking_append _ more [] fun marker hm => h.fits (.inr hphase) marker (.inr hm)
  | inResponse => exact stepResponse_append router _ more [] [] (.inr hphase)

/-- The markers and the size of what is held back never change. -/
theorem step_markers (router : Router) (chunk : List Char) :
    (router.step chunk).1.startMarker = router.startMarker
      ∧ (router.step chunk).1.endMarker = router.endMarker
      ∧ (router.step chunk).1.hold = router.hold := by
  have hrespond : ∀ (r : Router) (text : List Char),
      (r.respond text).1.startMarker = r.startMarker ∧ (r.respond text).1.endMarker = r.endMarker
        ∧ (r.respond text).1.hold = r.hold := by
    intro r text
    unfold respond
    split <;> exact ⟨rfl, rfl, rfl⟩
  have hthinking : ∀ (r : Router) (text before : List Char),
      (r.stepThinking text before).1.startMarker = r.startMarker
        ∧ (r.stepThinking text before).1.endMarker = r.endMarker
        ∧ (r.stepThinking text before).1.hold = r.hold := by
    intro r text before
    unfold stepThinking
    split
    · exact ⟨rfl, rfl, rfl⟩
    · simp [stepResponse, hrespond]
  unfold step
  cases router.phase with
  | disabled => simp [stepResponse, hrespond]
  | inResponse => simp [stepResponse, hrespond]
  | inThinking => simp [hthinking]
  | searchingForStart =>
    unfold stepSearching
    simp only []
    split <;> simp [hthinking, hrespond]

theorem stepThinking_phase (router : Router) (text before : List Char) :
    (router.stepThinking text before).1.phase = .inThinking
      ∨ (router.stepThinking text before).1.phase = .inResponse := by
  unfold stepThinking
  split
  · exact .inl rfl
  · exact .inr (by simp [stepResponse])

/-- **A step moves forward**, or stays in its phase. -/
theorem step_leads (router : Router) (chunk : List Char) :
    router.phase.Leads (router.step chunk).1.phase := by
  unfold step
  cases hphase : router.phase with
  | disabled =>
    have hstays : (router.stepResponse (router.pending ++ chunk) [] []).1.phase = .disabled := by
      simp [stepResponse, hphase]
    rw [hstays]
    exact .stay _
  | inResponse =>
    have hstays : (router.stepResponse (router.pending ++ chunk) [] []).1.phase = .inResponse := by
      simp [stepResponse, hphase]
    rw [hstays]
    exact .stay _
  | inThinking =>
    rcases stepThinking_phase router (router.pending ++ chunk) [] with h | h
    · rw [h]
      exact .stay _
    · rw [h]
      exact .finish
  | searchingForStart =>
    -- both markers may be found in one chunk
    dsimp only
    unfold stepSearching
    split
    · have hstays : (router.respond (Text.splitLast router.hold (router.pending ++ chunk)).1).1.phase
          = .searchingForStart := by
        rw [respond_phase, hphase]
      dsimp only
      rw [hstays]
      exact .stay _
    · rename_i before after _
      rcases stepThinking_phase (router.respond before).1 after (router.respond before).2 with h | h
      · rw [h]
        exact .start
      · rw [h]
        exact .pass

/-- The start marker is looked for only as long as it was not found, and the end marker only after
    it. -/
theorem step_phase (router : Router) (chunk : List Char) :
    ((router.step chunk).1.phase = .searchingForStart →
      router.phase = .searchingForStart)
      ∧ ((router.step chunk).1.phase = .inThinking →
        router.phase = .searchingForStart ∨ router.phase = .inThinking) := by
  have hleads := router.step_leads chunk
  generalize (router.step chunk).1.phase = later at hleads ⊢
  generalize router.phase = phase at hleads ⊢
  cases hleads with
  | stay => exact ⟨id, .inr⟩
  | start | finish | pass => simp

theorem step_watchful {router : Router} (h : router.Watchful) (chunk : List Char) :
    (router.step chunk).1.Watchful := by
  obtain ⟨hstart, hend, hhold⟩ := step_markers router chunk
  obtain ⟨hsearching, hthinking⟩ := step_phase router chunk
  refine ⟨fun hphase => ?_, fun hphase => ?_⟩
  · rw [hstart, hend, hhold]
    refine h.fits ?_
    obtain hphase | hphase := hphase
    · exact .inl (hsearching hphase)
    · exact hthinking hphase
  · have hbefore := hsearching hphase
    have hbreaks := h.keepsBreaks hbefore
    have hstep : router.step chunk = router.stepSearching (router.pending ++ chunk) := by
      simp [step, hbefore]
    rw [hstep] at hphase ⊢
    cases hcut : router.startMarker.bind fun marker =>
        Text.splitAtFirst marker (router.pending ++ chunk) with
    | none => rw [stepSearching_of_missing hbreaks hcut]; exact hbreaks
    | some cut =>
      -- With the start marker found the router is past the search.
      rw [stepSearching_of_found hbreaks hcut] at hphase
      unfold stepThinking at hphase
      split at hphase
      · cases hphase
      · simp [stepResponse] at hphase

/-- The chunks that a router is fed are the same to it as one chunk. -/
theorem feed_cons {router : Router} (h : router.Watchful) (chunk : List Char)
    (rest : List (List Char)) :
    router.feed (chunk :: rest) = router.step (chunk ++ rest.flatten) := by
  induction rest generalizing router chunk with
  | nil => simp [feed]
  | cons second rest ih =>
    have hnext := ih (step_watchful h chunk) second
    rw [List.flatten_cons, step_append h, followedBy, ← hnext]
    rfl

/-! ## Section 3: The router against the split -/

theorem marker?_eq_some_iff {marker : Option String} {text : List Char} :
    marker? marker = some text ↔ IsMarker marker text := by
  unfold marker? IsMarker
  constructor
  · intro h
    obtain ⟨given, hgiven, rfl⟩ := Option.map_eq_some_iff.mp h
    obtain ⟨rfl, hne⟩ := Option.filter_eq_some_iff.mp hgiven
    exact ⟨by simp, by simpa using hne⟩
  · rintro ⟨rfl, hne⟩
    simp [Option.filter, hne]

theorem marker?_eq_none_iff {marker : Option String} :
    marker? marker = none ↔ ∀ text, ¬ IsMarker marker text := by
  rw [Option.eq_none_iff_forall_ne_some]
  exact forall_congr' fun _ => not_congr marker?_eq_some_iff

/-- A text is not cut where it contains no marker. -/
theorem bind_splitAtFirst_eq_none_iff {marker : Option String} {text : List Char} :
    (marker? marker).bind (Text.splitAtFirst · text) = none ↔
      ∀ m, IsMarker marker m → ¬ m <:+: text := by
  rw [Option.bind_eq_none_iff]
  exact forall_congr' fun _ =>
    imp_congr marker?_eq_some_iff Text.splitAtFirst_eq_none_iff

theorem bind_splitAtFirst_eq_some_iff {marker : Option String}
    {text before after : List Char} :
    (marker? marker).bind (Text.splitAtFirst · text) = some (before, after) ↔
      ∃ m, IsMarker marker m ∧ Text.FirstCut m text before after := by
  rw [Option.bind_eq_some_iff]
  exact exists_congr fun _ =>
    and_congr marker?_eq_some_iff Text.splitAtFirst_eq_some_iff

/-- The router of a new generation is watchful. -/
theorem new_watchful (mode : ThinkingMode) (startMarker endMarker : Option String) :
    (Router.new mode startMarker endMarker).Watchful := by
  refine ⟨fun hphase marker hmarker => ?_, fun _ => rfl⟩
  have hne : marker ≠ [] := by
    obtain h | h := hmarker <;> exact (marker?_eq_some_iff.mp h).2
  have hhold : (Router.new mode startMarker endMarker).hold
      = max (markerLength (marker? startMarker)) (markerLength (marker? endMarker)) := by
    cases mode with
    | disabled => simp [Router.new, firstPhase] at hphase
    | enabled => cases hstart : marker? startMarker <;> simp [Router.new, firstPhase, hstart]
  refine ⟨hne, ?_⟩
  rw [hhold]
  obtain h | h := hmarker
  · have hstart : marker? startMarker = some marker := h
    rw [hstart]
    exact Nat.le_max_left _ _
  · have hend : marker? endMarker = some marker := h
    rw [hend]
    exact Nat.le_max_right _ _

/-- What the router makes of a whole text. -/
def splitWhole (mode : ThinkingMode) (startMarker endMarker : Option (List Char))
    (text : List Char) : Routed :=
  match firstPhase mode startMarker, startMarker.bind (Text.splitAtFirst · text) with
  | .searchingForStart, some (before, after) =>
    match endMarker.bind (Text.splitAtFirst · after) with
    | none => { thinking := after, response := before }
    | some (thinking, rest) => { thinking, response := before ++ rest.dropWhile isLineBreak }
  | _, _ => { response := text }

/-- A router that only responds makes a text its response. -/
theorem finish_stepResponse {router : Router} (hbreaks : router.trimming = false)
    (text : List Char) :
    (router.stepResponse text [] []).2.append (router.stepResponse text [] []).1.finish
      = { response := text } := by
  simp [stepResponse, respond_of_not_trimming, hbreaks, finish, Routed.append]

/-- The text between the start marker and the end marker is thinking; what is held back belongs to
    the phase that the text ends in. -/
theorem finish_stepThinking (router : Router) (text before : List Char) :
    (router.stepThinking text before).2.append (router.stepThinking text before).1.finish
      = match router.endMarker.bind (Text.splitAtFirst · text) with
        | none => { thinking := text, response := before }
        | some (thinking, rest) =>
          { thinking, response := before ++ rest.dropWhile isLineBreak } := by
  cases hcut : router.endMarker.bind (Text.splitAtFirst · text) with
  | none => simp [stepThinking, hcut, finish, isThinking, Routed.append]
  | some cut =>
    have hrespond : ∀ r : Router, r.trimming = true →
        (r.respond cut.2).2 = cut.2.dropWhile isLineBreak := by
      intro r htrim
      simp [respond, htrim]
    simp [stepThinking, stepResponse, hcut, finish, hrespond, Routed.append]

theorem finish_stepSearching {router : Router} (hbreaks : router.trimming = false)
    (hphase : router.phase = .searchingForStart) (text : List Char) :
    (router.stepSearching text).2.append (router.stepSearching text).1.finish
      = match router.startMarker.bind (Text.splitAtFirst · text) with
        | none => { response := text }
        | some (before, after) =>
          (router.stepThinking after before).2.append
            (router.stepThinking after before).1.finish := by
  cases hcut : router.startMarker.bind (Text.splitAtFirst · text) with
  | none =>
    rw [stepSearching_of_missing hbreaks hcut]
    simp [finish, isThinking, hphase, respond_of_not_trimming, hbreaks, Routed.append]
  | some cut => rw [stepSearching_of_found hbreaks hcut]

/-- What a new router makes of a text in one step. -/
theorem finish_new_step (mode : ThinkingMode) (startMarker endMarker : Option String)
    (text : List Char) :
    ((Router.new mode startMarker endMarker).step text).2.append
        ((Router.new mode startMarker endMarker).step text).1.finish
      = splitWhole mode (marker? startMarker) (marker? endMarker) text := by
  generalize hrouter : Router.new mode startMarker endMarker = router
  have hbreaks : router.trimming = false := by rw [← hrouter]; rfl
  have hpending : router.pending = [] := by rw [← hrouter]; rfl
  have hstart : router.startMarker = marker? startMarker := by rw [← hrouter]; rfl
  have hend : router.endMarker = marker? endMarker := by rw [← hrouter]; rfl
  have hphase : firstPhase mode (marker? startMarker) = router.phase := by rw [← hrouter]; rfl
  unfold splitWhole step
  rw [hphase, hpending, List.nil_append, ← hstart, ← hend]
  cases h : router.phase with
  | disabled => exact finish_stepResponse hbreaks text
  | inResponse => exact finish_stepResponse hbreaks text
  | inThinking =>
    -- No generation starts with thinking.
    rw [h] at hphase
    unfold firstPhase at hphase
    split at hphase <;> cases hphase
  | searchingForStart =>
    simp only [finish_stepSearching hbreaks h]
    cases router.startMarker.bind (Text.splitAtFirst · text) with
    | none => rfl
    | some cut => exact finish_stepThinking router cut.2 cut.1

/-- Nothing comes of no text. -/
theorem splitWhole_nil (mode : ThinkingMode) (startMarker : Option String)
    (endMarker : Option (List Char)) :
    splitWhole mode (marker? startMarker) endMarker [] = {} := by
  have hnone : (marker? startMarker).bind (Text.splitAtFirst · []) = none := by
    cases h : marker? startMarker with
    | none => rfl
    | some marker => simp [Text.splitAtFirst, (marker?_eq_some_iff.mp h).2]
  simp [splitWhole, hnone]

/-- However a text is cut, the router releases what it makes of the whole text. -/
theorem split_eq_splitWhole (mode : ThinkingMode) (startMarker endMarker : Option String)
    (chunks : List (List Char)) :
    split mode startMarker endMarker chunks
      = splitWhole mode (marker? startMarker) (marker? endMarker) chunks.flatten := by
  cases chunks with
  | nil =>
    have hfinish : (Router.new mode startMarker endMarker).finish = {} := by
      unfold finish
      split
      · rfl
      · simp [Router.new]
    rw [List.flatten_nil, splitWhole_nil, split, feed, hfinish]
    rfl
  | cons chunk rest =>
    rw [← finish_new_step, split, feed_cons (new_watchful mode startMarker endMarker)]
    rfl

/-- Every split of a text is what the router makes of the whole text. -/
theorem splitWhole_of_split {mode : ThinkingMode} {startMarker endMarker : Option String}
    {text thinking response : List Char}
    (h : Split mode startMarker endMarker text thinking response) :
    splitWhole mode (marker? startMarker) (marker? endMarker) text = { thinking, response } := by
  cases h with
  | disabled hmode => simp [splitWhole, firstPhase, hmode]
  | unmarked hstart => simp [splitWhole, marker?_eq_none_iff.mpr hstart]
  | absent hmarker habsent =>
    have hcut := Text.splitAtFirst_eq_none_iff.mpr habsent
    simp [splitWhole, marker?_eq_some_iff.mpr hmarker, hcut]
  | unclosed hmode hmarker hcut hopen =>
    have hnone := bind_splitAtFirst_eq_none_iff.mpr hopen
    simp [splitWhole, firstPhase, hmode, marker?_eq_some_iff.mpr hmarker,
      Text.splitAtFirst_eq_some_iff.mpr hcut, hnone]
  | closed hmode hmarker hcut hlast hclose =>
    have hsome := bind_splitAtFirst_eq_some_iff.mpr ⟨_, hlast, hclose⟩
    simp [splitWhole, firstPhase, hmode, marker?_eq_some_iff.mpr hmarker,
      Text.splitAtFirst_eq_some_iff.mpr hcut, hsome]
    rfl

/-- What the router makes of a whole text is a split of it. -/
theorem split_splitWhole (mode : ThinkingMode) (startMarker endMarker : Option String)
    (text : List Char) :
    Split mode startMarker endMarker text
      (splitWhole mode (marker? startMarker) (marker? endMarker) text).thinking
      (splitWhole mode (marker? startMarker) (marker? endMarker) text).response := by
  cases mode with
  | disabled => exact .disabled rfl
  | enabled =>
    cases hstart : marker? startMarker with
    | none => exact .unmarked (marker?_eq_none_iff.mp hstart)
    | some marker =>
      have hmarker := marker?_eq_some_iff.mp hstart
      cases hcut : Text.splitAtFirst marker text with
      | none =>
        simp only [splitWhole, firstPhase, hcut, Option.bind_some]
        exact .absent hmarker (Text.splitAtFirst_eq_none_iff.mp hcut)
      | some cut =>
        have hfirst := Text.splitAtFirst_eq_some_iff.mp hcut
        -- the end marker counts only behind the start marker
        cases hlast : (marker? endMarker).bind (Text.splitAtFirst · cut.2) with
        | none =>
          simp only [splitWhole, firstPhase, hcut, hlast, Option.bind_some]
          exact .unclosed rfl hmarker hfirst (bind_splitAtFirst_eq_none_iff.mp hlast)
        | some inner =>
          obtain ⟨last, hend, hclose⟩ := bind_splitAtFirst_eq_some_iff.mp hlast
          simp only [splitWhole, firstPhase, hcut, hlast, Option.bind_some]
          exact .closed rfl hmarker hfirst hend hclose

/-- **The split does not depend on the chunks**: however a text is cut into chunks, empty ones
    included, the thinking channel and the response channel receive the two texts of its split, and
    no other texts. -/
theorem split_eq_iff (mode : ThinkingMode) (startMarker endMarker : Option String)
    (chunks : List (List Char)) (thinking response : List Char) :
    split mode startMarker endMarker chunks = { thinking, response } ↔
      Split mode startMarker endMarker chunks.flatten thinking response := by
  rw [split_eq_splitWhole]
  constructor
  · intro h
    have hsplit := split_splitWhole mode startMarker endMarker chunks.flatten
    rw [h] at hsplit
    exact hsplit
  · exact splitWhole_of_split

end Router

end Parley
