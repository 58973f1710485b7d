import Parley.Engine.Tabulated
import Parley.Proofs.Stream.Delivery

/-! # Forcing the end of thinking

    When the sequence ends in the middle of the thinking, the worker hands the end marker to its
    router.  The router puts it behind the text that it still holds and looks for the marker from
    the left.  So it may find it too early: where an end of the held text, with a beginning of the
    marker behind it, makes up a marker (`Text.Overlaps`).  Then the thinking loses that end, and
    what is left of the injected marker is taken for response.

    The main statement is `forced_end_iff`: this is the only way in which it goes wrong. -/

namespace Parley

open Step

/-! ## Section 1: Markers that overlap a text -/

namespace Text

/-- An end of `text`, followed by `marker`, begins with `marker`. -/
def Overlaps (marker text : List Char) : Prop :=
  ∃ part, part ≠ [] ∧ part <:+ text ∧ marker <+: part ++ marker

/-- **A marker behind a text** is found where it stands exactly if it does not overlap the text. -/
theorem firstCut_behind_iff {marker text more : List Char} :
    FirstCut marker (text ++ marker ++ more) text more ↔ ¬ Overlaps marker text := by
  constructor
  · rintro hcut ⟨part, hpart, ⟨front, rfl⟩, tail, htail⟩
    -- an overlap is an occurrence that begins before the end of the text
    have hearly : front ++ part ++ marker ++ more = front ++ marker ++ (tail ++ more) := by
      simp only [List.append_assoc]
      rw [← List.append_assoc part, ← htail, List.append_assoc]
    have hle := hcut.first front (tail ++ more) hearly
    have hlength : 0 < part.length := List.length_pos_iff.mpr hpart
    rw [List.length_append] at hle
    omega
  · intro hclear
    refine ⟨rfl, fun front tail heq => ?_⟩
    by_contra hlt
    have hfront : front <+: text := by
      have hstart : front <+: text ++ marker ++ more := by
        rw [heq, List.append_assoc]
        exact List.prefix_append _ _
      have htext : text <+: text ++ marker ++ more := by
        rw [List.append_assoc]
        exact List.prefix_append _ _
      exact List.prefix_of_prefix_length_le hstart htext (by omega)
    obtain ⟨part, rfl⟩ := hfront
    refine hclear ⟨part, ?_, List.suffix_append _ _, ?_⟩
    · rintro rfl
      simp at hlt
    · have hrest : part ++ marker ++ more = marker ++ tail := by
        have hboth : front ++ (part ++ marker ++ more) = front ++ (marker ++ tail) := by
          simpa only [List.append_assoc] using heq
        exact List.append_cancel_left hboth
      have hmarker : marker <+: part ++ marker ++ more := by
        rw [hrest]
        exact List.prefix_append _ _
      exact List.prefix_of_prefix_length_le hmarker (List.prefix_append _ _) (by simp)

/-- A marker that begins with a character it has nowhere else overlaps no text but one in which it
    occurs. -/
theorem not_overlaps_of_head {c : Char} {rest text : List Char} (hhead : c ∉ rest)
    (habsent : ¬ c :: rest <:+: text) : ¬ Overlaps (c :: rest) text := by
  rintro ⟨part, hpart, hsuffix, hprefix⟩
  have hshort : part.length < (c :: rest).length := by
    by_contra hlong
    have hin : c :: rest <+: part :=
      List.prefix_of_prefix_length_le hprefix (List.prefix_append _ _) (by omega)
    exact habsent (hin.isInfix.trans hsuffix.isInfix)
  -- behind the part the marker begins anew, within its own rest
  have hagain : (c :: rest)[part.length]? = some c := by
    rw [List.prefix_iff_getElem?] at hprefix
    rw [List.getElem?_eq_getElem hshort, ← hprefix _ hshort]
    simp
  obtain ⟨count, hcount⟩ := Nat.exists_eq_succ_of_ne_zero
    (Nat.pos_iff_ne_zero.mp (List.length_pos_iff.mpr hpart))
  rw [hcount, List.getElem?_cons_succ] at hagain
  exact hhead (List.mem_of_getElem? hagain)

end Text

/-! ## Section 2: The router in the thinking and past it -/

namespace Router

/-- There is one marker. -/
theorem isMarker_unique {marker : Option String} {text other : List Char}
    (h : IsMarker marker text) (hother : IsMarker marker other) : text = other := by
  have hsame := (marker?_eq_some_iff.mpr h).symm.trans (marker?_eq_some_iff.mpr hother)
  exact Option.some.inj hsame

section New

variable {mode : ThinkingMode} {startMarker endMarker : Option String}
  {text marker before behind : List Char}

/-- Behind the start marker a text is thinking. -/
theorem new_step_of_found (hmode : mode = .enabled) (hmarker : IsMarker startMarker marker)
    (hcut : Text.FirstCut marker text before behind) :
    (Router.new mode startMarker endMarker).step text
      = (Router.new mode startMarker endMarker).stepThinking behind before := by
  have hphase : (Router.new mode startMarker endMarker).phase = .searchingForStart := by
    simp [Router.new, firstPhase, hmode, marker?_eq_some_iff.mpr hmarker]
  have hfound := bind_splitAtFirst_eq_some_iff.mpr ⟨marker, hmarker, hcut⟩
  simp only [step, hphase]
  exact stepSearching_of_found rfl hfound

/-- A new router that is found in the thinking has met the start marker, and no end marker behind
    it. -/
theorem new_step_inThinking
    (h : ((Router.new mode startMarker endMarker).step text).1.phase = .inThinking) :
    mode = .enabled ∧ ∃ marker before thoughts, IsMarker startMarker marker
      ∧ Text.FirstCut marker text before thoughts
      ∧ (∀ last, IsMarker endMarker last → ¬ last <:+: thoughts)
      ∧ ((Router.new mode startMarker endMarker).step text).2.response = before := by
  have hnever : firstPhase mode (marker? startMarker) ≠ .inThinking := by
    unfold firstPhase
    split <;> simp
  have hsearching : (Router.new mode startMarker endMarker).phase = .searchingForStart := by
    obtain hphase | hphase := (step_phase (Router.new mode startMarker endMarker) text).2 h
    · exact hphase
    · exact absurd hphase hnever
  have hmode : mode = .enabled := by
    cases mode with
    | enabled => rfl
    | disabled => simp [Router.new, firstPhase] at hsearching
  refine ⟨hmode, ?_⟩
  cases hcut : (marker? startMarker).bind (Text.splitAtFirst · text) with
  | none =>
    -- the search would go on
    have hstep : (Router.new mode startMarker endMarker).step text
        = (Router.new mode startMarker endMarker).stepSearching text := by
      simp only [step, hsearching]
      rfl
    rw [hstep, stepSearching_of_missing rfl hcut, hsearching] at h
    contradiction
  | some cut =>
    obtain ⟨marker, hmarker, hfirst⟩ := bind_splitAtFirst_eq_some_iff.mp hcut
    refine ⟨marker, cut.1, cut.2, hmarker, hfirst, ?_⟩
    rw [new_step_of_found hmode hmarker hfirst] at h ⊢
    cases hend : (marker? endMarker).bind (Text.splitAtFirst · cut.2) with
    | none =>
      refine ⟨bind_splitAtFirst_eq_none_iff.mp hend, ?_⟩
      have hopen : (Router.new mode startMarker endMarker).endMarker.bind
          (Text.splitAtFirst · cut.2) = none := hend
      simp [stepThinking, hopen]
    | some inner =>
      have hclosed : (Router.new mode startMarker endMarker).endMarker.bind
          (Text.splitAtFirst · cut.2) = some inner := hend
      simp [stepThinking, stepResponse, hclosed] at h

/-- At the end marker the thinking is over: nothing is held back, and the line breaks behind the
    marker are dropped. -/
theorem new_step_closed {last thinking rest : List Char} (hmode : mode = .enabled)
    (hmarker : IsMarker startMarker marker) (hcut : Text.FirstCut marker text before behind)
    (hlast : IsMarker endMarker last) (hclose : Text.FirstCut last behind thinking rest) :
    ((Router.new mode startMarker endMarker).step text).1.phase = .inResponse
      ∧ ((Router.new mode startMarker endMarker).step text).1.pending = []
      ∧ ((Router.new mode startMarker endMarker).step text).2
        = { thinking, response := before ++ rest.dropWhile isLineBreak } := by
  have hclosed : (Router.new mode startMarker endMarker).endMarker.bind
      (Text.splitAtFirst · behind) = some (thinking, rest) :=
    bind_splitAtFirst_eq_some_iff.mpr ⟨last, hlast, hclose⟩
  rw [new_step_of_found hmode hmarker hcut]
  simp [stepThinking, stepResponse, hclosed, respond]

end New

end Router

/-! ## Section 3: The worker -/

namespace Channels

@[simp] theorem send_responseChunks (channels : Channels) (routed : Routed) :
    (channels.send routed).responseChunks
      = channels.responseChunks
        ++ if routed.response = [] then [] else [String.ofList routed.response] := by
  unfold send sendResponse sendThinking
  cases routed.thinking <;> cases routed.response <;> simp

@[simp] theorem sync_responseChunks (channels : Channels) (router : Router) :
    (channels.sync router).responseChunks = channels.responseChunks := by
  unfold sync
  split <;> rfl

end Channels

namespace Worker

variable {σ : Type}

theorem Step.options_eq {engine : Engine σ} {worker worker' : Worker} {session session' : Session σ}
    {text : List Char} (h : Step engine worker session text worker' session') :
    worker'.options = worker.options := by
  cases h <;> rfl

theorem Run.options_eq {engine : Engine σ} {worker worker' : Worker} {session session' : Session σ}
    {text : List Char} (h : Run engine worker session text worker' session') :
    worker'.options = worker.options := by
  induction h with
  | refl => rfl
  | step _ hstep ih => rw [hstep.options_eq, ih]

/-- The marker that is forced is the end marker and a line break, and it is forced in the
    thinking. -/
theorem forcedEnd?_eq_some {worker : Worker} {forced : String}
    (h : worker.forcedEnd? = some forced) :
    worker.router.phase = .inThinking ∧ ∃ marker, Router.IsMarker worker.options.endMarker marker
      ∧ forced.toList = marker ++ ['\n'] := by
  unfold forcedEnd? at h
  by_cases hthinking : (worker.router.isThinking && !worker.injected) = true
  · rw [if_pos hthinking] at h
    obtain ⟨text, htext, rfl⟩ := Option.map_eq_some_iff.mp h
    obtain ⟨hgiven, hne⟩ := Option.filter_eq_some_iff.mp htext
    have hphase : worker.router.phase = .inThinking := by
      rw [Bool.and_eq_true] at hthinking
      simpa [Router.isThinking] using hthinking.1
    refine ⟨hphase, text.toList, ⟨by simpa using hgiven, by simpa using hne⟩, by simp⟩
  · rw [if_neg hthinking] at h
    contradiction

/-- The one step by which a worker that goes on has forced the end of thinking. -/
theorem Step.forced_of_injected {engine : Engine σ} {worker worker' : Worker}
    {session session' : Session σ} {text : List Char}
    (h : Step engine worker session text worker' session') (hbefore : worker.injected = false)
    (hafter : worker'.injected = true) (hgoing : ∀ summary, worker'.stage ≠ .done summary) :
    ∃ forced, worker.stage = .predicting ∧ worker.forcedEnd? = some forced
      ∧ text = forced.toList ∧ worker'.stage = .predicting
      ∧ worker'.channels
        = (worker.channels.send (worker.router.step text).2).sync (worker.router.step text).1 := by
  cases h with
  | stop | deliver | token => exact absurd (hbefore.symm.trans hafter) (by simp)
  | budget | failedPrediction | failedPiece | stopped | full | failedInjection | ended =>
    exact absurd rfl (hgoing _)
  | forced hopen hmarker => exact ⟨_, hopen.1.1, hmarker, rfl, rfl, rfl⟩

/-- **What forcing the end of thinking comes to**, from `worker` to `worker'`.  Of `thoughts`, the
    text generated behind the start marker, the thinking channel has received `said`; and the
    injection puts `leaked` on the response channel. -/
structure Forced (options : StreamOptions) (text : List Char) (worker worker' : Worker)
    (marker thoughts said leaked : List Char) : Prop where
  generated : ∃ start before, Router.IsMarker options.startMarker start
    ∧ Text.FirstCut start text before thoughts
  isMarker : Router.IsMarker options.endMarker marker
  phase : worker'.router.phase = .inResponse
  pending : worker'.router.pending = []
  /-- The marker is looked for in the thoughts with the injected text behind them. -/
  cut : ∃ rest, Text.FirstCut marker (thoughts ++ marker ++ ['\n']) said rest
    ∧ leaked = rest.dropWhile Router.isLineBreak
  thinking : String.join worker'.channels.thinkingChunks = String.ofList said
  response : worker'.channels.responseChunks
    = worker.channels.responseChunks ++ if leaked = [] then [] else [String.ofList leaked]

theorem Follows.thinking_of_predicting {options : StreamOptions} {text : List Char}
    {worker : Worker} (h : Follows options text worker) (hstage : worker.stage = .predicting) :
    String.join worker.channels.thinkingChunks
      = String.ofList ((firstRouter options).step text).2.thinking := by
  rw [h.delivered.thinking, ← h.texts_of_predicting hstage]
  simp [Channels.texts]

/-- The end of thinking is forced at the first marker in the thoughts and the injected text. -/
theorem exists_forced {engine : Engine σ} {session : Session σ} {options : StreamOptions}
    {timer : Timer} {text more : List Char} {worker worker' : Worker} {last last' : Session σ}
    (hrun : Run engine (start engine session options timer) session text worker last)
    (hstep : Step engine worker last more worker' last') (hbefore : worker.injected = false)
    (hafter : worker'.injected = true) (hgoing : ∀ summary, worker'.stage ≠ .done summary) :
    ∃ marker thoughts said leaked, Forced options text worker worker' marker thoughts said leaked
      ∧ ¬ marker <:+: thoughts := by
  obtain ⟨forced, hstage, hforced, rfl, hstage', hchannels⟩ :=
    hstep.forced_of_injected hbefore hafter hgoing
  obtain ⟨hthinking, marker, hmarker, hinjected⟩ := forcedEnd?_eq_some hforced
  have hoptions : worker.options = options := hrun.options_eq
  have hfollows : Follows options text worker := by
    simpa using (start_follows engine session options timer).run hrun
  have hfollows' := hfollows.act hstep.act
  rw [hoptions] at hmarker
  rw [hfollows.router_eq] at hthinking
  obtain ⟨hmode, start, before, thoughts, hstart, hcut, habsent, hresponse⟩ :=
    Router.new_step_inThinking hthinking
  -- the marker stands behind the thoughts, so it is found there or before
  obtain ⟨said, rest, hclose⟩ : ∃ said rest,
      Text.FirstCut marker (thoughts ++ marker ++ ['\n']) said rest := by
    cases hsplit : Text.splitAtFirst marker (thoughts ++ marker ++ ['\n']) with
    | none =>
      exact absurd ⟨thoughts, ['\n'], rfl⟩ (Text.splitAtFirst_eq_none_iff.mp hsplit)
    | some cut => exact ⟨cut.1, cut.2, Text.splitAtFirst_eq_some_iff.mp hsplit⟩
  have hwhole : Text.FirstCut start (text ++ forced.toList) before
      (thoughts ++ marker ++ ['\n']) := by
    rw [← Text.splitAtFirst_eq_some_iff] at hcut ⊢
    rw [Text.splitAtFirst_append hcut _ hstart.2, hinjected, List.append_assoc]
  obtain ⟨hphase, hpending, hrouted⟩ :=
    Router.new_step_closed hmode hstart hwhole hmarker hclose
  have hadded : ((firstRouter options).step (text ++ forced.toList)).2
      = ((firstRouter options).step text).2.append (worker.router.step forced.toList).2 := by
    rw [hfollows.router_eq]
    exact congrArg Prod.snd (Router.step_append (Router.new_watchful _ _ _) text forced.toList)
  have hleaked : (worker.router.step forced.toList).2.response
      = rest.dropWhile Router.isLineBreak := by
    have hboth : ((firstRouter options).step text).2.response
          ++ (worker.router.step forced.toList).2.response
        = before ++ rest.dropWhile Router.isLineBreak :=
      congrArg Routed.response (hadded.symm.trans hrouted)
    rw [← hresponse] at hboth
    exact List.append_cancel_left hboth
  refine ⟨marker, thoughts, said, rest.dropWhile Router.isLineBreak,
    { generated := ⟨start, before, hstart, hcut⟩, isMarker := hmarker, phase := ?_, pending := ?_,
      cut := ⟨rest, hclose, rfl⟩, thinking := ?_, response := ?_ }, habsent marker hmarker⟩
  · rw [hfollows'.router_eq]
    exact hphase
  · rw [hfollows'.router_eq]
    exact hpending
  · rw [hfollows'.thinking_of_predicting hstage']
    exact congrArg (String.ofList ·.thinking) hrouted
  · rw [hchannels, Channels.sync_responseChunks, Channels.send_responseChunks, hleaked]

/-! ## Section 4: Markers with and without overlaps -/

/-- A marker that begins with a character it has nowhere else ends the thinking cleanly: the thinking
    channel receives all the thoughts, and nothing is put on the response channel. -/
theorem forced_end_of_head {engine : Engine σ} {session : Session σ} {options : StreamOptions}
    {timer : Timer} {text more : List Char} {worker worker' : Worker} {last last' : Session σ}
    {c : Char} {rest : List Char} (hhead : c ∉ rest)
    (hmarker : Router.IsMarker options.endMarker (c :: rest))
    (hrun : Run engine (start engine session options timer) session text worker last)
    (hstep : Step engine worker last more worker' last') (hbefore : worker.injected = false)
    (hafter : worker'.injected = true) (hgoing : ∀ summary, worker'.stage ≠ .done summary) :
    ∃ thoughts, Forced options text worker worker' (c :: rest) thoughts thoughts [] := by
  obtain ⟨marker, thoughts, said, leaked, hforced, habsent⟩ :=
    exists_forced hrun hstep hbefore hafter hgoing
  obtain rfl : marker = c :: rest := Router.isMarker_unique hforced.isMarker hmarker
  refine ⟨thoughts, ?_⟩
  obtain ⟨tail, hcut, hleaked⟩ := hforced.cut
  have hbehind : Text.FirstCut (c :: rest) (thoughts ++ c :: rest ++ ['\n']) thoughts ['\n'] :=
    Text.firstCut_behind_iff.mpr (Text.not_overlaps_of_head hhead habsent)
  obtain ⟨rfl, rfl⟩ := hcut.unique hbehind
  obtain rfl : leaked = [] := hleaked
  exact hforced

/-- **Forcing the end of thinking** leaves the router in the response with nothing held back.  The
    thinking channel has received all the thoughts, and the injection puts nothing on the response
    channel, exactly if the end marker does not overlap the thoughts. -/
theorem forced_end_iff (engine : Engine σ) (session : Session σ) (options : StreamOptions)
    (timer : Timer) {text more : List Char} {worker worker' : Worker} {last last' : Session σ}
    (hrun : Run engine (start engine session options timer) session text worker last)
    (hstep : Step engine worker last more worker' last') (hbefore : worker.injected = false)
    (hafter : worker'.injected = true) (hgoing : ∀ summary, worker'.stage ≠ .done summary) :
    ∃ marker thoughts said leaked, Forced options text worker worker' marker thoughts said leaked
      ∧ (said = thoughts ∧ leaked = [] ↔ ¬ Text.Overlaps marker thoughts) := by
  obtain ⟨marker, thoughts, said, leaked, hforced, -⟩ :=
    exists_forced hrun hstep hbefore hafter hgoing
  refine ⟨marker, thoughts, said, leaked, hforced, ?_⟩
  obtain ⟨rest, hcut, rfl⟩ := hforced.cut
  have hbehind : Text.FirstCut marker (thoughts ++ marker ++ ['\n']) thoughts ['\n']
      ↔ ¬ Text.Overlaps marker thoughts := Text.firstCut_behind_iff
  rw [← hbehind]
  constructor
  · rintro ⟨rfl, -⟩
    have hrest : rest = ['\n'] := by
      have heq := hcut.text_eq
      exact (List.append_cancel_left heq).symm
    rwa [hrest] at hcut
  · intro hbehind
    obtain ⟨rfl, rfl⟩ := hcut.unique hbehind
    exact ⟨rfl, rfl⟩

/-- A step that counts a token hands over its text. -/
theorem step_token {engine : Engine σ} {worker : Worker} {session : Session σ} {piece : String}
    (hstage : worker.stage = .predicting) (hroom : worker.produced < worker.options.maxNewTokens)
    (h : succeedsWith (Session.predictNext engine worker.excluding) session (fun token next =>
      token ≠ worker.eos && succeedsWith (Vocabulary.piece engine token false) next.vocab
        (fun text _ => text = piece)) = true) :
    Step engine worker session piece.toList (worker.step engine session).1
      (worker.step engine session).2 := by
  obtain ⟨token, next, hpredict, hcheck⟩ := exists_ok _ _ _ h
  obtain ⟨htoken, htold⟩ : token ≠ worker.eos ∧ _ := by simpa using hcheck
  obtain ⟨text, vocab, htext, hsame⟩ := exists_ok _ _ _ htold
  obtain rfl : text = piece := by simpa using hsame
  have hstep : worker.step engine session
      = (worker.unmasked.produce text.toList, { next with vocab }) := by
    unfold step predict
    simp only [hstage, if_neg (Nat.not_le.mpr hroom), hpredict, if_neg htoken, htext]
    rfl
  rw [hstep]
  exact .token ⟨hstage, hroom, hpredict⟩ htoken htext

/-- A step that sends what was routed hands over nothing. -/
theorem step_of_sending {engine : Engine σ} {worker : Worker} {session : Session σ}
    {routed : Routed} (hstage : worker.stage = .sending routed) :
    Step engine worker session [] (worker.step engine session).1
      (worker.step engine session).2 := by
  have hstep : worker.step engine session = (worker.deliver routed, session) := by
    simp only [step, hstage]
  rw [hstep]
  exact .deliver hstage

/-- An engine that thinks a letter and then ends its sequence. -/
def musing : Tabulated where
  pieces := [['^'], ['$'], ['h'], ['<'], ['a'], ['a', 'a'], ['\n'], ['b']]
  rows := [[(3, 5)], [(4, 5)], [(1, 5)], [(7, 5)], [(1, 5)]]

/-- A session over it, primed with one letter. -/
def musingSession : Session Tabulated :=
  after (Session.prepareContext Tabulated.engine "h") (Session.new musing .greedy)

/-- The thinking begins with an angle bracket and ends with the given marker. -/
def musingOptions (marker : String) : StreamOptions where
  startMarker := some "<"
  endMarker := some marker

/-- What the worker has come to after so many steps. -/
def mused (marker : String) (count : Nat) : Worker × Session Tabulated :=
  (fun moment => moment.1.step Tabulated.engine moment.2)^[count]
    (start Tabulated.engine musingSession (musingOptions marker) {}, musingSession)

/-- The worker has thought a letter; the next step forces the end of thinking. -/
theorem mused_run {marker : String} (h : marker = "aa" ∨ marker = "b") :
    Run Tabulated.engine (start Tabulated.engine musingSession (musingOptions marker) {})
        musingSession ['<', 'a'] (mused marker 4).1 (mused marker 4).2
      ∧ (∃ more, Step Tabulated.engine (mused marker 4).1 (mused marker 4).2 more
        (mused marker 5).1 (mused marker 5).2)
      ∧ (mused marker 4).1.injected = false ∧ (mused marker 5).1.injected = true
      ∧ ∀ summary, (mused marker 5).1.stage ≠ .done summary := by
  have hfirst : Step Tabulated.engine (mused marker 0).1 (mused marker 0).2 "<".toList
      (mused marker 1).1 (mused marker 1).2 := by
    apply step_token <;> obtain rfl | rfl := h <;> decide +kernel
  have hheld : (mused marker 1).1.stage = .sending {} ∧ (mused marker 3).1.stage = .sending {} := by
    obtain rfl | rfl := h <;> decide +kernel
  have hsecond : Step Tabulated.engine (mused marker 1).1 (mused marker 1).2 []
      (mused marker 2).1 (mused marker 2).2 := step_of_sending hheld.1
  have hthird : Step Tabulated.engine (mused marker 2).1 (mused marker 2).2 "a".toList
      (mused marker 3).1 (mused marker 3).2 := by
    apply step_token <;> obtain rfl | rfl := h <;> decide +kernel
  have hfourth : Step Tabulated.engine (mused marker 3).1 (mused marker 3).2 []
      (mused marker 4).1 (mused marker 4).2 := step_of_sending hheld.2
  have hstages : (mused marker 4).1.stage = .predicting
      ∧ (mused marker 5).1.stage = .predicting := by
    obtain rfl | rfl := h <;> decide +kernel
  refine ⟨.step (.step (.step (.step .refl hfirst) hsecond) hthird) hfourth,
    step_sound _ _ _ (by simp [hstages.1]), ?_, ?_, by simp [hstages.2]⟩
  · obtain rfl | rfl := h <;> decide +kernel
  · obtain rfl | rfl := h <;> decide +kernel

/-- A marker of another letter overlaps no thoughts of this engine. -/
theorem forced_end_iff_musing :
    Run Tabulated.engine (start Tabulated.engine musingSession (musingOptions "b") {})
        musingSession ['<', 'a'] (mused "b" 4).1 (mused "b" 4).2
      ∧ (∃ more, Step Tabulated.engine (mused "b" 4).1 (mused "b" 4).2 more (mused "b" 5).1
        (mused "b" 5).2)
      ∧ (mused "b" 4).1.injected = false ∧ (mused "b" 5).1.injected = true
      ∧ (∀ summary, (mused "b" 5).1.stage ≠ .done summary)
      ∧ ∃ marker thoughts said leaked, Forced (musingOptions "b") ['<', 'a'] (mused "b" 4).1
          (mused "b" 5).1 marker thoughts said leaked ∧ said = thoughts ∧ leaked = [] := by
  obtain ⟨hrun, ⟨more, hstep⟩, hbefore, hafter, hgoing⟩ := mused_run (.inr rfl)
  obtain ⟨marker, thoughts, said, leaked, hforced, hclean⟩ :=
    forced_end_iff _ _ _ _ hrun hstep hbefore hafter hgoing
  refine ⟨hrun, ⟨more, hstep⟩, hbefore, hafter, hgoing, marker, thoughts, said, leaked, hforced,
    hclean.mpr ?_⟩
  obtain rfl : marker = ['b'] := Router.isMarker_unique hforced.isMarker ⟨rfl, by simp⟩
  obtain ⟨first, before, hfirst, hcut⟩ := hforced.generated
  obtain rfl : first = ['<'] := Router.isMarker_unique hfirst ⟨rfl, by simp⟩
  have hthought : Text.FirstCut ['<'] ['<', 'a'] [] ['a'] :=
    Text.splitAtFirst_eq_some_iff.mp (by decide)
  obtain ⟨-, rfl⟩ := hcut.unique hthought
  exact Text.not_overlaps_of_head (by simp) (by decide)

/-- **A forced end leaks.**  The thought is one half of the end marker.  The marker is found half a
    marker too early, so the thought is lost to the thinking channel, and the other half of the
    injected marker is put on the response channel. -/
theorem forced_end_leaks :
    Run Tabulated.engine (start Tabulated.engine musingSession (musingOptions "aa") {})
        musingSession ['<', 'a'] (mused "aa" 4).1 (mused "aa" 4).2
      ∧ (∃ more, Step Tabulated.engine (mused "aa" 4).1 (mused "aa" 4).2 more (mused "aa" 5).1
        (mused "aa" 5).2)
      ∧ (mused "aa" 4).1.injected = false ∧ (mused "aa" 5).1.injected = true
      ∧ (∀ summary, (mused "aa" 5).1.stage ≠ .done summary)
      ∧ Text.FirstCut ['<'] ['<', 'a'] [] ['a']
      ∧ (mused "aa" 5).1.channels.thinkingChunks = []
      ∧ (mused "aa" 4).1.channels.responseChunks = []
      ∧ (mused "aa" 5).1.channels.responseChunks = ["a\n"] := by
  obtain ⟨hrun, hstep, hbefore, hafter, hgoing⟩ := mused_run (.inl rfl)
  refine ⟨hrun, hstep, hbefore, hafter, hgoing, Text.splitAtFirst_eq_some_iff.mp (by decide), ?_⟩
  decide +kernel

end Worker

end Parley
