import Parley.Proofs.Constrained.Hand
import Parley.Proofs.Lexicon

/-! # Hands in step with a context

    A watched hand keeps a list of its acts and may only act so many times, `Hand.watched`: then it
    comes to rest.  So the points at which it comes to rest are those between two acts, and if it
    may act often enough, it comes to the end: `ActsEnough`.

    What acts put into a context, and what text they write, is told by a lexicon: `Recounts`.  A
    hand that feeds a context by the lexicon stays in step with it, `Writer.together_staysInStep`:
    at each point the context holds the tokens of its acts, and the text is what these are rendered
    as.
-/

namespace Parley

open Step

variable {ε s α β : Type}

/-! ## Section 1: Watched hands -/

/-- What a hand does when it acts. -/
inductive Act
  | chose (chosen : Option TokenId)
  | took (token : TokenId)
  | fed (text : String)
  deriving DecidableEq, Repr

/-- A watched hand: its state, how many times it may still act, and its acts, the oldest first. -/
structure Watch (s : Type) where
  state : s
  left : ℕ
  acts : List Act := []

namespace Hand

/-- Acts, unless that is no longer allowed: then the hand comes to rest. -/
def watching (act : α → Act) (step : EStateM ε s α) : EStateM (Option ε) (Watch s) α := fun watch =>
  match watch.left with
  | 0 => .error none watch
  | left + 1 =>
    match step watch.state with
    | .ok value state => .ok value { state, left, acts := watch.acts ++ [act value] }
    | .error error state => .error (some error) { watch with state, left }

/-- Runs a step that is no act. -/
def aside (step : EStateM ε s α) : EStateM (Option ε) (Watch s) α := fun watch =>
  match step watch.state with
  | .ok value state => .ok value { watch with state }
  | .error error state => .error (some error) { watch with state }

/-- The hand, watched.  It fails with `none` where it comes to rest. -/
def watched (hand : Hand ε s) : Hand (Option ε) (Watch s) where
  choose allowed := watching .chose (hand.choose allowed)
  accept token := watching (fun _ => .took token) (hand.accept token)
  feed text := watching (fun _ => .fed text) (hand.feed text)
  piece token := aside (hand.piece token)
  room watch := hand.room watch.state

/-- The hand with other choices. -/
def choosing (hand : Hand ε s) (choose : TokenSet → EStateM ε s (Option TokenId)) : Hand ε s :=
  { hand with choose }

end Hand

/-! ### The last point

    A hand that may act often enough does not come to rest. -/

/-- The watched step did not come to rest and came to the same end.  If it succeeded, the hand may
    act `spare` times more. -/
inductive SameEnd (spare : ℕ) : EStateM.Result (Option ε) (Draft (Watch s)) α →
    EStateM.Result ε (Draft s) α → Prop
  | ok (value : α) (state : s) (acts : List Act) (text : String) :
    SameEnd spare (.ok value ⟨⟨state, spare, acts⟩, text⟩) (.ok value ⟨state, text⟩)
  | error (error : ε) (watch : Watch s) (text : String) :
    SameEnd spare (.error (some error) ⟨watch, text⟩) (.error error ⟨watch.state, text⟩)

/-- A number of acts is enough for the watched step. -/
def ActsEnough (step : WriterM ε s α) (watched : WriterM (Option ε) (Watch s) α) : Prop :=
  ∀ draft, ∃ enough, ∀ spare acts,
    SameEnd spare (watched ⟨⟨draft.hand, enough + spare, acts⟩, draft.text⟩) (step draft)

namespace Writer

theorem actsEnough_watching (act : α → Act) (step : EStateM ε s α) :
    ActsEnough (onHand step) (onHand (Hand.watching act step)) := by
  intro draft
  refine ⟨1, fun spare acts => ?_⟩
  rw [Nat.add_comm]
  unfold onHand Hand.watching
  dsimp only
  cases step draft.hand with
  | ok value state => exact .ok value state _ draft.text
  | error error state => exact .error error ⟨state, spare, acts⟩ draft.text

theorem actsEnough_aside (step : EStateM ε s α) :
    ActsEnough (onHand step) (onHand (Hand.aside step)) := by
  intro draft
  refine ⟨0, fun spare acts => ?_⟩
  rw [Nat.zero_add]
  unfold onHand Hand.aside
  dsimp only
  cases step draft.hand with
  | ok value state => exact .ok value state acts draft.text
  | error error state => exact .error error ⟨state, spare, acts⟩ draft.text

theorem ActsEnough.bind {step : WriterM ε s α} {watched : WriterM (Option ε) (Watch s) α}
    {next : α → WriterM ε s β} {watchedNext : α → WriterM (Option ε) (Watch s) β}
    (h : ActsEnough step watched) (hnext : ∀ value, ActsEnough (next value) (watchedNext value)) :
    ActsEnough (step >>= next) (watched >>= watchedNext) := by
  intro draft
  obtain ⟨first, hfirst⟩ := h draft
  cases hstep : step draft with
  | error error later =>
    refine ⟨first, fun spare acts => ?_⟩
    have hend := hfirst spare acts
    rw [hstep] at hend
    generalize hwatched : watched _ = outcome at hend
    cases hend with
    | error _ watch text =>
      rw [bind_error hwatched, bind_error hstep]
      exact .error error watch text
  | ok value later =>
    obtain ⟨second, hsecond⟩ := hnext value later
    refine ⟨first + second, fun spare acts => ?_⟩
    -- what the first step leaves is enough for the second one
    have hend := hfirst (second + spare) acts
    rw [hstep, ← Nat.add_assoc] at hend
    generalize hwatched : watched _ = outcome at hend
    cases hend with
    | ok _ state acts text =>
      rw [bind_ok hwatched, bind_ok hstep]
      exact hsecond spare acts

/-- **No run goes on for ever**: a number of acts is enough. -/
theorem parallel_actsEnough (hand : Hand ε s) : Parallel ActsEnough hand hand.watched where
  pure value draft := ⟨0, fun spare acts => by rw [Nat.zero_add]; exact .ok value _ _ _⟩
  bind := ActsEnough.bind
  choose _ := actsEnough_watching _ _
  accept _ := actsEnough_watching _ _
  feed _ := actsEnough_watching _ _
  piece _ := actsEnough_aside _
  append text draft := ⟨0, fun spare acts => by rw [Nat.zero_add]; exact .ok () _ _ _⟩
  patience most draft := ⟨0, fun spare acts => by rw [Nat.zero_add]; exact .ok _ _ _ _⟩

end Writer

/-! ## Section 2: Tokens and text of some acts -/

/-- **What acts come to**: the tokens that they put into the context, and the text that they write.
    To choose does neither. -/
inductive Recounts (lexicon : Lexicon) : List Act → List TokenId → String → Prop
  | none : Recounts lexicon [] [] ""
  | chose {acts : List Act} {tokens : List TokenId} {text : String} {chosen : Option TokenId}
    (h : Recounts lexicon acts tokens text) :
    Recounts lexicon (acts ++ [.chose chosen]) tokens text
  | took {acts : List Act} {tokens : List TokenId} {text piece : String} {token : TokenId}
    (h : Recounts lexicon acts tokens text) (hpiece : lexicon.text token false = .ok piece) :
    Recounts lexicon (acts ++ [.took token]) (tokens ++ [token]) (text ++ piece)
  | fed {acts : List Act} {tokens more : List TokenId} {text added : String}
    (h : Recounts lexicon acts tokens text) (hmore : lexicon.tokens added false false = .ok more) :
    Recounts lexicon (acts ++ [.fed added]) (tokens ++ more) (text ++ added)

/-- The tokens of acts are rendered as their text. -/
theorem Recounts.rendered {lexicon : Lexicon} (hlossless : lexicon.Lossless) {acts : List Act}
    {tokens : List TokenId} {text : String} (h : Recounts lexicon acts tokens text) :
    lexicon.rendered tokens = .ok text := by
  induction h with
  | none => rfl
  | chose h ih => exact ih
  | took h hpiece ih => exact Lexicon.rendered_append ih (Lexicon.rendered_singleton hpiece)
  | fed h hmore ih => exact Lexicon.rendered_append ih (hlossless _ _ hmore)

/-- **In step.**  Behind `start` the context holds the tokens of the acts, the text is that of the
    acts, and the tokens are rendered as the text. -/
def Draft.InStep (lexicon : Lexicon) (context : s → List TokenId) (start : List TokenId)
    (draft : Draft (Watch s)) : Prop :=
  ∃ tokens, context draft.hand.state = start ++ tokens
    ∧ Recounts lexicon draft.hand.acts tokens draft.text ∧ lexicon.rendered tokens = .ok draft.text

/-- The tokens of an act, or none. -/
def Lexicon.OfAct (lexicon : Lexicon) (tokens : List TokenId) : Prop :=
  tokens = [] ∨ (∃ token, tokens = [token]) ∨ ∃ text, lexicon.tokens text false false = .ok tokens

/-- **Ahead.**  Behind `start` the context holds tokens that are rendered as the text, and maybe
    those of one more act. -/
def Draft.Ahead (lexicon : Lexicon) (context : s → List TokenId) (start : List TokenId)
    (draft : Draft (Watch s)) : Prop :=
  ∃ tokens rest, context draft.hand.state = start ++ tokens ++ rest
    ∧ lexicon.rendered tokens = .ok draft.text ∧ lexicon.OfAct rest

/-! ## Section 3: Hands that feed a context -/

/-- **What a step puts into the context.**  If it succeeds, it keeps the invariant and puts tokens
    behind the context, and `post` holds of its result and these.  If it fails, `left` holds of the
    tokens that it put there. -/
def Grows (inv : s → Prop) (context : s → List TokenId) (step : EStateM ε s α) (state : s)
    (post : α → List TokenId → Prop) (left : List TokenId → Prop) : Prop :=
  match step state with
  | .ok value later =>
    inv later ∧ ∃ tokens, post value tokens ∧ context later = context state ++ tokens
  | .error _ later => ∃ tokens, left tokens ∧ context later = context state ++ tokens

/-- **A hand that feeds a context** by the tokens of a lexicon: it feeds a text as the tokens of
    that text and accepts a token as it is, all of them or none if it fails, and whatever else it
    does leaves the context alone. -/
structure Hand.Feeds (hand : Hand ε s) (lexicon : Lexicon) (inv : s → Prop)
    (context : s → List TokenId) : Prop where
  choose : ∀ allowed {state}, inv state →
    Grows inv context (hand.choose allowed) state (fun _ tokens => tokens = [])
      fun tokens => tokens = []
  accept : ∀ token {state}, inv state →
    Grows inv context (hand.accept token) state (fun _ tokens => tokens = [token])
      fun tokens => tokens = [] ∨ tokens = [token]
  feed : ∀ text {state}, inv state →
    Grows inv context (hand.feed text) state
      (fun _ tokens => lexicon.tokens text false false = .ok tokens)
      fun tokens => tokens = [] ∨ lexicon.tokens text false false = .ok tokens
  piece : ∀ token {state}, inv state →
    Grows inv context (hand.piece token) state
      (fun text tokens => tokens = [] ∧ lexicon.text token false = .ok text)
      fun tokens => tokens = []

/-! ### Rules -/

section Grows

variable {inv : s → Prop} {context : s → List TokenId} {step other : EStateM ε s α} {state : s}
  {first post : α → List TokenId → Prop} {left : List TokenId → Prop}

theorem Grows.of_ok {value : α} {later : s} (h : Grows inv context step state post left)
    (hstep : step state = .ok value later) :
    inv later ∧ ∃ tokens, post value tokens ∧ context later = context state ++ tokens := by
  unfold Grows at h
  rwa [hstep] at h

theorem Grows.of_error {error : ε} {later : s} (h : Grows inv context step state post left)
    (hstep : step state = .error error later) :
    ∃ tokens, left tokens ∧ context later = context state ++ tokens := by
  unfold Grows at h
  rwa [hstep] at h

theorem grows_of_ok {value : α} {later : s} {tokens : List TokenId}
    (hstep : step state = .ok value later) (hinv : inv later) (hpost : post value tokens)
    (hcontext : context later = context state ++ tokens) :
    Grows inv context step state post left := by
  unfold Grows
  rw [hstep]
  exact ⟨hinv, tokens, hpost, hcontext⟩

theorem grows_of_error {error : ε} {later : s} {tokens : List TokenId}
    (hstep : step state = .error error later) (hleft : left tokens)
    (hcontext : context later = context state ++ tokens) :
    Grows inv context step state post left := by
  unfold Grows
  rw [hstep]
  exact ⟨tokens, hleft, hcontext⟩

theorem grows_pure {value : α} (hinv : inv state) (h : post value []) :
    Grows (ε := ε) inv context (pure value) state post left :=
  ⟨hinv, [], h, (List.append_nil _).symm⟩

/-- Reading the state gives the state. -/
theorem grows_get {next : s → EStateM ε s α} (h : Grows inv context (next state) state post left) :
    Grows inv context (get >>= next) state post left := h

theorem grows_ite {p : Prop} [Decidable p] (hthen : p → Grows inv context step state post left)
    (helse : ¬ p → Grows inv context other state post left) :
    Grows inv context (if p then step else other) state post left := by
  by_cases hp : p
  · rw [if_pos hp]
    exact hthen hp
  · rw [if_neg hp]
    exact helse hp

/-- The tokens of two steps are behind one another. -/
theorem Grows.bind {next : α → EStateM ε s β} {last : β → List TokenId → Prop}
    (h : Grows inv context step state first left)
    (hnext : ∀ value later tokens, first value tokens → inv later →
      Grows inv context (next value) later (fun result more => last result (tokens ++ more))
        fun more => left (tokens ++ more)) :
    Grows inv context (step >>= next) state last left := by
  cases hstep : step state with
  | error error later =>
    obtain ⟨tokens, hleft, hcontext⟩ := h.of_error hstep
    exact grows_of_error (bind_error hstep) hleft hcontext
  | ok value later =>
    obtain ⟨hinv, tokens, hfirst, hcontext⟩ := h.of_ok hstep
    have hlater := hnext value later tokens hfirst hinv
    -- whether the second step fails or not, its tokens are behind those of the first one
    cases hrun : next value later with
    | error error last =>
      obtain ⟨more, hleft, hmore⟩ := hlater.of_error hrun
      rw [hcontext, List.append_assoc] at hmore
      exact grows_of_error ((bind_ok hstep).trans hrun) hleft hmore
    | ok result last =>
      obtain ⟨hinv, more, hlast, hmore⟩ := hlater.of_ok hrun
      rw [hcontext, List.append_assoc] at hmore
      exact grows_of_ok ((bind_ok hstep).trans hrun) hinv hlast hmore

theorem Grows.mono {wider : List TokenId → Prop} (h : Grows inv context step state first left)
    (hpost : ∀ value tokens, first value tokens → post value tokens)
    (hwider : ∀ tokens, left tokens → wider tokens) : Grows inv context step state post wider := by
  cases hstep : step state with
  | error error later =>
    obtain ⟨tokens, hleft, hcontext⟩ := h.of_error hstep
    exact grows_of_error hstep (hwider tokens hleft) hcontext
  | ok value later =>
    obtain ⟨hinv, tokens, hfirst, hcontext⟩ := h.of_ok hstep
    exact grows_of_ok hstep hinv (hpost value tokens hfirst) hcontext

end Grows

/-! ### Hands that feed stay in step -/

namespace Writer

/-- A watched hand came to rest, failed, or acted. -/
inductive Acted (act : α → Act) (step : EStateM ε s α) (draft : Draft (Watch s)) :
    EStateM.Result (Option ε) (Draft (Watch s)) α → Prop
  | rested (hleft : draft.hand.left = 0) : Acted act step draft (.error none draft)
  | failed {error : ε} {state : s} {left : ℕ} (h : step draft.hand.state = .error error state) :
    Acted act step draft (.error (some error) ⟨⟨state, left, draft.hand.acts⟩, draft.text⟩)
  | acted {value : α} {state : s} {left : ℕ} (h : step draft.hand.state = .ok value state)
    (hleft : draft.hand.left = left + 1) :
    Acted act step draft (.ok value ⟨⟨state, left, draft.hand.acts ++ [act value]⟩, draft.text⟩)

theorem acted_watching (act : α → Act) (step : EStateM ε s α) (draft : Draft (Watch s)) :
    Acted act step draft (onHand (Hand.watching act step) draft) := by
  unfold onHand Hand.watching
  cases hleft : draft.hand.left with
  | zero => exact .rested hleft
  | succ left =>
    cases hstep : step draft.hand.state with
    | ok value state => exact .acted hstep hleft
    | error error state => exact .failed hstep

section Piece

variable {hand : Hand ε s} {token : TokenId} {state later : s} {left : ℕ} {acts : List Act}
  {text : String}

theorem watched_piece_ok {piece : String} (h : hand.piece token state = .ok piece later) :
    onHand (hand.watched.piece token) ⟨⟨state, left, acts⟩, text⟩
      = .ok piece ⟨⟨later, left, acts⟩, text⟩ := by
  unfold onHand Hand.watched Hand.aside
  simp only [h]

theorem watched_piece_error {error : ε} (h : hand.piece token state = .error error later) :
    onHand (hand.watched.piece token) ⟨⟨state, left, acts⟩, text⟩
      = .error (some error) ⟨⟨later, left, acts⟩, text⟩ := by
  unfold onHand Hand.watched Hand.aside
  simp only [h]

end Piece

/-- **A steady end.**  A step that succeeds, or in which the hand comes to rest behind `count` acts,
    leaves a draft that is in step.  If the hand fails, the context may be ahead of the text. -/
inductive Steady (lexicon : Lexicon) (inv : s → Prop) (context : s → List TokenId)
    (start : List TokenId) (count : ℕ) : EStateM.Result (Option ε) (Draft (Watch s)) α → Prop
  | ok {value : α} {draft : Draft (Watch s)} (hinv : inv draft.hand.state)
    (hcount : draft.hand.left + draft.hand.acts.length = count)
    (h : draft.InStep lexicon context start) :
    Steady lexicon inv context start count (.ok value draft)
  | rested {draft : Draft (Watch s)} (hcount : draft.hand.acts.length = count)
    (h : draft.InStep lexicon context start) :
    Steady lexicon inv context start count (.error none draft)
  | failed {error : ε} {draft : Draft (Watch s)} (h : draft.Ahead lexicon context start) :
    Steady lexicon inv context start count (.error (some error) draft)

/-- From a draft in step, the step comes to a steady end. -/
def StaysInStep (lexicon : Lexicon) (inv : s → Prop) (context : s → List TokenId)
    (start : List TokenId) (step : WriterM (Option ε) (Watch s) α) : Prop :=
  ∀ draft, inv draft.hand.state → draft.InStep lexicon context start →
    Steady lexicon inv context start (draft.hand.left + draft.hand.acts.length) (step draft)

section StaysInStep

variable {lexicon : Lexicon} {inv : s → Prop} {context : s → List TokenId} {start : List TokenId}
  {hand : Hand ε s} {draft : Draft (Watch s)}

theorem StaysInStep.bind {step : WriterM (Option ε) (Watch s) α}
    {next : α → WriterM (Option ε) (Watch s) β} (h : StaysInStep lexicon inv context start step)
    (hnext : ∀ value, StaysInStep lexicon inv context start (next value)) :
    StaysInStep lexicon inv context start (step >>= next) := by
  intro draft hinv hin
  have hfirst := h draft hinv hin
  generalize hstep : step draft = outcome at hfirst
  cases hfirst with
  | ok hinv hcount h =>
    rw [bind_ok hstep, ← hcount]
    exact hnext _ _ hinv h
  | rested hcount h =>
    rw [bind_error hstep]
    exact .rested hcount h
  | failed h =>
    rw [bind_error hstep]
    exact .failed h

/-- An act is one that is no longer left. -/
theorem count_acted {left : ℕ} (hleft : draft.hand.left = left + 1) (act : Act) :
    left + (draft.hand.acts ++ [act]).length = draft.hand.left + draft.hand.acts.length := by
  rw [hleft, List.length_append, List.length_singleton]
  omega

/-- Where the hand fails at an act, the context holds what it held, and maybe the tokens of the
    act. -/
theorem ahead_of_failed {step : EStateM ε s α} {post : α → List TokenId → Prop}
    {left : List TokenId → Prop} {error : ε} {state : s} {count : ℕ} {acts : List Act}
    (h : Grows inv context step draft.hand.state post left)
    (hstep : step draft.hand.state = .error error state)
    (hleft : ∀ tokens, left tokens → lexicon.OfAct tokens)
    (hin : draft.InStep lexicon context start) :
    Draft.Ahead lexicon context start ⟨⟨state, count, acts⟩, draft.text⟩ := by
  obtain ⟨tokens, hcontext, -, hrendered⟩ := hin
  obtain ⟨rest, hrest, hlater⟩ := h.of_error hstep
  rw [hcontext] at hlater
  exact ⟨tokens, rest, hlater, hrendered, hleft rest hrest⟩

variable (hhand : hand.Feeds lexicon inv context) (hlossless : lexicon.Lossless)
include hhand

theorem staysInStep_choose (allowed : TokenSet) :
    StaysInStep lexicon inv context start (choose hand.watched allowed) := by
  intro draft hinv hin
  have hgrows := hhand.choose allowed hinv
  have hacted : Acted .chose (hand.choose allowed) draft (choose hand.watched allowed draft) :=
    acted_watching _ _ _
  generalize choose hand.watched allowed draft = outcome at hacted
  cases hacted with
  | rested hleft => exact .rested (by rw [hleft, Nat.zero_add]) hin
  | failed hstep => exact .failed (ahead_of_failed hgrows hstep (fun _ => .inl) hin)
  | acted hstep hleft =>
    obtain ⟨hinv, _, rfl, hlater⟩ := hgrows.of_ok hstep
    obtain ⟨tokens, hcontext, hrecounts, hrendered⟩ := hin
    rw [List.append_nil, hcontext] at hlater
    exact .ok hinv (count_acted hleft _) ⟨tokens, hlater, hrecounts.chose, hrendered⟩

theorem staysInStep_piece (token : TokenId) :
    StaysInStep lexicon inv context start (onHand (hand.watched.piece token)) := by
  intro draft hinv hin
  have hgrows := hhand.piece token hinv
  cases hstep : hand.piece token draft.hand.state with
  | error error state =>
    rw [show onHand (hand.watched.piece token) draft = _ from watched_piece_error hstep]
    exact .failed (ahead_of_failed hgrows hstep (fun _ => .inl) hin)
  | ok text state =>
    rw [show onHand (hand.watched.piece token) draft = _ from watched_piece_ok hstep]
    obtain ⟨hinv, _, ⟨rfl, -⟩, hlater⟩ := hgrows.of_ok hstep
    obtain ⟨tokens, hcontext, hrecounts, hrendered⟩ := hin
    rw [List.append_nil, hcontext] at hlater
    exact .ok hinv rfl ⟨tokens, hlater, hrecounts, hrendered⟩

include hlossless

theorem staysInStep_literal (text : String) :
    StaysInStep lexicon inv context start (literal hand.watched text) := by
  intro draft hinv hin
  have hgrows := hhand.feed text hinv
  have hacted : Acted (fun _ => .fed text) (hand.feed text) draft
      (onHand (hand.watched.feed text) draft) := acted_watching _ _ _
  unfold literal
  generalize hrun : onHand (hand.watched.feed text) draft = outcome at hacted
  cases hacted with
  | rested hleft =>
    rw [bind_error hrun]
    exact .rested (by rw [hleft, Nat.zero_add]) hin
  | failed hstep =>
    rw [bind_error hrun]
    exact .failed (ahead_of_failed hgrows hstep
      (fun _ => Or.imp_right fun hfed => .inr ⟨text, hfed⟩) hin)
  | acted hstep hleft =>
    rw [bind_ok hrun]
    obtain ⟨hinv, more, hmore, hlater⟩ := hgrows.of_ok hstep
    obtain ⟨tokens, hcontext, hrecounts, -⟩ := hin
    -- the text is written once its tokens are in the context
    have hnew := hrecounts.fed hmore
    rw [hcontext, List.append_assoc] at hlater
    exact .ok hinv (count_acted hleft _) ⟨tokens ++ more, hlater, hnew, hnew.rendered hlossless⟩

/-- The piece of a token that was taken is asked for before it is written. -/
theorem staysInStep_take (token : TokenId) :
    StaysInStep lexicon inv context start (take hand.watched token) := by
  intro draft hinv hin
  have hgrows := hhand.accept token hinv
  have hacted : Acted (fun _ => .took token) (hand.accept token) draft
      (onHand (hand.watched.accept token) draft) := acted_watching _ _ _
  unfold take
  generalize hrun : onHand (hand.watched.accept token) draft = outcome at hacted
  cases hacted with
  | rested hleft =>
    rw [bind_error hrun]
    exact .rested (by rw [hleft, Nat.zero_add]) hin
  | failed hstep =>
    rw [bind_error hrun]
    exact .failed (ahead_of_failed hgrows hstep
      (fun _ => Or.imp_right fun htaken => .inl ⟨token, htaken⟩) hin)
  | @acted _ state left hstep hleft =>
    rw [bind_ok hrun]
    obtain ⟨hinv, _, rfl, hlater⟩ := hgrows.of_ok hstep
    obtain ⟨tokens, hcontext, hrecounts, hrendered⟩ := hin
    rw [hcontext, List.append_assoc] at hlater
    have htold := hhand.piece token hinv
    cases hpiece : hand.piece token state with
    | error error last =>
      -- the token is in the context, and its text cannot be told
      obtain ⟨_, rfl, hlast⟩ := htold.of_error hpiece
      rw [hlater, List.append_nil, ← List.append_assoc] at hlast
      rw [bind_error (watched_piece_error hpiece)]
      exact .failed ⟨tokens, [token], hlast, hrendered, .inr (.inl ⟨token, rfl⟩)⟩
    | ok piece last =>
      obtain ⟨hinv, _, ⟨rfl, htext⟩, hlast⟩ := htold.of_ok hpiece
      rw [hlater, List.append_nil] at hlast
      rw [bind_ok (watched_piece_ok hpiece)]
      have hnew := hrecounts.took htext
      refine .ok hinv (count_acted hleft _) ⟨tokens ++ [token], hlast, hnew, ?_⟩
      exact hnew.rendered hlossless

/-- **A hand that feeds a context stays in step** with it. -/
theorem together_staysInStep :
    Together (fun step _ => StaysInStep lexicon inv context start step) hand.watched
      hand.watched where
  pure _ _ hinv hin := .ok hinv rfl hin
  bind := StaysInStep.bind
  choose := staysInStep_choose hhand
  take := staysInStep_take hhand hlossless
  literal := staysInStep_literal hhand hlossless
  piece := staysInStep_piece hhand
  patience _ _ hinv hin := .ok hinv rfl hin

end StaysInStep

end Writer

end Parley
