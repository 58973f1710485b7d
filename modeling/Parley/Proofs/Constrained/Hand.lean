import Parley.Constrained.Writer
import Parley.Proofs.Constrained.Palette
import Parley.Proofs.Step

/-! # Hands and their answers

    A hand may choose what it likes; the text is only worth something if it chose among the allowed
    tokens.  So its answers are put on record, `Hand.noted`, which changes nothing about what is
    written.

    The writer knows nothing of a hand but what it can do.  What passes through sequences of steps,
    and holds of the things that a hand does, holds of every value that is written:
    `Writer.Parallel` says so for two hands at the same work.  So it is with the errors of a hand,
    with what a hand keeps, and with what two hands have in common.
-/

namespace Parley

open Step

/-! ## Section 1: Answers -/

/-- What a hand answered when it had to choose. -/
structure Answer where
  allowed : TokenSet
  chosen : Option TokenId
  deriving DecidableEq, Repr

/-- The hand chose nothing, or one of the allowed tokens. -/
def Answer.Obeys (answer : Answer) : Prop :=
  ∀ token, answer.chosen = some token → token ∈ answer.allowed

instance (answer : Answer) : Decidable answer.Obeys :=
  match h : answer.chosen with
  | none => isTrue fun token htoken => by
    rw [h] at htoken
    contradiction
  | some chosen =>
    decidable_of_iff (chosen ∈ answer.allowed.toList) <| by
      unfold Answer.Obeys
      rw [h]
      simp [TokenSet.mem_toList]

variable {ε s α β : Type}

/-- Runs a step of a hand beside the record of its answers. -/
def Hand.beside (step : EStateM ε s α) : EStateM ε (s × List Answer) α := fun state =>
  match step state.1 with
  | .ok value later => .ok value (later, state.2)
  | .error error later => .error error (later, state.2)

/-- Runs a choice of a hand and puts the answer on record. -/
def Hand.noting (allowed : TokenSet) (step : EStateM ε s (Option TokenId)) :
    EStateM ε (s × List Answer) (Option TokenId) := fun state =>
  match step state.1 with
  | .ok chosen later => .ok chosen (later, state.2 ++ [⟨allowed, chosen⟩])
  | .error error later => .error error (later, state.2)

/-- The hand with its answers on record, the oldest first. -/
def Hand.noted (hand : Hand ε s) : Hand ε (s × List Answer) where
  choose allowed := noting allowed (hand.choose allowed)
  accept token := beside (hand.accept token)
  feed text := beside (hand.feed text)
  piece token := beside (hand.piece token)
  room state := hand.room state.1

/-- The draft without the record of answers. -/
def Draft.offRecord (draft : Draft (s × List Answer)) : Draft s := ⟨draft.hand.1, draft.text⟩

/-! ## Section 2: Two hands at the same work -/

namespace Writer

variable {δ t : Type}

/-- **Two hands at the same work.**  Whatever the hands do is related, and what is related may be
    put together. -/
structure Parallel (related : ∀ {α : Type}, WriterM ε s α → WriterM δ t α → Prop)
    (hand : Hand ε s) (other : Hand δ t) : Prop where
  pure : ∀ {α : Type} (value : α), related (pure value) (pure value)
  bind : ∀ {α β : Type} {step : WriterM ε s α} {step' : WriterM δ t α} {next : α → WriterM ε s β}
    {next' : α → WriterM δ t β}, related step step' →
      (∀ value, related (next value) (next' value)) → related (step >>= next) (step' >>= next')
  choose : ∀ allowed, related (choose hand allowed) (choose other allowed)
  accept : ∀ token, related (onHand (hand.accept token)) (onHand (other.accept token))
  feed : ∀ text, related (onHand (hand.feed text)) (onHand (other.feed text))
  piece : ∀ token, related (onHand (hand.piece token)) (onHand (other.piece token))
  append : ∀ text, related (append text) (append text)
  patience : ∀ most, related (patience hand most) (patience other most)

/-- **Two hands that write alike.**  Whatever they write token by token or literally is related, and
    what is related may be put together. -/
structure Together (related : ∀ {α : Type}, WriterM ε s α → WriterM δ t α → Prop)
    (hand : Hand ε s) (other : Hand δ t) : Prop where
  pure : ∀ {α : Type} (value : α), related (pure value) (pure value)
  bind : ∀ {α β : Type} {step : WriterM ε s α} {step' : WriterM δ t α} {next : α → WriterM ε s β}
    {next' : α → WriterM δ t β}, related step step' →
      (∀ value, related (next value) (next' value)) → related (step >>= next) (step' >>= next')
  choose : ∀ allowed, related (choose hand allowed) (choose other allowed)
  take : ∀ token, related (take hand token) (take other token)
  literal : ∀ text, related (literal hand text) (literal other text)
  piece : ∀ token, related (onHand (hand.piece token)) (onHand (other.piece token))
  patience : ∀ most, related (patience hand most) (patience other most)

theorem related_ite {related : ∀ {α : Type}, WriterM ε s α → WriterM δ t α → Prop} {p : Prop}
    [Decidable p] {step after : WriterM ε s α} {step' after' : WriterM δ t α}
    (hthen : related step step') (helse : related after after') :
    related (if p then step else after) (if p then step' else after') := by
  by_cases hp : p
  · rw [if_pos hp, if_pos hp]
    exact hthen
  · rw [if_neg hp, if_neg hp]
    exact helse

namespace Together

variable {related : ∀ {α : Type}, WriterM ε s α → WriterM δ t α → Prop} {hand : Hand ε s}
  {other : Hand δ t} (h : Together related hand other) {palette : Palette}
include h

theorem discard {step : WriterM ε s α} {step' : WriterM δ t α} (hstep : related step step') :
    related (discard step) (discard step') := by
  show related (step >>= fun _ => Pure.pure ()) (step' >>= fun _ => Pure.pure ())
  exact h.bind hstep fun _ => h.pure ()

theorem literalIfAny (text : List Char) :
    related (literalIfAny hand text) (literalIfAny other text) := by
  unfold Writer.literalIfAny
  exact related_ite (h.pure ()) (h.literal _)

theorem stringBody (room : Nat) (written : List TokenId) (nonblank : Bool) :
    related (stringBody hand palette room written nonblank)
      (stringBody other palette room written nonblank) := by
  induction room generalizing written nonblank with
  | zero => exact h.pure ()
  | succ room ih =>
    unfold Writer.stringBody
    refine h.bind (h.choose _) fun chosen => ?_
    cases chosen with
    | none => exact h.pure ()
    | some token =>
      -- the quote and a third equal token end the text
      refine related_ite (h.pure ()) (h.bind (h.take token) fun piece => ?_)
      exact related_ite (h.pure ()) (ih _ _)

theorem freeString : related (freeString hand palette) (freeString other palette) := by
  unfold Writer.freeString
  refine h.bind (h.literal _) fun _ => ?_
  exact h.bind (h.stringBody _ _ _) fun _ => h.literal _

theorem continuing (remainders : List (List Char)) (tokens : List TokenId) (allowed : TokenSet) :
    related (continuing hand remainders tokens allowed)
      (continuing other remainders tokens allowed) := by
  induction tokens generalizing allowed with
  | nil => exact h.pure allowed
  | cons token rest ih =>
    unfold Writer.continuing
    exact h.bind (h.piece token) fun piece => ih _

theorem enumBody (values : List (List Char)) (fuel : Nat) (generated : List Char) :
    related (enumBody hand palette values fuel generated)
      (enumBody other palette values fuel generated) := by
  induction fuel generalizing generated with
  | zero => exact h.pure ()
  | succ fuel ih =>
    unfold Writer.enumBody
    -- none of the values is left, one of them, or several
    rcases values.filterMap (Text.dropStart? generated) with _ | ⟨first, _ | ⟨second, rest⟩⟩
    · exact h.pure ()
    · exact h.literalIfAny _
    · refine h.bind (h.continuing _ _ _) fun allowed => h.bind (h.choose _) fun chosen => ?_
      cases chosen with
      | none => exact h.literalIfAny _
      | some token => exact related_ite (h.pure ()) (h.bind (h.take token) fun piece => ih _)

theorem enumString (values : List String) :
    related (enumString hand palette values) (enumString other palette values) := by
  unfold Writer.enumString
  refine h.bind (h.literal _) fun _ => h.bind (h.patience _) fun fuel => ?_
  exact h.bind (h.enumBody _ _ _) fun _ => h.literal _

theorem numberBody (real : Bool) (cap fuel : Nat) (text : List Char) :
    related (numberBody hand palette real cap fuel text)
      (numberBody other palette real cap fuel text) := by
  induction fuel generalizing text with
  | zero => exact h.pure text
  | succ fuel ih =>
    unfold Writer.numberBody
    refine related_ite (h.pure text) (h.bind (h.choose _) fun chosen => ?_)
    cases chosen with
    | none => exact h.pure text
    | some token => exact related_ite (h.pure text) (h.bind (h.take token) fun piece => ih _)

theorem number (real : Bool) : related (number hand palette real) (number other palette real) := by
  unfold Writer.number
  refine h.bind (h.patience _) fun fuel => ?_
  exact h.bind (h.numberBody _ _ _ _) fun text => h.literalIfAny _

theorem boolean : related (boolean hand palette) (boolean other palette) := by
  unfold Writer.boolean
  refine h.bind (h.choose _) fun chosen => ?_
  cases chosen with
  | none => exact h.literal _
  | some token => exact h.discard (h.take token)

theorem chooseNull (type : FieldType) :
    related (chooseNull hand palette type) (chooseNull other palette type) := by
  unfold Writer.chooseNull
  cases palette.null with
  | none => exact h.pure false
  | some null =>
    refine h.bind (h.choose _) fun chosen => related_ite ?_ (h.pure false)
    exact h.bind (h.discard (h.take null)) fun _ => h.pure true

theorem items {item : WriterM ε s Unit} {item' : WriterM δ t Unit} (hitem : related item item')
    (room : Nat) : related (items hand palette item room) (items other palette item' room) := by
  induction room with
  | zero => exact h.literal _
  | succ room ih =>
    unfold Writer.items
    refine h.bind hitem fun _ => related_ite (h.literal _) (h.bind (h.choose _) fun chosen => ?_)
    cases chosen with
    | none => exact h.literal _
    | some token => exact h.bind (h.discard (h.take token)) fun _ => related_ite ih (h.pure ())

mutual

theorem value : (type : FieldType) → related (value hand palette type) (value other palette type)
  | .string none => by
    unfold Writer.value
    exact h.freeString
  | .string (some allowed) => by
    unfold Writer.value
    exact h.enumString allowed
  | .integer => by
    unfold Writer.value
    exact h.number false
  | .number => by
    unfold Writer.value
    exact h.number true
  | .boolean => by
    unfold Writer.value
    exact h.boolean
  | .object fields => by
    unfold Writer.value
    refine h.bind (h.literal _) fun _ => ?_
    exact h.bind (members true fields) fun _ => h.literal _
  | .array type => by
    unfold Writer.value
    exact h.bind (h.literal _) fun _ => h.items (value type) _

theorem members (first : Bool) : (fields : List (Field FieldType)) →
    related (members hand palette first fields) (members other palette first fields)
  | [] => by
    unfold Writer.members
    exact h.pure ()
  | field :: rest => by
    -- with and without a comma in front, the same comes next
    have hrest := h.bind (member field) fun _ => members false rest
    unfold Writer.members
    exact related_ite (h.bind (h.literal _) fun _ => hrest) hrest

theorem member : (field : Field FieldType) →
    related (member hand palette field) (member other palette field)
  | ⟨name, type, required⟩ => by
    unfold Writer.member
    refine h.bind (h.literal _) fun _ => related_ite (value type) ?_
    exact h.bind (h.chooseNull type) fun isNull => related_ite (value type) (h.pure ())

end

/-- **Objects.**  So related are the objects that the hands write. -/
theorem object (schema : Schema) :
    related (object hand palette schema) (object other palette schema) :=
  h.value _

end Together

namespace Parallel

variable {related : ∀ {α : Type}, WriterM ε s α → WriterM δ t α → Prop} {hand : Hand ε s}
  {other : Hand δ t} (h : Parallel related hand other)
include h

/-- Hands at the same work write alike. -/
theorem together : Together related hand other where
  pure := h.pure
  bind := h.bind
  choose := h.choose
  take token := by
    unfold Writer.take
    refine h.bind (h.accept token) fun _ => h.bind (h.piece token) fun piece => ?_
    exact h.bind (h.append piece) fun _ => h.pure piece
  literal text := by
    unfold Writer.literal
    exact h.bind (h.feed text) fun _ => h.append text
  piece := h.piece
  patience := h.patience

theorem object {palette : Palette} (schema : Schema) :
    related (object hand palette schema) (object other palette schema) :=
  h.together.object schema

end Parallel

/-! ## Section 3: The record changes nothing -/

section Mirrors

variable {hand : Hand ε s} {draft : Draft (s × List Answer)}

theorem mirrors_beside (step : EStateM ε s α) (state : s × List Answer) :
    Mirrors Prod.fst step (Hand.beside step) state := by
  unfold Mirrors Hand.beside
  cases step state.1 <;> rfl

theorem mirrors_noting (allowed : TokenSet) (step : EStateM ε s (Option TokenId))
    (state : s × List Answer) : Mirrors Prod.fst step (Hand.noting allowed step) state := by
  unfold Mirrors Hand.noting
  cases step state.1 <;> rfl

theorem mirrors_onHand {step : EStateM ε s α} {noted : EStateM ε (s × List Answer) α}
    (h : Mirrors Prod.fst step noted draft.hand) :
    Mirrors Draft.offRecord (onHand step) (onHand noted) draft := by
  unfold Mirrors onHand
  show (match step draft.hand.1 with | .ok _ _ => _ | .error _ _ => _) = _
  rw [show step draft.hand.1 = _ from h]
  cases noted draft.hand <;> rfl

/-- **The record changes nothing.**  A hand whose answers are on record does what it does without
    the record. -/
theorem parallel_noted (hand : Hand ε s) :
    Parallel (fun step noted => ∀ draft, Mirrors Draft.offRecord step noted draft) hand
      hand.noted where
  pure _ _ := mirrors_pure _
  bind hstep hnext draft := (hstep draft).bind hnext
  choose _ _ := mirrors_onHand (mirrors_noting _ _ _)
  accept _ _ := mirrors_onHand (mirrors_beside _ _)
  feed _ _ := mirrors_onHand (mirrors_beside _ _)
  piece _ _ := mirrors_onHand (mirrors_beside _ _)
  append _ _ := rfl
  patience _ _ := rfl

end Mirrors

/-! ## Section 4: Errors -/

theorem fails_onHand {step : EStateM ε s α} {post : ε → Prop} (h : Fails step post) :
    Fails (onHand step) post := by
  intro draft error later hstep
  unfold onHand at hstep
  cases hrun : step draft.hand with
  | ok value hand =>
    rw [hrun] at hstep
    contradiction
  | error failure hand =>
    rw [hrun] at hstep
    cases hstep
    exact h _ _ _ hrun

/-- **Errors come from the hand.**  If whatever the hand does fails only in ways that `post` allows,
    then so does whatever is written. -/
theorem parallel_fails {hand : Hand ε s} {post : ε → Prop}
    (hchoose : ∀ allowed, Fails (hand.choose allowed) post)
    (haccept : ∀ token, Fails (hand.accept token) post)
    (hfeed : ∀ text, Fails (hand.feed text) post)
    (hpiece : ∀ token, Fails (hand.piece token) post) :
    Parallel (fun step _ => Fails step post) hand hand where
  pure _ := fails_pure _
  bind hstep hnext := hstep.bind hnext
  choose _ := fails_onHand (hchoose _)
  accept _ := fails_onHand (haccept _)
  feed _ := fails_onHand (hfeed _)
  piece _ := fails_onHand (hpiece _)
  append _ := fun _ _ _ hstep => nomatch hstep
  patience _ := fun _ _ _ hstep => nomatch hstep

/-! ## Section 5: What a hand keeps -/

theorem keeps_onHand {lasts : s → s → Prop} {step : EStateM ε s α} {draft : Draft s}
    (h : Keeps lasts step draft.hand) :
    Keeps (fun draft later => lasts draft.hand later.hand) (onHand step) draft := by
  unfold Keeps after at h
  unfold Keeps after onHand
  cases hrun : step draft.hand <;> rw [hrun] at h <;> exact h

/-- **What a hand keeps** in whatever it does, it keeps in whatever it writes. -/
theorem parallel_keeps (hand : Hand ε s) {lasts : s → s → Prop}
    (hrefl : ∀ state, lasts state state)
    (htrans : ∀ {first second third}, lasts first second → lasts second third → lasts first third)
    (hchoose : ∀ allowed state, Keeps lasts (hand.choose allowed) state)
    (haccept : ∀ token state, Keeps lasts (hand.accept token) state)
    (hfeed : ∀ text state, Keeps lasts (hand.feed text) state)
    (hpiece : ∀ token state, Keeps lasts (hand.piece token) state) :
    Parallel (fun step _ => ∀ draft, Keeps (fun draft later => lasts draft.hand later.hand) step
      draft) hand hand where
  pure _ draft := hrefl draft.hand
  bind hstep hnext draft := (hstep draft).bind htrans fun value later => hnext value later
  choose _ _ := keeps_onHand (hchoose _ _)
  accept _ _ := keeps_onHand (haccept _ _)
  feed _ _ := keeps_onHand (hfeed _ _)
  piece _ _ := keeps_onHand (hpiece _ _)
  append _ draft := hrefl draft.hand
  patience _ draft := hrefl draft.hand

/-! ## Section 6: Hands side by side -/

/-- The hands are related, and what they have written is the same. -/
structure AlikeDrafts {t : Type} (related : s → t → Prop) (draft : Draft s) (draft' : Draft t) :
    Prop where
  hand : related draft.hand draft'.hand
  text : draft.text = draft'.text

theorem couples_onHand {t : Type} {related : s → t → Prop} {step : EStateM ε s α}
    {step' : EStateM ε t α} {draft : Draft s} {draft' : Draft t}
    (hdrafts : AlikeDrafts related draft draft')
    (h : Couples related step step' draft.hand draft'.hand) :
    Couples (AlikeDrafts related) (onHand step) (onHand step') draft draft' := by
  unfold Couples onHand
  rcases h.outcomes with ⟨value, later, later', hstep, hstep', hrelated⟩ |
    ⟨error, later, later', hstep, hstep', hrelated⟩
  · rw [hstep, hstep']
    exact .ok value ⟨hrelated, hdrafts.text⟩
  · rw [hstep, hstep']
    exact .error error ⟨hrelated, hdrafts.text⟩

/-- **Coupled hands write alike.**  If whatever two hands do is coupled, they write the same. -/
theorem parallel_couples {t : Type} (hand : Hand ε s) (hand' : Hand ε t) {related : s → t → Prop}
    (hchoose : ∀ allowed {state state'}, related state state' →
      Couples related (hand.choose allowed) (hand'.choose allowed) state state')
    (haccept : ∀ token {state state'}, related state state' →
      Couples related (hand.accept token) (hand'.accept token) state state')
    (hfeed : ∀ text {state state'}, related state state' →
      Couples related (hand.feed text) (hand'.feed text) state state')
    (hpiece : ∀ token {state state'}, related state state' →
      Couples related (hand.piece token) (hand'.piece token) state state')
    (hroom : ∀ {state state'}, related state state' → hand.room state = hand'.room state') :
    Parallel (fun step step' => ∀ draft draft', AlikeDrafts related draft draft' →
      Couples (AlikeDrafts related) step step' draft draft') hand hand' where
  pure value _ _ h := couples_pure value h
  bind hstep hnext draft draft' h := (hstep draft draft' h).bind hnext
  choose _ _ _ h := couples_onHand h (hchoose _ h.hand)
  accept _ _ _ h := couples_onHand h (haccept _ h.hand)
  feed _ _ _ h := couples_onHand h (hfeed _ h.hand)
  piece _ _ _ h := couples_onHand h (hpiece _ h.hand)
  append _ _ _ h := couples_modify ⟨h.hand, congrArg (· ++ _) h.text⟩
  patience most draft draft' h := by
    refine couples_get ?_
    rw [hroom h.hand]
    exact couples_pure _ h

end Writer

end Parley
