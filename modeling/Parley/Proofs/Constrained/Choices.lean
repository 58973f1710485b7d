import Parley.Proofs.Constrained.Generate

/-! # Choices by a plan

    What can be written at all is shown by a hand that chooses by a plan, which is a list of tokens.
    `Performs inv fails plan step choices text post` says what a step makes of the next `choices` of
    the plan: each of them is an allowed one, the step takes exactly these, and it adds exactly
    `text`.  A plan does not keep the hand from failing at something else, and then the step fails
    with it.
-/

namespace Parley

open Step

variable {ε s α β : Type}

/-! ## Section 1: Planned hands -/

/-- The hand that takes its choices from a plan, one after the other, and puts them on record.
    Where the plan is used up, it chooses none. -/
def Hand.planned (hand : Hand ε s) (plan : List TokenId) : Hand ε (s × List Answer) where
  choose allowed state :=
    let chosen := plan[state.2.length]?
    .ok chosen (state.1, state.2 ++ [⟨allowed, chosen⟩])
  accept token := beside (hand.accept token)
  feed text := beside (hand.feed text)
  piece token := beside (hand.piece token)
  room state := hand.room state.1

/-- **How a hand fails.**  Whatever it does fails only in ways that `fails` allows. -/
structure Hand.FailsBy (hand : Hand ε s) (fails : ε → Prop) : Prop where
  choose : ∀ allowed, Fails (hand.choose allowed) fails
  accept : ∀ token, Fails (hand.accept token) fails
  feed : ∀ text, Fails (hand.feed text) fails
  piece : ∀ token, Fails (hand.piece token) fails

/-- Whatever a hand writes fails as the hand fails. -/
theorem Hand.FailsBy.together {hand : Hand ε s} {fails : ε → Prop} (h : hand.FailsBy fails) :
    Writer.Together (fun step _ => Fails step fails) hand hand :=
  (Writer.parallel_fails h.choose h.accept h.feed h.piece).together

/-- The deed consists of the choices, each of them an allowed one, and of the text. -/
structure Deed.Makes (deed : Deed) (choices : List TokenId) (text : List Char) : Prop where
  obeys : deed.Obeys
  chosen : deed.answers.map (·.chosen) = choices.map some
  text : deed.text = text

namespace Deed.Makes

variable {first second : Deed} {choices more : List TokenId} {text added : List Char}

theorem andThen (h : first.Makes choices text) (hnext : second.Makes more added) :
    (first.andThen second).Makes (choices ++ more) (text ++ added) where
  obeys := Deed.obeys_andThen.mpr ⟨h.obeys, hnext.obeys⟩
  chosen := by
    rw [Deed.andThen_answers, List.map_append, List.map_append, h.chosen, hnext.chosen]
  text := by rw [Deed.andThen_text, h.text, hnext.text]

theorem text_only (text : List Char) : Deed.Makes { text := text } [] text where
  obeys _ hmem := nomatch hmem
  chosen := rfl
  text := rfl

theorem length_answers (h : first.Makes choices text) : first.answers.length = choices.length := by
  have hlength := congrArg List.length h.chosen
  rwa [List.length_map, List.length_map] at hlength

end Deed.Makes

/-! ## Section 2: The judgement -/

/-- **What a step makes of its choices.**  With `choices` next in the plan the step fails as `fails`
    allows, or it makes just these choices and adds just `text`, and `post` holds of its result. -/
def Performs (inv : s → Prop) (fails : ε → Prop) (plan : List TokenId)
    (step : WriterM ε (s × List Answer) α) (choices : List TokenId) (text : List Char)
    (post : α → Prop) : Prop :=
  ∀ before further, inv before.hand.1 → plan.drop before.hand.2.length = choices ++ further →
    (∃ error later, step before = .error error later ∧ fails error)
      ∨ ∃ value later deed, step before = .ok value later ∧ inv later.hand.1
        ∧ before.Leads deed later ∧ deed.Makes choices text ∧ post value

/-- **By some plan** the step writes the text, unless the hand fails at something. -/
def Hand.CanWrite (hand : Hand ε s) (inv : s → Prop) (fails : ε → Prop)
    (step : Hand ε (s × List Answer) → WriterM ε (s × List Answer) Unit) (text : List Char) :
    Prop :=
  ∃ plan, Performs inv fails plan (step (hand.planned plan)) plan text fun _ => True

section Performs

variable {inv : s → Prop} {fails : ε → Prop} {plan choices more : List TokenId}
  {text added : List Char} {step : WriterM ε (s × List Answer) α}
  {next : α → WriterM ε (s × List Answer) β} {first post : α → Prop}

theorem performs_pure {value : α} (h : post value) :
    Performs inv fails plan (pure value) [] [] post :=
  fun before _ hinv _ => .inr ⟨value, before, {}, rfl, hinv, before.leads_self, .text_only [], h⟩

/-- The choices of the second step are those that the first one leaves. -/
theorem Performs.bind {last : β → Prop} (h : Performs inv fails plan step choices text first)
    (hnext : ∀ value, first value → Performs inv fails plan (next value) more added last) :
    Performs inv fails plan (step >>= next) (choices ++ more) (text ++ added) last := by
  intro before further hinv hplan
  rw [List.append_assoc] at hplan
  rcases h before (more ++ further) hinv hplan with ⟨error, middle, hstep, hfails⟩ |
    ⟨value, middle, deed, hstep, hinv, hleads, hmakes, hfirst⟩
  · exact .inl ⟨error, middle, bind_error hstep, hfails⟩
  have hlater : plan.drop middle.hand.2.length = more ++ further := by
    rw [hleads.answers, List.length_append, hmakes.length_answers, ← List.drop_drop, hplan,
      List.drop_left]
  rw [bind_ok hstep]
  rcases hnext value hfirst middle further hinv hlater with hfailed |
    ⟨result, last, second, hstep, hinv, hsecond, hmore, hlast⟩
  · exact .inl hfailed
  · exact .inr ⟨result, last, deed.andThen second, hstep, hinv, hleads.trans hsecond,
      hmakes.andThen hmore, hlast⟩

/-- Where the first step makes no choice and adds nothing, all is left to the second one. -/
theorem Performs.then {last : β → Prop} (h : Performs inv fails plan step [] [] first)
    (hnext : ∀ value, first value → Performs inv fails plan (next value) choices text last) :
    Performs inv fails plan (step >>= next) choices text last :=
  h.bind hnext

/-- The last step need not make any choice. -/
theorem Performs.close {last : β → Prop} (h : Performs inv fails plan step choices text first)
    (hnext : ∀ value, first value → Performs inv fails plan (next value) [] added last) :
    Performs inv fails plan (step >>= next) choices (text ++ added) last := by
  have hbind := h.bind hnext
  rwa [List.append_nil choices] at hbind

/-- The last step need not add anything either. -/
theorem Performs.done {last : β → Prop} (h : Performs inv fails plan step choices text first)
    (hnext : ∀ value, first value → Performs inv fails plan (next value) [] [] last) :
    Performs inv fails plan (step >>= next) choices text last := by
  have hclose := h.close hnext
  rwa [List.append_nil text] at hclose

theorem Performs.mono (h : Performs inv fails plan step choices text first)
    (hpost : ∀ value, first value → post value) :
    Performs inv fails plan step choices text post := by
  intro before further hinv hplan
  refine (h before further hinv hplan).imp_right ?_
  rintro ⟨value, later, deed, hstep, hinv, hleads, hmakes, hfirst⟩
  exact ⟨value, later, deed, hstep, hinv, hleads, hmakes, hpost value hfirst⟩

end Performs

/-! ## Section 3: What a planned hand does -/

namespace Writer

variable {inv : s → Prop} {fails : ε → Prop} {hand : Hand ε s} {spelling : Spelling}
  {plan : List TokenId}

/-- An allowed token that is next in the plan is chosen. -/
theorem performs_choose {token : TokenId} {allowed : TokenSet} (h : token ∈ allowed) :
    Performs inv fails plan (choose (hand.planned plan) allowed) [token] []
      fun chosen => chosen = some token := by
  intro before further hinv hplan
  have hchosen : plan[before.hand.2.length]? = some token := by
    rw [← List.head?_drop, hplan]
    rfl
  have hstep : choose (hand.planned plan) allowed before = .ok (some token)
      ⟨(before.hand.1, before.hand.2 ++ [⟨allowed, some token⟩]), before.text⟩ := by
    unfold choose onHand Hand.planned
    simp only [hchosen]
  refine .inr ⟨some token, _, { answers := [⟨allowed, some token⟩] }, hstep, hinv,
    ⟨rfl, (List.append_nil _).symm⟩, ?_, rfl⟩
  refine ⟨List.forall_mem_singleton.mpr fun other hother => ?_, rfl, rfl⟩
  cases hother
  exact h

theorem performs_append (text : String) :
    Performs (ε := ε) inv fails plan (append text) [] text.toList fun _ => True :=
  fun _ _ hinv _ => .inr ⟨(), _, { text := text.toList }, rfl, hinv,
    ⟨(List.append_nil _).symm, String.toList_append⟩, .text_only _, trivial⟩

theorem performs_beside {step : EStateM ε s α} {post : α → Prop} (h : Ensures inv step post)
    (hfails : Fails step fails) :
    Performs inv fails plan (onHand (Hand.beside step)) [] [] post := by
  intro before further hinv _
  unfold onHand Hand.beside
  cases hrun : step before.hand.1 with
  | error error state => exact .inl ⟨error, _, rfl, hfails _ _ _ hrun⟩
  | ok value state =>
    obtain ⟨hlater, hpost⟩ := h _ _ _ hinv hrun
    exact .inr ⟨value, _, {}, rfl, hlater, ⟨(List.append_nil _).symm, (List.append_nil _).symm⟩,
      .text_only [], hpost⟩

theorem performs_patience (most : Nat) :
    Performs inv fails plan (patience (hand.planned plan) most) [] [] fun fuel => most ≤ fuel :=
  fun before _ hinv _ => .inr ⟨_, before, {}, rfl, hinv, before.leads_self, .text_only [],
    Nat.le_add_right _ _⟩

section Hand

variable (hhand : hand.Spells inv spelling) (hfails : hand.FailsBy fails)
include hhand hfails

theorem performs_piece {token : TokenId} {piece : String} (h : spelling token = some piece) :
    Performs inv fails plan (onHand ((hand.planned plan).piece token)) [] []
      fun text => text = piece :=
  (performs_beside (hhand.piece token) (hfails.piece token)).mono fun _ hread => hread piece h

theorem performs_literal (text : String) :
    Performs inv fails plan (literal (hand.planned plan) text) [] text.toList fun _ => True := by
  unfold literal
  exact (performs_beside (hhand.feed text) (hfails.feed text)).bind fun _ _ => performs_append text

theorem performs_literalIfAny (text : List Char) :
    Performs inv fails plan (literalIfAny (hand.planned plan) text) [] text fun _ => True := by
  unfold literalIfAny
  by_cases hempty : text.isEmpty = true
  · rw [if_pos hempty, List.isEmpty_iff.mp hempty]
    exact performs_pure trivial
  · have hliteral : Performs inv fails plan (literal (hand.planned plan) (String.ofList text)) []
        (String.ofList text).toList fun _ => True := performs_literal hhand hfails _
    rw [String.toList_ofList] at hliteral
    rw [if_neg hempty]
    exact hliteral

/-- A token is written as it is spelled. -/
theorem performs_take {token : TokenId} {piece : String} (h : spelling token = some piece) :
    Performs inv fails plan (take (hand.planned plan) token) [] piece.toList
      fun text => text = piece := by
  unfold take
  refine (performs_beside (hhand.accept token) (hfails.accept token)).then fun _ _ => ?_
  refine (performs_piece hhand hfails h).then fun text htext => ?_
  subst htext
  exact (performs_append text).done fun _ _ => performs_pure rfl

theorem performs_take_char {token : TokenId} {c : Char}
    (h : spelling token = some (String.singleton c)) :
    Performs inv fails plan (take (hand.planned plan) token) [] [c]
      fun text => text.toList = [c] := by
  have hchar : (String.singleton c).toList = [c] := by simp
  have htake : Performs inv fails plan (take (hand.planned plan) token) []
      (String.singleton c).toList fun text => text = String.singleton c :=
    performs_take hhand hfails h
  rw [hchar] at htake
  exact htake.mono fun text htext => htext ▸ hchar

end Hand

end Writer

/-- Whatever the hand of a session does fails as the session fails. -/
theorem Session.hand_failsBy {σ : Type} (engine : Engine σ) : (hand engine).FailsBy OfSession where
  choose _ := fails_forGeneration _
  accept _ := fails_forGeneration _
  feed _ := fails_forGeneration _
  piece _ := fails_forGeneration _

end Parley
