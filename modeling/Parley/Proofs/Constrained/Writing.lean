import Parley.Proofs.Constrained.Hand

/-! # Steps of writing

    A step of writing is described by what it did: the answers that it got and the text that it
    added, which is a `Deed`.  `Writes inv step post` says that `post` holds of every deed of the
    step in which the hand obeyed.  The judgement passes through sequences of steps, and there is
    one law for each thing that a hand does.  Facts about earlier deeds enter as hypotheses inside
    `post`, so nothing has to hold before a step but the invariant of the hand.
-/

namespace Parley

open Step

/-! ## Section 1: Deeds -/

/-- What was done: the answers that the hand gave, and the text that was added. -/
structure Deed where
  answers : List Answer := []
  text : List Char := []
  deriving DecidableEq, Repr

namespace Deed

/-- One deed behind the other. -/
def andThen (first second : Deed) : Deed where
  answers := first.answers ++ second.answers
  text := first.text ++ second.text

@[simp] theorem andThen_text (first second : Deed) :
    (first.andThen second).text = first.text ++ second.text := rfl

@[simp] theorem andThen_answers (first second : Deed) :
    (first.andThen second).answers = first.answers ++ second.answers := rfl

theorem andThen_nothing (deed : Deed) : deed.andThen {} = deed :=
  congrArg₂ Deed.mk (List.append_nil _) (List.append_nil _)

/-- The hand kept to what was allowed. -/
def Obeys (deed : Deed) : Prop := ∀ answer ∈ deed.answers, answer.Obeys

theorem obeys_andThen {first second : Deed} :
    (first.andThen second).Obeys ↔ first.Obeys ∧ second.Obeys := by
  unfold Obeys
  rw [andThen_answers]
  exact List.forall_mem_append

end Deed

variable {ε s α β : Type}

/-- The deed leads from one draft to another. -/
structure Draft.Leads (before : Draft (s × List Answer)) (deed : Deed)
    (later : Draft (s × List Answer)) : Prop where
  answers : later.hand.2 = before.hand.2 ++ deed.answers
  text : later.text.toList = before.text.toList ++ deed.text

namespace Draft

theorem leads_self (draft : Draft (s × List Answer)) : draft.Leads {} draft :=
  ⟨(List.append_nil _).symm, (List.append_nil _).symm⟩

theorem Leads.trans {before middle later : Draft (s × List Answer)} {first second : Deed}
    (h : before.Leads first middle) (hnext : middle.Leads second later) :
    before.Leads (first.andThen second) later where
  answers := by rw [hnext.answers, h.answers, List.append_assoc, Deed.andThen_answers]
  text := by rw [hnext.text, h.text, List.append_assoc, Deed.andThen_text]

end Draft

/-- **A hand that can spell.**  Whatever it does keeps `inv`, and while that holds, it reads a token
    as it is spelled. -/
structure Hand.Spells (hand : Hand ε s) (inv : s → Prop) (spelling : Spelling) : Prop where
  choose : ∀ allowed, Ensures inv (hand.choose allowed) fun _ => True
  accept : ∀ token, Ensures inv (hand.accept token) fun _ => True
  feed : ∀ text, Ensures inv (hand.feed text) fun _ => True
  piece : ∀ token, Ensures inv (hand.piece token) fun text =>
    ∀ known, spelling token = some known → text = known

/-! ## Section 2: The judgement -/

/-- **What a step writes.**  If the step succeeds, it did something, and `post` holds of its result
    and of what it did if the hand obeyed. -/
def Writes (inv : s → Prop) (step : WriterM ε (s × List Answer) α) (post : α → Deed → Prop) :
    Prop :=
  ∀ before value later, inv before.hand.1 → step before = .ok value later →
    inv later.hand.1 ∧ ∃ deed, before.Leads deed later ∧ (deed.Obeys → post value deed)

section Writes

variable {inv : s → Prop} {step other : WriterM ε (s × List Answer) α}
  {next : α → WriterM ε (s × List Answer) β} {first post : α → Deed → Prop}

theorem writes_pure {value : α} (h : post value {}) : Writes (ε := ε) inv (pure value) post := by
  intro before result later hinv hstep
  cases hstep
  exact ⟨hinv, {}, before.leads_self, fun _ => h⟩

theorem Writes.bind {last : β → Deed → Prop} (h : Writes inv step first)
    (hnext : ∀ value, Writes inv (next value) fun result deed =>
      ∀ earlier, first value earlier → last result (earlier.andThen deed)) :
    Writes inv (step >>= next) last := by
  intro before result later hinv hstep
  obtain ⟨value, middle, hfirst, hstep⟩ := bind_eq_ok hstep
  obtain ⟨hinv, earlier, hearlier, hpost⟩ := h before value middle hinv hfirst
  obtain ⟨hinv, deed, hdeed, hlast⟩ := hnext value middle result later hinv hstep
  -- whoever obeyed all along obeyed in both parts
  refine ⟨hinv, earlier.andThen deed, hearlier.trans hdeed, fun hobeys => ?_⟩
  rw [Deed.obeys_andThen] at hobeys
  exact hlast hobeys.2 earlier (hpost hobeys.1)

theorem Writes.mono (h : Writes inv step first)
    (hpost : ∀ value deed, first value deed → post value deed) : Writes inv step post := by
  intro before value later hinv hstep
  obtain ⟨hinv, deed, hdeed, hfirst⟩ := h before value later hinv hstep
  exact ⟨hinv, deed, hdeed, fun hobeys => hpost value deed (hfirst hobeys)⟩

theorem writes_ite {p : Prop} [Decidable p] (hthen : p → Writes inv step post)
    (helse : ¬ p → Writes inv other post) : Writes inv (if p then step else other) post := by
  by_cases hp : p
  · rw [if_pos hp]
    exact hthen hp
  · rw [if_neg hp]
    exact helse hp

theorem Writes.discard (h : Writes inv step post) :
    Writes inv (discard step) fun _ deed => ∃ value, post value deed := by
  show Writes inv (step >>= fun _ => pure ()) _
  refine h.bind fun value => writes_pure fun earlier hearlier => ⟨value, ?_⟩
  rwa [Deed.andThen_nothing]

end Writes

/-! ## Section 3: What a hand does -/

namespace Writer

variable {inv : s → Prop} {hand : Hand ε s} {spelling : Spelling}

theorem writes_append (text : String) :
    Writes (ε := ε) inv (append text) fun _ deed => deed = { text := text.toList } := by
  intro before result later hinv hstep
  cases hstep
  exact ⟨hinv, _, ⟨(List.append_nil _).symm, String.toList_append⟩, fun _ => rfl⟩

theorem writes_beside {step : EStateM ε s α} {post : α → Prop} (h : Ensures inv step post) :
    Writes inv (onHand (Hand.beside step)) fun value deed => deed = {} ∧ post value := by
  intro before value later hinv hstep
  unfold onHand Hand.beside at hstep
  cases hrun : step before.hand.1 with
  | error error state =>
    rw [hrun] at hstep
    contradiction
  | ok result state =>
    rw [hrun] at hstep
    cases hstep
    obtain ⟨hinv, hpost⟩ := h _ _ _ hinv hrun
    exact ⟨hinv, {}, ⟨(List.append_nil _).symm, (List.append_nil _).symm⟩, fun _ => ⟨rfl, hpost⟩⟩

theorem writes_patience (most : Nat) :
    Writes inv (patience hand.noted most) fun fuel deed => deed = {} ∧ most ≤ fuel := by
  intro before fuel later hinv hstep
  cases hstep
  exact ⟨hinv, {}, before.leads_self, fun _ => ⟨rfl, Nat.le_add_right _ _⟩⟩

section Hand

variable (hhand : hand.Spells inv spelling)
include hhand

/-- A choice adds no text, and an answer that obeys is one of the allowed tokens. -/
theorem writes_choose (allowed : TokenSet) :
    Writes inv (choose hand.noted allowed) fun chosen deed =>
      deed = { answers := [⟨allowed, chosen⟩] }
        ∧ ∀ token, chosen = some token → token ∈ allowed := by
  intro before chosen later hinv hstep
  unfold choose onHand Hand.noted Hand.noting at hstep
  dsimp only at hstep
  cases hrun : hand.choose allowed before.hand.1 with
  | error error state =>
    rw [hrun] at hstep
    contradiction
  | ok result state =>
    rw [hrun] at hstep
    cases hstep
    refine ⟨(hhand.choose allowed _ _ _ hinv hrun).1, { answers := [⟨allowed, chosen⟩] },
      ⟨rfl, (List.append_nil _).symm⟩, fun hobeys => ⟨rfl, ?_⟩⟩
    exact hobeys _ List.mem_cons_self

theorem writes_piece (token : TokenId) :
    Writes inv (onHand (hand.noted.piece token)) fun piece deed =>
      deed = {} ∧ ∀ known, spelling token = some known → piece = known :=
  writes_beside (hhand.piece token)

theorem writes_literal (text : String) :
    Writes inv (literal hand.noted text) fun _ deed => deed = { text := text.toList } := by
  unfold literal
  refine (writes_beside (hhand.feed text)).bind fun _ => (writes_append text).mono ?_
  rintro _ _ rfl _ ⟨rfl, -⟩
  rfl

theorem writes_literalIfAny (text : List Char) :
    Writes inv (literalIfAny hand.noted text) fun _ deed => deed = { text := text } := by
  unfold literalIfAny
  refine writes_ite (fun hempty => writes_pure ?_) fun _ => (writes_literal hhand _).mono ?_
  · rw [List.isEmpty_iff.mp hempty]
  · rintro _ _ rfl
    rw [String.toList_ofList]

/-- A token is written as it is spelled. -/
theorem writes_take (token : TokenId) :
    Writes inv (take hand.noted token) fun piece deed =>
      deed = { text := piece.toList } ∧ ∀ known, spelling token = some known → piece = known := by
  unfold take
  refine (writes_beside (hhand.accept token)).bind fun _ => ?_
  refine (writes_piece hhand token).bind fun piece => ?_
  refine (writes_append piece).bind fun _ => writes_pure ?_
  rintro _ rfl _ ⟨rfl, hpiece⟩ _ ⟨rfl, -⟩
  exact ⟨by simp [Deed.andThen], hpiece⟩

end Hand

end Writer

end Parley
