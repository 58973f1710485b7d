import Parley.Proofs.Constrained.Writing
import Parley.Proofs.Json.Reading
import Parley.Schema.Reader

/-! # Writing strings

    What stands between the quotes of a string is made of tokens whose text needs no escapes, so it
    is read as it stands.  A free text may be any such text.  One of several texts is written as
    long as more than one of them can still come, and then completed.
-/

namespace Parley

open Step

/-! ## Section 1: Characters of strings -/

theorem isAlphanum_false_of_lt {c : Char} (h : c.toNat < 0x30) : c.isAlphanum = false := by
  have hnot : ∀ code, code < 0x30 → (Char.ofNat code).isAlphanum = false := by decide
  rw [← Char.ofNat_toNat c]
  exact hnot _ h

/-- What a string may consist of needs no escapes. -/
theorem isPlain_of_isStringChar {c : Char} (h : isStringChar c = true) : Json.IsPlain c := by
  refine ⟨?_, ?_, ?_⟩
  · rintro rfl
    contradiction
  · rintro rfl
    contradiction
  · by_contra hcontrol
    -- a control character is in none of the three classes
    have hsmall : c.toNat < 0x20 := Nat.lt_of_not_le hcontrol
    have halphanumeric : Text.isAlphanumeric c = false := by
      rw [Text.isAlphanumeric, if_pos (by omega)]
      exact isAlphanum_false_of_lt (by omega)
    have hspace : c ≠ ' ' := by
      rintro rfl
      contradiction
    have hpunctuation : isPunctuation c = false := by
      rw [isPunctuation, decide_eq_false (by omega)]
      rfl
    rw [isStringChar, halphanumeric, hpunctuation, decide_eq_false hspace] at h
    contradiction

/-- A text that is allowed as one of several needs no escapes. -/
theorem isPlain_of_needsEscaping {text : String} (h : Schema.needsEscaping text = false) :
    ∀ c ∈ text.toList, Json.IsPlain c := by
  intro c hmem
  have hplain := List.any_eq_false.mp h c hmem
  simp only [Bool.or_eq_true, decide_eq_true_eq, not_or] at hplain
  obtain ⟨⟨hquote, hbackslash⟩, hcontrol⟩ := hplain
  refine ⟨hquote, hbackslash, ?_⟩
  by_contra hsmall
  exact hcontrol (by simp [Text.isControl]; omega)

namespace Writer

variable {ε s : Type} {inv : s → Prop} {hand : Hand ε s} {palette : Palette} {spelling : Spelling}

theorem not_isBody_quote : ¬ IsBody "\"" := by
  intro h
  have hquote := h.2 '"' (by simp)
  contradiction

/-- The quote is not among the tokens of which strings consist. -/
theorem quote_not_body (hpalette : palette.Spelled spelling) {token : TokenId}
    (hquote : some token = palette.quote) : token ∉ palette.stringBody := by
  intro hmem
  obtain ⟨piece, hpiece, hbody⟩ := hpalette.body token hmem
  have hspelled := hpalette.marks (palette.quote, "\"") (by simp [Palette.marks]) token hquote.symm
  cases hpiece.symm.trans hspelled
  exact not_isBody_quote hbody

/-! ## Section 2: Free texts -/

/-- What is allowed inside a free text is the quote, or a token of which strings consist. -/
theorem body_of_allowed (hpalette : palette.Spelled spelling) {token : TokenId} {nonblank : Bool}
    (hallowed : token ∈ if nonblank then palette.stringClosable else palette.stringOpen)
    (hquote : some token ≠ palette.quote) : token ∈ palette.stringBody := by
  cases nonblank with
  | true =>
    rcases (Palette.mem_stringClosable hpalette).mp hallowed with hbody | hsame
    · exact hbody
    · exact absurd hsame.symm hquote
  | false => exact (hpalette.opening token hallowed).1

section Laws

variable (hhand : hand.Spells inv spelling) (hpalette : palette.Spelled spelling)
include hhand hpalette

theorem writes_stringBody (room : Nat) (written : List TokenId) (nonblank : Bool) :
    Writes inv (stringBody hand.noted palette room written nonblank) fun _ deed =>
      ∀ c ∈ deed.text, isStringChar c = true := by
  -- every turn of the loop adds the text of one more token
  induction room generalizing written nonblank with
  | zero => exact writes_pure fun _ h => nomatch h
  | succ room ih =>
    unfold stringBody
    refine (writes_choose hhand _).bind fun chosen => ?_
    cases chosen with
    | none =>
      refine writes_pure ?_
      rintro _ ⟨rfl, -⟩ c hmem
      contradiction
    | some token =>
      refine writes_ite (fun _ => writes_pure ?_) fun hquote => ?_
      · rintro _ ⟨rfl, -⟩ c hmem
        contradiction
      -- whatever is allowed and is not the quote has a text of string characters
      have hpiece : ∀ piece : String, token ∈ (if nonblank then palette.stringClosable
          else palette.stringOpen) → (∀ known, spelling token = some known → piece = known) →
          ∀ c ∈ piece.toList, isStringChar c = true := by
        intro piece hallowed hread
        have hmem := body_of_allowed hpalette hallowed hquote
        obtain ⟨known, hknown, hbody⟩ := hpalette.body token hmem
        exact hread known hknown ▸ hbody.2
      refine (writes_take hhand token).bind fun piece => ?_
      refine writes_ite (fun _ => writes_pure ?_) fun _ => (ih _ _).mono ?_
      · rintro _ ⟨rfl, hread⟩ _ ⟨rfl, hallowed⟩
        simpa using hpiece piece (hallowed token rfl) hread
      · rintro _ deed hrest _ ⟨rfl, hread⟩ _ ⟨rfl, hallowed⟩ c hmem
        simp only [Deed.andThen_text, List.nil_append, List.mem_append] at hmem
        exact hmem.elim (hpiece piece (hallowed token rfl) hread c) (hrest c)

/-- **Free texts.**  A free text is written between quotes and needs no escapes. -/
theorem writes_freeString :
    Writes inv (freeString hand.noted palette) fun _ deed =>
      ∃ body, deed.text = '"' :: (body ++ ['"']) ∧ ∀ c ∈ body, isStringChar c = true := by
  unfold freeString
  refine (writes_literal hhand _).bind fun _ => ?_
  refine (writes_stringBody hhand hpalette _ _ _).bind fun _ => (writes_literal hhand _).mono ?_
  rintro _ _ rfl body hbody _ rfl
  exact ⟨body.text, rfl, hbody⟩

end Laws

/-! ## Section 3: One of several texts -/

theorem dropStart?_eq_some_iff {start text rest : List Char} :
    Text.dropStart? start text = some rest ↔ text = start ++ rest := by
  unfold Text.dropStart?
  split <;> rename_i hstart
  · obtain ⟨later, rfl⟩ := List.isPrefixOf_iff_prefix.mp hstart
    simp [eq_comm]
  · simp only [reduceCtorEq, false_iff]
    rintro rfl
    exact hstart (List.isPrefixOf_iff_prefix.mpr (List.prefix_append start rest))

/-- What remains behind a beginning completes one of the values. -/
theorem mem_remainders {values : List (List Char)} {generated remainder : List Char} :
    remainder ∈ values.filterMap (Text.dropStart? generated) ↔ generated ++ remainder ∈ values := by
  simp only [List.mem_filterMap, dropStart?_eq_some_iff]
  constructor
  · rintro ⟨value, hvalue, rfl⟩
    exact hvalue
  · exact fun hvalue => ⟨_, hvalue, rfl⟩

/-- No value is longer than the choices that there are for one. -/
theorem length_lt_enumFuel {values : List (List Char)} {value : List Char} (h : value ∈ values) :
    value.length < enumFuel values := by
  have hfold : ∀ (values : List (List Char)) (most : Nat), most ≤ values.foldl
      (fun most value => max most (value.length + 1)) most ∧ ∀ value ∈ values,
        value.length < values.foldl (fun most value => max most (value.length + 1)) most := by
    intro values
    induction values with
    | nil => exact fun most => ⟨Nat.le_refl most, fun _ h => nomatch h⟩
    | cons first rest ih =>
      intro most
      obtain ⟨hmost, hrest⟩ := ih (max most (first.length + 1))
      rw [List.foldl_cons, List.forall_mem_cons]
      exact ⟨by omega, by omega, hrest⟩
  exact (hfold values 1).2 value h

section Laws

variable (hhand : hand.Spells inv spelling)
include hhand

/-- A token that continues is one of those offered, and its text begins a remainder. -/
theorem writes_continuing (remainders : List (List Char)) (tokens : List TokenId)
    (allowed : TokenSet) :
    Writes inv (continuing hand.noted remainders tokens allowed) fun result deed => deed = {} ∧
      (allowed.Increasing → ∀ token ∈ result, token ∈ allowed ∨ token ∈ tokens
        ∧ ∀ piece, spelling token = some piece →
          piece ≠ "" ∧ ∃ remainder ∈ remainders, piece.toList <+: remainder) := by
  induction tokens generalizing allowed with
  | nil => exact writes_pure ⟨rfl, fun _ token hmem => .inl hmem⟩
  | cons first rest ih =>
    unfold continuing
    refine (writes_piece hhand first).bind fun text => (ih _).mono ?_
    rintro result _ ⟨rfl, hresult⟩ _ ⟨rfl, hread⟩
    refine ⟨rfl, fun hsorted token hmem => ?_⟩
    -- the first token is added if it fits, and the others are added to that
    by_cases hfits : (!text.toList.isEmpty
        && remainders.any (text.toList.isPrefixOf ·)) = true
    · rw [if_pos hfits] at hresult
      rcases hresult (hsorted.insert first) token hmem with hallowed | ⟨hrest, hpiece⟩
      · rcases (TokenSet.mem_insert hsorted).mp hallowed with rfl | hprev
        · refine .inr ⟨List.mem_cons_self, fun piece hpiece => ?_⟩
          simp only [hread piece hpiece, Bool.and_eq_true, Bool.not_eq_true', List.any_eq_true,
            List.isPrefixOf_iff_prefix] at hfits
          refine ⟨?_, hfits.2⟩
          rintro rfl
          simp at hfits
        · exact .inl hprev
      · exact .inr ⟨List.mem_cons_of_mem _ hrest, hpiece⟩
    · rw [if_neg hfits] at hresult
      exact (hresult hsorted token hmem).imp_right fun hrest =>
        ⟨List.mem_cons_of_mem _ hrest.1, hrest.2⟩

variable (hpalette : palette.Spelled spelling)
include hpalette

/-- The quote may follow where a value is complete, and other tokens where they go on with one. -/
theorem writes_continuations (remainders : List (List Char)) :
    Writes inv (continuations hand.noted palette remainders) fun result deed => deed = {} ∧
      ∀ token ∈ result, (some token = palette.quote → [] ∈ remainders) ∧
        (some token ≠ palette.quote → ∃ piece, spelling token = some piece ∧ piece ≠ ""
          ∧ ∃ remainder ∈ remainders, piece.toList <+: remainder) := by
  unfold continuations
  refine (writes_continuing hhand _ _ _).mono ?_
  rintro result deed ⟨rfl, hresult⟩
  refine ⟨rfl, fun token hmem => ?_⟩
  rcases hresult (TokenSet.ofOptions_increasing _) token hmem with hclosing | ⟨hbody, hpiece⟩
  · -- only the quote closes
    rw [TokenSet.mem_ofOptions] at hclosing
    split at hclosing
    · rename_i hempty
      have hquote : some token = palette.quote := List.mem_singleton.mp hclosing
      obtain ⟨remainder, hremainder, hnil⟩ := List.any_eq_true.mp hempty
      rw [List.isEmpty_iff.mp hnil] at hremainder
      exact ⟨fun _ => hremainder, fun hother => absurd hquote hother⟩
    · contradiction
  · refine ⟨fun hquote => absurd hbody (quote_not_body hpalette hquote), fun _ => ?_⟩
    obtain ⟨piece, hspelled, -⟩ := hpalette.body token hbody
    exact ⟨piece, hspelled, hpiece piece hspelled⟩

/-- **Invariant**: what was written begins one of the values.  Each token is a step towards the end
    of it, so the choices last. -/
theorem writes_enumBody (values : List (List Char)) (fuel : Nat) (generated : List Char) :
    Writes inv (enumBody hand.noted palette values fuel generated) fun _ deed =>
      (∃ value ∈ values, generated <+: value) →
        (∀ value ∈ values, value.length < fuel + generated.length) →
          generated ++ deed.text ∈ values := by
  induction fuel generalizing generated with
  | zero =>
    -- a beginning is no longer than the value, so there is a choice left
    refine writes_pure ?_
    rintro ⟨value, hvalue, hstart⟩ hfuel
    have hlength := hfuel value hvalue
    have hshorter := hstart.length_le
    omega
  | succ fuel ih =>
    unfold enumBody
    have hremainders : ∀ remainder, remainder ∈ values.filterMap (Text.dropStart? generated)
        ↔ generated ++ remainder ∈ values := fun _ => mem_remainders
    generalize values.filterMap (Text.dropStart? generated) = remainders at hremainders
    rcases remainders with _ | ⟨first, _ | ⟨second, rest⟩⟩
    · -- there is a value that goes on
      refine writes_pure ?_
      rintro ⟨value, hvalue, later, rfl⟩
      exact absurd ((hremainders _).mpr hvalue) List.not_mem_nil
    · -- only one value is left: it is completed
      refine (writes_literalIfAny hhand first).mono ?_
      rintro _ _ rfl - -
      exact (hremainders _).mp List.mem_cons_self
    · -- several are left: the hand chooses how to go on, and none stands for the first of them
      refine (writes_continuations hhand hpalette _).bind fun allowed => ?_
      refine (writes_choose hhand allowed).bind fun chosen => ?_
      cases chosen with
      | none =>
        refine (writes_literalIfAny hhand first).mono ?_
        rintro _ _ rfl _ ⟨rfl, -⟩ _ ⟨rfl, -⟩ - -
        exact (hremainders _).mp List.mem_cons_self
      | some token =>
        refine writes_ite (fun hquote => writes_pure ?_) fun hquote => ?_
        · rintro _ ⟨rfl, hmem⟩ _ ⟨rfl, hallowed⟩ - -
          exact (hremainders _).mp ((hallowed token (hmem token rfl)).1 hquote)
        refine (writes_take hhand token).bind fun piece => (ih _).mono ?_
        rintro _ deed hdeed _ ⟨rfl, hread⟩ _ ⟨rfl, hmem⟩ _ ⟨rfl, hallowed⟩ - hfuel
        obtain ⟨known, hknown, hsome, remainder, hremainder, hstart⟩ :=
          (hallowed token (hmem token rfl)).2 hquote
        cases hread known hknown
        have hlength : 0 < piece.toList.length :=
          List.length_pos_iff.mpr fun hnil => hsome (String.toList_eq_nil_iff.mp hnil)
        -- the longer beginning begins the same value
        simp only [Deed.andThen_text, List.nil_append, ← List.append_assoc]
        refine hdeed ⟨_, (hremainders _).mp hremainder, ?_⟩ fun value hvalue => ?_
        · exact (List.prefix_append_right_inj generated).mpr hstart
        · have hvalue_length := hfuel value hvalue
          rw [List.length_append]
          omega

/-- **One of several texts.**  What is written between the quotes is one of the values. -/
theorem writes_enumString {values : List String} (hsome : values ≠ []) :
    Writes inv (enumString hand.noted palette values) fun _ deed =>
      ∃ value ∈ values, deed.text = '"' :: (value.toList ++ ['"']) := by
  unfold enumString
  refine (writes_literal hhand _).bind fun _ => (writes_patience _).bind fun fuel => ?_
  refine (writes_enumBody hhand hpalette _ _ _).bind fun _ => (writes_literal hhand _).mono ?_
  rintro _ _ rfl body hbody _ ⟨rfl, hfuel⟩ _ rfl
  have hmem : body.text ∈ values.map String.toList := by
    refine hbody ?_ fun value hvalue => Nat.lt_of_lt_of_le (length_lt_enumFuel hvalue) hfuel
    obtain ⟨first, others, rfl⟩ := List.exists_cons_of_ne_nil hsome
    exact ⟨first.toList, List.mem_cons_self, List.nil_prefix⟩
  obtain ⟨value, hvalue, hsame⟩ := List.mem_map.mp hmem
  exact ⟨value, hvalue, by simp [hsame]⟩

end Laws

end Writer

end Parley
