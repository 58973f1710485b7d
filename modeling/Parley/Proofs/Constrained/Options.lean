import Parley.Proofs.Constrained.Choices

/-! # Choosing one of several texts

    One of several texts is written as long as more than one can still come.  Whatever is chosen,
    each choice but the last makes the text longer, so there is at most one more than the longest of
    them has characters.  A hand that fails may have chosen as well, so the choices are counted
    whether a step succeeds or fails: `Asks inv step post`.

    And every one of the texts can be chosen, character by character, if there is a token for each
    character, and the quote to end a text that is the beginning of another.
-/

namespace Parley

open Step

variable {ε s α β : Type}

/-! ## Section 1: What a step asks -/

/-- **What a step asks.**  Whether the step succeeds or fails, `post` holds of the answers that it
    got, if the hand obeyed. -/
def Asks (inv : s → Prop) (step : WriterM ε (s × List Answer) α) (post : List Answer → Prop) :
    Prop :=
  ∀ before, inv before.hand.1 → ∃ answers, (after step before).hand.2 = before.hand.2 ++ answers
    ∧ ((∀ answer ∈ answers, answer.Obeys) → post answers)

/-- The step asks nothing. -/
def Silent (step : WriterM ε (s × List Answer) α) : Prop :=
  ∀ draft, Keeps (fun draft later => later.hand.2 = draft.hand.2) step draft

section Asks

variable {inv : s → Prop} {step other : WriterM ε (s × List Answer) α}
  {next : α → WriterM ε (s × List Answer) β} {first : α → Deed → Prop} {post : List Answer → Prop}

theorem silent_pure (value : α) : Silent (ε := ε) (s := s) (pure value) := fun _ => rfl

theorem Silent.bind (h : Silent step) (hnext : ∀ value, Silent (next value)) :
    Silent (step >>= next) :=
  fun draft => (h draft).bind (fun hfirst hsecond => hsecond.trans hfirst) hnext

theorem Silent.asks (h : Silent step) (hpost : post []) : Asks inv step post :=
  fun before _ => ⟨[], (h before).trans (List.append_nil _).symm, fun _ => hpost⟩

/-- What is asked behind a silent step is all that is asked. -/
theorem Silent.bind_asks (h : Silent step) (hwrites : Writes inv step first) (hpost : post [])
    (hnext : ∀ value, Asks inv (next value) fun answers =>
      ∀ earlier, first value earlier → post answers) : Asks inv (step >>= next) post := by
  intro before hinv
  cases hstep : step before with
  | error error middle =>
    rw [after_bind_error hstep]
    exact ⟨[], ((h before).of_error hstep).trans (List.append_nil _).symm, fun _ => hpost⟩
  | ok value middle =>
    have hsilent : middle.hand.2 = before.hand.2 := (h before).of_ok hstep
    obtain ⟨hlater, deed, hleads, hfirst⟩ := hwrites before value middle hinv hstep
    have hnone : deed.answers = [] :=
      List.append_right_eq_self.mp (hleads.answers.symm.trans hsilent)
    obtain ⟨answers, hanswers, hasks⟩ := hnext value middle hlater
    rw [after_bind_ok hstep]
    refine ⟨answers, by rw [hanswers, hsilent], fun hobeys => hasks hobeys deed (hfirst ?_)⟩
    intro answer hmem
    rw [hnone] at hmem
    contradiction

/-- Behind the last question there are none. -/
theorem Asks.bind_silent (h : Asks inv step post) (hnext : ∀ value, Silent (next value)) :
    Asks inv (step >>= next) post := by
  intro before hinv
  obtain ⟨answers, hanswers, hasks⟩ := h before hinv
  refine ⟨answers, ?_, hasks⟩
  cases hstep : step before with
  | error error middle => rw [after_bind_error hstep, ← hanswers, after_error hstep]
  | ok value middle =>
    rw [after_bind_ok hstep, ← hanswers, after_ok hstep]
    exact hnext value middle

end Asks

namespace Writer

variable {inv : s → Prop} {hand : Hand ε s} {palette : Palette} {spelling : Spelling}

theorem silent_beside (step : EStateM ε s α) : Silent (onHand (Hand.beside step)) := by
  intro draft
  have hsilent : Keeps (fun state later => later.2 = state.2) (Hand.beside step) draft.hand := by
    unfold Keeps after Hand.beside
    cases step draft.hand.1 <;> rfl
  exact keeps_onHand hsilent

theorem silent_literal (hand : Hand ε s) (text : String) : Silent (literal hand.noted text) :=
  (silent_beside _).bind fun _ _ => rfl

theorem silent_literalIfAny (hand : Hand ε s) (text : List Char) :
    Silent (literalIfAny hand.noted text) := by
  unfold literalIfAny
  by_cases hempty : text.isEmpty = true
  · rw [if_pos hempty]
    exact silent_pure ()
  · rw [if_neg hempty]
    exact silent_literal hand _

theorem silent_take (hand : Hand ε s) (token : TokenId) : Silent (take hand.noted token) :=
  (silent_beside _).bind fun _ => (silent_beside _).bind fun _ =>
    Silent.bind (fun _ => rfl) fun _ => silent_pure _

theorem silent_continuing (hand : Hand ε s) (remainders : List (List Char))
    (tokens : List TokenId) (allowed : TokenSet) :
    Silent (continuing hand.noted remainders tokens allowed) := by
  induction tokens generalizing allowed with
  | nil => exact silent_pure allowed
  | cons token rest ih => exact (silent_beside _).bind fun _ => ih _

/-- A choice is one answer, and what is asked behind it are the others. -/
theorem asks_choose_bind (hhand : hand.Spells inv spelling) {allowed : TokenSet}
    {next : Option TokenId → WriterM ε (s × List Answer) β} {post : List Answer → Prop}
    (hpost : post [])
    (hnext : ∀ chosen, Asks inv (next chosen) fun answers =>
      (∀ token, chosen = some token → token ∈ allowed) → post (⟨allowed, chosen⟩ :: answers)) :
    Asks inv (choose hand.noted allowed >>= next) post := by
  intro before hinv
  cases hrun : hand.choose allowed before.hand.1 with
  | error error state =>
    have hstep : choose hand.noted allowed before
        = .error error ⟨(state, before.hand.2), before.text⟩ := by
      unfold choose onHand Hand.noted Hand.noting
      simp only [hrun]
    rw [after_bind_error hstep]
    exact ⟨[], (List.append_nil _).symm, fun _ => hpost⟩
  | ok chosen state =>
    have hstep : choose hand.noted allowed before
        = .ok chosen ⟨(state, before.hand.2 ++ [⟨allowed, chosen⟩]), before.text⟩ := by
      unfold choose onHand Hand.noted Hand.noting
      simp only [hrun]
    have hlater : inv state := (hhand.choose allowed _ _ _ hinv hrun).1
    obtain ⟨answers, hanswers, hasks⟩ :=
      hnext chosen ⟨(state, before.hand.2 ++ [⟨allowed, chosen⟩]), before.text⟩ hlater
    rw [after_bind_ok hstep]
    refine ⟨⟨allowed, chosen⟩ :: answers, by rw [hanswers, List.append_assoc]; rfl, ?_⟩
    intro hobeys
    obtain ⟨hfirst, hrest⟩ := List.forall_mem_cons.mp hobeys
    exact hasks hrest hfirst

/-! ## Section 2: How often a text asks -/

section Laws

variable (hhand : hand.Spells inv spelling) (hpalette : palette.Spelled spelling)
include hhand hpalette

/-- **Each choice but the last makes the text longer**, and it is the beginning of one of the values
    all the time. -/
theorem asks_enumBody (values : List (List Char)) (longest fuel : Nat) (generated : List Char) :
    Asks inv (enumBody hand.noted palette values fuel generated) fun answers =>
      (∃ value ∈ values, generated <+: value) → (∀ value ∈ values, value.length ≤ longest) →
        answers.length + generated.length ≤ longest + 1 := by
  -- a beginning of a value is no longer than the longest
  have hfew : ∀ {generated : List Char} {answers : List Answer}, answers.length ≤ 1 →
      (∃ value ∈ values, generated <+: value) → (∀ value ∈ values, value.length ≤ longest) →
        answers.length + generated.length ≤ longest + 1 := by
    rintro generated answers hanswers ⟨value, hvalue, hstart⟩ hlongest
    have hlength := Nat.le_trans hstart.length_le (hlongest value hvalue)
    omega
  have hnone : ([] : List Answer).length ≤ 1 := Nat.zero_le 1
  induction fuel generalizing generated with
  | zero => exact (silent_pure ()).asks (hfew hnone)
  | succ fuel ih =>
    unfold enumBody
    have hremainders : ∀ remainder, remainder ∈ values.filterMap (Text.dropStart? generated)
        ↔ generated ++ remainder ∈ values := fun _ => mem_remainders
    generalize values.filterMap (Text.dropStart? generated) = remainders at hremainders
    rcases remainders with _ | ⟨first, _ | ⟨second, rest⟩⟩
    · exact (silent_pure ()).asks (hfew hnone)
    · exact (silent_literalIfAny hand first).asks (hfew hnone)
    refine (silent_continuing hand _ _ _).bind_asks (writes_continuations hhand hpalette _)
      (hfew hnone) fun allowed => asks_choose_bind hhand (fun _ _ => hfew hnone) fun chosen => ?_
    cases chosen with
    | none =>
      exact (silent_literalIfAny hand first).asks fun _ _ _ => hfew (Nat.le_refl 1)
    | some token =>
      by_cases hquote : some token = palette.quote
      · simp only [hquote, if_true]
        exact (silent_pure ()).asks fun _ _ _ => hfew (Nat.le_refl 1)
      simp only [hquote, if_false]
      refine (silent_take hand token).bind_asks (writes_take hhand token)
        (fun _ _ _ => hfew (Nat.le_refl 1)) fun piece before hinv => ?_
      obtain ⟨answers, hanswers, hasks⟩ := ih (generated ++ piece.toList) before hinv
      refine ⟨answers, hanswers, ?_⟩
      rintro hobeys _ ⟨-, hread⟩ hmem _ ⟨-, hallowed⟩ - hlongest
      obtain ⟨known, hknown, hsome, remainder, hremainder, hstart⟩ :=
        (hallowed token (hmem token rfl)).2 hquote
      cases hread known hknown
      have hlength : 0 < piece.toList.length :=
        List.length_pos_iff.mpr fun hnil => hsome (String.toList_eq_nil_iff.mp hnil)
      -- the longer beginning begins the same value
      have hlater := hasks hobeys ⟨_, (hremainders _).mp hremainder,
        (List.prefix_append_right_inj generated).mpr hstart⟩ hlongest
      rw [List.length_append] at hlater
      rw [List.length_cons]
      omega

/-- **How often one of several texts asks.** -/
theorem asks_enumString {values : List String} (hsome : values ≠ []) (longest : Nat)
    (hlongest : ∀ value ∈ values, value.length ≤ longest) :
    Asks inv (enumString hand.noted palette values) fun answers =>
      answers.length ≤ longest + 1 := by
  obtain ⟨first, others, rfl⟩ := List.exists_cons_of_ne_nil hsome
  have hvalues : ∀ value ∈ (first :: others).map String.toList, value.length ≤ longest := by
    simpa [String.length_toList] using hlongest
  have hnone : ([] : List Answer).length ≤ longest + 1 := Nat.zero_le _
  unfold enumString
  refine (silent_literal hand _).bind_asks (writes_literal hhand _) hnone fun _ => ?_
  refine Silent.bind_asks (fun _ => rfl) (writes_patience _) (fun _ _ => hnone) fun fuel => ?_
  refine Asks.bind_silent (fun before hinv => ?_) fun _ => silent_literal hand _
  obtain ⟨answers, hanswers, hasks⟩ :=
    asks_enumBody hhand hpalette ((first :: others).map String.toList) longest fuel [] before hinv
  refine ⟨answers, hanswers, fun hobeys _ _ _ _ => ?_⟩
  exact hasks hobeys ⟨first.toList, List.mem_cons_self, List.nil_prefix⟩ hvalues

end Laws

/-! ## Section 3: Every text can be chosen -/

/-- A list with a member has no other, or at least two of them. -/
theorem eq_singleton_or_several {value : α} {values : List α} (h : value ∈ values) :
    values = [value] ∨ ∃ first second others, values = first :: second :: others := by
  rcases values with _ | ⟨first, _ | ⟨second, others⟩⟩
  · contradiction
  · exact .inl (by rw [List.mem_singleton.mp h])
  · exact .inr ⟨first, second, others, rfl⟩

theorem fits_iff {remainders : List (List Char)} {piece : String} :
    (!piece.toList.isEmpty && remainders.any (piece.toList.isPrefixOf ·)) = true
      ↔ piece ≠ "" ∧ ∃ remainder ∈ remainders, piece.toList <+: remainder := by
  simp [List.isPrefixOf_iff_prefix]

section Laws

variable {fails : ε → Prop} {plan : List TokenId} (hhand : hand.Spells inv spelling)
  (hfails : hand.FailsBy fails)
include hhand hfails

/-- Whatever begins a remainder is allowed. -/
theorem performs_continuing (remainders : List (List Char)) (tokens : List TokenId)
    (hspelled : ∀ token ∈ tokens, ∃ piece, spelling token = some piece) {allowed : TokenSet}
    (hallowed : allowed.Increasing) :
    Performs inv fails plan (continuing (hand.planned plan) remainders tokens allowed) [] []
      fun result => ∀ token, (token ∈ allowed ∨ token ∈ tokens ∧ ∃ piece,
        spelling token = some piece ∧ piece ≠ ""
          ∧ ∃ remainder ∈ remainders, piece.toList <+: remainder) → token ∈ result := by
  induction tokens generalizing allowed with
  | nil =>
    refine performs_pure fun token hmem => ?_
    rcases hmem with hallowed | ⟨hnone, -⟩
    · exact hallowed
    · contradiction
  | cons first rest ih =>
    obtain ⟨⟨known, hknown⟩, hrest⟩ := List.forall_mem_cons.mp hspelled
    unfold continuing
    refine (performs_piece hhand hfails hknown).then fun piece hpiece => ?_
    subst hpiece
    by_cases hfits : (!piece.toList.isEmpty && remainders.any (piece.toList.isPrefixOf ·)) = true
    · simp only [hfits, if_true]
      refine (ih hrest (hallowed.insert first)).mono fun result hresult token hmem => ?_
      refine hresult token ?_
      rw [TokenSet.mem_insert hallowed]
      rcases hmem with hold | ⟨hmem, hpiece⟩
      · exact .inl (.inr hold)
      · rcases List.mem_cons.mp hmem with rfl | hlater
        · exact .inl (.inl rfl)
        · exact .inr ⟨hlater, hpiece⟩
    · simp only [hfits, Bool.false_eq_true, if_false]
      refine (ih hrest hallowed).mono fun result hresult token hmem => hresult token ?_
      rcases hmem with hold | ⟨hmem, hpiece⟩
      · exact .inl hold
      · rcases List.mem_cons.mp hmem with rfl | hlater
        · -- the first token does not fit
          obtain ⟨other, hother, hothers⟩ := hpiece
          cases hknown.symm.trans hother
          exact absurd (fits_iff.mpr hothers) hfits
        · exact .inr ⟨hlater, hpiece⟩

/-- What is left when only one value can still come is written as a whole. -/
theorem performs_enumBody_one {values : List (List Char)} {rest generated : List Char} {fuel : Nat}
    (hone : values.filterMap (Text.dropStart? generated) = [rest]) :
    Performs inv fails plan (enumBody (hand.planned plan) palette values (fuel + 1) generated) []
      rest fun _ => True := by
  unfold enumBody
  simp only [hone]
  exact performs_literalIfAny hhand hfails rest

variable (hpalette : palette.Spelled spelling)
include hpalette

/-- Where a value is complete the quote may follow, and where it is not, the token of its next
    character. -/
theorem performs_continuations (remainders : List (List Char)) :
    Performs inv fails plan (continuations (hand.planned plan) palette remainders) [] []
      fun result => (∀ quote, palette.quote = some quote → [] ∈ remainders → quote ∈ result)
        ∧ ∀ token c rest, token ∈ palette.stringBody → spelling token = some (String.singleton c) →
          c :: rest ∈ remainders → token ∈ result := by
  have hspelled : ∀ token ∈ palette.stringBody.toList, ∃ piece, spelling token = some piece :=
    fun token hmem => (hpalette.body token hmem).imp fun _ hpiece => hpiece.1
  unfold continuations
  refine (performs_continuing hhand hfails remainders _ hspelled
    (TokenSet.ofOptions_increasing _)).mono fun result hresult => ⟨?_, ?_⟩
  · intro quote hquote hempty
    refine hresult quote (.inl ?_)
    have hany : remainders.any (·.isEmpty) = true := List.any_eq_true.mpr ⟨[], hempty, rfl⟩
    rw [if_pos hany, TokenSet.mem_ofOptions, hquote]
    exact List.mem_singleton.mpr rfl
  · intro token c rest hmem htoken hremainder
    refine hresult token (.inr ⟨hmem, _, htoken, ?_, _, hremainder, ?_⟩)
    · simp
    · simp

/-- **A value is chosen character by character**, as long as others can still come. -/
theorem performs_enumBody {values : List (List Char)} (hquote : palette.quote.isSome = true)
    {value : List Char} (hvalue : value ∈ values)
    (hchars : ∀ c ∈ value, ∃ token ∈ palette.stringBody,
      spelling token = some (String.singleton c))
    (rest generated : List Char) (hsplit : value = generated ++ rest) :
    ∃ choices, ∀ plan fuel, rest.length < fuel →
      Performs inv fails plan (enumBody (hand.planned plan) palette values fuel generated)
        choices rest fun _ => True := by
  obtain ⟨quote, hsome⟩ := Option.isSome_iff_exists.mp hquote
  induction rest generalizing generated with
  | nil =>
    have hmem : [] ∈ values.filterMap (Text.dropStart? generated) :=
      mem_remainders.mpr (hsplit ▸ hvalue)
    rcases eq_singleton_or_several hmem with hone | ⟨first, second, others, hseveral⟩
    · refine ⟨[], fun plan fuel hfuel => ?_⟩
      obtain ⟨fuel, rfl⟩ := Nat.exists_eq_add_one_of_ne_zero hfuel.ne'
      exact performs_enumBody_one hhand hfails hone
    · -- the value is complete: the quote ends it
      rw [hseveral] at hmem
      refine ⟨[quote], fun plan fuel hfuel => ?_⟩
      obtain ⟨fuel, rfl⟩ := Nat.exists_eq_add_one_of_ne_zero hfuel.ne'
      unfold enumBody
      simp only [hseveral]
      refine (performs_continuations hhand hfails hpalette _).then fun allowed hallowed => ?_
      refine (performs_choose (hallowed.1 quote hsome hmem)).bind fun chosen hchosen => ?_
      subst hchosen
      simp only [hsome, if_true]
      exact performs_pure trivial
  | cons c rest ih =>
    have hmem : c :: rest ∈ values.filterMap (Text.dropStart? generated) :=
      mem_remainders.mpr (hsplit ▸ hvalue)
    rcases eq_singleton_or_several hmem with hone | ⟨first, second, others, hseveral⟩
    · refine ⟨[], fun plan fuel hfuel => ?_⟩
      obtain ⟨fuel, rfl⟩ := Nat.exists_eq_add_one_of_ne_zero (Nat.zero_lt_of_lt hfuel).ne'
      exact performs_enumBody_one hhand hfails hone
    · rw [hseveral] at hmem
      obtain ⟨token, hbody, hspelled⟩ :=
        hchars c (hsplit ▸ List.mem_append_right generated List.mem_cons_self)
      obtain ⟨choices, hrest⟩ := ih (generated ++ [c]) (by simpa using hsplit)
      refine ⟨token :: choices, fun plan fuel hfuel => ?_⟩
      obtain ⟨fuel, rfl⟩ := Nat.exists_eq_add_one_of_ne_zero (Nat.zero_lt_of_lt hfuel).ne'
      unfold enumBody
      simp only [hseveral]
      refine (performs_continuations hhand hfails hpalette _).then fun allowed hallowed => ?_
      refine (performs_choose (hallowed.2 token c rest hbody hspelled hmem)).bind
        fun chosen hchosen => ?_
      subst hchosen
      have hnot : some token ≠ palette.quote := fun hsame => quote_not_body hpalette hsame hbody
      simp only [hnot, if_false]
      refine (performs_take_char hhand hfails hspelled).bind fun piece hpiece => ?_
      rw [hpiece]
      exact hrest plan fuel (Nat.lt_of_succ_lt_succ hfuel)

/-- **Every value** is written by some plan. -/
theorem canWrite_enumString {values : List String} (hquote : palette.quote.isSome = true)
    {value : String} (hvalue : value ∈ values)
    (hchars : ∀ c ∈ value.toList, ∃ token ∈ palette.stringBody,
      spelling token = some (String.singleton c)) :
    hand.CanWrite inv fails (fun hand => enumString hand palette values)
      ('"' :: (value.toList ++ ['"'])) := by
  have hmem : value.toList ∈ values.map String.toList := List.mem_map_of_mem hvalue
  obtain ⟨choices, hbody⟩ := performs_enumBody hhand hfails hpalette hquote hmem hchars
    value.toList [] rfl
  refine ⟨choices, ?_⟩
  unfold enumString
  refine (performs_literal hhand hfails "\"").bind fun _ _ => ?_
  refine (performs_patience _).then fun fuel hfuel => ?_
  refine (hbody choices fuel (Nat.lt_of_lt_of_le (length_lt_enumFuel hmem) hfuel)).close
    fun _ _ => ?_
  exact performs_literal hhand hfails "\""

end Laws

/-! ## Section 4: What is written of several texts -/

/-- **One of several texts.**  Whatever is chosen, there are at most as many choices as the longest
    of the values has characters, and one more; if no call of the hand fails, what stands between
    the quotes is one of the values.  And each of them is written by some plan, if there is a token
    for the quote and for each character. -/
theorem options_written {σ : Type} {engine : Engine σ} {vocab ready : Vocabulary σ}
    (hvocab : vocab.InUse engine) (hlearn : Palette.learn engine vocab = .ok palette ready)
    (hhand : hand.Spells inv ready.known?) {values : List String} (hsome : values ≠ []) :
    (∀ longest, (∀ value ∈ values, value.length ≤ longest) →
        Asks inv (enumString hand.noted palette values) fun answers => answers.length ≤ longest + 1)
      ∧ Writes inv (enumString hand.noted palette values) (fun _ deed =>
        ∃ value ∈ values, deed.text = '"' :: (value.toList ++ ['"']))
      ∧ ∀ fails, hand.FailsBy fails →
        Fails (enumString hand palette values) fails
          ∧ (palette.quote.isSome = true →
            (∀ value ∈ values, ∀ c ∈ value.toList, ∃ token ∈ palette.stringBody,
              ready.known? token = some (String.singleton c)) →
            ∀ value ∈ values, hand.CanWrite inv fails (fun hand => enumString hand palette values)
              ('"' :: (value.toList ++ ['"']))) := by
  have hpalette := Palette.spelled_of_learn hvocab hlearn
  refine ⟨fun longest hlongest => asks_enumString hhand hpalette hsome longest hlongest,
    writes_enumString hhand hpalette hsome, fun fails hfails => ?_⟩
  refine ⟨hfails.together.enumString values, fun hquote hchars value hvalue => ?_⟩
  exact canWrite_enumString hhand hfails hpalette hquote hvalue (hchars value hvalue)

/-- Whether the texts can be written with the tokens that the vocabulary knows. -/
def isSpelling (values : List String) (palette : Palette) (vocab : Vocabulary Tabulated) : Bool :=
  palette.quote.isSome && values.all fun value => value.toList.all fun c =>
    palette.stringBody.toList.any fun token => vocab.known? token == some (String.singleton c)

/-- The beginning of another value can be chosen, and so can the empty text. -/
theorem options_written_beginning :
    let vocab : Vocabulary Tabulated := { engine := Session.affirming }
    let values := ["no", "none", ""]
    vocab.InUse Tabulated.engine ∧ values ≠ []
      ∧ ∃ palette ready, Palette.learn Tabulated.engine vocab = .ok palette ready
        ∧ Asks (Session.Knows ready.known?)
          (enumString (Session.hand Tabulated.engine).noted palette values)
          (fun answers => answers.length ≤ 5)
        ∧ (Session.hand Tabulated.engine).CanWrite (Session.Knows ready.known?) Session.OfSession
          (fun hand => enumString hand palette values) "\"no\"".toList
        ∧ (Session.hand Tabulated.engine).CanWrite (Session.Knows ready.known?) Session.OfSession
          (fun hand => enumString hand palette values) "\"\"".toList := by
  intro vocab values
  have hvocab : vocab.InUse Tabulated.engine := .new _ _
  have hsome : values ≠ [] := List.cons_ne_nil _ _
  obtain ⟨palette, ready, hlearn, hcheck⟩ := exists_ok (Palette.learn Tabulated.engine) vocab
    (isSpelling values) (by decide +kernel)
  rw [isSpelling, Bool.and_eq_true] at hcheck
  obtain ⟨hquote, hall⟩ := hcheck
  have hchars : ∀ value ∈ values, ∀ c ∈ value.toList, ∃ token ∈ palette.stringBody,
      ready.known? token = some (String.singleton c) := by
    intro value hvalue c hc
    have hchar := List.all_eq_true.mp (List.all_eq_true.mp hall value hvalue) c hc
    obtain ⟨token, htoken, hknown⟩ := List.any_eq_true.mp hchar
    exact ⟨token, TokenSet.mem_toList.mp htoken, eq_of_beq hknown⟩
  obtain ⟨hasks, -, hwritten⟩ :=
    options_written hvocab hlearn (Session.hand_spells Tabulated.engine ready.known?) hsome
  have hwrite := (hwritten _ (Session.hand_failsBy _)).2 hquote hchars
  exact ⟨hvocab, hsome, palette, ready, hlearn, hasks 4 (by decide), hwrite "no" (by decide),
    hwrite "" (by decide)⟩

end Writer

end Parley
