import Parley.Proofs.Constrained.Choices

/-! # The free texts that can be written

    A free text is made of the tokens that were chosen: `FreeTokens` says which lists of tokens come
    about.  The loop behind it knows the tokens written before, the newest first, and whether they
    have a character that is not blank; what it may still add is said by `Continues`, which each
    token keeps.  Both directions follow it: whatever is chosen, the text is that of such a list,
    and every such list is written by some plan.
-/

namespace Parley

open Step

/-! ## Section 1: Tokens of free texts -/

/-- The text of tokens, one behind the other, if that of each is known. -/
def Spelling.text? (spelling : Spelling) : List TokenId → Option (List Char)
  | [] => some []
  | token :: rest => do
    let piece ← spelling token
    return piece.toList ++ (← spelling.text? rest)

theorem Spelling.text?_cons {spelling : Spelling} {token : TokenId} {rest : List TokenId}
    {text : List Char} : spelling.text? (token :: rest) = some text ↔
      ∃ piece later, spelling token = some piece ∧ spelling.text? rest = some later
        ∧ text = piece.toList ++ later := by
  rw [text?]
  cases spelling token <;> cases spelling.text? rest <;> simp [eq_comm]

/-- **The tokens of a free text.**  There are 1 to 128 of them, string tokens all of them, the first
    with a character that is not blank, and no three in a row are equal unless they are the
    last. -/
structure FreeTokens (palette : Palette) (tokens : List TokenId) : Prop where
  nonempty : tokens ≠ []
  length : tokens.length ≤ maxStringTokens
  body : ∀ token ∈ tokens, token ∈ palette.stringBody
  opening : ∀ token, tokens.head? = some token → token ∈ palette.stringOpen
  unstuck : ∀ token, ¬ [token, token, token] <:+: tokens.dropLast

/-- **What may follow** the tokens written before, the newest of them first; `nonblank` says whether
    they have a character that is not blank. -/
structure Continues (palette : Palette) (room : Nat) (written : List TokenId) (nonblank : Bool)
    (tokens : List TokenId) : Prop where
  length : tokens.length ≤ room
  body : ∀ token ∈ tokens, token ∈ palette.stringBody
  opening : nonblank = false → ∀ token, tokens.head? = some token → token ∈ palette.stringOpen
  unstuck : ∀ token, ¬ [token, token, token] <:+: (written.reverse ++ tokens).dropLast

section Tokens

variable {palette : Palette} {spelling : Spelling} {room : Nat} {written tokens : List TokenId}
  {nonblank : Bool} {token : TokenId}

theorem freeTokens_iff :
    FreeTokens palette tokens ↔ tokens ≠ [] ∧ Continues palette maxStringTokens [] false tokens :=
  ⟨fun h => ⟨h.nonempty, h.length, h.body, fun _ => h.opening, h.unstuck⟩,
    fun h => ⟨h.1, h.2.length, h.2.body, h.2.opening rfl, h.2.unstuck⟩⟩

/-- The tokens may be left as they are if no three in a row are equal before the last one. -/
theorem continues_nil (hwritten : ∀ token, ¬ [token, token, token] <:+: written.tail) :
    Continues palette room written nonblank [] where
  length := Nat.zero_le room
  body _ hmem := nomatch hmem
  opening _ _ hhead := nomatch hhead
  unstuck token hwithin := by
    rw [List.append_nil, List.dropLast_reverse, ← List.reverse_infix,
      List.reverse_reverse] at hwithin
    exact hwritten token hwithin

/-- Two equal tokens and the same again are three equal ones; otherwise one more token makes no
    three of them. -/
theorem unstuck_cons (hwritten : ∀ token, ¬ [token, token, token] <:+: written)
    (htake : ¬ (written.take 2 == [token, token]) = true) (other : TokenId) :
    ¬ [other, other, other] <:+: token :: written := by
  rw [List.infix_cons_iff]
  rintro (hfront | hwithin)
  · obtain ⟨rfl, hrest⟩ := List.cons_prefix_cons.mp hfront
    exact htake (beq_iff_eq.mpr (List.prefix_iff_eq_take.mp hrest).symm)
  · exact hwritten other hwithin

/-- One more token, and what follows it. -/
theorem Continues.cons (hbody : token ∈ palette.stringBody)
    (hopening : nonblank = false → token ∈ palette.stringOpen) {later : Bool}
    (h : Continues palette room (token :: written) later tokens) :
    Continues palette (room + 1) written nonblank (token :: tokens) where
  length := Nat.succ_le_succ h.length
  body := List.forall_mem_cons.mpr ⟨hbody, h.body⟩
  opening hblank other hhead := by
    cases hhead
    exact hopening hblank
  unstuck := by
    have hunstuck := h.unstuck
    rwa [List.reverse_cons, List.append_assoc] at hunstuck

theorem Continues.tail (h : Continues palette (room + 1) written nonblank (token :: tokens)) :
    Continues palette room (token :: written) true tokens where
  length := Nat.le_of_succ_le_succ h.length
  body := (List.forall_mem_cons.mp h.body).2
  opening hblank := nomatch hblank
  unstuck := by
    rw [List.reverse_cons, List.append_assoc]
    exact h.unstuck

/-- What comes next is one of the tokens that are allowed next. -/
theorem Continues.allowed (hpalette : palette.Spelled spelling)
    (h : Continues palette room written nonblank (token :: tokens)) :
    token ∈ if nonblank then palette.stringClosable else palette.stringOpen := by
  cases nonblank with
  | true => exact (Palette.mem_stringClosable hpalette).mpr (.inl (h.body token List.mem_cons_self))
  | false => exact h.opening rfl token rfl

/-- Behind any token there is a character that is not blank. -/
theorem Continues.nonblank_behind (hpalette : palette.Spelled spelling)
    (h : Continues palette room written nonblank (token :: tokens)) {piece : String}
    (hspelled : spelling token = some piece) :
    (nonblank || TokenClasses.isNonblank piece) = true := by
  cases nonblank with
  | true => rfl
  | false =>
    obtain ⟨known, hknown, hnonblank⟩ := (hpalette.opening token (h.opening rfl token rfl)).2
    cases hspelled.symm.trans hknown
    exact hnonblank

/-- The third of three equal tokens is the last. -/
theorem Continues.eq_nil (h : Continues palette room written nonblank (token :: tokens))
    (htake : (written.take 2 == [token, token]) = true) : tokens = [] := by
  by_contra hsome
  obtain ⟨older, hwritten⟩ : ∃ older, written = token :: token :: older :=
    ⟨written.drop 2, by rw [← List.take_append_drop 2 written, beq_iff_eq.mp htake]; simp⟩
  refine h.unstuck token ⟨older.reverse, tokens.dropLast, ?_⟩
  subst hwritten
  rw [← List.dropLast_append_of_ne_nil hsome]
  simp [List.append_assoc]

end Tokens

/-! ## Section 2: Whatever is chosen -/

namespace Writer

variable {ε s : Type} {inv : s → Prop} {hand : Hand ε s} {palette : Palette} {spelling : Spelling}

section Laws

variable (hhand : hand.Spells inv spelling) (hpalette : palette.Spelled spelling)
include hhand hpalette

/-- **The text is that of the tokens that were chosen.** -/
theorem writes_stringTokens (room : Nat) (written : List TokenId) (nonblank : Bool) :
    Writes inv (stringBody hand.noted palette room written nonblank) fun _ deed =>
      (∀ token, ¬ [token, token, token] <:+: written) → ∃ tokens,
        Continues palette room written nonblank tokens
          ∧ spelling.text? tokens = some deed.text
          ∧ tokens.map some <+: deed.answers.map (·.chosen)
          ∧ (tokens = [] → nonblank = false → room ≠ 0 →
            (deed.answers.map (·.chosen)).head? = some none) := by
  have htail : ∀ {written : List TokenId}, (∀ token, ¬ [token, token, token] <:+: written) →
      ∀ token, ¬ [token, token, token] <:+: written.tail :=
    fun hwritten token hwithin => hwritten token (hwithin.trans (List.tail_suffix _).isInfix)
  induction room generalizing written nonblank with
  | zero =>
    refine writes_pure fun hwritten => ⟨[], continues_nil (htail hwritten), rfl, ?_, ?_⟩
    · exact List.nil_prefix
    · exact fun _ _ hroom => absurd rfl hroom
  | succ room ih =>
    unfold stringBody
    refine (writes_choose hhand _).bind fun chosen => ?_
    cases chosen with
    | none =>
      refine writes_pure ?_
      rintro _ ⟨rfl, -⟩ hwritten
      exact ⟨[], continues_nil (htail hwritten), rfl, List.nil_prefix, fun _ _ _ => rfl⟩
    | some token =>
      refine writes_ite (fun hquote => writes_pure ?_) fun hquote => ?_
      · rintro _ ⟨rfl, hmem⟩ hwritten
        refine ⟨[], continues_nil (htail hwritten), rfl, List.nil_prefix, fun _ hblank _ => ?_⟩
        -- the quote is not what a text begins with
        subst hblank
        exact absurd (hpalette.opening token (hmem token rfl)).1 (quote_not_body hpalette hquote)
      refine (writes_take hhand token).bind fun piece => ?_
      have hspelled : token ∈ palette.stringBody →
          (∀ known, spelling token = some known → piece = known) → spelling token = some piece := by
        intro hbody hread
        obtain ⟨known, hknown, -⟩ := hpalette.body token hbody
        rw [hread known hknown, hknown]
      have hopening : (token ∈ if nonblank then palette.stringClosable else palette.stringOpen) →
          nonblank = false → token ∈ palette.stringOpen := by
        rintro hallowed rfl
        exact hallowed
      refine writes_ite (fun _ => writes_pure ?_) fun htake => (ih _ _).mono ?_
      · rintro _ ⟨rfl, hread⟩ _ ⟨rfl, hmem⟩ hwritten
        have hbody := body_of_allowed hpalette (hmem token rfl) hquote
        have hlast : Continues palette room (token :: written) true [] := continues_nil hwritten
        refine ⟨[token], hlast.cons hbody (hopening (hmem token rfl)), ?_, ?_, ?_⟩
        · exact Spelling.text?_cons.mpr ⟨piece, [], hspelled hbody hread, rfl, by simp⟩
        · simp
        · exact fun hnil => absurd hnil (List.cons_ne_nil _ _)
      · rintro _ deed hdeed _ ⟨rfl, hread⟩ _ ⟨rfl, hmem⟩ hwritten
        have hbody := body_of_allowed hpalette (hmem token rfl) hquote
        obtain ⟨tokens, hcontinues, htext, hfront, -⟩ := hdeed (unstuck_cons hwritten htake)
        refine ⟨token :: tokens, hcontinues.cons hbody (hopening (hmem token rfl)), ?_, ?_, ?_⟩
        · exact Spelling.text?_cons.mpr ⟨piece, deed.text, hspelled hbody hread, htext, by simp⟩
        · simpa using hfront
        · exact fun hnil => absurd hnil (List.cons_ne_nil _ _)

end Laws

/-! ## Section 3: Every text can be written -/

section Laws

variable {fails : ε → Prop} (hhand : hand.Spells inv spelling) (hfails : hand.FailsBy fails)
  (hpalette : palette.Spelled spelling)
include hhand hfails hpalette

/-- **Tokens are written one by one**, and then the quote ends the text if there is room for it. -/
theorem performs_stringBody (hquote : palette.quote.isSome = true) (tokens : List TokenId)
    (room : Nat) (written : List TokenId) (nonblank : Bool) {text : List Char}
    (htext : spelling.text? tokens = some text)
    (hcontinues : Continues palette room written nonblank tokens)
    (hsome : nonblank = true ∨ tokens ≠ []) :
    ∃ choices, ∀ plan, Performs inv fails plan
      (stringBody (hand.planned plan) palette room written nonblank) choices text
        fun _ => True := by
  obtain ⟨quote, hquote⟩ := Option.isSome_iff_exists.mp hquote
  induction tokens generalizing room written nonblank text with
  | nil =>
    cases htext
    cases room with
    | zero => exact ⟨[], fun plan => performs_pure trivial⟩
    | succ room =>
      have hclosable : quote ∈ palette.stringClosable :=
        (Palette.mem_stringClosable hpalette).mpr (.inr hquote)
      have hblank : nonblank = true := hsome.resolve_right fun hnil => hnil rfl
      subst hblank
      refine ⟨[quote], fun plan => ?_⟩
      unfold stringBody
      refine (performs_choose hclosable).bind fun chosen hchosen => ?_
      subst hchosen
      simp only [hquote, if_true]
      exact performs_pure trivial
  | cons token rest ih =>
    obtain ⟨piece, later, hspelled, hlater, rfl⟩ := Spelling.text?_cons.mp htext
    have hbody := hcontinues.body token List.mem_cons_self
    have hnot : some token ≠ palette.quote := fun hsame => quote_not_body hpalette hsame hbody
    have hallowed := hcontinues.allowed hpalette
    cases room with
    | zero => exact absurd hcontinues.length (Nat.not_succ_le_zero _)
    | succ room =>
      by_cases htake : (written.take 2 == [token, token]) = true
      · have hlast := hcontinues.eq_nil htake
        subst hlast
        cases hlater
        refine ⟨[token], fun plan => ?_⟩
        unfold stringBody
        refine (performs_choose hallowed).bind fun chosen hchosen => ?_
        subst hchosen
        simp only [hnot, if_false, htake, if_true]
        refine (performs_take hhand hfails hspelled).bind fun _ _ => ?_
        exact performs_pure trivial
      · obtain ⟨choices, hrest⟩ := ih room (token :: written) true hlater hcontinues.tail (.inl rfl)
        refine ⟨token :: choices, fun plan => ?_⟩
        unfold stringBody
        refine (performs_choose hallowed).bind fun chosen hchosen => ?_
        subst hchosen
        simp only [hnot, if_false, htake]
        refine (performs_take hhand hfails hspelled).bind fun text htext => ?_
        subst htext
        rw [hcontinues.nonblank_behind hpalette hspelled]
        exact hrest plan

/-- **Every free text** is written by some plan. -/
theorem canWrite_freeString (hquote : palette.quote.isSome = true) {tokens : List TokenId}
    (htokens : FreeTokens palette tokens) {text : List Char}
    (htext : spelling.text? tokens = some text) :
    hand.CanWrite inv fails (fun hand => freeString hand palette) ('"' :: (text ++ ['"'])) := by
  obtain ⟨hsome, hcontinues⟩ := freeTokens_iff.mp htokens
  obtain ⟨choices, hbody⟩ := performs_stringBody hhand hfails hpalette hquote tokens
    maxStringTokens [] false htext hcontinues (.inr hsome)
  refine ⟨choices, ?_⟩
  unfold freeString
  refine (performs_literal hhand hfails "\"").bind fun _ _ => ?_
  exact (hbody choices).close fun _ _ => performs_literal hhand hfails "\""

end Laws

end Writer

/-! ## Section 4: What is written as a free text -/

/-- **A free text** was written, with `body` between its quotes.  It is empty only if nothing was
    chosen at first, and otherwise it is the text of `tokens`, which were chosen. -/
structure Deed.IsFreeText (deed : Deed) (palette : Palette) (spelling : Spelling)
    (tokens : List TokenId) (body : List Char) : Prop where
  text : deed.text = '"' :: (body ++ ['"'])
  empty : body = [] → (deed.answers.map (·.chosen)).head? = some none
  free : body ≠ [] → FreeTokens palette tokens
  chosen : tokens.map some <+: deed.answers.map (·.chosen)
  spelled : spelling.text? tokens = some body
  nonblank : ∀ token, tokens.head? = some token →
    ∃ piece, spelling token = some piece ∧ TokenClasses.isNonblank piece = true
  plain : ∀ c ∈ body, Json.IsPlain c
  reads : Json.parse (String.ofList deed.text) = .ok (.string (String.ofList body))

section Texts

variable {palette : Palette} {spelling : Spelling} {tokens : List TokenId} {text : List Char}

theorem Palette.Spelled.text_isSome (hpalette : palette.Spelled spelling)
    (hbody : ∀ token ∈ tokens, token ∈ palette.stringBody) :
    ∃ text, spelling.text? tokens = some text := by
  induction tokens with
  | nil => exact ⟨[], rfl⟩
  | cons token rest ih =>
    obtain ⟨hfirst, hrest⟩ := List.forall_mem_cons.mp hbody
    obtain ⟨piece, hpiece, -⟩ := hpalette.body token hfirst
    obtain ⟨later, hlater⟩ := ih hrest
    exact ⟨_, Spelling.text?_cons.mpr ⟨piece, later, hpiece, hlater, rfl⟩⟩

/-- The text of string tokens needs no escapes. -/
theorem isPlain_of_tokens (hpalette : palette.Spelled spelling)
    (hbody : ∀ token ∈ tokens, token ∈ palette.stringBody)
    (htext : spelling.text? tokens = some text) : ∀ c ∈ text, Json.IsPlain c := by
  induction tokens generalizing text with
  | nil =>
    cases htext
    exact fun _ hmem => nomatch hmem
  | cons token rest ih =>
    obtain ⟨hfirst, hrest⟩ := List.forall_mem_cons.mp hbody
    obtain ⟨piece, later, hpiece, hlater, rfl⟩ := Spelling.text?_cons.mp htext
    obtain ⟨known, hknown, hchars⟩ := hpalette.body token hfirst
    cases hpiece.symm.trans hknown
    exact List.forall_mem_append.mpr
      ⟨fun c hmem => isPlain_of_isStringChar (hchars.2 c hmem), ih hrest hlater⟩

end Texts

namespace Writer

variable {ε s : Type} {inv : s → Prop} {hand : Hand ε s} {palette : Palette} {spelling : Spelling}

theorem writes_freeText (hhand : hand.Spells inv spelling) (hpalette : palette.Spelled spelling) :
    Writes inv (freeString hand.noted palette) fun _ deed =>
      ∃ tokens body, deed.IsFreeText palette spelling tokens body := by
  unfold freeString
  refine (writes_literal hhand _).bind fun _ => ?_
  refine (writes_stringTokens hhand hpalette _ _ _).bind fun _ => (writes_literal hhand _).mono ?_
  rintro _ _ rfl deed hdeed _ rfl
  have hshort : ∀ token, ¬ [token, token, token] <:+: ([] : List TokenId) := fun _ => by simp
  obtain ⟨tokens, hcontinues, hspelled, hchosen, hnone⟩ := hdeed hshort
  have hplain := isPlain_of_tokens hpalette hcontinues.body hspelled
  have hopening : ∀ token, tokens.head? = some token →
      ∃ piece, spelling token = some piece ∧ TokenClasses.isNonblank piece = true :=
    fun token hhead => (hpalette.opening token (hcontinues.opening rfl token hhead)).2
  -- the first token has a text, so only without tokens there is none
  have hempty : deed.text = [] → tokens = [] := by
    intro hnil
    by_contra hsome
    obtain ⟨token, rest, rfl⟩ := List.exists_cons_of_ne_nil hsome
    obtain ⟨piece, later, hpiece, -, htext⟩ := Spelling.text?_cons.mp hspelled
    obtain ⟨known, hknown, hnonblank⟩ := hopening token rfl
    cases hpiece.symm.trans hknown
    rw [TokenClasses.isNonblank, (List.append_eq_nil_iff.mp (htext.symm.trans hnil)).1] at hnonblank
    exact absurd hnonblank Bool.false_ne_true
  have hreads := Json.reads_plain Json.maxDepth hplain
  refine ⟨tokens, deed.text,
    ⟨rfl, fun hnil => ?_, fun hsome => ?_, ?_, hspelled, hopening, hplain, ?_⟩⟩
  · simpa using hnone (hempty hnil) rfl (by decide)
  · refine freeTokens_iff.mpr ⟨?_, hcontinues⟩
    rintro rfl
    exact hsome (Option.some.inj hspelled).symm
  · simpa using hchosen
  · refine Json.parse_of_reads ?_
    rw [String.toList_ofList]
    exact hreads

/-- **Free texts.**  Whatever is chosen, a text is empty only if nothing was chosen at first, or it
    is that of 1 to 128 string tokens: it does not begin with a blank token, it needs no escapes,
    and it is left at a third equal token in a row.  If no call of the hand fails it is written; and
    the text of any such tokens is written by some plan, if there is a token for the quote. -/
theorem free_texts_written {σ : Type} {engine : Engine σ} {vocab ready : Vocabulary σ}
    (hvocab : vocab.InUse engine) (hlearn : Palette.learn engine vocab = .ok palette ready)
    (hhand : hand.Spells inv ready.known?) :
    Writes inv (freeString hand.noted palette) (fun _ deed =>
        ∃ tokens body, deed.IsFreeText palette ready.known? tokens body)
      ∧ ∀ fails, hand.FailsBy fails →
        Fails (freeString hand palette) fails
          ∧ (palette.quote.isSome = true → ∀ tokens, FreeTokens palette tokens →
            ∃ text, Spelling.text? ready.known? tokens = some text
              ∧ hand.CanWrite inv fails (fun hand => freeString hand palette)
                ('"' :: (text ++ ['"']))) := by
  have hpalette := Palette.spelled_of_learn hvocab hlearn
  refine ⟨writes_freeText hhand hpalette, fun fails hfails => ⟨hfails.together.freeString, ?_⟩⟩
  intro hquote tokens htokens
  obtain ⟨text, htext⟩ := hpalette.text_isSome htokens.body
  exact ⟨text, htext, canWrite_freeString hhand hfails hpalette hquote htokens htext⟩

/-- Whether a free text can consist of the tokens three times over. -/
def isRepeatable (token : TokenId) (palette : Palette) (vocab : Vocabulary Tabulated) : Bool :=
  palette.quote.isSome ∧ token ∈ palette.stringBody.toList ∧ token ∈ palette.stringOpen.toList
    ∧ Spelling.text? vocab.known? [token, token, token] = some "ooo".toList

/-- The third of three equal tokens is still written. -/
theorem free_texts_written_repeated :
    let vocab : Vocabulary Tabulated := { engine := Session.affirming }
    vocab.InUse Tabulated.engine
      ∧ ∃ palette ready, Palette.learn Tabulated.engine vocab = .ok palette ready
        ∧ palette.quote.isSome = true ∧ FreeTokens palette [19, 19, 19]
        ∧ (Session.hand Tabulated.engine).CanWrite (Session.Knows ready.known?) Session.OfSession
          (fun hand => freeString hand palette) "\"ooo\"".toList := by
  intro vocab
  have hvocab : vocab.InUse Tabulated.engine := .new _ _
  obtain ⟨palette, ready, hlearn, hcheck⟩ := exists_ok (Palette.learn Tabulated.engine) vocab
    (isRepeatable 19) (by decide +kernel)
  obtain ⟨hquote, hbody, hopening, htext⟩ := of_decide_eq_true hcheck
  have htokens : FreeTokens palette [19, 19, 19] := by
    refine ⟨List.cons_ne_nil _ _, by decide, ?_, fun token hhead => ?_, fun token hwithin => ?_⟩
    · simpa using TokenSet.mem_toList.mp hbody
    · cases hhead
      exact hopening
    · exact absurd hwithin.length_le (by simp)
  obtain ⟨-, hwritten⟩ :=
    free_texts_written hvocab hlearn (Session.hand_spells Tabulated.engine ready.known?)
  obtain ⟨text, hspelled, hwrite⟩ :=
    (hwritten _ (Session.hand_failsBy _)).2 hquote _ htokens
  cases hspelled.symm.trans htext
  exact ⟨hvocab, palette, ready, hlearn, hquote, htokens, hwrite⟩

end Writer

end Parley
