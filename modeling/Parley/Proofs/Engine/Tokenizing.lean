import Parley.Proofs.Engine.Reciting

/-! # Texts and their tokens

    A scripted engine cuts a text from left to right, and cuts off the longest token each time:
    `Greedy`.  The texts of the tokens differ, so there is one longest token at most, and one way to
    cut a text: `Greedy.unique`.  Every token is made of printable characters and every printable
    character is a token, so it is the printable texts that can be cut: `exists_tokenize_iff`.  What
    was cut can be put together, and cutting that again makes the same tokens:
    `tokenize_reads_back`. -/

namespace Parley.Scripted

open Step

/-! ## Section 1: The texts of the tokens -/

/-- **Tokens have different texts.**  The texts of the control tokens and of the words are few, the
    characters are the texts of one character, and the numbers those of digits alone. -/
theorem nodup_texts : (pieces.toList.map (·.text)).Nodup := by
  have htexts : pieces.toList.map (·.text) = controlTexts.map String.toList
      ++ (characters ++ words.map String.toList ++ numbers) := by
    simp [pieces, Function.comp_def]
  have hnamed : (controlTexts.map String.toList ++ words.map String.toList).Nodup := by
    decide +kernel
  have hcharacters : characters.Nodup := by decide +kernel
  have hnumbers : numbers.Nodup := by decide +kernel
  have hlong : ∀ text ∈ controlTexts.map String.toList ++ words.map String.toList,
      2 ≤ text.length ∧ text.all Char.isDigit = false := by
    decide +kernel
  have hshort : ∀ text ∈ characters, text.length = 1 := by decide +kernel
  have hdigits : ∀ text ∈ numbers, text.length = 2 ∧ text.all Char.isDigit = true := by
    decide +kernel
  have hapart : ∀ text ∈ controlTexts.map String.toList ++ words.map String.toList,
      text ∉ characters ∧ text ∉ numbers := by
    intro text htext
    obtain ⟨hlength, hdigit⟩ := hlong text htext
    constructor
    · intro hcharacter
      have hone := hshort text hcharacter
      omega
    · intro hnumber
      exact absurd ((hdigits text hnumber).2.symm.trans hdigit) (by decide)
  have hdisjoint : ∀ text ∈ characters, text ∉ numbers := by
    intro text hcharacter hnumber
    have hone := hshort text hcharacter
    have htwo := (hdigits text hnumber).1
    omega
  rw [htexts]
  simp only [List.nodup_append, List.mem_append] at hnamed hapart ⊢
  grind

/-- A token is known by its text. -/
theorem eq_of_text_eq {piece other : Piece} {index place : Nat} (h : pieces[index]? = some piece)
    (hother : pieces[place]? = some other) (htext : piece.text = other.text) : index = place := by
  have hat {index : Nat} {piece : Piece} (h : pieces[index]? = some piece) :
      (pieces.toList.map (·.text))[index]? = some piece.text := by
    rw [List.getElem?_map, Array.getElem?_toList, h]
    rfl
  have hlt : index < (pieces.toList.map (·.text)).length :=
    (List.getElem?_eq_some_iff.mp (hat h)).1
  apply (List.getElem?_inj hlt nodup_texts).mp
  rw [hat h, hat hother, htext]

/-- A token with a text has a number. -/
theorem exists_index_of_piece? {token : TokenId} {piece : Piece} (h : piece? token = some piece) :
    ∃ index : Nat, token = Int32.ofNat index ∧ pieces[index]? = some piece := by
  unfold piece? at h
  split at h
  · rename_i hnonneg
    refine ⟨token.toInt.toNat, ?_, h⟩
    have hint : (0 : Int) ≤ token.toInt := Int32.le_iff_toInt_le.mp hnonneg
    apply Int32.toInt.inj
    rw [toInt_ofNat_of_piece h, Int.toNat_of_nonneg hint]
  · contradiction

/-! ## Section 2: The longest token -/

/-- **The longest match.**  Of the tokens that may occur, which control tokens do only if `special`,
    `token` has the longest text that `text` begins with: any other one is shorter. -/
structure Longest (special : Bool) (text : List Char) (token : TokenId) (piece : Piece) : Prop where
  known : piece? token = some piece
  allowed : (special || !piece.control) = true
  starts : piece.text <+: text
  longest : ∀ other found, piece? other = some found → (special || !found.control) = true →
    found.text <+: text → other ≠ token → found.text.length < piece.text.length

theorem longest_of_longest? {special : Bool} {text : List Char} {piece : Piece} {index : Nat}
    (h : longest? special text = some (piece, index)) :
    Longest special text (Int32.ofNat index) piece := by
  obtain ⟨hpiece, hallowed, hstarts⟩ := longest?_eq_some h
  refine ⟨piece?_ofNat hpiece, hallowed, hstarts, ?_⟩
  intro other found hother hfits hbegins hne
  obtain ⟨place, rfl, hplace⟩ := exists_index_of_piece? hother
  obtain ⟨best, number, hbest, hle⟩ := exists_longest? hplace hfits hbegins
  cases h.symm.trans hbest
  -- of one length, the two texts are the same
  refine hle.lt_of_ne fun hlength => hne ?_
  have hbegin := List.prefix_of_prefix_length_le hbegins hstarts hle
  rw [eq_of_text_eq hplace hpiece (hbegin.eq_of_length hlength)]

theorem Longest.text_ne_nil {special : Bool} {text : List Char} {token : TokenId} {piece : Piece}
    (h : Longest special text token piece) : piece.text ≠ [] := by
  obtain ⟨index, -, hindex⟩ := exists_index_of_piece? h.known
  exact Scripted.text_ne_nil hindex

/-- There is one longest token at most. -/
theorem Longest.unique {special : Bool} {text : List Char} {token token' : TokenId}
    {piece piece' : Piece} (h : Longest special text token piece)
    (h' : Longest special text token' piece') : token = token' ∧ piece = piece' := by
  have htoken : token = token' := by
    by_contra hne
    have hlt := h.longest token' piece' h'.known h'.allowed h'.starts (Ne.symm hne)
    have hgt := h'.longest token piece h.known h.allowed h.starts hne
    omega
  subst htoken
  exact ⟨rfl, Option.some.inj (h.known.symm.trans h'.known)⟩

/-! ## Section 3: Greedy tokens -/

/-- **Greedy tokens** of a text: the first is the longest one that the text begins with, and the
    others are those of the rest. -/
inductive Greedy (special : Bool) : (text : List Char) → (tokens : List TokenId) → Prop
  | done : Greedy special [] []
  | token {token : TokenId} {piece : Piece} {rest : List Char} {tokens : List TokenId}
    (hlongest : Longest special (piece.text ++ rest) token piece) (h : Greedy special rest tokens) :
    Greedy special (piece.text ++ rest) (token :: tokens)

/-- **Texts are made into greedy tokens.** -/
theorem greedy_of_tokenizeWithin {special : Bool} {fuel : Nat} {text : List Char}
    {tokens : List TokenId} (hfuel : text.length ≤ fuel)
    (h : tokenizeWithin special fuel text = .ok tokens) : Greedy special text tokens := by
  induction fuel generalizing text tokens with
  | zero =>
    cases List.eq_nil_of_length_eq_zero (Nat.le_zero.mp hfuel)
    cases h
    exact .done
  | succ fuel ih =>
    cases text with
    | nil =>
      cases h
      exact .done
    | cons c rest =>
      obtain ⟨piece, index, further, behind, hlongest, htext, hshorter, rfl, hbehind⟩ :=
        tokenizeWithin_cons_eq_ok h
      have hmatch := longest_of_longest? hlongest
      rw [← htext] at hmatch ⊢
      exact .token hmatch (ih (Nat.le_trans hshorter (Nat.le_of_succ_le_succ hfuel)) hbehind)

/-- The tokens of a text are its greedy tokens, behind the beginning of a sequence if that is asked
    for. -/
theorem greedy_of_tokenize {text : String} {addBos special : Bool} {tokens : List TokenId}
    (h : tokenize text addBos special = .ok tokens) :
    ∃ found, tokens = (if addBos then bos :: found else found)
      ∧ Greedy special text.toList found := by
  obtain ⟨found, hfound, rfl⟩ := except_map_eq_ok h
  exact ⟨found, rfl, greedy_of_tokenizeWithin (Nat.le_refl _) hfound⟩

section Greedy

variable {special : Bool} {text : List Char} {tokens : List TokenId}

theorem Greedy.shown (h : Greedy special text tokens) : ∀ token ∈ tokens, Shown special token := by
  induction h with
  | done => simp
  | @token token piece rest tokens hlongest _ ih =>
    rw [List.forall_mem_cons]
    exact ⟨⟨piece, hlongest.known, hlongest.allowed⟩, ih⟩

/-- Greedy tokens make the text. -/
theorem Greedy.render_eq (h : Greedy special text tokens) : render tokens = text := by
  induction h with
  | done => rfl
  | @token token piece rest tokens hlongest _ ih =>
    rw [← List.singleton_append, render_append, render_singleton hlongest.known, ih]

theorem Greedy.printable (h : Greedy special text tokens) : Printable text := by
  induction h with
  | done => simp [Printable]
  | @token token piece rest tokens hlongest _ ih =>
    obtain ⟨index, -, hindex⟩ := exists_index_of_piece? hlongest.known
    intro c hc
    rcases List.mem_append.mp hc with hfirst | hlater
    · exact printable_text hindex c hfirst
    · exact ih c hlater

/-- **Each token** is the longest one that the text begins with from its place on. -/
theorem Greedy.longest {before after : List TokenId} {token : TokenId}
    (h : Greedy special text (before ++ token :: after)) :
    ∃ piece, Longest special (text.drop (render before).length) token piece := by
  generalize htokens : before ++ token :: after = tokens at h
  induction h generalizing before with
  | done => simp at htokens
  | @token first piece rest tokens hlongest _ ih =>
    cases before with
    | nil =>
      cases htokens
      exact ⟨piece, hlongest⟩
    | cons next before =>
      cases htokens
      obtain ⟨found, hfound⟩ := ih rfl
      refine ⟨found, ?_⟩
      rw [← List.singleton_append, render_append, render_singleton hlongest.known,
        List.length_append, ← List.drop_drop, List.drop_left]
      exact hfound

/-- **There is one way** to cut a text. -/
theorem Greedy.unique {tokens' : List TokenId} (h : Greedy special text tokens)
    (h' : Greedy special text tokens') : tokens = tokens' := by
  induction h generalizing tokens' with
  | done =>
    generalize htext : ([] : List Char) = text at h'
    cases h' with
    | done => rfl
    | token hlongest _ => exact absurd (List.append_eq_nil_iff.mp htext.symm).1 hlongest.text_ne_nil
  | @token token piece rest tokens hlongest _ ih =>
    generalize htext : piece.text ++ rest = text at h'
    cases h' with
    | done => exact absurd (List.append_eq_nil_iff.mp htext).1 hlongest.text_ne_nil
    | @token token' piece' rest' tokens' hlongest' hmore =>
      rw [← htext] at hlongest'
      obtain ⟨rfl, rfl⟩ := hlongest.unique hlongest'
      rw [List.append_cancel_left htext] at ih
      rw [ih hmore]

end Greedy

/-! ## Section 4: Cutting and putting together -/

/-- The texts of tokens put together; those of control tokens are left out unless `special`. -/
def spell (special : Bool) (tokens : List TokenId) : Except EngineError String :=
  (tokens.mapM (pieceText · special)).map String.join

/-- Where no token is left out, all their texts are put together. -/
theorem spell_of_shown {special : Bool} {tokens : List TokenId}
    (h : ∀ token ∈ tokens, Shown special token) :
    spell special tokens = .ok (String.ofList (render tokens)) := by
  obtain ⟨texts, htexts, hjoined⟩ := exists_texts h
  unfold spell
  rw [htexts, ← hjoined, ← String.toList_join, String.ofList_toList]
  rfl

section Tokenize

variable {text : String} {special : Bool} {tokens : List TokenId}

theorem tokenize_eq_ok_iff : tokenize text false special = .ok tokens
    ↔ Greedy special text.toList tokens := by
  constructor
  · intro h
    obtain ⟨found, hfound, hgreedy⟩ := greedy_of_tokenize h
    rw [hfound]
    exact hgreedy
  · intro h
    obtain ⟨found, hfound⟩ := exists_tokenize h.printable false special
    obtain ⟨greedy, rfl, hgreedy⟩ := greedy_of_tokenize hfound
    rw [h.unique hgreedy]
    exact hfound

/-- **Texts that can be cut** are the printable ones. -/
theorem exists_tokenize_iff (addBos : Bool) :
    (∃ tokens, tokenize text addBos special = .ok tokens) ↔ Printable text.toList := by
  constructor
  · rintro ⟨tokens, htokens⟩
    obtain ⟨found, -, hgreedy⟩ := greedy_of_tokenize htokens
    exact hgreedy.printable
  · intro h
    exact exists_tokenize h addBos special

/-- What is cut from a text makes the text again. -/
theorem Greedy.spell_eq {special : Bool} {tokens : List TokenId}
    (h : Greedy special text.toList tokens) :
    spell special tokens = .ok text ∧ spell true tokens = .ok text := by
  have hshown := spell_of_shown h.shown
  have hall : spell true tokens = .ok (String.ofList (render tokens)) := by
    apply spell_of_shown
    intro token htoken
    obtain ⟨piece, hpiece, -⟩ := h.shown token htoken
    exact ⟨piece, hpiece, rfl⟩
  rw [h.render_eq, String.ofList_toList] at hshown hall
  exact ⟨hshown, hall⟩

/-- The text of the beginning of a sequence is read as that. -/
theorem longest_bos (rest : List Char) :
    Longest true (['<', 's', '>'] ++ rest) bos ⟨['<', 's', '>'], true⟩ := by
  have hall : pieces.toList.all (fun piece => !List.isPrefixOf ['<', 's', '>'] piece.text
      || piece.text == ['<', 's', '>']) = true := by
    decide +kernel
  refine ⟨piece?_ofNat pieces_bos, rfl, List.prefix_append _ _, ?_⟩
  intro other found hother _ hbegins hne
  obtain ⟨place, rfl, hplace⟩ := exists_index_of_piece? hother
  by_contra hlong
  -- a text that is as long begins with it, and no other token does
  have hstarts : ['<', 's', '>'] <+: found.text :=
    List.prefix_of_prefix_length_le (List.prefix_append _ rest) hbegins (not_lt.mp hlong)
  have hmem : found ∈ pieces.toList := Array.mem_toList_iff.mpr (Array.mem_of_getElem? hplace)
  have htext := List.all_eq_true.mp hall found hmem
  rw [List.isPrefixOf_iff_prefix.mpr hstarts, Bool.not_true, Bool.false_or, beq_iff_eq] at htext
  rw [eq_of_text_eq hplace pieces_bos htext] at hne
  exact hne rfl

end Tokenize

/-- **Cutting and putting together.**  A text can be cut exactly if it is printable, and the
    beginning of a sequence, if it is asked for, only stands in front.  The texts of the tokens make
    the text, and each token is the longest one that the text begins with from its place on.  Where
    control tokens are not recognised, none occurs, and the text shows without them too.  Cutting
    what was put together makes the same tokens, also if it shows the beginning of a sequence. -/
theorem tokenize_reads_back (text : String) (special : Bool) :
    (∀ addBos, (∃ tokens, tokenize text addBos special = .ok tokens) ↔ Printable text.toList)
    ∧ tokenize text true special = (tokenize text false special).map (bos :: ·)
    ∧ ∀ tokens, tokenize text false special = .ok tokens →
      spell true tokens = .ok text
      ∧ (∀ before token after, tokens = before ++ token :: after →
        ∃ piece, Longest special (text.toList.drop (render before).length) token piece)
      ∧ (special = false → spell false tokens = .ok text
        ∧ ∀ token ∈ tokens, ∃ piece, piece? token = some piece ∧ piece.control = false)
      ∧ (∀ rendering, spell true tokens = .ok rendering →
        tokenize rendering false special = .ok tokens)
      ∧ (special = true → spell true (bos :: tokens) = .ok ("<s>" ++ text)
        ∧ tokenize ("<s>" ++ text) false special = .ok (bos :: tokens)) := by
  refine ⟨exists_tokenize_iff, ?_, ?_⟩
  · unfold tokenize
    dsimp only
    cases tokenizeWithin special text.toList.length text.toList <;> rfl
  intro tokens htokens
  have hgreedy := tokenize_eq_ok_iff.mp htokens
  obtain ⟨hshown, hspell⟩ := hgreedy.spell_eq
  refine ⟨hspell, ?_, ?_, ?_, ?_⟩
  · intro before token after hsplit
    rw [hsplit] at hgreedy
    exact hgreedy.longest
  · rintro rfl
    refine ⟨hshown, ?_⟩
    intro token htoken
    obtain ⟨piece, hpiece, hplain⟩ := hgreedy.shown token htoken
    exact ⟨piece, hpiece, (Bool.not_eq_eq_eq_not ..).mp hplain⟩
  · intro rendering hrendering
    cases hspell.symm.trans hrendering
    exact htokens
  · rintro rfl
    have hboth : Greedy true ("<s>" ++ text).toList (bos :: tokens) := by
      rw [String.toList_append]
      show Greedy true ((Piece.mk ['<', 's', '>'] true).text ++ text.toList) (bos :: tokens)
      exact .token (longest_bos text.toList) hgreedy
    exact ⟨hboth.spell_eq.2, tokenize_eq_ok_iff.mpr hboth⟩

end Parley.Scripted
