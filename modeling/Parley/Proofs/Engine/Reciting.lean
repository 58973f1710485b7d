import Parley.Proofs.Engine.Scripted
import Parley.Proofs.Sampling.Filter
import Parley.Proofs.Text.Search

/-! # How a scripted engine recites

    Every printable character is a token, so a text that cannot be tokenized has a character that is
    not printable, and the first such character is named in the error: `error_of_tokenize`.  And a
    script that is printable always has a token to go on with.  The tokens that continue the script
    score more than nothing, and no other token does, so the highest score belongs to one of them:
    `nextIndex_spec`.  Where each token is the one with the highest score, the script is recited to
    its end: `Recital`. -/

namespace Parley.Scripted

open Number Sampling Step

/-! ## Section 1: Printable texts -/

/-- The text is made of printable characters of ASCII and of line breaks. -/
def Printable (text : List Char) : Prop := ∀ c ∈ text, c = '\n' ∨ ' ' ≤ c ∧ c ≤ '~'

/-- **Every printable character is a token** of its own. -/
theorem exists_piece_of_printable {c : Char} (h : c = '\n' ∨ ' ' ≤ c ∧ c ≤ '~') :
    ∃ index : Nat, pieces[index]? = some ⟨[c], false⟩ := by
  have hcharacter : [c] ∈ characters := by
    unfold characters
    rw [List.mem_append]
    rcases h with rfl | ⟨hlow, hhigh⟩
    · exact .inr (List.mem_singleton_self _)
    · have hlow : 0x20 ≤ c.toNat := hlow
      have hhigh : c.toNat ≤ 0x7e := hhigh
      refine .inl (List.mem_map.mpr ⟨c.toNat - 0x20, List.mem_range.mpr (by omega), ?_⟩)
      rw [Nat.add_sub_cancel' hlow, Char.ofNat_toNat]
  have hmem : (⟨[c], false⟩ : Piece) ∈ pieces.toList := by
    unfold pieces
    simp only [List.append_assoc, List.mem_append, List.mem_map]
    exact .inr ⟨[c], .inl hcharacter, rfl⟩
  obtain ⟨index, hindex⟩ := List.getElem?_of_mem hmem
  exact ⟨index, by rw [← Array.getElem?_toList]; exact hindex⟩

/-- Where a token fits, a longest one is found, and it is no shorter. -/
theorem exists_longest? {special : Bool} {text : List Char} {piece : Piece} {index : Nat}
    (h : pieces[index]? = some piece) (hfits : (special || !piece.control) = true)
    (hstarts : piece.text <+: text) :
    ∃ found place, longest? special text = some (found, place)
      ∧ piece.text.length ≤ found.text.length := by
  have hmem : (piece, index) ∈ pieces.toList.zipIdx := by
    rw [List.mem_zipIdx_iff_getElem?, Array.getElem?_toList]
    exact h
  obtain ⟨before, after, hsplit⟩ := List.append_of_mem hmem
  have hfit : ((special || !piece.control) && piece.text.isPrefixOf text) = true := by
    rw [hfits, List.isPrefixOf_iff_prefix.mpr hstarts]
    rfl
  unfold longest?
  rw [hsplit, List.foldl_append, List.foldl_cons]
  generalize before.foldl _ none = best
  -- from the token that fits on, the longest one so far is no shorter
  refine List.foldlRecOn _ _ (motive := fun best => ∃ (found : Piece) (place : Nat),
    best = some (found, place) ∧ piece.text.length ≤ found.text.length) ?_ ?_
  · dsimp only
    rw [if_pos hfit]
    rcases best with - | ⟨other, place⟩
    · exact ⟨piece, index, rfl, Nat.le_refl _⟩
    · dsimp only
      split
      · exact ⟨piece, index, rfl, Nat.le_refl _⟩
      · exact ⟨other, place, rfl, by omega⟩
  · rintro _ ⟨found, place, rfl, hle⟩ ⟨other, number⟩ -
    dsimp only
    split
    · split
      · exact ⟨other, number, rfl, by omega⟩
      · exact ⟨found, place, rfl, hle⟩
    · exact ⟨found, place, rfl, hle⟩

/-- **Tokens are printable.** -/
theorem printable_text {piece : Piece} {index : Nat} (h : pieces[index]? = some piece) :
    Printable piece.text := by
  have hall : pieces.toList.all
      (fun piece => piece.text.all fun c => decide (c = '\n' ∨ ' ' ≤ c ∧ c ≤ '~')) = true := by
    decide +kernel
  have hmem : piece ∈ pieces.toList := Array.mem_toList_iff.mpr (Array.mem_of_getElem? h)
  intro c hc
  exact of_decide_eq_true (List.all_eq_true.mp (List.all_eq_true.mp hall piece hmem) c hc)

theorem error_of_tokenizeWithin {special : Bool} {fuel : Nat} {text : List Char}
    {error : EngineError} (h : tokenizeWithin special fuel text = .error error) :
    ∃ before c after, text = before ++ c :: after ∧ Printable before ∧ ¬ Printable [c]
      ∧ error = .tokenization ("no token for " ++ Text.quotedChar c) := by
  induction fuel generalizing text with
  | zero => cases text <;> contradiction
  | succ fuel ih =>
    cases text with
    | nil => contradiction
    | cons c rest =>
      unfold tokenizeWithin at h
      cases hlongest : longest? special (c :: rest) with
      | none =>
        -- nothing begins here, not even the token of the first character
        rw [hlongest] at h
        cases h
        refine ⟨[], c, rest, rfl, by simp [Printable], ?_, rfl⟩
        intro hprintable
        obtain ⟨single, hsingle⟩ := exists_piece_of_printable (hprintable c List.mem_cons_self)
        have hstarts : [c] <+: c :: rest := ⟨rest, rfl⟩
        obtain ⟨piece, index, hfound, -⟩ :=
          exists_longest? hsingle (Bool.or_true special) hstarts
        cases hlongest.symm.trans hfound
      | some found =>
        obtain ⟨piece, index⟩ := found
        rw [hlongest] at h
        obtain ⟨hpiece, -, further, htext⟩ := longest?_eq_some hlongest
        have hbehind : tokenizeWithin special fuel further = .error error := by
          rw [← htext] at h
          dsimp only at h
          rw [List.drop_left] at h
          exact except_map_eq_error h
        obtain ⟨before, bad, after, rfl, hbefore, hbad, herror⟩ := ih hbehind
        refine ⟨piece.text ++ before, bad, after, ?_, ?_, hbad, herror⟩
        · rw [← htext, List.append_assoc]
        · intro c hc
          rcases List.mem_append.mp hc with hfirst | hlater
          · exact printable_text hpiece c hfirst
          · exact hbefore c hlater

/-- **What cannot be cut** is the first character that is not printable, and the error names it. -/
theorem error_of_tokenize {text : String} {addBos special : Bool} {error : EngineError}
    (h : tokenize text addBos special = .error error) :
    ∃ before c after, text.toList = before ++ c :: after ∧ Printable before ∧ ¬ Printable [c]
      ∧ error = .tokenization ("no token for " ++ Text.quotedChar c) :=
  error_of_tokenizeWithin (except_map_eq_error h)

/-- **Printable texts can be tokenized.** -/
theorem exists_tokenize {text : String} (h : Printable text.toList) (addBos special : Bool) :
    ∃ tokens, tokenize text addBos special = .ok tokens := by
  cases htokens : tokenize text addBos special with
  | ok tokens => exact ⟨tokens, rfl⟩
  | error error =>
    obtain ⟨before, c, after, htext, -, hbad, -⟩ := error_of_tokenize htokens
    have hc : c ∈ text.toList := by simp [htext]
    refine absurd ?_ hbad
    intro other hother
    rw [List.mem_singleton.mp hother]
    exact h c hc

/-! ## Section 2: The highest score -/

/-- The scores where the script goes on with `rest`. -/
def scoresBefore (rest : List Char) : List Float32 :=
  pieces.toList.mapIdx fun index piece => scoreIn rest false piece index

/-- The scores at the end of the script. -/
def scoresAtEnd : List Float32 := pieces.toList.mapIdx fun index _ => if index = 1 then 20 else 0

/-- What is drawn where the script goes on with `rest`: the token with the highest score. -/
def nextIndex (rest : List Char) : Nat := lastMaximum (scoresBefore rest)

theorem favour_spec {piece : Piece} {index : Nat} (h : pieces[index]? = some piece) :
    (favour piece.text.length).isNaN = false ∧ 0 < rank (favour piece.text.length) := by
  have hlength : ∀ piece ∈ pieces.toList, piece.text.length < 20 := by decide +kernel
  have hall : ∀ length < 20, (favour length).isNaN = false ∧ 0 < rank (favour length) := by
    decide +kernel
  exact hall _ (hlength piece (Array.mem_toList_iff.mpr (Array.mem_of_getElem? h)))

theorem pieces_bos : pieces[0]? = some ⟨['<', 's', '>'], true⟩ := by decide +kernel

theorem pieces_eos : pieces[1]? = some ⟨Script.stopMark, true⟩ := by decide +kernel

theorem rank_zero : rank 0 = 0 := by decide +kernel

/-- At the end of the script the end of the sequence has the only score. -/
theorem lastMaximum_scoresAtEnd : lastMaximum scoresAtEnd = 1 := by
  have hscores (index : Nat) : scoresAtEnd[index]?
      = pieces[index]?.map fun _ => if index = 1 then 20 else 0 := by
    unfold scoresAtEnd
    rw [List.getElem?_mapIdx, Array.getElem?_toList]
  have heos : scoresAtEnd[1]? = some 20 := by
    rw [hscores, pieces_eos]
    rfl
  have hnumbers : Numbers scoresAtEnd := by
    intro score hscore
    obtain ⟨index, hindex⟩ := List.getElem?_of_mem hscore
    rw [hscores, Option.map_eq_some_iff] at hindex
    obtain ⟨piece, -, rfl⟩ := hindex
    split <;> decide
  have hsome : scoresAtEnd ≠ [] := List.ne_nil_of_mem (List.mem_of_getElem? heos)
  obtain ⟨best, hbest, hall, -⟩ := lastMaximum_spec hnumbers hsome
  rw [hscores, Option.map_eq_some_iff] at hbest
  obtain ⟨piece, -, rfl⟩ := hbest
  by_contra hother
  have hle := hall 20 (List.mem_of_getElem? heos)
  rw [if_neg hother, rank_zero] at hle
  exact absurd hle (by decide +kernel)

section Next

variable {rest : List Char}

theorem getElem?_scoresBefore (index : Nat) : (scoresBefore rest)[index]?
    = pieces[index]?.map fun piece => scoreIn rest false piece index := by
  unfold scoresBefore
  rw [List.getElem?_mapIdx, Array.getElem?_toList]

theorem scoreIn_of_fits {piece : Piece} {index : Nat} (h : index ≠ 0)
    (hstarts : piece.text <+: rest) : scoreIn rest false piece index = favour piece.text.length := by
  simp [scoreIn, h, hstarts]

/-- A token that does not continue the script has no score. -/
theorem fits_of_scoreIn_ne_zero {piece : Piece} {index : Nat}
    (h : scoreIn rest false piece index ≠ 0) : index ≠ 0 ∧ piece.text <+: rest := by
  by_contra hnone
  apply h
  unfold scoreIn
  rw [Bool.and_false, if_neg Bool.false_ne_true, if_neg]
  simpa [← List.isPrefixOf_iff_prefix] using hnone

theorem numbers_scoresBefore : Numbers (scoresBefore rest) := by
  intro score hscore
  obtain ⟨index, hindex⟩ := List.getElem?_of_mem hscore
  rw [getElem?_scoresBefore, Option.map_eq_some_iff] at hindex
  obtain ⟨piece, hpiece, rfl⟩ := hindex
  by_cases hzero : scoreIn rest false piece index = 0
  · rw [hzero]
    decide
  · obtain ⟨hindex, hstarts⟩ := fits_of_scoreIn_ne_zero hzero
    rw [scoreIn_of_fits hindex hstarts]
    exact (favour_spec hpiece).1

/-- **The highest score** belongs to a token that continues the script, and that is neither the
    beginning of a sequence nor, if its mark is not in the script, the end of one. -/
theorem nextIndex_spec {c : Char} (hc : c = '\n' ∨ ' ' ≤ c ∧ c ≤ '~')
    (hmark : ¬ Script.stopMark <+: c :: rest) :
    ∃ piece, pieces[nextIndex (c :: rest)]? = some piece ∧ piece.text <+: c :: rest
      ∧ nextIndex (c :: rest) ≠ 1 := by
  obtain ⟨single, hsingle⟩ := exists_piece_of_printable hc
  have hother : single ≠ 0 := by
    rintro rfl
    have hbos := hsingle.symm.trans pieces_bos
    simp at hbos
  have hsome : scoresBefore (c :: rest) ≠ [] := by
    intro hnone
    have hscore : (scoresBefore (c :: rest))[single]? = _ := getElem?_scoresBefore single
    rw [hnone, hsingle, List.getElem?_nil] at hscore
    cases hscore
  obtain ⟨best, hbest, hall, -⟩ := lastMaximum_spec numbers_scoresBefore hsome
  rw [getElem?_scoresBefore, Option.map_eq_some_iff] at hbest
  obtain ⟨piece, hpiece, rfl⟩ := hbest
  -- the single character fits, so the highest score is more than nothing
  have hpositive : 0 < rank (scoreIn (c :: rest) false piece
      (lastMaximum (scoresBefore (c :: rest)))) := by
    have hfits : scoreIn (c :: rest) false ⟨[c], false⟩ single = favour 1 :=
      scoreIn_of_fits hother ⟨rest, rfl⟩
    have hmem : favour 1 ∈ scoresBefore (c :: rest) := by
      apply List.mem_of_getElem? (i := single)
      rw [getElem?_scoresBefore, hsingle, ← hfits]
      rfl
    exact (favour_spec hsingle).2.trans_le (hall _ hmem)
  have hscored : scoreIn (c :: rest) false piece (lastMaximum (scoresBefore (c :: rest))) ≠ 0 := by
    intro hzero
    rw [hzero, rank_zero] at hpositive
    exact lt_irrefl 0 hpositive
  have hfits := fits_of_scoreIn_ne_zero hscored
  refine ⟨piece, hpiece, hfits.2, ?_⟩
  intro heos
  have heos : lastMaximum (scoresBefore (c :: rest)) = 1 := heos
  rw [heos, pieces_eos] at hpiece
  cases hpiece
  exact hmark hfits.2

end Next

/-! ### Along a script -/

/-- A script without a mark is its own text. -/
theorem parse_of_unmarked {raw : String} (h : ¬ Script.stopMark <:+: raw.toList) :
    Script.parse raw = ⟨raw.toList, []⟩ := by
  have hsplit : Text.splitOn Script.stopMark raw.toList = [raw.toList] := by
    unfold Text.splitOn
    cases raw.toList.length with
    | zero => rfl
    | succ fuel =>
      unfold Text.splitOnWithin
      rw [Text.splitAtFirst_eq_none_iff.mpr h]
  unfold Script.parse
  rw [hsplit]
  rfl

theorem remaining?_append (generated rest : List Char) :
    (Script.mk (generated ++ rest) []).remaining? generated
      = if rest.isEmpty then none else some rest := by
  have hdrop : Text.dropStart? generated (generated ++ rest) = some rest := by
    simp [Text.dropStart?]
  unfold Script.remaining?
  dsimp only
  rw [hdrop]
  cases rest <;> rfl

theorem scores_within (generated : List Char) (c : Char) (rest : List Char) :
    scores (some ⟨generated ++ c :: rest, []⟩) generated = scoresBefore (c :: rest) := by
  have hstop : (Script.mk (generated ++ c :: rest) []).prefersStop generated = false :=
    Bool.and_false _
  unfold scores
  rw [Option.bind_some, remaining?_append]
  show List.mapIdx (fun index piece => scoreIn (c :: rest)
    ((Script.mk (generated ++ c :: rest) []).prefersStop generated) piece index) pieces.toList = _
  rw [hstop]
  rfl

theorem scores_atEnd (generated : List Char) : scores (some ⟨generated, []⟩) generated
    = scoresAtEnd := by
  have hremaining := remaining?_append generated []
  rw [List.append_nil] at hremaining
  unfold scores
  rw [Option.bind_some, hremaining]
  rfl

/-- The beginning of a sequence never has a score. -/
theorem scores_bos (script : Option Script) (generated : List Char) :
    (scores script generated)[0]? = some 0 := by
  have hfirst : pieces.toList[0]? = some ⟨['<', 's', '>'], true⟩ := by
    rw [Array.getElem?_toList]
    exact pieces_bos
  unfold scores
  split
  · rw [List.getElem?_mapIdx, hfirst]
    rfl
  · rw [List.getElem?_mapIdx, hfirst]
    rfl

theorem any_isFinite_scores (script : Option Script) (generated : List Char) :
    (scores script generated).any (·.isFinite) = true :=
  List.any_eq_true.mpr ⟨0, List.mem_of_getElem? (scores_bos script generated), by decide⟩

/-! ## Section 3: Recitals -/

/-- The token that is drawn where the script goes on with `rest`. -/
def nextToken (rest : List Char) : TokenId := Int32.ofNat (nextIndex rest)

/-- **A recital** of a text: every token is the one that is drawn where the text goes on with the
    rest, and it is not the end of the sequence. -/
inductive Recital : (text : List Char) → (tokens : List TokenId) → Prop
  | done : Recital [] []
  | token {c : Char} {rest later : List Char} {piece : Piece} {tokens : List TokenId}
    (hpiece : pieces[nextIndex (c :: rest)]? = some piece) (htext : piece.text ++ later = c :: rest)
    (hgoes : nextIndex (c :: rest) ≠ 1) (h : Recital later tokens) :
    Recital (c :: rest) (nextToken (c :: rest) :: tokens)

/-- **Every script can be recited** that is printable and does not ask for a stop. -/
theorem exists_recital {text : List Char} (hplain : Printable text)
    (hmark : ¬ Script.stopMark <:+: text) : ∃ tokens, Recital text tokens := by
  -- what is left gets shorter, as no token is empty
  induction hlength : text.length using Nat.strong_induction_on generalizing text with
  | _ length ih =>
    cases text with
    | nil => exact ⟨[], .done⟩
    | cons c rest =>
      have hstart : ¬ Script.stopMark <+: c :: rest := fun h => hmark h.isInfix
      obtain ⟨piece, hpiece, ⟨later, hlater⟩, hgoes⟩ :=
        nextIndex_spec (hplain c List.mem_cons_self) hstart
      have hsome := List.length_pos_iff.mpr (text_ne_nil hpiece)
      have hshorter : later.length < length := by
        have := congrArg List.length hlater
        rw [List.length_append] at this
        omega
      have hend : later <:+ c :: rest := ⟨piece.text, hlater⟩
      obtain ⟨tokens, htokens⟩ := ih later.length hshorter
        (fun c hc => hplain c (hend.subset hc)) (fun h => hmark (h.trans hend.isInfix)) rfl
      exact ⟨_, .token hpiece hlater hgoes htokens⟩

theorem render_append (tokens more : List TokenId) :
    render (tokens ++ more) = render tokens ++ render more :=
  List.flatMap_append

theorem render_singleton {token : TokenId} {piece : Piece} (h : piece? token = some piece) :
    render [token] = piece.text := by
  simp [render, h]

/-- The token has a text, and it is not left out. -/
def Shown (special : Bool) (token : TokenId) : Prop :=
  ∃ piece, piece? token = some piece ∧ (special || !piece.control) = true

/-- Where no token is left out, their texts are those that are rendered. -/
theorem exists_texts {special : Bool} {tokens : List TokenId}
    (h : ∀ token ∈ tokens, Shown special token) :
    ∃ texts : List String, tokens.mapM (pieceText · special) = .ok texts
      ∧ texts.flatMap String.toList = render tokens := by
  induction tokens with
  | nil => exact ⟨[], rfl, rfl⟩
  | cons token tokens ih =>
    rw [List.forall_mem_cons] at h
    obtain ⟨⟨piece, hpiece, hshown⟩, hrest⟩ := h
    obtain ⟨texts, htexts, hjoined⟩ := ih hrest
    have hfirst : pieceText token special = .ok (String.ofList piece.text) := by
      unfold pieceText
      rw [hpiece]
      cases special <;> simp_all
    refine ⟨String.ofList piece.text :: texts, ?_, ?_⟩
    · rw [List.mapM_cons, hfirst, htexts]
      rfl
    · rw [List.flatMap_cons, hjoined, String.toList_ofList, ← render_singleton hpiece,
        ← render_append]
      rfl

theorem nextToken_ne_eos {rest : List Char} {piece : Piece}
    (hpiece : pieces[nextIndex rest]? = some piece) (hgoes : nextIndex rest ≠ 1) :
    nextToken rest ≠ eos := by
  intro heos
  have hint : (nextToken rest).toInt = nextIndex rest := toInt_ofNat_of_piece hpiece
  rw [heos] at hint
  have hone : (1 : Int) = nextIndex rest := hint
  exact hgoes (by exact_mod_cast hone.symm)

section Recital

variable {text : List Char} {tokens : List TokenId}

theorem Recital.eos_notMem (h : Recital text tokens) : eos ∉ tokens := by
  induction h with
  | done => exact List.not_mem_nil
  | token hpiece _ hgoes _ ih =>
    rw [List.mem_cons, not_or]
    exact ⟨(nextToken_ne_eos hpiece hgoes).symm, ih⟩

/-- What is recited is the text. -/
theorem Recital.rendered (h : Recital text tokens) : render tokens = text := by
  induction h with
  | done => rfl
  | @token c rest later piece tokens hpiece htext _ _ ih =>
    rw [← List.singleton_append, render_append, ih, nextToken,
      render_singleton (piece?_ofNat hpiece), htext]

/-- **The texts of the tokens**, control tokens among them, make the text that is recited. -/
theorem Recital.texts (h : Recital text tokens) : ∃ texts : List String,
    tokens.mapM (pieceText · true) = .ok texts ∧ texts.flatMap String.toList = text := by
  have hshown : ∀ token ∈ tokens, Shown true token := by
    induction h with
    | done => exact nofun
    | @token c rest later piece tokens hpiece _ _ _ ih =>
      rw [List.forall_mem_cons]
      exact ⟨⟨piece, piece?_ofNat hpiece, rfl⟩, ih⟩
  have htexts := exists_texts hshown
  rwa [h.rendered] at htexts

end Recital

end Parley.Scripted
