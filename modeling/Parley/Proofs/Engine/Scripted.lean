import Parley.Engine.Scripted
import Parley.Proofs.Lexicon
import Parley.Proofs.Session.Coupling
import Parley.Proofs.Token.Batch

/-! # The scripted engine

    The vocabulary of a scripted engine is fixed, so it recites a lexicon.  Its calls are counted,
    and as long as no call is to fail, the counts make no difference: two scripted engines in
    matching states are coupled.  Emptying the context makes matching states of states that share
    their script, the size of their context, and their mode.
-/

namespace Parley

open Step

variable {σ α : Type}

/-! ## Section 1: Silence -/

/-- The reply to a call during which nobody asked for a stop. -/
def Reply.silent (reply : Reply σ α) : Reply σ α := { reply with stop := false }

/-- The engine with nobody asking for a stop while it is at work. -/
def Engine.silent (engine : Engine σ) : Engine σ where
  tokenize text addBos special state := (engine.tokenize text addBos special state).silent
  piece token special state := (engine.piece token special state).silent
  vocabSize := engine.vocabSize
  contextSize := engine.contextSize
  bos := engine.bos
  eos := engine.eos
  decode batch state := (engine.decode batch state).silent
  logits state := (engine.logits state).silent
  clear state := (engine.clear state).silent
  setEmbeddings enabled state := (engine.setEmbeddings enabled state).silent
  embeddings state := (engine.embeddings state).silent

namespace Scripted

/-! ## Section 2: The vocabulary -/

/-- The lexicon of the scripted engines. -/
def lexicon : Lexicon where
  size := pieces.size
  tokens := tokenize
  text := pieceText

theorem recites : engine.Recites lexicon where
  vocabSize _ := rfl
  tokenize _ _ _ _ := rfl
  piece _ _ _ := rfl

/-! ### Tokens and texts

    The longest token is one that the text begins with, and its text is not empty; so what is
    tokenized is used up, and the texts of the tokens are what was used up. -/

theorem text_ne_nil {piece : Piece} {index : Nat} (h : pieces[index]? = some piece) :
    piece.text ≠ [] := by
  have hall : ∀ piece ∈ pieces.toList, piece.text ≠ [] := by decide +kernel
  exact hall piece (Array.mem_toList_iff.mpr (Array.mem_of_getElem? h))

theorem longest?_eq_some {special : Bool} {text : List Char} {piece : Piece} {index : Nat}
    (h : longest? special text = some (piece, index)) :
    pieces[index]? = some piece ∧ (special || !piece.control) = true ∧ piece.text <+: text := by
  let fits (best : Option (Piece × Nat)) : Prop := ∀ piece index, best = some (piece, index) →
    pieces[index]? = some piece ∧ (special || !piece.control) = true ∧ piece.text <+: text
  suffices hfits : fits (longest? special text) from hfits piece index h
  unfold longest?
  refine List.foldlRecOn _ _ (motive := fits) (fun _ _ hnone => nomatch hnone) ?_
  rintro best hbest ⟨other, place⟩ hmem
  have hplace : pieces[place]? = some other := by
    rw [← Array.getElem?_toList]
    exact List.mem_zipIdx_iff_getElem?.mp hmem
  dsimp only
  -- the token is kept, or it is one that fits
  split
  · rename_i hfit
    rw [Bool.and_eq_true, List.isPrefixOf_iff_prefix] at hfit
    have hother : fits (some (other, place)) := by
      intro piece index hsome
      cases hsome
      exact ⟨hplace, hfit⟩
    split
    · split
      · exact hother
      · exact hbest
    · exact hother
  · exact hbest

theorem toInt_ofNat_of_piece {index : Nat} {piece : Piece} (h : pieces[index]? = some piece) :
    (Int32.ofNat index).toInt = index := by
  have hsize : pieces.size ≤ 0x80000000 := by decide +kernel
  have hindex : index < pieces.size := (Array.getElem?_eq_some_iff.mp h).1
  exact Int32.toInt_ofNat_of_lt (Nat.lt_of_lt_of_le hindex hsize)

theorem piece?_ofNat {index : Nat} {piece : Piece} (h : pieces[index]? = some piece) :
    piece? (Int32.ofNat index) = some piece := by
  have hint := toInt_ofNat_of_piece h
  have hnonneg : 0 ≤ Int32.ofNat index := by
    rw [Int32.le_iff_toInt_le, hint]
    exact Int.natCast_nonneg index
  unfold piece?
  rw [if_pos hnonneg, hint, Int.toNat_natCast, h]

theorem pieceText_ofNat {index : Nat} {piece : Piece} (h : pieces[index]? = some piece)
    (hplain : piece.control = false) :
    pieceText (Int32.ofNat index) false = .ok (String.ofList piece.text) := by
  unfold pieceText
  rw [piece?_ofNat h]
  dsimp only
  rw [hplain]
  rfl

/-- **One step of the tokenizer** cuts off the longest token, and goes on with the rest. -/
theorem tokenizeWithin_cons_eq_ok {special : Bool} {fuel : Nat} {c : Char} {rest : List Char}
    {tokens : List TokenId} (h : tokenizeWithin special (fuel + 1) (c :: rest) = .ok tokens) :
    ∃ piece index further behind, longest? special (c :: rest) = some (piece, index)
      ∧ piece.text ++ further = c :: rest ∧ further.length ≤ rest.length
      ∧ tokens = Int32.ofNat index :: behind
      ∧ tokenizeWithin special fuel further = .ok behind := by
  unfold tokenizeWithin at h
  cases hlongest : longest? special (c :: rest) with
  | none =>
    rw [hlongest] at h
    contradiction
  | some found =>
    obtain ⟨piece, index⟩ := found
    rw [hlongest] at h
    obtain ⟨behind, hbehind, htokens⟩ := except_map_eq_ok h
    obtain ⟨hpiece, -, further, htext⟩ := longest?_eq_some hlongest
    rw [← htext, List.drop_left] at hbehind
    refine ⟨piece, index, further, behind, rfl, htext, ?_, htokens.symm, hbehind⟩
    -- some text is used up
    have hsome := List.length_pos_iff.mpr (text_ne_nil hpiece)
    have hlength := congrArg List.length htext
    rw [List.length_append, List.length_cons] at hlength
    omega

/-- Texts are made into tokens of the vocabulary. -/
theorem isSome_piece?_of_tokenizeWithin {special : Bool} {fuel : Nat} {text : List Char}
    {tokens : List TokenId} (h : tokenizeWithin special fuel text = .ok tokens) :
    ∀ token ∈ tokens, (piece? token).isSome = true := by
  induction fuel generalizing text tokens with
  | zero => cases text <;> cases h <;> exact fun _ hnone => nomatch hnone
  | succ fuel ih =>
    cases text with
    | nil =>
      cases h
      exact fun _ hnone => nomatch hnone
    | cons c rest =>
      obtain ⟨piece, index, further, behind, hlongest, -, -, rfl, hbehind⟩ :=
        tokenizeWithin_cons_eq_ok h
      rw [List.forall_mem_cons, piece?_ofNat (longest?_eq_some hlongest).1]
      exact ⟨rfl, ih hbehind⟩

/-- The beginning-of-sequence token stands in front of the tokens of a text. -/
theorem exists_cons_of_tokenize {text : String} {special : Bool} {tokens : List TokenId}
    (h : tokenize text true special = .ok tokens) : ∃ rest, tokens = bos :: rest := by
  obtain ⟨rest, -, hrest⟩ := except_map_eq_ok h
  exact ⟨rest, hrest.symm⟩

theorem isSome_piece?_of_tokenize {text : String} {addBos special : Bool} {tokens : List TokenId}
    (h : tokenize text addBos special = .ok tokens) :
    ∀ token ∈ tokens, (piece? token).isSome = true := by
  obtain ⟨found, hfound, rfl⟩ := except_map_eq_ok h
  have hvalid := isSome_piece?_of_tokenizeWithin hfound
  cases addBos with
  | false => exact hvalid
  | true => exact List.forall_mem_cons.mpr ⟨by decide +kernel, hvalid⟩

theorem rendered_tokenizeWithin {fuel : Nat} {text : List Char} {tokens : List TokenId}
    (hfuel : text.length ≤ fuel) (h : tokenizeWithin false fuel text = .ok tokens) :
    lexicon.rendered tokens = .ok (String.ofList text) := by
  induction fuel generalizing text tokens with
  | zero =>
    cases List.eq_nil_of_length_eq_zero (Nat.le_zero.mp hfuel)
    cases h
    rfl
  | succ fuel ih =>
    cases text with
    | nil =>
      cases h
      rfl
    | cons c rest =>
      obtain ⟨piece, index, further, behind, hlongest, htext, hshorter, rfl, hbehind⟩ :=
        tokenizeWithin_cons_eq_ok h
      obtain ⟨hpiece, hplain, -⟩ := longest?_eq_some hlongest
      have hfirst := pieceText_ofNat hpiece ((Bool.not_eq_eq_eq_not ..).mp hplain)
      have hsingle : lexicon.rendered [Int32.ofNat index] = .ok (String.ofList piece.text) :=
        Lexicon.rendered_singleton hfirst
      rw [← htext, String.ofList_append]
      exact Lexicon.rendered_append hsingle
        (ih (Nat.le_trans hshorter (Nat.le_of_succ_le_succ hfuel)) hbehind)

/-- **Nothing is lost** by a scripted engine. -/
theorem lossless : lexicon.Lossless := by
  intro text tokens h
  obtain ⟨found, hfound, rfl⟩ := except_map_eq_ok h
  have hrendered := rendered_tokenizeWithin (Nat.le_refl _) hfound
  rwa [String.ofList_toList] at hrendered

/-! ### Batches that fit -/

/-- A batch is taken that follows the context, fits into it and holds tokens of the vocabulary. -/
theorem refusal?_eq_none {state : Scripted} {batch : Batch}
    (hfollows : batch.positions.head? = some state.context.length)
    (hfits : state.context.length + batch.size ≤ state.contextSize)
    (hvalid : ∀ token ∈ batch.tokens, (piece? token).isSome = true) :
    refusal? state batch = none := by
  have hknown : batch.tokens.find? (fun token => (piece? token).isNone) = none := by
    apply List.find?_eq_none.mpr
    intro token htoken
    obtain ⟨piece, hpiece⟩ := Option.isSome_iff_exists.mp (hvalid token htoken)
    simp [hpiece]
  unfold refusal?
  unfold Batch.positions at hfollows
  cases hentries : batch.entries with
  | nil =>
    rw [hentries] at hfollows
    contradiction
  | cons first rest =>
    rw [hentries] at hfollows
    have hposition : first.position = state.context.length := Option.some.inj hfollows
    dsimp only
    rw [if_neg (not_not_intro hposition), if_neg (Nat.not_lt.mpr hfits), hknown]
    rfl

theorem refusal?_requestAll (state : Scripted) (batch : Batch) :
    refusal? state batch.requestAll = refusal? state batch := by
  unfold refusal?
  rw [Batch.size_requestAll, Batch.tokens_requestAll]
  unfold Batch.requestAll
  cases batch.entries <;> rfl

/-- A text that fits is fed into an empty context. -/
theorem refusal?_of_tokenize {state : Scripted} {text : String} {special : Bool}
    {tokens : List TokenId} (hempty : state.context = [])
    (h : tokenize text true special = .ok tokens) (hfits : tokens.length ≤ state.contextSize) :
    refusal? state (Batch.sequence tokens 0) = none := by
  apply refusal?_eq_none
  · obtain ⟨rest, rfl⟩ := exists_cons_of_tokenize h
    rw [hempty]
    rfl
  · rw [Batch.size_sequence, hempty]
    simpa using hfits
  · rw [Batch.tokens_sequence]
    exact isSome_piece?_of_tokenize h

/-! ### Stops during calls

    Somebody may ask for a stop while a scripted engine is at work; it does the same. -/

section Silent

variable {engine : Engine Scripted} (hsilent : engine.silent = Scripted.engine)

include hsilent

theorem tokenize_state (text : String) (addBos special : Bool) (state : Scripted) :
    (engine.tokenize text addBos special state).state = state :=
  congrArg (fun engine => (engine.tokenize text addBos special state).state) hsilent

theorem piece_state (token : TokenId) (special : Bool) (state : Scripted) :
    (engine.piece token special state).state = state :=
  congrArg (fun engine => (engine.piece token special state).state) hsilent

theorem decode_state (batch : Batch) (state : Scripted) :
    (engine.decode batch state).state = (decode batch state).2 :=
  congrArg (fun engine => (engine.decode batch state).state) hsilent

theorem logits_state (state : Scripted) : (engine.logits state).state = state :=
  congrArg (fun engine => (engine.logits state).state) hsilent

theorem clear_reply (state : Scripted) :
    (engine.clear state).result = .ok () ∧ (engine.clear state).state = clear state :=
  ⟨congrArg (fun engine => (engine.clear state).result) hsilent,
    congrArg (fun engine => (engine.clear state).state) hsilent⟩

theorem setEmbeddings_reply (enabled : Bool) (state : Scripted) :
    (engine.setEmbeddings enabled state).result = .ok ()
      ∧ (engine.setEmbeddings enabled state).state = { state with embeddingMode := enabled } :=
  ⟨congrArg (fun engine => (engine.setEmbeddings enabled state).result) hsilent,
    congrArg (fun engine => (engine.setEmbeddings enabled state).state) hsilent⟩

theorem embeddings_state (state : Scripted) : (engine.embeddings state).state = state :=
  congrArg (fun engine => (engine.embeddings state).state) hsilent

theorem speaks_of_silent (still : Scripted → Prop) :
    engine.Speaks lexicon fun state _ => still state where
  vocabSize {state _} _ := congrArg (fun engine => engine.vocabSize state) hsilent
  tokenize text addBos special state _ hstill := by
    rw [tokenize_state hsilent]
    exact ⟨congrArg (fun engine => (engine.tokenize text addBos special state).result) hsilent,
      hstill⟩
  piece token special state _ hstill := by
    rw [piece_state hsilent]
    exact ⟨congrArg (fun engine => (engine.piece token special state).result) hsilent, hstill⟩

end Silent

/-! ## Section 3: Matching states -/

/-- The state with no calls counted. -/
def uncounted (state : Scripted) : Scripted := { state with decodeCalls := 0, clearCalls := 0 }

/-- The states are the same but for the counts, and no call is to fail. -/
structure Matches (state state' : Scripted) : Prop where
  same : state.uncounted = state'.uncounted
  failAt : state.failAt = none

theorem Matches.failAt' {state state' : Scripted} (h : state.Matches state') :
    state'.failAt = none :=
  (congrArg Scripted.failAt h.same).symm.trans h.failAt

/-- A call that takes no notice of the counts has matching replies. -/
theorem callsAlike_of_uncounted {run : Scripted → Reply Scripted α}
    (hstop : ∀ state, (run state).stop = false)
    (hrun : ∀ {state}, state.failAt = none → (run state).result = (run state.uncounted).result
      ∧ (run state).state.uncounted = (run state.uncounted).state.uncounted
      ∧ (run state).state.failAt = none) :
    CallsAlike (Vocabulary.Akin lexicon Matches) run run := by
  intro vocab vocab' h
  obtain ⟨hresult, hstate, hfailAt⟩ := hrun h.same.failAt
  obtain ⟨hresult', hstate', -⟩ := hrun h.same.failAt'
  refine ⟨?_, h.truthful.touched _ _, h.truthful'.touched _ _, ?_, ?_, hfailAt⟩
  · rw [hresult, hresult', h.same.same]
  · show (vocab.stopped || (run vocab.engine).stop) = (vocab'.stopped || (run vocab'.engine).stop)
    rw [hstop, hstop, h.stopped]
  · show (run vocab.engine).state.uncounted = (run vocab'.engine).state.uncounted
    rw [hstate, hstate', h.same.same]

theorem decode_settings (batch : Batch) (state : Scripted) :
    (decode batch state).2.failAt = state.failAt
      ∧ (decode batch state).2.embeddingMode = state.embeddingMode
      ∧ (decode batch state).2.script = state.script
      ∧ (decode batch state).2.contextSize = state.contextSize := by
  unfold decode
  dsimp only
  split
  · exact ⟨rfl, rfl, rfl, rfl⟩
  · split <;> exact ⟨rfl, rfl, rfl, rfl⟩

/-- The state with one more decoding counted. -/
def counted (state : Scripted) : Scripted := { state with decodeCalls := state.decodeCalls + 1 }

theorem decode_of_failAt {state : Scripted} (h : state.failAt = none) (batch : Batch) :
    decode batch state = match refusal? state batch with
      | some reason => (.error (.decode reason), state.counted)
      | none => (.ok (), state.counted.extend batch) := by
  unfold decode counted
  dsimp only
  rw [h]
  rfl

/-- **Counts make no difference.**  Scripted engines in matching states are coupled. -/
theorem coupled : engine.Coupled (Vocabulary.Akin lexicon Matches) engine where
  stopped h := h.stopped
  setStopped stopped {vocab vocab'} h :=
    ⟨h.truthful.touched _ _, h.truthful'.touched _ _, rfl, h.same⟩
  contextSize h := by
    have hsize := congrArg Scripted.contextSize h.same.same
    exact hsize
  eos _ := rfl
  tokenize _ _ _ := callsAlike_of_uncounted (fun _ => rfl) fun h => ⟨rfl, rfl, h⟩
  decode batch := by
    refine callsAlike_of_uncounted (fun _ => rfl) fun {state} h => ?_
    show (decode batch state).1 = (decode batch state.uncounted).1
      ∧ (decode batch state).2.uncounted = (decode batch state.uncounted).2.uncounted
      ∧ (decode batch state).2.failAt = none
    have hrefusal : refusal? state.uncounted batch = refusal? state batch := rfl
    have huncounted : state.uncounted.failAt = none := h
    rw [decode_of_failAt h, decode_of_failAt huncounted, hrefusal]
    cases refusal? state batch with
    | some reason => exact ⟨rfl, rfl, h⟩
    | none => exact ⟨rfl, rfl, h⟩
  logits := callsAlike_of_uncounted (fun _ => rfl) fun h => ⟨rfl, rfl, h⟩
  clear := callsAlike_of_uncounted (fun _ => rfl) fun h => ⟨rfl, rfl, h⟩
  setEmbeddings _ := callsAlike_of_uncounted (fun _ => rfl) fun h => ⟨rfl, rfl, h⟩
  embeddings := callsAlike_of_uncounted (fun _ => rfl) fun h => ⟨rfl, rfl, h⟩

/-! ## Section 4: Emptied contexts -/

/-- The states match once their contexts are emptied. -/
def Kindred (state state' : Scripted) : Prop := (clear state).Matches (clear state')

theorem kindred_iff {state state' : Scripted} : state.Kindred state' ↔
    state.contextSize = state'.contextSize ∧ state.script = state'.script
      ∧ state.embeddingMode = state'.embeddingMode ∧ state.failAt = none
      ∧ state'.failAt = none := by
  constructor
  · intro h
    have hcontextSize := congrArg Scripted.contextSize h.same
    have hscript := congrArg Scripted.script h.same
    have hmode := congrArg Scripted.embeddingMode h.same
    exact ⟨hcontextSize, hscript, hmode, h.failAt, h.failAt'⟩
  · rintro ⟨hcontextSize, hscript, hmode, hfailAt, hfailAt'⟩
    refine ⟨?_, hfailAt⟩
    unfold clear uncounted
    dsimp only
    rw [hcontextSize, hscript, hmode, hfailAt, hfailAt']

theorem Matches.kindred {state state' : Scripted} (h : state.Matches state') :
    state.Kindred state' := by
  have hcontextSize := congrArg Scripted.contextSize h.same
  have hscript := congrArg Scripted.script h.same
  have hmode := congrArg Scripted.embeddingMode h.same
  exact kindred_iff.mpr ⟨hcontextSize, hscript, hmode, h.failAt, h.failAt'⟩

end Scripted

end Parley
