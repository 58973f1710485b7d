import Parley.Engine.Tabulated
import Parley.Proofs.Lexicon

/-! # What a vocabulary asks its engine

    A vocabulary keeps three caches that fill one another: the classes and the single tokens are
    found by way of pieces.  So the questions that may be put to a vocabulary are named,
    `Vocabulary.Query`, and the engine is put on record as far as it is asked for pieces,
    `Inquired.engine`.

    Every question is answered as if there were no caches, and the engine tells the piece of a token
    at most once: what it told is exactly what is kept, `Vocabulary.Faithful`, and that survives
    every question, be it one that fails half way.
-/

namespace Parley

open Step

variable {σ α : Type}

/-! ## Section 1: Questions -/

namespace Vocabulary

/-- What a vocabulary may be asked. -/
inductive Query
  | piece (token : TokenId) (special : Bool)
  | decode (tokens : List TokenId) (special : Bool)
  | singleToken (text : String)
  | classes
  deriving DecidableEq, Repr

/-- What a vocabulary tells. -/
inductive Told
  | text (text : String)
  | token (found : Option TokenId)
  | classes (classes : TokenClasses)

/-- Asks a vocabulary. -/
def Query.run (engine : Engine σ) : Query → VocabularyM σ Told
  | .piece token special => return .text (← Vocabulary.piece engine token special)
  | .decode tokens special => return .text (← Vocabulary.decode engine tokens special)
  | .singleToken text => return .token (← Vocabulary.singleToken engine text)
  | .classes => return .classes (← tokenClasses engine)

/-- What is told without any cache. -/
def Query.answer (lexicon : Lexicon) : Query → Except VocabularyError Told
  | .piece token special => return .text (← lexicon.piece token special)
  | .decode tokens special => return .text (← lexicon.decode special tokens)
  | .singleToken text => return .token (← lexicon.singleToken text)
  | .classes => return .classes (← lexicon.classes)

/-- Asks a vocabulary one thing after the other, whatever fails; the answers, and the vocabulary
    after them. -/
def askAll (engine : Engine σ) :
    List Query → Vocabulary σ → List (Except VocabularyError Told) × Vocabulary σ
  | [], vocab => ([], vocab)
  | query :: rest, vocab =>
    let (answers, last) := askAll engine rest (after (query.run engine) vocab)
    (result (query.run engine) vocab :: answers, last)

section Answers

variable {engine : Engine σ} {lexicon : Lexicon} {still : σ → Bool → Prop} {vocab : Vocabulary σ}
  (hspeaks : engine.Speaks lexicon still)

include hspeaks

theorem answers_run (query : Query) (h : vocab.Sound lexicon still) :
    Answers (Sound lexicon still) (query.answer lexicon) (query.run engine) vocab := by
  cases query with
  | piece token special =>
    exact (answers_piece hspeaks h token special).bind fun _ _ _ h => answers_pure _ h
  | decode tokens special =>
    exact (answers_decode hspeaks h tokens special).bind fun _ _ _ h => answers_pure _ h
  | singleToken text =>
    exact (answers_singleToken hspeaks h text).bind fun _ _ _ h => answers_pure _ h
  | classes => exact (answers_tokenClasses hspeaks h).bind fun _ _ _ h => answers_pure _ h

/-- **The caches do not show**: whatever is asked, and whatever was asked before, the answers are
    those without caches. -/
theorem askAll_answers (queries : List Query) (h : vocab.Sound lexicon still) :
    (askAll engine queries vocab).1 = queries.map (·.answer lexicon)
      ∧ (askAll engine queries vocab).2.Sound lexicon still := by
  induction queries generalizing vocab with
  | nil => exact ⟨rfl, h⟩
  | cons query rest ih =>
    have hanswers := answers_run hspeaks query h
    have hfirst : result (query.run engine) vocab = query.answer lexicon := hanswers.result_eq
    obtain ⟨hrest, hlast⟩ := ih hanswers.holds_after
    unfold askAll
    rw [List.map_cons, ← hrest, ← hfirst]
    exact ⟨rfl, hlast⟩

end Answers

end Vocabulary

/-! ## Section 2: Engines that are asked for pieces -/

/-- What an engine was asked for the piece of a token, and the text if it could tell it. -/
structure Inquiry where
  token : TokenId
  special : Bool
  told : Option String
  deriving DecidableEq, Repr

/-- Whether the engine told the piece of `token`. -/
def Inquiry.tells (token : TokenId) (special : Bool) (inquiry : Inquiry) : Bool :=
  inquiry.token = token && inquiry.special = special && inquiry.told.isSome

/-- The state of an engine, and what it was asked, the oldest first. -/
structure Inquired (σ : Type) where
  state : σ
  inquiries : List Inquiry := []

namespace Inquired

/-- Makes a call to the engine. -/
def call (run : σ → Reply σ α) (inquired : Inquired σ) : Reply (Inquired σ) α :=
  let reply := run inquired.state
  { reply with state := { inquired with state := reply.state } }

/-- The functions of an engine on record. -/
def engine (inner : Engine σ) : Engine (Inquired σ) where
  tokenize text addBos special := call (inner.tokenize text addBos special)
  piece token special inquired :=
    let reply := inner.piece token special inquired.state
    let inquiry := ⟨token, special, reply.result.toOption⟩
    { reply with state := ⟨reply.state, inquired.inquiries ++ [inquiry]⟩ }
  vocabSize inquired := inner.vocabSize inquired.state
  contextSize inquired := inner.contextSize inquired.state
  bos inquired := inner.bos inquired.state
  eos inquired := inner.eos inquired.state
  decode batch := call (inner.decode batch)
  logits := call inner.logits
  clear := call inner.clear
  setEmbeddings enabled := call (inner.setEmbeddings enabled)
  embeddings := call inner.embeddings

/-- An engine on record speaks as it does off record. -/
theorem speaks {inner : Engine σ} {lexicon : Lexicon} {still : σ → Bool → Prop}
    (h : inner.Speaks lexicon still) :
    (engine inner).Speaks lexicon fun inquired stopped => still inquired.state stopped where
  vocabSize hstill := h.vocabSize hstill
  tokenize text addBos special _ _ hstill := h.tokenize text addBos special hstill
  piece token special _ _ hstill := h.piece token special hstill

end Inquired

namespace Vocabulary

/-- What the engine was asked so far. -/
def inquiries (vocab : Vocabulary (Inquired σ)) : List Inquiry := vocab.engine.inquiries

/-- What is kept of the piece of a token. -/
def kept? (vocab : Vocabulary σ) (token : TokenId) (special : Bool) : Option String :=
  (vocab.table special).get? token.toInt.toNat

/-! ## Section 3: What is kept is what was told -/

theorem kept?_learn {size : Nat} (vocab : Vocabulary σ) {token other : TokenId}
    (htoken : isToken size token = true) (hother : isToken size other = true)
    (special shown : Bool) (text : String) :
    (vocab.learn special token.toInt.toNat text).kept? other shown
      = if other = token ∧ shown = special then some text else vocab.kept? other shown := by
  unfold kept?
  by_cases hshown : shown = special
  · subst hshown
    rw [table_learn_self]
    by_cases hsame : other = token
    · subst hsame
      rw [PieceTable.get?_insert_self]
      simp
    · -- tokens of the vocabulary have different places in the table
      have hplace : other.toInt.toNat ≠ token.toInt.toNat :=
        fun hplace => hsame (toInt_toNat_inj hother htoken hplace)
      rw [PieceTable.get?_insert_of_ne _ hplace]
      simp [hsame]
  · rw [table_learn_of_ne vocab hshown]
    simp [hshown]

/-- **Faith.**  The engine was asked for tokens only, and what it told is what the lexicon says; and
    it told the piece of a token once if the piece is kept, and else never. -/
structure Faithful (lexicon : Lexicon) (still : σ → Bool → Prop) (vocab : Vocabulary (Inquired σ)) :
    Prop where
  still : still vocab.engine.state vocab.stopped
  asked : ∀ inquiry ∈ vocab.inquiries, isToken lexicon.size inquiry.token = true
    ∧ inquiry.told = (lexicon.text inquiry.token inquiry.special).toOption
  once : ∀ token special, isToken lexicon.size token = true →
    vocab.inquiries.countP (·.tells token special)
      = if (vocab.kept? token special).isSome then 1 else 0

section Faithful

variable {engine : Engine σ} {lexicon : Lexicon} {still : σ → Bool → Prop}
  {vocab : Vocabulary (Inquired σ)}

theorem faithful_new {state : σ} {stopped : Bool} (hstill : still state stopped) :
    ({ engine := { state }, stopped } : Vocabulary (Inquired σ)).Faithful lexicon still where
  still := hstill
  asked inquiry hmem := by contradiction
  once token special htoken := by cases special <;> rfl

/-- **What becomes of a question for a piece.**  The vocabulary stays as it is if the token is none
    of its own or the piece is kept; else the engine is asked, and what it tells is kept. -/
theorem piece_cases (hspeaks : engine.Speaks lexicon still)
    (hstill : still vocab.engine.state vocab.stopped) (token : TokenId) (special : Bool) :
    let later := after (piece (Inquired.engine engine) token special) vocab
    ((isToken lexicon.size token = false ∨ (vocab.kept? token special).isSome = true)
      ∧ later = vocab)
    ∨ (isToken lexicon.size token = true ∧ vocab.kept? token special = none
      ∧ still later.engine.state later.stopped
      ∧ later.inquiries
        = vocab.inquiries ++ [⟨token, special, (lexicon.text token special).toOption⟩]
      ∧ ∀ other shown, isToken lexicon.size other = true → later.kept? other shown
        = if other = token ∧ shown = special then (lexicon.text token special).toOption
          else vocab.kept? other shown) := by
  intro later
  have hspeaks := Inquired.speaks hspeaks
  have hasked := piece_asked (Inquired.engine engine) token special vocab
  have hsize := hspeaks.vocabSize hstill
  obtain ⟨hresult, hlater⟩ := hspeaks.piece token special hstill
  rw [← hresult]
  show _ ∨ _
  unfold later after
  generalize piece (Inquired.engine engine) token special vocab = outcome at hasked
  cases hasked with
  | invalid htoken =>
    rw [hsize] at htoken
    exact .inl ⟨.inl htoken, rfl⟩
  | known htoken htext => exact .inl ⟨.inr (Option.isSome_iff_exists.mpr ⟨_, htext⟩), rfl⟩
  | @failed error htoken htext hreply =>
    rw [hsize] at htoken
    refine .inr ⟨htoken, htext, hlater, rfl, fun other shown hother => ?_⟩
    -- nothing was told, and nothing was kept before
    rw [hreply]
    show vocab.kept? other shown = _
    by_cases hsame : other = token ∧ shown = special
    · rw [if_pos hsame, hsame.1, hsame.2]
      exact htext
    · rw [if_neg hsame]
  | @learnt text htoken htext hreply =>
    rw [hsize] at htoken
    refine .inr ⟨htoken, htext, ?_, ?_, fun other shown hother => ?_⟩
    · cases special <;> exact hlater
    · cases special <;> rfl
    · rw [hreply]
      exact kept?_learn _ htoken hother special shown text

/-- A question for a piece keeps the faith. -/
theorem Faithful.piece (hspeaks : engine.Speaks lexicon still) (h : vocab.Faithful lexicon still)
    (token : TokenId) (special : Bool) :
    (after (piece (Inquired.engine engine) token special) vocab).Faithful lexicon still := by
  rcases piece_cases hspeaks h.still token special with ⟨-, hsame⟩ |
    ⟨htoken, hnone, hstill, hinquiries, hkept⟩
  · rw [hsame]
    exact h
  · refine ⟨hstill, ?_, ?_⟩
    · intro inquiry hmem
      rw [hinquiries, List.mem_append, List.mem_singleton] at hmem
      rcases hmem with hprev | rfl
      · exact h.asked inquiry hprev
      · exact ⟨htoken, rfl⟩
    · intro other shown hother
      rw [hinquiries, hkept other shown hother, List.countP_append, h.once other shown hother,
        List.countP_singleton]
      by_cases hsame : other = token ∧ shown = special
      · -- so far this piece was not told
        rw [if_pos hsame, hsame.1, hsame.2, hnone]
        simp [Inquiry.tells]
      · have htells : Inquiry.tells other shown
            ⟨token, special, (lexicon.text token special).toOption⟩ = false := by
          simp only [Inquiry.tells, Bool.and_eq_false_iff, decide_eq_false_iff_not]
          by_cases htoken : token = other
          · exact .inl (.inr fun hshown => hsame ⟨htoken.symm, hshown.symm⟩)
          · exact .inl (.inl htoken)
        rw [if_neg hsame, htells]
        simp

/-- **Faith lasts**, whatever the vocabulary is asked. -/
theorem lasting_faithful (hspeaks : engine.Speaks lexicon still) :
    Lasting (Inquired.engine engine) fun before later =>
      before.Faithful lexicon still → later.Faithful lexicon still where
  refl _ := id
  trans h hnext := hnext ∘ h
  tokenize text addBos special vocab := by
    unfold Keeps tokenize
    rw [after_ask]
    intro h
    exact ⟨(hspeaks.tokenize text addBos special h.still).2, h.asked, h.once⟩
  piece token special vocab h := h.piece hspeaks token special
  note vocab literals classes h := ⟨h.still, h.asked, h.once⟩

end Faithful

/-! ## Section 4: Runs -/

theorem Lasting.keeps_run {engine : Engine σ} {lasts : Vocabulary σ → Vocabulary σ → Prop}
    (h : Lasting engine lasts) (query : Query) (vocab : Vocabulary σ) :
    Keeps lasts (query.run engine) vocab := by
  have hpure : ∀ {told : Told} vocab, Keeps lasts (pure told : VocabularyM σ Told) vocab := h.refl
  cases query with
  | piece token special => exact (h.piece token special vocab).bind h.trans fun _ => hpure
  | decode tokens special => exact (h.keeps_decode tokens special vocab).bind h.trans fun _ => hpure
  | singleToken text => exact (h.keeps_singleToken text vocab).bind h.trans fun _ => hpure
  | classes => exact (h.keeps_tokenClasses vocab).bind h.trans fun _ => hpure

theorem Lasting.keeps_askAll {engine : Engine σ} {lasts : Vocabulary σ → Vocabulary σ → Prop}
    (h : Lasting engine lasts) (queries : List Query) (vocab : Vocabulary σ) :
    lasts vocab (askAll engine queries vocab).2 := by
  induction queries generalizing vocab with
  | nil => exact h.refl vocab
  | cons query rest ih => exact h.trans (h.keeps_run query vocab) (ih _)

/-- The notes are the same: those of single tokens, and those of classes. -/
def SameNotes (before later : Vocabulary σ) : Prop :=
  later.literals = before.literals ∧ later.classes = before.classes

/-- To ask the engine is not to make notes. -/
theorem asking_sameNotes (engine : Engine σ) : Asking engine SameNotes where
  refl _ := ⟨rfl, rfl⟩
  trans h hnext := ⟨hnext.1.trans h.1, hnext.2.trans h.2⟩
  tokenize text addBos special vocab := by
    unfold Keeps tokenize
    rw [after_ask]
    exact ⟨rfl, rfl⟩
  piece token special vocab := by
    have hasked := piece_asked engine token special vocab
    unfold Keeps after
    generalize piece engine token special vocab = outcome at hasked
    cases hasked with
    | invalid => exact ⟨rfl, rfl⟩
    | known => exact ⟨rfl, rfl⟩
    | failed => exact ⟨rfl, rfl⟩
    | learnt => cases special <;> exact ⟨rfl, rfl⟩

/-- **A failure is not noted.** -/
theorem sameNotes_of_error {engine : Engine σ} {query : Query} {vocab later : Vocabulary σ}
    {error : VocabularyError} (hrun : query.run engine vocab = .error error later) :
    vocab.SameNotes later := by
  have hasking := asking_sameNotes engine
  -- what is told at the end does not fail
  have hstep : ∀ {α : Type} {step : VocabularyM σ α} {tell : α → Told},
      (step >>= fun value => pure (tell value)) vocab = .error error later →
        step vocab = .error error later := by
    intro α step tell hrun
    cases hfirst : step vocab with
    | ok value middle =>
      rw [bind_ok hfirst] at hrun
      contradiction
    | error failure middle =>
      rw [bind_error hfirst] at hrun
      cases hrun
      rfl
  cases query with
  | piece token special => exact (hasking.piece token special vocab).of_error (hstep hrun)
  | decode tokens special =>
    exact (hasking.keeps_decode tokens special vocab).of_error (hstep hrun)
  | singleToken text =>
    have hsingle := hstep hrun
    unfold singleToken at hsingle
    rw [get_bind] at hsingle
    cases hlookup : vocab.literals.lookup text with
    | some found =>
      rw [hlookup] at hsingle
      contradiction
    | none =>
      rw [hlookup] at hsingle
      cases hfind : findSingle engine text vocab with
      | ok found middle =>
        dsimp only at hsingle
        rw [bind_ok hfind] at hsingle
        contradiction
      | error failure middle =>
        dsimp only at hsingle
        rw [bind_error hfind] at hsingle
        cases hsingle
        exact (hasking.keeps_findSingle text vocab).of_error hfind
  | classes =>
    have hclasses := hstep hrun
    unfold tokenClasses at hclasses
    rw [get_bind] at hclasses
    cases hknown : vocab.classes with
    | some classes =>
      rw [hknown] at hclasses
      contradiction
    | none =>
      rw [hknown] at hclasses
      cases hpieces : piecesFrom engine 0 (scanned (engine.vocabSize vocab.engine)) vocab with
      | ok pieces middle =>
        dsimp only at hclasses
        rw [bind_ok hpieces] at hclasses
        contradiction
      | error failure middle =>
        dsimp only at hclasses
        rw [bind_error hpieces] at hclasses
        cases hclasses
        exact (hasking.keeps_piecesFrom 0 _ vocab).of_error hpieces

/-! ## Section 5: Caches -/

/-- **Sparing with questions.**  The engine is asked for tokens of the vocabulary only, and tells
    each of their pieces at most once, those that show control tokens apart from the others.  What
    it told is kept; what it could not tell is not, and it is asked for that again.  A question that
    fails leaves no note. -/
structure Sparing (engine : Engine σ) (lexicon : Lexicon) (vocab : Vocabulary (Inquired σ)) :
    Prop where
  tokens : ∀ inquiry ∈ vocab.inquiries, isToken lexicon.size inquiry.token = true
  told : ∀ inquiry ∈ vocab.inquiries,
    inquiry.told = (lexicon.text inquiry.token inquiry.special).toOption
  once : ∀ token special, vocab.inquiries.countP (·.tells token special) ≤ 1
  kept : ∀ token special text, isToken lexicon.size token = true →
    (vocab.kept? token special = some text ↔ ⟨token, special, some text⟩ ∈ vocab.inquiries)
  again : ∀ token special,
    (after (piece (Inquired.engine engine) token special) vocab).inquiries = vocab.inquiries ++
      if isToken lexicon.size token ∧ vocab.inquiries.any (·.tells token special) = false then
        [⟨token, special, (lexicon.text token special).toOption⟩]
      else []
  failed : ∀ query error later,
    Query.run (Inquired.engine engine) query vocab = .error error later → vocab.SameNotes later

section Sparing

variable {engine : Engine σ} {lexicon : Lexicon} {still : σ → Bool → Prop}
  {vocab : Vocabulary (Inquired σ)}

theorem tells_iff {token : TokenId} {special : Bool} {inquiry : Inquiry} :
    inquiry.tells token special = true
      ↔ ∃ text, inquiry = ⟨token, special, some text⟩ := by
  obtain ⟨asked, shown, told⟩ := inquiry
  cases told <;> simp [Inquiry.tells]

/-- The engine told the piece of a token exactly if the piece is kept. -/
theorem Faithful.any_tells (h : vocab.Faithful lexicon still) {token : TokenId}
    (htoken : isToken lexicon.size token = true) (special : Bool) :
    vocab.inquiries.any (·.tells token special) = (vocab.kept? token special).isSome := by
  have honce := h.once token special htoken
  cases hkept : (vocab.kept? token special).isSome with
  | true =>
    have hpos : 0 < vocab.inquiries.countP (·.tells token special) := by simp [honce, hkept]
    obtain ⟨inquiry, hmem, htells⟩ := List.countP_pos_iff.mp hpos
    exact List.any_eq_true.mpr ⟨inquiry, hmem, htells⟩
  | false =>
    have hzero : vocab.inquiries.countP (·.tells token special) = 0 := by simp [honce, hkept]
    simpa using List.countP_eq_zero.mp hzero

theorem Faithful.sparing (hspeaks : engine.Speaks lexicon still) (h : vocab.Faithful lexicon still)
    (htruthful : vocab.Truthful lexicon) : vocab.Sparing engine lexicon where
  tokens inquiry hmem := (h.asked inquiry hmem).1
  told inquiry hmem := (h.asked inquiry hmem).2
  once token special := by
    by_cases htoken : isToken lexicon.size token = true
    · rw [h.once token special htoken]
      split <;> omega
    · have hnone : vocab.inquiries.countP (·.tells token special) = 0 := by
        refine List.countP_eq_zero.mpr fun inquiry hmem htells => htoken ?_
        obtain ⟨text, rfl⟩ := tells_iff.mp htells
        exact (h.asked _ hmem).1
      omega
  kept token special text htoken := by
    have hany := h.any_tells htoken special
    constructor
    · intro hkept
      rw [hkept, Option.isSome_some, List.any_eq_true] at hany
      obtain ⟨inquiry, hmem, htells⟩ := hany
      obtain ⟨told, rfl⟩ := tells_iff.mp htells
      -- what is kept and what was told are both what the lexicon says
      have htold : some told = (lexicon.text token special).toOption := (h.asked _ hmem).2
      rw [htruthful.pieces token special text htoken hkept] at htold
      cases htold
      exact hmem
    · intro hmem
      have hkept : (vocab.kept? token special).isSome = true := by
        rw [← hany]
        exact List.any_eq_true.mpr ⟨_, hmem, tells_iff.mpr ⟨text, rfl⟩⟩
      obtain ⟨found, hfound⟩ := Option.isSome_iff_exists.mp hkept
      have htold : some text = (lexicon.text token special).toOption := (h.asked _ hmem).2
      rw [htruthful.pieces token special found htoken hfound] at htold
      cases htold
      exact hfound
  again token special := by
    rcases piece_cases hspeaks h.still token special with ⟨hidle, hsame⟩ |
      ⟨htoken, hnone, -, hinquiries, -⟩
    · have hnot : ¬ (isToken lexicon.size token
          ∧ vocab.inquiries.any (·.tells token special) = false) := by
        intro ⟨htoken, hany⟩
        rw [h.any_tells htoken special] at hany
        rcases hidle with hidle | hidle
        · rw [htoken] at hidle
          contradiction
        · rw [hany] at hidle
          contradiction
      rw [hsame, if_neg hnot, List.append_nil]
    · have hany : vocab.inquiries.any (·.tells token special) = false := by
        rw [h.any_tells htoken special, hnone]
        rfl
      rw [hinquiries, if_pos ⟨htoken, hany⟩]
  failed query error later hrun := sameNotes_of_error hrun

/-- **The caches of a vocabulary do not show.**  Over an engine that answers by a lexicon, every
    question is answered as if there were no caches, whatever was asked before and whatever failed;
    and the engine is not asked more than it has to be. -/
theorem caches_do_not_show (hspeaks : engine.Speaks lexicon still) (state : σ) (stopped : Bool)
    (hstill : still state stopped) (queries : List Query) :
    (askAll engine queries { engine := state, stopped }).1 = queries.map (·.answer lexicon)
      ∧ (askAll (Inquired.engine engine) queries { engine := { state }, stopped }).1
        = queries.map (·.answer lexicon)
      ∧ (askAll (Inquired.engine engine) queries { engine := { state }, stopped }).2.Sparing engine
        lexicon := by
  have hnew : ({ engine := state, stopped } : Vocabulary σ).Sound lexicon still :=
    ⟨truthful_new lexicon _ _, hstill⟩
  have hrecorded : ({ engine := { state }, stopped } : Vocabulary (Inquired σ)).Sound lexicon
      fun inquired stopped => still inquired.state stopped :=
    ⟨truthful_new lexicon _ _, hstill⟩
  obtain ⟨hbare, -⟩ := askAll_answers hspeaks queries hnew
  obtain ⟨hanswers, hsound⟩ := askAll_answers (Inquired.speaks hspeaks) queries hrecorded
  have hfaithful := (lasting_faithful hspeaks).keeps_askAll queries
    { engine := { state }, stopped } (faithful_new hstill)
  exact ⟨hbare, hanswers, hfaithful.sparing hspeaks hsound.truthful⟩

end Sparing

/-- What an engine from tables says. -/
def ofTable (table : Tabulated) : Lexicon where
  size := table.pieces.length
  tokens := table.tokenize
  text := table.pieceText

theorem speaks_ofTable (table : Tabulated) :
    Tabulated.engine.Speaks (ofTable table) fun state _ => state = table where
  vocabSize hstill := by rw [hstill]; rfl
  tokenize text addBos special _ _ hstill := by
    subst hstill
    exact ⟨rfl, rfl⟩
  piece token special _ _ hstill := by
    subst hstill
    exact ⟨rfl, rfl⟩

/-- An engine with four tokens, one of them a control token.  It cannot tell the piece of the token
    1. -/
def forgetful : Tabulated where
  pieces := ["a", "b", "ab", "<c>"].map String.toList
  control := [3]
  failures := { pieces := [1] }

/-- The scan for the classes fails half way and leaves the first piece behind.  The pieces of the
    control token are asked for apart from each other, and the piece of the token 1 time and again;
    nothing is asked about what is no token. -/
theorem caches_do_not_show_forgetful :
    let queries : List Query := [.classes, .piece 0 false, .piece 3 true, .piece 3 false,
      .piece (-1) false, .piece 4 true, .singleToken "ab", .decode [0, 1, 2] false,
      .singleToken "ab", .classes]
    let vocab := (askAll (Inquired.engine Tabulated.engine) queries
      { engine := { state := forgetful } }).2
    vocab.inquiries = [⟨0, false, some "a"⟩, ⟨1, false, none⟩, ⟨3, true, some "<c>"⟩,
        ⟨3, false, some ""⟩, ⟨2, false, some "ab"⟩, ⟨1, false, none⟩, ⟨1, false, none⟩]
      ∧ (askAll Tabulated.engine queries { engine := forgetful }).1
        = queries.map (·.answer (ofTable forgetful))
      ∧ vocab.Sparing Tabulated.engine (ofTable forgetful) := by
  intro queries vocab
  have hcaches := caches_do_not_show (speaks_ofTable forgetful) forgetful false rfl queries
  exact ⟨by decide +kernel, hcaches.1, hcaches.2.2⟩

end Vocabulary

end Parley
