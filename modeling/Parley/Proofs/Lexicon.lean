import Parley.Constrained.Palette
import Parley.Proofs.Vocabulary

/-! # Vocabularies that tell the truth

    A lexicon says what the tokens of texts and the texts of tokens are, once and for all.  An
    engine that speaks by a lexicon may be asked once and its answers kept: what a vocabulary keeps
    stays true, `Vocabulary.Truthful`, and whatever is asked of it is answered as the lexicon
    answers, by a vocabulary that knows much just as by a new one.
-/

namespace Parley

open Step

/-! ## Section 1: Lexicons -/

/-- The size of a vocabulary, the tokens of texts, and the texts of tokens. -/
structure Lexicon where
  size : Nat
  tokens : (text : String) → (addBos special : Bool) → Except EngineError (List TokenId)
  text : TokenId → (special : Bool) → Except EngineError String

namespace Lexicon

variable (lexicon : Lexicon)

/-- The tokens of a text. -/
def tokenize (text : String) (addBos special : Bool) : Except VocabularyError (List TokenId) :=
  (lexicon.tokens text addBos special).mapError .engine

/-- The text of a token. -/
def piece (token : TokenId) (special : Bool) : Except VocabularyError String :=
  if !Vocabulary.isToken lexicon.size token then .error (.invalidToken token)
  else (lexicon.text token special).mapError .engine

/-- The texts of tokens, one behind the other. -/
def decode (special : Bool) : List TokenId → Except VocabularyError String
  | [] => return ""
  | token :: rest => return (← lexicon.piece token special) ++ (← decode special rest)

/-- The texts of tokens, one behind the other, as far as the engine is concerned. -/
def rendered : List TokenId → Except EngineError String
  | [] => return ""
  | token :: rest => return (← lexicon.text token false) ++ (← rendered rest)

/-- **Nothing is lost.**  The tokens of a text are rendered as the text. -/
def Lossless : Prop :=
  ∀ text tokens, lexicon.tokens text false false = .ok tokens → lexicon.rendered tokens = .ok text

/-- The token whose text is `text`, if there is one. -/
def singleToken (text : String) : Except VocabularyError (Option TokenId) := do
  match ← lexicon.tokenize text false false with
  | [token] => return if (← lexicon.piece token false) = text then some token else none
  | _ => return none

/-- The pieces of the tokens `first`, `first + 1`, … of which there are `count`. -/
def piecesFrom : (first count : Nat) → Except VocabularyError (List (TokenId × String))
  | _, 0 => return []
  | first, count + 1 => do
    let piece ← lexicon.piece (Int32.ofNat first) false
    return (Int32.ofNat first, piece) :: (← piecesFrom (first + 1) count)

/-- The classes of the tokens. -/
def classes : Except VocabularyError TokenClasses := do
  return TokenClasses.scan (← lexicon.piecesFrom 0 (Vocabulary.scanned lexicon.size))

/-- The digits among the tokens, with their texts. -/
def digits : List TokenId → Except VocabularyError (List DigitToken)
  | [] => return []
  | token :: rest => do
    let piece ← lexicon.piece token false
    return DigitToken.ofPiece token piece :: (← digits rest)

/-- The tokens with which values are written. -/
def palette : Except VocabularyError Palette := do
  let quote ← lexicon.singleToken "\""
  let comma ← lexicon.singleToken ","
  let openBrace ← lexicon.singleToken "\x7b"
  let closeBrace ← lexicon.singleToken "\x7d"
  let openBracket ← lexicon.singleToken "["
  let closeBracket ← lexicon.singleToken "]"
  let minus ← lexicon.singleToken "-"
  let dot ← lexicon.singleToken "."
  let null ← lexicon.singleToken "null"
  let yes ← lexicon.singleToken "true"
  let no ← lexicon.singleToken "false"
  let classes ← lexicon.classes
  let digits ← lexicon.digits classes.digits.toList
  return { quote, comma, openBrace, closeBrace, openBracket, closeBracket, minus, dot, null, yes, no
           stringBody := classes.stringBody, stringOpen := classes.stringBodyNonblank, digits }

variable {lexicon}

theorem rendered_append {tokens more : List TokenId} {text added : String}
    (h : lexicon.rendered tokens = .ok text) (hmore : lexicon.rendered more = .ok added) :
    lexicon.rendered (tokens ++ more) = .ok (text ++ added) := by
  induction tokens generalizing text with
  | nil =>
    cases h
    rw [List.nil_append, hmore, String.empty_append]
  | cons token rest ih =>
    unfold rendered at h
    obtain ⟨piece, hpiece, h⟩ := except_bind_eq_ok h
    obtain ⟨behind, hrest, h⟩ := except_bind_eq_ok h
    cases h
    rw [List.cons_append]
    unfold rendered
    rw [hpiece, ih hrest, String.append_assoc]
    rfl

theorem rendered_singleton {token : TokenId} {piece : String}
    (h : lexicon.text token false = .ok piece) : lexicon.rendered [token] = .ok piece := by
  unfold rendered rendered
  rw [h]
  exact congrArg Except.ok (String.append_empty)

/-- The tokens of a text are those that the engine finds. -/
theorem tokens_of_tokenize {text : String} {addBos special : Bool} {tokens : List TokenId}
    (h : lexicon.tokenize text addBos special = .ok tokens) :
    lexicon.tokens text addBos special = .ok tokens := by
  unfold tokenize at h
  cases htokens : lexicon.tokens text addBos special with
  | ok found =>
    rw [htokens] at h
    exact congrArg Except.ok (Except.ok.inj h)
  | error error =>
    rw [htokens] at h
    contradiction

/-- A token is told as the engine tells it. -/
theorem text_of_piece {token : TokenId} {special : Bool} {text : String}
    (h : lexicon.piece token special = .ok text) : lexicon.text token special = .ok text := by
  unfold piece at h
  cases htext : lexicon.text token special with
  | ok told =>
    rw [htext] at h
    split at h
    · contradiction
    · exact congrArg Except.ok (Except.ok.inj h)
  | error error =>
    rw [htext] at h
    split at h <;> contradiction

end Lexicon

variable {σ : Type}

/-- **An engine that speaks by a lexicon**, as long as `still` holds of its state and of the
    requests to stop; and it holds on. -/
structure Engine.Speaks (engine : Engine σ) (lexicon : Lexicon) (still : σ → Bool → Prop) :
    Prop where
  vocabSize : ∀ {state stopped}, still state stopped → engine.vocabSize state = lexicon.size
  tokenize : ∀ text addBos special {state stopped}, still state stopped →
    (engine.tokenize text addBos special state).result = lexicon.tokens text addBos special
      ∧ still (engine.tokenize text addBos special state).state
        (stopped || (engine.tokenize text addBos special state).stop)
  piece : ∀ token special {state stopped}, still state stopped →
    (engine.piece token special state).result = lexicon.text token special
      ∧ still (engine.piece token special state).state
        (stopped || (engine.piece token special state).stop)

namespace Vocabulary

/-! ## Section 2: Truthful vocabularies -/

/-- **Truth.**  Whatever the vocabulary has learnt is what the lexicon says. -/
structure Truthful (lexicon : Lexicon) (vocab : Vocabulary σ) : Prop where
  pieces : ∀ token special text, isToken lexicon.size token = true →
    (vocab.table special).get? token.toInt.toNat = some text →
    lexicon.text token special = .ok text
  literals : ∀ text found, (text, found) ∈ vocab.literals → lexicon.singleToken text = .ok found
  classes : ∀ classes, vocab.classes = some classes → lexicon.classes = .ok classes

/-- The vocabulary is truthful, and `still` holds of its engine. -/
structure Sound (lexicon : Lexicon) (still : σ → Bool → Prop) (vocab : Vocabulary σ) : Prop where
  truthful : vocab.Truthful lexicon
  still : still vocab.engine vocab.stopped

theorem truthful_new (lexicon : Lexicon) (state : σ) (stopped : Bool) :
    ({ engine := state, stopped } : Vocabulary σ).Truthful lexicon where
  pieces token special text htoken hknown := by
    have hnone : ((({ engine := state, stopped } : Vocabulary σ).table special).get?
        token.toInt.toNat) = none := by
      cases special <;> rfl
    rw [hnone] at hknown
    contradiction
  literals text found hmem := by contradiction
  classes classes hsome := by contradiction

/-- The state of the engine, and whether a stop was requested, are nothing that was learnt. -/
theorem Truthful.touched {lexicon : Lexicon} {vocab : Vocabulary σ} (h : vocab.Truthful lexicon)
    (state : σ) (stopped : Bool) :
    ({ vocab with engine := state, stopped } : Vocabulary σ).Truthful lexicon where
  pieces := h.pieces
  literals := h.literals
  classes := h.classes

theorem toInt_toNat_inj {size : Nat} {token other : TokenId} (htoken : isToken size token = true)
    (hother : isToken size other = true) (h : token.toInt.toNat = other.toInt.toNat) :
    token = other := by
  unfold isToken at htoken hother
  simp only [Bool.and_eq_true, decide_eq_true_eq, Int32.le_iff_toInt_le] at htoken hother
  have hzero : (0 : Int32).toInt = 0 := by decide
  rw [hzero] at htoken hother
  exact Int32.toInt_inj.mp (by omega)

theorem table_learn_self (vocab : Vocabulary σ) (special : Bool) (index : Nat) (piece : String) :
    (vocab.learn special index piece).table special = (vocab.table special).insert index piece := by
  cases special <;> rfl

theorem table_learn_of_ne (vocab : Vocabulary σ) {special other : Bool} (h : other ≠ special)
    (index : Nat) (piece : String) :
    (vocab.learn special index piece).table other = vocab.table other := by
  cases special with
  | true => rw [eq_false_of_ne_true h]; rfl
  | false => rw [eq_true_of_ne_false h]; rfl

theorem Truthful.learn {lexicon : Lexicon} {vocab : Vocabulary σ} (h : vocab.Truthful lexicon)
    {token : TokenId} {special : Bool} {piece : String}
    (htoken : isToken lexicon.size token = true)
    (htext : lexicon.text token special = .ok piece) :
    (vocab.learn special token.toInt.toNat piece).Truthful lexicon where
  pieces other shown text hother hknown := by
    by_cases hshown : shown = special
    · subst hshown
      rw [table_learn_self] at hknown
      by_cases hsame : other.toInt.toNat = token.toInt.toNat
      · rw [hsame, PieceTable.get?_insert_self] at hknown
        rw [toInt_toNat_inj hother htoken hsame, htext, Option.some.inj hknown]
      · rw [PieceTable.get?_insert_of_ne _ hsame] at hknown
        exact h.pieces other shown text hother hknown
    · rw [table_learn_of_ne vocab hshown] at hknown
      exact h.pieces other shown text hother hknown
  literals := by cases special <;> exact h.literals
  classes := by cases special <;> exact h.classes

/-! ## Section 3: Answers -/

section Answers

variable {engine : Engine σ} {lexicon : Lexicon} {still : σ → Bool → Prop} {vocab : Vocabulary σ}
  (hspeaks : engine.Speaks lexicon still)

include hspeaks

theorem answers_tokenize (h : vocab.Sound lexicon still) (text : String) (addBos special : Bool) :
    Answers (Sound lexicon still) (lexicon.tokenize text addBos special)
      (tokenize engine text addBos special) vocab := by
  obtain ⟨hresult, hstill⟩ := hspeaks.tokenize text addBos special h.still
  have hsound : (vocab.heard (engine.tokenize text addBos special vocab.engine)).Sound lexicon
      still := ⟨h.truthful.touched _ _, hstill⟩
  unfold Answers tokenize Lexicon.tokenize
  rw [ask_eq, hresult]
  cases lexicon.tokens text addBos special with
  | ok tokens => exact .ok tokens hsound
  | error error => exact .error _ hsound

/-- **Pieces** are told as the lexicon has them, be they known or not. -/
theorem answers_piece (h : vocab.Sound lexicon still) (token : TokenId) (special : Bool) :
    Answers (Sound lexicon still) (lexicon.piece token special) (piece engine token special)
      vocab := by
  have hasked := piece_asked engine token special vocab
  have hsize := hspeaks.vocabSize h.still
  obtain ⟨hresult, hstill⟩ := hspeaks.piece token special h.still
  have hsound : (vocab.heard (engine.piece token special vocab.engine)).Sound lexicon still :=
    ⟨h.truthful.touched _ _, hstill⟩
  unfold Answers Lexicon.piece
  generalize piece engine token special vocab = outcome at hasked
  cases hasked with
  | invalid htoken =>
    rw [← hsize, htoken]
    exact .error _ h
  | @known text htoken htext =>
    rw [hsize] at htoken
    rw [htoken, h.truthful.pieces token special text htoken htext]
    exact .ok text h
  | @failed error htoken htext hreply =>
    rw [← hsize, htoken, ← hresult, hreply]
    exact .error _ hsound
  | @learnt text htoken htext hreply =>
    rw [hsize] at htoken
    rw [hresult] at hreply
    rw [htoken, hreply]
    refine .ok text ⟨hsound.truthful.learn htoken hreply, ?_⟩
    cases special <;> exact hsound.still

/-- **Texts** are put together as the lexicon has their pieces. -/
theorem answers_decode (h : vocab.Sound lexicon still) (tokens : List TokenId) (special : Bool) :
    Answers (Sound lexicon still) (lexicon.decode special tokens) (decode engine tokens special)
      vocab := by
  induction tokens generalizing vocab with
  | nil => exact answers_pure _ h
  | cons token rest ih =>
    unfold decode Lexicon.decode
    refine (answers_piece hspeaks h token special).bind fun piece vocab _ h => ?_
    exact (ih h).bind fun text vocab _ h => answers_pure _ h

theorem answers_findSingle (h : vocab.Sound lexicon still) (text : String) :
    Answers (Sound lexicon still) (lexicon.singleToken text) (findSingle engine text) vocab := by
  unfold findSingle Lexicon.singleToken
  refine (answers_tokenize hspeaks h text false false).bind fun tokens vocab _ h => ?_
  rcases tokens with _ | ⟨token, _ | ⟨second, rest⟩⟩
  · exact answers_pure _ h
  · exact (answers_piece hspeaks h token false).bind fun piece vocab _ h => answers_pure _ h
  · exact answers_pure _ h

/-- **Single tokens** are found as the lexicon has them, be they looked for before or not. -/
theorem answers_singleToken (h : vocab.Sound lexicon still) (text : String) :
    Answers (Sound lexicon still) (lexicon.singleToken text) (singleToken engine text) vocab := by
  unfold singleToken
  refine answers_get ?_
  cases hlookup : vocab.literals.lookup text with
  | some found =>
    rw [h.truthful.literals text found (lookup_mem hlookup)]
    exact answers_pure found h
  | none =>
    have hanswer : lexicon.singleToken text = lexicon.singleToken text >>= Except.ok := by
      cases lexicon.singleToken text <;> rfl
    rw [hanswer]
    refine (answers_findSingle hspeaks h text).bind fun found vocab hfound h => ?_
    refine answers_modify (answers_pure found ?_)
    refine ⟨⟨h.truthful.pieces, fun name other hmem => ?_, h.truthful.classes⟩, h.still⟩
    rcases List.mem_cons.mp hmem with hnew | hprev
    · cases hnew
      exact hfound
    · exact h.truthful.literals name other hprev

theorem answers_piecesFrom (h : vocab.Sound lexicon still) (first count : Nat) :
    Answers (Sound lexicon still) (lexicon.piecesFrom first count) (piecesFrom engine first count)
      vocab := by
  induction count generalizing first vocab with
  | zero => exact answers_pure _ h
  | succ count ih =>
    unfold piecesFrom Lexicon.piecesFrom
    refine (answers_piece hspeaks h _ false).bind fun piece vocab _ h => ?_
    exact (ih h (first + 1)).bind fun rest vocab _ h => answers_pure _ h

/-- **Classes** are told as the lexicon has them, be they known or not. -/
theorem answers_tokenClasses (h : vocab.Sound lexicon still) :
    Answers (Sound lexicon still) lexicon.classes (tokenClasses engine) vocab := by
  unfold tokenClasses
  refine answers_get ?_
  cases hclasses : vocab.classes with
  | some classes =>
    rw [h.truthful.classes classes hclasses]
    exact answers_pure classes h
  | none =>
    dsimp only
    unfold Lexicon.classes
    rw [hspeaks.vocabSize h.still]
    refine (answers_piecesFrom hspeaks h 0 _).bind fun pieces vocab hpieces h => ?_
    refine answers_modify (answers_pure _ ?_)
    refine ⟨⟨h.truthful.pieces, h.truthful.literals, fun classes hsome => ?_⟩, h.still⟩
    cases hsome
    unfold Lexicon.classes
    rw [hpieces]
    rfl

theorem answers_learnDigits (h : vocab.Sound lexicon still) (tokens : List TokenId) :
    Answers (Sound lexicon still) (lexicon.digits tokens) (Palette.learnDigits engine tokens)
      vocab := by
  induction tokens generalizing vocab with
  | nil => exact answers_pure _ h
  | cons token rest ih =>
    unfold Palette.learnDigits Lexicon.digits
    refine (answers_piece hspeaks h token false).bind fun piece vocab _ h => ?_
    exact (ih h).bind fun digits vocab _ h => answers_pure _ h

/-- **Palettes** are learnt as the lexicon has them. -/
theorem answers_learn (h : vocab.Sound lexicon still) :
    Answers (Sound lexicon still) lexicon.palette (Palette.learn engine) vocab := by
  unfold Palette.learn Lexicon.palette
  refine (answers_singleToken hspeaks h _).bind fun quote vocab _ h => ?_
  refine (answers_singleToken hspeaks h _).bind fun comma vocab _ h => ?_
  refine (answers_singleToken hspeaks h _).bind fun openBrace vocab _ h => ?_
  refine (answers_singleToken hspeaks h _).bind fun closeBrace vocab _ h => ?_
  refine (answers_singleToken hspeaks h _).bind fun openBracket vocab _ h => ?_
  refine (answers_singleToken hspeaks h _).bind fun closeBracket vocab _ h => ?_
  refine (answers_singleToken hspeaks h _).bind fun minus vocab _ h => ?_
  refine (answers_singleToken hspeaks h _).bind fun dot vocab _ h => ?_
  refine (answers_singleToken hspeaks h _).bind fun null vocab _ h => ?_
  refine (answers_singleToken hspeaks h _).bind fun yes vocab _ h => ?_
  refine (answers_singleToken hspeaks h _).bind fun no vocab _ h => ?_
  refine (answers_tokenClasses hspeaks h).bind fun classes vocab _ h => ?_
  exact (answers_learnDigits hspeaks h _).bind fun digits vocab _ h => answers_pure _ h

end Answers

end Vocabulary

/-! ## Section 4: Vocabularies side by side -/

/-- **An engine that recites** a lexicon: it answers from it and does nothing else about it. -/
structure Engine.Recites (engine : Engine σ) (lexicon : Lexicon) : Prop where
  vocabSize : ∀ state, engine.vocabSize state = lexicon.size
  tokenize : ∀ text addBos special state,
    engine.tokenize text addBos special state = ⟨lexicon.tokens text addBos special, state, false⟩
  piece : ∀ token special state,
    engine.piece token special state = ⟨lexicon.text token special, state, false⟩

theorem Engine.Recites.speaks {engine : Engine σ} {lexicon : Lexicon} (h : engine.Recites lexicon)
    (still : σ → Bool → Prop) : engine.Speaks lexicon still where
  vocabSize _ := h.vocabSize _
  tokenize text addBos special state stopped hstill := by
    rw [h.tokenize, Bool.or_false]
    exact ⟨rfl, hstill⟩
  piece token special state stopped hstill := by
    rw [h.piece, Bool.or_false]
    exact ⟨rfl, hstill⟩

namespace Vocabulary

/-- **Vocabularies of one kind.**  They may know more or less of the lexicon; a stop was requested
    of both or of neither, and their engines are in the same state as far as `same` says. -/
structure Akin (lexicon : Lexicon) (same : σ → σ → Prop) (vocab vocab' : Vocabulary σ) : Prop where
  truthful : vocab.Truthful lexicon
  truthful' : vocab'.Truthful lexicon
  stopped : vocab.stopped = vocab'.stopped
  same : same vocab.engine vocab'.engine

section Couples

variable {α : Type} {engine : Engine σ} {lexicon : Lexicon} {same : σ → σ → Prop}
  {vocab vocab' : Vocabulary σ} (hrecites : engine.Recites lexicon)

/-- What is answered from the lexicon is answered alike. -/
theorem Akin.couples {step : VocabularyM σ α} {answer : Except VocabularyError α}
    (h : Akin lexicon same vocab vocab')
    (hstep : ∀ (still : σ → Bool → Prop) {vocab}, vocab.Sound lexicon still →
      Answers (Sound lexicon still) answer step vocab) :
    Couples (Akin lexicon same) step step vocab vocab' := by
  have hleft := hstep (fun state stopped => state = vocab.engine ∧ stopped = vocab.stopped)
    ⟨h.truthful, rfl, rfl⟩
  have hright := hstep (fun state stopped => state = vocab'.engine ∧ stopped = vocab'.stopped)
    ⟨h.truthful', rfl, rfl⟩
  refine hleft.couples hright fun {later later'} hlater hlater' => ?_
  obtain ⟨htruthful, hengine, hstopped⟩ := hlater
  obtain ⟨htruthful', hengine', hstopped'⟩ := hlater'
  refine ⟨htruthful, htruthful', ?_, ?_⟩
  · rw [hstopped, hstopped', h.stopped]
  · rw [hengine, hengine']
    exact h.same

include hrecites

theorem couples_piece (h : Akin lexicon same vocab vocab') (token : TokenId) (special : Bool) :
    Couples (Akin lexicon same) (piece engine token special) (piece engine token special) vocab
      vocab' :=
  h.couples fun still _ hsound => answers_piece (hrecites.speaks still) hsound token special

theorem couples_learn (h : Akin lexicon same vocab vocab') :
    Couples (Akin lexicon same) (Palette.learn engine) (Palette.learn engine) vocab vocab' :=
  h.couples fun still _ hsound => answers_learn (hrecites.speaks still) hsound

end Couples

end Vocabulary

end Parley
