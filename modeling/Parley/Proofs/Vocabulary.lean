import Parley.Proofs.Step
import Parley.Vocabulary

/-! # What a vocabulary has learnt

    A vocabulary asks its engine once and remembers, so what it says of a token does not change even
    if the engine does: knowledge only grows, `Vocabulary.Extends`.  What it remembers about single
    tokens and about classes agrees with the pieces that it remembers, `Vocabulary.Coherent`.  A new
    vocabulary is coherent, and whatever is asked of it keeps it so.
-/

namespace Parley

/-! ## Section 1: Tables of pieces -/

namespace PieceTable

theorem get?_insert_self (table : PieceTable) (index : Nat) (piece : String) :
    (table.insert index piece).get? index = some piece := by
  unfold insert get?
  rw [Array.getElem?_setIfInBounds_self_of_lt]
  · rfl
  · rw [Array.size_append, Array.size_replicate]
    omega

theorem get?_insert_of_ne (table : PieceTable) {index other : Nat} (h : other ≠ index)
    (piece : String) : (table.insert index piece).get? other = table.get? other := by
  unfold insert get?
  rw [Array.getElem?_setIfInBounds_ne h.symm, Array.getElem?_append, Array.getElem?_replicate]
  by_cases hprev : other < table.entries.size
  · rw [if_pos hprev]
  · -- the places in between are empty
    rw [if_neg hprev, Array.getElem?_eq_none (Nat.le_of_not_lt hprev)]
    split <;> rfl

end PieceTable

namespace Vocabulary

open Step

variable {σ : Type} {engine : Engine σ}

/-! ## Section 2: Knowledge -/

/-- What is known of a token: its piece, in which control tokens are empty. -/
def known? (vocab : Vocabulary σ) (token : TokenId) : Option String :=
  vocab.pieces.get? token.toInt.toNat

/-- Whatever `before` knows, `later` knows as well. -/
def Extends (before later : Vocabulary σ) : Prop :=
  ∀ index piece, before.pieces.get? index = some piece → later.pieces.get? index = some piece

/-- **Coherence.**  A text remembered as a single token is the piece of that token, and the classes
    are those of pieces that are known. -/
structure Coherent (vocab : Vocabulary σ) : Prop where
  literals : ∀ text token, (text, some token) ∈ vocab.literals → vocab.known? token = some text
  classes : ∀ classes, vocab.classes = some classes → ∃ pieces, classes = TokenClasses.scan pieces
    ∧ ∀ token piece, (token, piece) ∈ pieces → vocab.known? token = some piece

/-- The vocabulary learnt more and forgot nothing, and is as coherent as before. -/
structure Learns (before later : Vocabulary σ) : Prop where
  grown : before.Extends later
  coherent : before.Coherent → later.Coherent

theorem Extends.refl (vocab : Vocabulary σ) : vocab.Extends vocab := fun _ _ h => h

theorem Extends.trans {first second third : Vocabulary σ} (h : first.Extends second)
    (hnext : second.Extends third) : first.Extends third :=
  fun index piece hknown => hnext index piece (h index piece hknown)

theorem Extends.known {before later : Vocabulary σ} (h : before.Extends later) {token : TokenId}
    {piece : String} (hknown : before.known? token = some piece) :
    later.known? token = some piece :=
  h _ _ hknown

theorem Learns.refl (vocab : Vocabulary σ) : vocab.Learns vocab := ⟨.refl vocab, id⟩

theorem Learns.trans {first second third : Vocabulary σ} (h : first.Learns second)
    (hnext : second.Learns third) : first.Learns third :=
  ⟨h.grown.trans hnext.grown, fun hfirst => hnext.coherent (h.coherent hfirst)⟩

/-- More pieces do no harm to what is remembered otherwise. -/
theorem Coherent.of_extends {before later : Vocabulary σ} (h : before.Coherent)
    (hextends : before.Extends later) (hliterals : later.literals = before.literals)
    (hclasses : later.classes = before.classes) : later.Coherent where
  literals text token hmem := by
    rw [hliterals] at hmem
    exact hextends.known (h.literals text token hmem)
  classes classes hsome := by
    rw [hclasses] at hsome
    obtain ⟨pieces, hscan, hpieces⟩ := h.classes classes hsome
    exact ⟨pieces, hscan, fun token piece hmem => hextends.known (hpieces token piece hmem)⟩

theorem Learns.of_extends {before later : Vocabulary σ} (hextends : before.Extends later)
    (hliterals : later.literals = before.literals) (hclasses : later.classes = before.classes) :
    before.Learns later :=
  ⟨hextends, fun h => h.of_extends hextends hliterals hclasses⟩

/-! ## Section 3: Asking -/

/-- The vocabulary after a call to the engine that had the given reply. -/
def heard {α : Type} (vocab : Vocabulary σ) (reply : Reply σ α) : Vocabulary σ :=
  { vocab with engine := reply.state, stopped := vocab.stopped || reply.stop }

/-- The state of the engine, and whether a stop was requested, are not part of the knowledge. -/
theorem heard_learns {α : Type} (vocab : Vocabulary σ) (reply : Reply σ α) :
    vocab.Learns (vocab.heard reply) :=
  .of_extends (.refl vocab) rfl rfl

theorem ask_eq {α : Type} (run : σ → Reply σ α) (vocab : Vocabulary σ) :
    ask run vocab = match (run vocab.engine).result with
      | .ok value => .ok value (vocab.heard (run vocab.engine))
      | .error error => .error (.engine error) (vocab.heard (run vocab.engine)) := by
  unfold ask EStateM.adaptExcept call
  cases hresult : (run vocab.engine).result <;> simp only [hresult] <;> rfl

theorem after_ask {α : Type} (run : σ → Reply σ α) (vocab : Vocabulary σ) :
    after (ask run) vocab = vocab.heard (run vocab.engine) := by
  unfold after
  rw [ask_eq]
  cases (run vocab.engine).result <;> rfl

theorem keeps_ask {α : Type} (run : σ → Reply σ α) (vocab : Vocabulary σ) :
    Keeps Learns (ask run) vocab := by
  rw [Keeps, after_ask]
  exact vocab.heard_learns _

theorem learn_learns {special : Bool} {index : Nat} (piece : String) {vocab : Vocabulary σ}
    (hnew : (vocab.table special).get? index = none) :
    vocab.Learns (vocab.learn special index piece) := by
  unfold learn
  cases special with
  | true => exact .of_extends (.refl vocab) rfl rfl
  | false =>
    -- only what was unknown is added, so no known piece is at this index
    refine .of_extends (fun other known hknown => ?_) rfl rfl
    have hother : other ≠ index := by
      rintro rfl
      have hnone : vocab.pieces.get? other = none := hnew
      rw [hnone] at hknown
      contradiction
    exact (PieceTable.get?_insert_of_ne _ hother piece).trans hknown

/-- **What asking for a piece can do.**  It fails for what is no token of the vocabulary; it tells
    what is known; and what is not known it asks the engine for, and remembers it. -/
inductive Asked (engine : Engine σ) (token : TokenId) (special : Bool) (vocab : Vocabulary σ) :
    EStateM.Result VocabularyError (Vocabulary σ) String → Prop
  | invalid (htoken : isToken (engine.vocabSize vocab.engine) token = false) :
    Asked engine token special vocab (.error (.invalidToken token) vocab)
  | known {text : String} (htoken : isToken (engine.vocabSize vocab.engine) token = true)
    (htext : (vocab.table special).get? token.toInt.toNat = some text) :
    Asked engine token special vocab (.ok text vocab)
  | failed {error : EngineError} (htoken : isToken (engine.vocabSize vocab.engine) token = true)
    (htext : (vocab.table special).get? token.toInt.toNat = none)
    (hreply : (engine.piece token special vocab.engine).result = .error error) :
    Asked engine token special vocab
      (.error (.engine error) (vocab.heard (engine.piece token special vocab.engine)))
  | learnt {text : String} (htoken : isToken (engine.vocabSize vocab.engine) token = true)
    (htext : (vocab.table special).get? token.toInt.toNat = none)
    (hreply : (engine.piece token special vocab.engine).result = .ok text) :
    Asked engine token special vocab
      (.ok text ((vocab.heard (engine.piece token special vocab.engine)).learn special
        token.toInt.toNat text))

theorem piece_asked (engine : Engine σ) (token : TokenId) (special : Bool)
    (vocab : Vocabulary σ) :
    Asked engine token special vocab (piece engine token special vocab) := by
  unfold piece
  show Asked engine token special vocab ((ite _ _ _ : VocabularyM σ String) vocab)
  cases htoken : isToken (engine.vocabSize vocab.engine) token with
  | false =>
    rw [if_pos (by rfl)]
    exact .invalid htoken
  | true =>
    rw [if_neg (by simp)]
    cases htext : (vocab.table special).get? token.toInt.toNat with
    | some text =>
      dsimp only
      exact .known htoken htext
    | none =>
      dsimp only
      have hask := ask_eq (engine.piece token special) vocab
      cases hreply : (engine.piece token special vocab.engine).result with
      | error error =>
        rw [hreply] at hask
        rw [bind_error hask]
        exact .failed htoken htext hreply
      | ok text =>
        rw [hreply] at hask
        rw [bind_ok hask]
        exact .learnt htoken htext hreply

/-- A relation that looks at the engine and at the request to stop only is kept if the reply of the
    engine keeps it. -/
theorem keeps_piece_of_heard {relation : Vocabulary σ → Vocabulary σ → Prop} (token : TokenId)
    (special : Bool) {vocab : Vocabulary σ} (hsame : relation vocab vocab)
    (hheard : ∀ later : Vocabulary σ,
      later.engine = (engine.piece token special vocab.engine).state →
      later.stopped = (vocab.stopped || (engine.piece token special vocab.engine).stop) →
      relation vocab later) :
    Keeps relation (piece engine token special) vocab := by
  have hasked := piece_asked engine token special vocab
  unfold Keeps after
  generalize piece engine token special vocab = outcome at hasked
  cases hasked with
  | invalid => exact hsame
  | known => exact hsame
  | failed => exact hheard _ rfl rfl
  | learnt =>
    -- the piece is kept in one of the two tables
    cases special with
    | false => exact hheard _ rfl rfl
    | true => exact hheard _ rfl rfl

theorem keeps_piece (engine : Engine σ) (token : TokenId) (special : Bool)
    (vocab : Vocabulary σ) : Keeps Learns (piece engine token special) vocab := by
  have h := piece_asked engine token special vocab
  unfold Keeps after
  generalize piece engine token special vocab = outcome at h
  cases h with
  | invalid => exact .refl vocab
  | known => exact .refl vocab
  | failed => exact vocab.heard_learns _
  | learnt _ htext => exact (vocab.heard_learns _).trans (learn_learns _ htext)

/-- A piece that was told is known from then on. -/
theorem known_of_piece {token : TokenId} {vocab later : Vocabulary σ} {text : String}
    (hpiece : piece engine token false vocab = .ok text later) :
    later.known? token = some text := by
  have h := piece_asked engine token false vocab
  rw [hpiece] at h
  cases h with
  | known _ htext => exact htext
  | learnt => exact PieceTable.get?_insert_self _ _ _

/-- What is known of a token is what is told. -/
theorem eq_of_piece {token : TokenId} {vocab later : Vocabulary σ} {text known : String}
    (hpiece : piece engine token false vocab = .ok text later)
    (hknown : vocab.known? token = some known) : text = known := by
  have hlearns := (keeps_piece engine token false vocab).of_ok hpiece
  have hlater := known_of_piece hpiece
  rw [hlearns.grown.known hknown] at hlater
  exact (Option.some.inj hlater).symm

/-! ### Single tokens -/

theorem keeps_tokenize (engine : Engine σ) (text : String) (addBos special : Bool)
    (vocab : Vocabulary σ) : Keeps Learns (tokenize engine text addBos special) vocab :=
  keeps_ask _ vocab

/-- A token found for a text has that text. -/
theorem findSingle_spec (engine : Engine σ) (text : String) (vocab : Vocabulary σ) :
    Keeps Learns (findSingle engine text) vocab
      ∧ ∀ token later, findSingle engine text vocab = .ok (some token) later →
        later.known? token = some text := by
  unfold findSingle
  constructor
  · refine (keeps_tokenize engine text false false vocab).bind Learns.trans fun tokens later => ?_
    rcases tokens with _ | ⟨token, _ | ⟨second, rest⟩⟩
    · exact .refl later
    · exact (keeps_piece engine token false later).bind Learns.trans fun piece last => .refl last
    · exact .refl later
  · intro token later hfind
    obtain ⟨tokens, middle, -, htokens⟩ := bind_eq_ok hfind
    -- a text counts as a single token if it is one token, and the token has no other text
    rcases tokens with _ | ⟨found, _ | ⟨second, rest⟩⟩
    · cases htokens
    · obtain ⟨piece, last, hpiece, hreturn⟩ := bind_eq_ok htokens
      by_cases hsame : piece = text
      · rw [if_pos hsame] at hreturn
        cases hreturn
        exact hsame ▸ known_of_piece hpiece
      · rw [if_neg hsame] at hreturn
        cases hreturn
    · cases htokens

theorem lookup_mem {text : String} {found : Option TokenId} :
    ∀ {literals : List (String × Option TokenId)}, literals.lookup text = some found →
      (text, found) ∈ literals
  | [], h => by contradiction
  | (name, token) :: rest, h => by
    rw [List.lookup_cons] at h
    split at h
    · rename_i hname
      cases h
      rw [eq_of_beq hname]
      exact List.mem_cons_self
    · exact List.mem_cons_of_mem _ (lookup_mem h)

/-- Remembering what was found for a text, if it was found rightly. -/
theorem remember_learns {text : String} {found : Option TokenId} {vocab : Vocabulary σ}
    (hfound : ∀ token, found = some token → vocab.known? token = some text) :
    vocab.Learns { vocab with literals := (text, found) :: vocab.literals } where
  grown := .refl vocab
  coherent h := by
    refine ⟨fun name token hmem => ?_, h.classes⟩
    rcases List.mem_cons.mp hmem with hnew | hprev
    · cases hnew
      exact hfound token rfl
    · exact h.literals name token hprev

theorem keeps_singleToken (engine : Engine σ) (text : String) (vocab : Vocabulary σ) :
    Keeps Learns (singleToken engine text) vocab := by
  unfold singleToken
  refine keeps_get ?_
  cases vocab.literals.lookup text with
  | some found => exact .refl vocab
  | none =>
    -- nothing is remembered of a search that failed
    obtain ⟨hkeeps, hfound⟩ := findSingle_spec engine text vocab
    unfold Keeps at hkeeps ⊢
    cases hstep : findSingle engine text vocab with
    | error error later =>
      rw [after_error hstep] at hkeeps
      rwa [after_bind_error hstep]
    | ok found later =>
      rw [after_ok hstep] at hkeeps
      rw [after_bind_ok hstep]
      refine hkeeps.trans (remember_learns fun token hsome => ?_)
      exact hfound token later (hsome ▸ hstep)

/-- **Single tokens.**  The token found for a text has that text, and no other from then on. -/
theorem known_of_singleToken {text : String} {token : TokenId} {vocab later : Vocabulary σ}
    (hcoherent : vocab.Coherent)
    (hstep : singleToken engine text vocab = .ok (some token) later) :
    later.known? token = some text := by
  unfold singleToken at hstep
  obtain ⟨_, _, hget, hstep⟩ := bind_eq_ok hstep
  cases hget
  cases hlookup : vocab.literals.lookup text with
  | some found =>
    rw [hlookup] at hstep
    cases hstep
    exact hcoherent.literals text token (lookup_mem hlookup)
  | none =>
    rw [hlookup] at hstep
    obtain ⟨found, middle, hfind, hremember⟩ := bind_eq_ok hstep
    cases hremember
    exact (findSingle_spec engine text vocab).2 token middle hfind

/-! ### Classes -/

theorem piecesFrom_spec (engine : Engine σ) (first count : Nat) (vocab : Vocabulary σ) :
    Keeps Learns (piecesFrom engine first count) vocab
      ∧ ∀ pieces later, piecesFrom engine first count vocab = .ok pieces later →
        ∀ token piece, (token, piece) ∈ pieces → later.known? token = some piece := by
  induction count generalizing first vocab with
  | zero =>
    refine ⟨.refl vocab, fun pieces later hstep token piece hmem => ?_⟩
    cases hstep
    contradiction
  | succ count ih =>
    unfold piecesFrom
    constructor
    · refine (keeps_piece engine _ false vocab).bind Learns.trans fun piece middle => ?_
      exact (ih (first + 1) middle).1.bind Learns.trans fun rest later => .refl later
    · intro pieces later hstep token text hmem
      obtain ⟨piece, middle, hpiece, hstep⟩ := bind_eq_ok hstep
      obtain ⟨rest, last, hrest, hstep⟩ := bind_eq_ok hstep
      cases hstep
      rcases List.mem_cons.mp hmem with hfirst | hlater
      · -- the first piece is still known when the last one was told
        cases hfirst
        have hlearns := (ih (first + 1) middle).1.of_ok hrest
        exact hlearns.grown.known (known_of_piece hpiece)
      · exact (ih (first + 1) middle).2 rest later hrest token text hlater

theorem classify_learns {classes : TokenClasses} {vocab : Vocabulary σ}
    (h : ∃ pieces, classes = TokenClasses.scan pieces
      ∧ ∀ token piece, (token, piece) ∈ pieces → vocab.known? token = some piece) :
    vocab.Learns { vocab with classes := some classes } where
  grown := .refl vocab
  coherent hbefore := by
    refine ⟨hbefore.literals, fun other hsome => ?_⟩
    cases hsome
    exact h

theorem keeps_tokenClasses (engine : Engine σ) (vocab : Vocabulary σ) :
    Keeps Learns (tokenClasses engine) vocab := by
  unfold tokenClasses
  refine keeps_get ?_
  cases vocab.classes with
  | some classes => exact .refl vocab
  | none =>
    obtain ⟨hkeeps, hpieces⟩ :=
      piecesFrom_spec engine 0 (scanned (engine.vocabSize vocab.engine)) vocab
    unfold Keeps at hkeeps ⊢
    dsimp only
    cases hstep : piecesFrom engine 0 (scanned (engine.vocabSize vocab.engine)) vocab with
    | error error later =>
      rw [after_error hstep] at hkeeps
      rwa [after_bind_error hstep]
    | ok pieces later =>
      rw [after_ok hstep] at hkeeps
      rw [after_bind_ok hstep]
      exact hkeeps.trans (classify_learns ⟨pieces, rfl, hpieces pieces later hstep⟩)

/-- **Classes.**  The classes sort pieces that are known. -/
theorem known_of_tokenClasses {classes : TokenClasses} {vocab later : Vocabulary σ}
    (hcoherent : vocab.Coherent) (hstep : tokenClasses engine vocab = .ok classes later) :
    ∃ pieces, classes = TokenClasses.scan pieces
      ∧ ∀ token piece, (token, piece) ∈ pieces → later.known? token = some piece := by
  unfold tokenClasses at hstep
  obtain ⟨_, _, hget, hstep⟩ := bind_eq_ok hstep
  cases hget
  cases hclasses : vocab.classes with
  | some known =>
    rw [hclasses] at hstep
    cases hstep
    exact hcoherent.classes _ hclasses
  | none =>
    rw [hclasses] at hstep
    obtain ⟨pieces, middle, hpieces, hremember⟩ := bind_eq_ok hstep
    cases hremember
    exact ⟨pieces, rfl, (piecesFrom_spec engine 0 _ vocab).2 pieces middle hpieces⟩

/-! ## Section 4: Vocabularies in use -/

/-- **A vocabulary in use.**  It was new once; since then its pieces, single tokens and classes were
    asked for, in any order and failing or not, and the engine did what it liked. -/
inductive InUse (engine : Engine σ) : Vocabulary σ → Prop
  | new (state : σ) (stopped : Bool) : InUse engine { engine := state, stopped }
  | touched {vocab : Vocabulary σ} (state : σ) (stopped : Bool) (h : InUse engine vocab) :
    InUse engine { vocab with engine := state, stopped }
  | piece {vocab : Vocabulary σ} (token : TokenId) (special : Bool) (h : InUse engine vocab) :
    InUse engine (after (Vocabulary.piece engine token special) vocab)
  | singleToken {vocab : Vocabulary σ} (text : String) (h : InUse engine vocab) :
    InUse engine (after (Vocabulary.singleToken engine text) vocab)
  | tokenClasses {vocab : Vocabulary σ} (h : InUse engine vocab) :
    InUse engine (after (Vocabulary.tokenClasses engine) vocab)

theorem InUse.coherent {vocab : Vocabulary σ} (h : InUse engine vocab) : vocab.Coherent := by
  induction h with
  | new state stopped => exact ⟨fun _ _ h => (nomatch h), fun _ h => (nomatch h)⟩
  | touched state stopped _ ih => exact ih.of_extends (.refl _) rfl rfl
  | piece token special _ ih => exact (keeps_piece engine token special _).coherent ih
  | singleToken text _ ih => exact (keeps_singleToken engine text _).coherent ih
  | tokenClasses _ ih => exact (keeps_tokenClasses engine _).coherent ih

/-! ## Section 5: What lasts in a vocabulary -/

/-- **What lasts while the engine is asked**: the relation survives its answers, and that pieces are
    kept. -/
structure Asking (engine : Engine σ) (lasts : Vocabulary σ → Vocabulary σ → Prop) : Prop where
  refl : ∀ vocab, lasts vocab vocab
  trans : ∀ {first second third}, lasts first second → lasts second third → lasts first third
  tokenize : ∀ text addBos special vocab, Keeps lasts (tokenize engine text addBos special) vocab
  piece : ∀ token special vocab, Keeps lasts (piece engine token special) vocab

/-- **What lasts**, also if the vocabulary makes notes of single tokens and of classes. -/
structure Lasting (engine : Engine σ) (lasts : Vocabulary σ → Vocabulary σ → Prop) : Prop
    extends Asking engine lasts where
  note : ∀ (vocab : Vocabulary σ) literals classes, lasts vocab { vocab with literals, classes }

section Lasts

variable {lasts : Vocabulary σ → Vocabulary σ → Prop}

theorem Asking.keeps_decode (h : Asking engine lasts) (tokens : List TokenId) (special : Bool)
    (vocab : Vocabulary σ) : Keeps lasts (decode engine tokens special) vocab := by
  induction tokens generalizing vocab with
  | nil => exact h.refl vocab
  | cons token rest ih =>
    refine (h.piece token special vocab).bind h.trans fun piece vocab => ?_
    exact (ih vocab).bind h.trans fun _ vocab => h.refl vocab

theorem Asking.keeps_findSingle (h : Asking engine lasts) (text : String) (vocab : Vocabulary σ) :
    Keeps lasts (findSingle engine text) vocab := by
  unfold findSingle
  refine (h.tokenize text false false vocab).bind h.trans fun tokens vocab => ?_
  rcases tokens with _ | ⟨token, _ | ⟨second, rest⟩⟩
  · exact h.refl vocab
  · exact (h.piece token false vocab).bind h.trans fun _ vocab => h.refl vocab
  · exact h.refl vocab

theorem Asking.keeps_piecesFrom (h : Asking engine lasts) (first count : Nat)
    (vocab : Vocabulary σ) : Keeps lasts (piecesFrom engine first count) vocab := by
  induction count generalizing first vocab with
  | zero => exact h.refl vocab
  | succ count ih =>
    unfold piecesFrom
    refine (h.piece _ false vocab).bind h.trans fun piece vocab => ?_
    exact (ih (first + 1) vocab).bind h.trans fun _ vocab => h.refl vocab

theorem Lasting.keeps_singleToken (h : Lasting engine lasts) (text : String)
    (vocab : Vocabulary σ) : Keeps lasts (singleToken engine text) vocab := by
  unfold singleToken
  refine keeps_get ?_
  cases vocab.literals.lookup text with
  | some found => exact h.refl vocab
  | none => exact (h.keeps_findSingle text vocab).bind h.trans fun _ vocab => h.note vocab _ _

theorem Lasting.keeps_tokenClasses (h : Lasting engine lasts) (vocab : Vocabulary σ) :
    Keeps lasts (tokenClasses engine) vocab := by
  unfold tokenClasses
  refine keeps_get ?_
  cases vocab.classes with
  | some classes => exact h.refl vocab
  | none => exact (h.keeps_piecesFrom 0 _ vocab).bind h.trans fun _ vocab => h.note vocab _ _

end Lasts

/-- A stop that was requested stays so, whatever the vocabulary is asked. -/
theorem lasting_stopped (engine : Engine σ) :
    Lasting engine fun before later => before.stopped = true → later.stopped = true where
  refl _ := id
  trans h hnext := hnext ∘ h
  tokenize text addBos special vocab := by
    unfold Keeps tokenize
    rw [after_ask]
    intro hstopped
    simp [heard, hstopped]
  piece token special vocab := by
    apply keeps_piece_of_heard token special id
    intro later _ hlater hstopped
    simp [hlater, hstopped]
  note _ _ _ := id

end Vocabulary

end Parley
