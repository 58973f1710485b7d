import Parley.Constrained.Palette
import Parley.Proofs.Token.Set
import Parley.Proofs.Vocabulary

/-! # What the tokens of a palette say

    The palette is learnt from a vocabulary, whose engine may give any text for any token and may
    fail at any call.  If it was learnt all the same, then its tokens have the texts that they are
    used for: `Palette.Spelled`.  That stays so, as a vocabulary does not forget.
-/

namespace Parley

/-- The texts of tokens, as far as they are known. -/
abbrev Spelling := TokenId → Option String

/-! ## Section 1: What a vocabulary tells -/

namespace Vocabulary

open Step

variable {σ α β : Type} {engine : Engine σ}

/-- Whatever the vocabulary knows, the spelling has as well. -/
def Agrees (vocab : Vocabulary σ) (spelling : Spelling) : Prop :=
  ∀ token piece, vocab.known? token = some piece → spelling token = some piece

theorem agrees_known (vocab : Vocabulary σ) : vocab.Agrees vocab.known? := fun _ _ h => h

theorem Agrees.of_extends {before later : Vocabulary σ} {spelling : Spelling}
    (h : later.Agrees spelling) (hextends : before.Extends later) : before.Agrees spelling :=
  fun token piece hknown => h token piece (hextends.known hknown)

/-- **What a step tells.**  If the step succeeds on a coherent vocabulary, then `post` holds of its
    result and of whatever is known from then on. -/
def Tells (step : VocabularyM σ α) (post : Spelling → α → Prop) : Prop :=
  ∀ vocab value later, vocab.Coherent → step vocab = .ok value later →
    vocab.Learns later ∧ ∀ spelling, later.Agrees spelling → post spelling value

theorem tells_pure {post : Spelling → α → Prop} {value : α} (h : ∀ spelling, post spelling value) :
    Tells (σ := σ) (pure value) post := by
  intro vocab result later _ hstep
  cases hstep
  exact ⟨.refl vocab, fun spelling _ => h spelling⟩

theorem Tells.bind {step : VocabularyM σ α} {next : α → VocabularyM σ β}
    {first : Spelling → α → Prop} {post : Spelling → β → Prop} (h : Tells step first)
    (hnext : ∀ value, Tells (next value) fun spelling result =>
      first spelling value → post spelling result) :
    Tells (step >>= next) post := by
  intro vocab result last hcoherent hstep
  obtain ⟨value, later, hfirst, hstep⟩ := bind_eq_ok hstep
  obtain ⟨hlearns, htold⟩ := h vocab value later hcoherent hfirst
  obtain ⟨hmore, hlast⟩ := hnext value later result last (hlearns.coherent hcoherent) hstep
  -- what was told first is still known at the end
  refine ⟨hlearns.trans hmore, fun spelling hagrees => hlast spelling hagrees ?_⟩
  exact htold spelling (hagrees.of_extends hmore.grown)

theorem tells_piece (token : TokenId) :
    Tells (piece engine token false) fun spelling text => spelling token = some text := by
  intro vocab text later _ hstep
  refine ⟨(keeps_piece engine token false vocab).of_ok hstep, fun spelling hagrees => ?_⟩
  exact hagrees token text (known_of_piece hstep)

theorem tells_singleToken (text : String) :
    Tells (singleToken engine text) fun spelling found =>
      ∀ token, found = some token → spelling token = some text := by
  intro vocab found later hcoherent hstep
  refine ⟨(keeps_singleToken engine text vocab).of_ok hstep, ?_⟩
  rintro spelling hagrees token rfl
  exact hagrees token text (known_of_singleToken hcoherent hstep)

theorem tells_tokenClasses :
    Tells (tokenClasses engine) fun spelling classes =>
      ∃ pieces, classes = TokenClasses.scan pieces
        ∧ ∀ token piece, (token, piece) ∈ pieces → spelling token = some piece := by
  intro vocab classes later hcoherent hstep
  refine ⟨(keeps_tokenClasses engine vocab).of_ok hstep, fun spelling hagrees => ?_⟩
  obtain ⟨pieces, hscan, hpieces⟩ := known_of_tokenClasses hcoherent hstep
  exact ⟨pieces, hscan, fun token piece hmem => hagrees token piece (hpieces token piece hmem)⟩

end Vocabulary

theorem TokenClasses.mem_select {keep : String → Bool} {pieces : List (TokenId × String)}
    {token : TokenId} : token ∈ select keep pieces
      ↔ ∃ piece, (token, piece) ∈ pieces ∧ piece ≠ "" ∧ keep piece = true := by
  unfold select
  simp

/-! ## Section 2: Palettes -/

/-- A text of which strings may consist. -/
def IsBody (piece : String) : Prop := piece ≠ "" ∧ ∀ c ∈ piece.toList, isStringChar c = true

/-- A text of digits. -/
def IsDigits (piece : String) : Prop := piece ≠ "" ∧ ∀ c ∈ piece.toList, c.isDigit = true

namespace Palette

/-- The single tokens, if there are any, with the texts that they are used for. -/
def marks (palette : Palette) : List (Option TokenId × String) :=
  [(palette.quote, "\""), (palette.comma, ","), (palette.openBrace, "\x7b"),
    (palette.closeBrace, "\x7d"), (palette.openBracket, "["), (palette.closeBracket, "]"),
    (palette.minus, "-"), (palette.dot, "."), (palette.null, "null"), (palette.yes, "true"),
    (palette.no, "false")]

/-- **The tokens say what they are used for.**  Single tokens have their texts, and those of a class
    have texts of that class. -/
structure Spelled (palette : Palette) (spelling : Spelling) : Prop where
  marks : ∀ mark ∈ palette.marks, ∀ token, mark.1 = some token → spelling token = some mark.2
  sorted : palette.stringBody.Increasing
  body : ∀ token ∈ palette.stringBody, ∃ piece, spelling token = some piece ∧ IsBody piece
  opening : ∀ token ∈ palette.stringOpen, token ∈ palette.stringBody
    ∧ ∃ piece, spelling token = some piece ∧ TokenClasses.isNonblank piece = true
  digits : ∀ digit ∈ palette.digits, ∃ token piece, spelling token = some piece ∧ IsDigits piece
    ∧ digit = .ofPiece token piece

/-- A single token is read as the text that it is used for. -/
theorem Spelled.read {palette : Palette} {spelling : Spelling} (h : palette.Spelled spelling)
    (mark : Option TokenId) (text : String) (hmark : (mark, text) ∈ palette.marks) {token : TokenId}
    (htoken : mark = some token) {piece : String}
    (hread : ∀ known, spelling token = some known → piece = known) : piece = text :=
  hread text (h.marks (mark, text) hmark token htoken)

open Vocabulary

variable {σ : Type}

theorem tells_learnDigits (engine : Engine σ) (tokens : List TokenId) :
    Tells (learnDigits engine tokens) fun spelling digits =>
      ∀ digit ∈ digits, ∃ token ∈ tokens, ∃ piece, spelling token = some piece
        ∧ digit = .ofPiece token piece := by
  induction tokens with
  | nil => exact tells_pure fun spelling digit hmem => nomatch hmem
  | cons token rest ih =>
    unfold learnDigits
    refine (tells_piece token).bind fun piece => ih.bind fun digits => tells_pure ?_
    intro spelling hdigits hpiece digit hmem
    rcases List.mem_cons.mp hmem with rfl | hrest
    · exact ⟨token, List.mem_cons_self, piece, hpiece, rfl⟩
    · obtain ⟨other, hother, hdigit⟩ := hdigits digit hrest
      exact ⟨other, List.mem_cons_of_mem _ hother, hdigit⟩

/-- **Palettes.**  Whatever the engine says, a palette that was learnt is spelled as it is used. -/
theorem tells_learn (engine : Engine σ) :
    Tells (learn engine) fun spelling palette => palette.Spelled spelling := by
  unfold learn
  -- eleven single tokens, then the classes, then the digits
  iterate 11 refine (tells_singleToken _).bind fun _ => ?_
  refine tells_tokenClasses.bind fun classes => (tells_learnDigits engine _).bind fun digits => ?_
  refine tells_pure fun spelling hdigits hclasses no yes null dot minus closeBracket openBracket
    closeBrace openBrace comma quote => ?_
  obtain ⟨pieces, rfl, hpieces⟩ := hclasses
  refine ⟨?_, TokenSet.ofList_increasing _, ?_, ?_, ?_⟩
  · -- each single token was looked up by its text
    simp only [marks, List.forall_mem_cons]
    exact ⟨quote, comma, openBrace, closeBrace, openBracket, closeBracket, minus, dot, null, yes,
      no, List.forall_mem_nil _⟩
  · -- the body of strings
    intro token hmem
    obtain ⟨piece, hpiece, hsome, hall⟩ := TokenClasses.mem_select.mp hmem
    exact ⟨piece, hpieces token piece hpiece, hsome, List.all_eq_true.mp hall⟩
  · -- a string begins with a token of its body
    intro token hmem
    obtain ⟨piece, hpiece, hsome, hall⟩ := TokenClasses.mem_select.mp hmem
    rw [Bool.and_eq_true] at hall
    exact ⟨TokenClasses.mem_select.mpr ⟨piece, hpiece, hsome, hall.1⟩, piece,
      hpieces token piece hpiece, hall.2⟩
  · -- digits
    intro digit hmem
    obtain ⟨token, htoken, piece, hspelled, hdigit⟩ := hdigits digit hmem
    obtain ⟨other, hother, hsome, hall⟩ := TokenClasses.mem_select.mp htoken
    -- the piece asked for is the one that was scanned
    have hsame : piece = other :=
      Option.some.inj (hspelled.symm.trans (hpieces token other hother))
    subst hsame
    exact ⟨token, piece, hspelled, ⟨hsome, List.all_eq_true.mp hall⟩, hdigit⟩

/-- What a vocabulary in use told of a palette is known once the palette is learnt. -/
theorem spelled_of_learn {engine : Engine σ} {vocab ready : Vocabulary σ} {palette : Palette}
    (hvocab : vocab.InUse engine) (hlearn : learn engine vocab = .ok palette ready) :
    palette.Spelled ready.known? :=
  (tells_learn engine vocab palette ready hvocab.coherent hlearn).2 _ ready.agrees_known

theorem keeps_learnDigits {engine : Engine σ} {lasts : Vocabulary σ → Vocabulary σ → Prop}
    (h : Lasting engine lasts) (tokens : List TokenId) (vocab : Vocabulary σ) :
    Step.Keeps lasts (learnDigits engine tokens) vocab := by
  induction tokens generalizing vocab with
  | nil => exact h.refl vocab
  | cons token rest ih =>
    unfold learnDigits
    refine (h.piece token false vocab).bind h.trans fun piece vocab => ?_
    exact (ih vocab).bind h.trans fun _ vocab => h.refl vocab

/-- What lasts in a vocabulary lasts while a palette is learnt. -/
theorem keeps_learn {engine : Engine σ} {lasts : Vocabulary σ → Vocabulary σ → Prop}
    (h : Lasting engine lasts) (vocab : Vocabulary σ) :
    Step.Keeps lasts (learn engine) vocab := by
  unfold learn
  iterate 11 refine (h.keeps_singleToken _ _).bind h.trans fun _ _ => ?_
  refine (h.keeps_tokenClasses _).bind h.trans fun classes _ => ?_
  exact (keeps_learnDigits h _ _).bind h.trans fun _ vocab => h.refl vocab

/-! ## Section 3: What may follow -/

variable {palette : Palette} {token : TokenId}

theorem mem_digitSet {atStart : Bool} {room : Nat} :
    token ∈ palette.digitSet atStart room ↔ ∃ digit ∈ palette.digits, digit.token = token
      ∧ digit.length ≤ room ∧ (atStart = true → digit.leadingZero = false) := by
  unfold digitSet
  simp only [TokenSet.mem_ofList, List.mem_map, List.mem_filter, Bool.and_eq_true,
    decide_eq_true_eq, Bool.not_eq_true', Bool.and_eq_false_imp]
  grind

theorem digitSet_increasing (palette : Palette) (atStart : Bool) (room : Nat) :
    (palette.digitSet atStart room).Increasing := TokenSet.ofList_increasing _

theorem mem_withOption {set : TokenSet} (h : set.Increasing) {more : Option TokenId} :
    token ∈ withOption set more ↔ more = some token ∨ token ∈ set := by
  cases more with
  | none => simp [withOption]
  | some other =>
    rw [withOption, TokenSet.mem_insert h]
    simp [eq_comm]

theorem terminators_increasing (palette : Palette) : palette.terminators.Increasing :=
  TokenSet.ofOptions_increasing _

theorem mem_stringClosable {spelling : Spelling} (h : palette.Spelled spelling) :
    token ∈ palette.stringClosable ↔ token ∈ palette.stringBody ∨ palette.quote = some token := by
  unfold stringClosable
  rw [TokenSet.mem_union h.sorted, TokenSet.mem_ofOptions]
  simp [eq_comm]

theorem mem_booleans :
    token ∈ palette.booleans ↔ palette.yes = some token ∨ palette.no = some token := by
  unfold booleans
  rw [TokenSet.mem_ofOptions]
  simp [eq_comm]

theorem mem_itemEnds :
    token ∈ palette.itemEnds ↔ palette.comma = some token ∨ palette.closeBracket = some token := by
  unfold itemEnds
  rw [TokenSet.mem_ofOptions]
  simp [eq_comm]

end Palette

end Parley
