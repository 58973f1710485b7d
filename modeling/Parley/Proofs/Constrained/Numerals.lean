import Parley.Proofs.Constrained.Choices

/-! # The numbers that can be written

    Whatever is chosen, a number is one of its kind within its limit, and an integer fits into 64
    bits.  And no number of the kind is out of reach: if every digit, the sign and the point have
    tokens of their own, and there is one to end a number with, then each is written character by
    character, up to the last byte of the limit.
-/

namespace Parley

open Step Json

/-! ## Section 1: The characters of a number -/

/-- Where the first of two texts may be cut before a character. -/
theorem append_eq_append_cons {α : Type} {first second text rest : List α} {c : α}
    (h : first ++ second = text ++ c :: rest) :
    (∃ more, first = text ++ c :: more) ∨
      ∃ start, text = first ++ start ∧ second = start ++ c :: rest := by
  rcases List.append_eq_append_iff.mp h with hlater | ⟨more, hfirst, hmore⟩
  · exact .inr hlater
  · cases more with
    | nil => exact .inr ⟨[], by simpa using hfirst.symm, hmore.symm⟩
    | cons first others =>
      cases hmore
      exact .inl ⟨others, hfirst⟩

namespace Json.Written

/-- The bytes of a number are its characters. -/
theorem byteLength_text {written : Written} (h : written.Valid) :
    Text.byteLength written.text = written.text.length := by
  have hsign : Text.byteLength (if written.negative then ['-'] else [])
      = (if written.negative then ['-'] else []).length := by
    cases written.negative <;> rfl
  have hfraction : Text.byteLength written.fractionText = written.fractionText.length := by
    unfold fractionText
    cases hsome : written.fraction with
    | none => rfl
    | some digits =>
      show 1 + Text.byteLength digits = digits.length + 1
      rw [byteLength_digits (h.fraction digits hsome).2, Nat.add_comm]
  unfold text
  rw [Text.byteLength_append, Text.byteLength_append, List.length_append, List.length_append,
    hsign, hfraction, byteLength_digits h.whole.digits]

/-- **Cutting a number** before a character: the sign, a digit, the point, or a digit behind it. -/
inductive Cut (written : Written) : (text : List Char) → (c : Char) → Prop
  | sign (h : written.negative = true) : Cut written [] '-'
  | whole {start more : List Char} {c : Char} (h : written.whole = start ++ c :: more) :
    Cut written (text ⟨written.negative, start, none⟩) c
  | point {digits : List Char} (h : written.fraction = some digits) :
    Cut written (text ⟨written.negative, written.whole, none⟩) '.'
  | fraction {start more : List Char} {c : Char}
    (h : written.fraction = some (start ++ c :: more)) :
    Cut written (text ⟨written.negative, written.whole, some start⟩) c

theorem cut_of_append {written : Written} {start rest : List Char} {c : Char}
    (h : written.text = start ++ c :: rest) : written.Cut start c := by
  unfold text at h
  rcases append_eq_append_cons h with ⟨more, hsign⟩ | ⟨body, rfl, hbody⟩
  · cases hnegative : written.negative with
    | false =>
      rw [hnegative] at hsign
      simp at hsign
    | true =>
      rw [hnegative] at hsign
      cases start with
      | nil =>
        cases hsign
        exact .sign hnegative
      | cons first others => simp at hsign
  rcases append_eq_append_cons hbody with ⟨more, hwhole⟩ | ⟨later, rfl, hlater⟩
  · have hcut : written.Cut (text ⟨written.negative, body, none⟩) c := .whole hwhole
    rwa [text, fractionText, List.append_nil] at hcut
  · unfold fractionText at hlater
    cases hfraction : written.fraction with
    | none =>
      rw [hfraction] at hlater
      simp at hlater
    | some digits =>
      rw [hfraction] at hlater
      cases later with
      | nil =>
        cases hlater
        exact .point hfraction
      | cons first others =>
        cases hlater
        exact .fraction hfraction

end Json.Written

/-- Digits with more digits behind them do not begin with a zero. -/
theorem Json.IsWhole.start {start more : List Char} {c : Char} (h : IsWhole (start ++ c :: more))
    (hsome : start ≠ []) : IsWhole start ∧ start ≠ ['0'] := by
  have hhead : start.head? ≠ some '0' := by
    rcases h.leading with hsame | hhead
    · have hlength := congrArg List.length hsame
      have hpos := List.length_pos_iff.mpr hsome
      rw [List.length_append, List.length_cons, List.length_singleton] at hlength
      omega
    · rwa [List.head?_append_of_ne_nil _ hsome] at hhead
  refine ⟨⟨fun c hmem => h.digits c (List.mem_append_left _ hmem), hsome, .inr hhead⟩, ?_⟩
  rintro rfl
  exact hhead rfl

/-! ## Section 2: Tokens of single characters -/

/-- **A palette to count with.**  Every digit has a token of its own, and so have the sign, the
    point and something that ends a number. -/
structure Palette.Counts (palette : Palette) (spelling : Spelling) : Prop where
  digits : ∀ c : Char, c.isDigit = true →
    ∃ digit ∈ palette.digits, spelling digit.token = some (String.singleton c)
  minus : palette.minus.isSome = true
  dot : palette.dot.isSome = true
  ending : palette.comma.isSome = true ∨ palette.closeBrace.isSome = true
    ∨ palette.closeBracket.isSome = true

namespace Palette

variable {palette : Palette} {spelling : Spelling} {token : TokenId} {real : Bool} {cap room : Nat}
  {c : Char}

theorem mem_terminators : token ∈ palette.terminators ↔ palette.comma = some token
    ∨ palette.closeBrace = some token ∨ palette.closeBracket = some token := by
  unfold terminators
  rw [TokenSet.mem_ofOptions]
  simp [eq_comm]

theorem Counts.terminator (hcounts : palette.Counts spelling) :
    ∃ token, token ∈ palette.terminators := by
  have h := hcounts.ending
  simp only [mem_terminators]
  simp only [Option.isSome_iff_exists] at h
  rcases h with ⟨token, htoken⟩ | ⟨token, htoken⟩ | ⟨token, htoken⟩
  · exact ⟨token, .inl htoken⟩
  · exact ⟨token, .inr (.inl htoken)⟩
  · exact ⟨token, .inr (.inr htoken)⟩

theorem digit_not_ending (h : c.isDigit = true) : c ∉ [',', '\x7d', ']'] := by
  simp only [List.mem_cons, List.not_mem_nil, or_false, not_or]
  refine ⟨?_, ?_, ?_⟩ <;> rintro rfl <;> contradiction

/-- Behind a whole number there may follow something that ends it. -/
theorem ending_mem_next {written : Written} (hvalid : written.Valid)
    (hmem : token ∈ palette.terminators) : token ∈ palette.numberNext real cap written.text := by
  obtain ⟨negative, whole, fraction⟩ := written
  cases fraction with
  | none =>
    by_cases hzero : whole = ['0']
    · subst hzero
      exact mem_next_zero.mpr (.inl hmem)
    · exact (mem_next_whole hvalid.whole hzero).mpr (.inr (.inl hmem))
  | some digits =>
    obtain ⟨hsome, hdigits⟩ := hvalid.fraction digits rfl
    exact (mem_next_fraction hvalid.whole hsome hdigits).mpr (.inr hmem)

section Spelled

variable (hpalette : palette.Spelled spelling)
include hpalette

/-- What ends a number is a comma or closes something. -/
theorem text_of_terminator (h : token ∈ palette.terminators) :
    ∃ c ∈ [',', '\x7d', ']'], spelling token = some (String.singleton c) := by
  rcases mem_terminators.mp h with hsome | hsome | hsome
  · exact ⟨',', by simp, hpalette.marks (palette.comma, ",") (by simp [marks]) token hsome⟩
  · exact ⟨'\x7d', by simp,
      hpalette.marks (palette.closeBrace, "\x7d") (by simp [marks]) token hsome⟩
  · exact ⟨']', by simp, hpalette.marks (palette.closeBracket, "]") (by simp [marks]) token hsome⟩

theorem not_mem_terminators (htoken : spelling token = some (String.singleton c))
    (hc : c ∉ [',', '\x7d', ']']) : token ∉ palette.terminators := by
  intro hmem
  obtain ⟨mark, hmark, hspelled⟩ := text_of_terminator hpalette hmem
  have hsame := Option.some.inj (htoken.symm.trans hspelled)
  have hchars : c = mark := by simpa using congrArg String.toList hsame
  exact hc (hchars ▸ hmark)

/-- Where there is room, a digit has a token, and it may begin a number. -/
theorem Counts.digit_token (hcounts : palette.Counts spelling) (hdigit : c.isDigit = true)
    (atStart : Bool) (room : Nat) (hroom : 1 ≤ room) :
    ∃ token, spelling token = some (String.singleton c) ∧ token ∈ palette.digitSet atStart room
      ∧ token ∉ palette.terminators ∧ (c ≠ '0' → palette.isZero token = false) := by
  obtain ⟨digit, hmem, hspelled⟩ := hcounts.digits c hdigit
  have hof : ∀ other ∈ palette.digits, other.token = digit.token →
      other = .ofPiece digit.token (String.singleton c) := by
    intro other hother hsame
    obtain ⟨token, piece, hpiece, -, rfl⟩ := hpalette.digits other hother
    cases hsame
    rw [Option.some.inj (hpiece.symm.trans hspelled)]
  have hdigit_eq := hof digit hmem rfl
  refine ⟨digit.token, hspelled, mem_digitSet.mpr ⟨digit, hmem, rfl, ?_, fun _ => ?_⟩,
    not_mem_terminators hpalette hspelled (digit_not_ending hdigit), fun hc => ?_⟩
  · rw [hdigit_eq]
    simpa [DigitToken.ofPiece] using hroom
  · rw [hdigit_eq]
    by_cases hzero : c = '0'
    · subst hzero
      rfl
    · simp [DigitToken.ofPiece, hzero]
  · refine List.any_eq_false.mpr fun other hother => ?_
    by_cases hsame : other.token = digit.token
    · rw [hof other hother hsame]
      have hother_zero : String.singleton c ≠ "0" := fun hsame =>
        hc (by simpa using congrArg String.toList hsame)
      simp [DigitToken.ofPiece, hother_zero]
    · simp [hsame]

/-- The first digit stands behind the sign, or begins the number. -/
theorem Counts.first_digit (hcounts : palette.Counts spelling) {written : Written}
    (hfits : written.Fits real cap) {more : List Char} (hwritten : written.whole = c :: more)
    (hroom : Text.byteLength (Written.text ⟨written.negative, [], none⟩) + 1 ≤ cap) :
    ∃ token, spelling token = some (String.singleton c)
      ∧ token ∈ palette.numberNext real cap (Written.text ⟨written.negative, [], none⟩)
      ∧ token ∉ palette.terminators := by
  have hwhole := hfits.valid.whole
  have hdigit : c.isDigit = true := hwhole.digits c (hwritten ▸ List.mem_cons_self)
  cases hnegative : written.negative with
  | false =>
    rw [hnegative] at hroom
    obtain ⟨token, hspelled, hmem, hnot, -⟩ :=
      hcounts.digit_token hpalette hdigit true cap (by omega)
    exact ⟨token, hspelled, mem_next_empty.mpr (.inr hmem), hnot⟩
  | true =>
    rw [hnegative] at hroom
    obtain ⟨token, hspelled, hmem, hnot, hzero⟩ :=
      hcounts.digit_token hpalette hdigit true (cap - 1) (Nat.le_sub_of_add_le hroom)
    refine ⟨token, hspelled, mem_next_sign.mpr ⟨hmem, fun hreal => hzero ?_⟩, hnot⟩
    -- an integer with a sign does not begin with a zero
    rintro rfl
    rcases hwhole.leading with hsame | hhead
    · exact (hfits.integer hreal).2 hnegative hsame
    · exact hhead (by rw [hwritten]; rfl)

/-- **The next character of a number** has a token, which may follow and does not end the
    number. -/
theorem Counts.next (hcounts : palette.Counts spelling) {written : Written}
    (hfits : written.Fits real cap) {text rest : List Char}
    (hsplit : written.text = text ++ c :: rest) :
    ∃ token, spelling token = some (String.singleton c) ∧ token ∈ palette.numberNext real cap text
      ∧ token ∉ palette.terminators := by
  have hwhole := hfits.valid.whole
  have hroom : Text.byteLength text + 1 + Text.byteLength rest ≤ cap := by
    have hbytes := Written.byteLength_text hfits.valid
    have hsize := Char.utf8Size_pos c
    have hlength := hfits.length
    rw [← hbytes, hsplit, Text.byteLength_append, Text.byteLength_cons] at hlength
    omega
  cases Written.cut_of_append hsplit with
  | sign h =>
    obtain ⟨token, htoken⟩ := Option.isSome_iff_exists.mp hcounts.minus
    have hspelled : spelling token = some (String.singleton '-') :=
      hpalette.marks (palette.minus, "-") (by simp [marks]) token htoken
    exact ⟨token, hspelled, mem_next_empty.mpr (.inl htoken),
      not_mem_terminators hpalette hspelled (by decide)⟩
  | @whole start more _ h =>
    have hdigit : c.isDigit = true :=
      hwhole.digits c (h ▸ List.mem_append_right start List.mem_cons_self)
    by_cases hsome : start = []
    · subst hsome
      exact hcounts.first_digit hpalette hfits h (by omega)
    obtain ⟨hstart, hzero⟩ := (h ▸ hwhole).start hsome
    obtain ⟨token, hspelled, hmem, hnot, -⟩ := hcounts.digit_token hpalette hdigit false
      (cap - Text.byteLength (Written.text ⟨written.negative, start, none⟩)) (by omega)
    exact ⟨token, hspelled, (mem_next_whole hstart hzero).mpr (.inl hmem), hnot⟩
  | @point digits h =>
    obtain ⟨token, htoken⟩ := Option.isSome_iff_exists.mp hcounts.dot
    have hspelled : spelling token = some (String.singleton '.') :=
      hpalette.marks (palette.dot, ".") (by simp [marks]) token htoken
    refine ⟨token, hspelled, ?_, not_mem_terminators hpalette hspelled (by decide)⟩
    have hreal : real = true := by
      by_contra hinteger
      have hnone := (hfits.integer (eq_false_of_ne_true hinteger)).1
      rw [hnone] at h
      contradiction
    by_cases hzero : written.whole = ['0']
    · rw [hzero]
      exact mem_next_zero.mpr (.inr ⟨hreal, htoken⟩)
    · refine (mem_next_whole hwhole hzero).mpr (.inr (.inr ⟨hreal, htoken, ?_⟩))
      -- there are digits behind the point
      have htext : written.text
          = Written.text ⟨written.negative, written.whole, none⟩ ++ '.' :: digits := by
        simp [Written.text, Written.fractionText, h]
      have hrest : rest = digits := List.tail_eq_of_cons_eq
        (List.append_cancel_left (hsplit.symm.trans htext))
      have hsome := List.length_pos_iff.mpr (hfits.valid.fraction digits h).1
      have hbytes := length_le_byteLength digits
      rw [hrest] at hroom
      omega
  | @fraction start more _ h =>
    have hdigits := (hfits.valid.fraction _ h).2
    rw [List.forall_mem_append, List.forall_mem_cons] at hdigits
    obtain ⟨token, hspelled, hmem, hnot, -⟩ := hcounts.digit_token hpalette hdigits.2.1 false
      (cap - Text.byteLength (Written.text ⟨written.negative, written.whole, some start⟩))
      (by omega)
    refine ⟨token, hspelled, ?_, hnot⟩
    by_cases hsome : start = []
    · subst hsome
      exact (mem_next_point hwhole).mpr hmem
    · exact (mem_next_fraction hwhole hsome hdigits.1).mpr (.inl hmem)

end Spelled

end Palette

/-! ## Section 3: Writing every number -/

/-- The last character of a number is a digit. -/
theorem Json.Written.getLast?_text {written : Written} (h : written.Valid) :
    written.text.getLast? ≠ some '.' := by
  unfold text fractionText
  cases hfraction : written.fraction with
  | none =>
    rw [List.append_nil]
    exact getLast?_append_digits _ h.whole.nonempty h.whole.digits
  | some digits =>
    obtain ⟨hsome, hdigits⟩ := h.fraction digits hfraction
    rw [List.append_cons written.whole, ← List.append_assoc]
    exact getLast?_append_digits _ hsome hdigits

namespace Writer

variable {ε s : Type} {inv : s → Prop} {fails : ε → Prop} {hand : Hand ε s} {palette : Palette}
  {spelling : Spelling} {real : Bool} {cap : Nat}

/-- A number that is complete is left, for want of room or by what ends it. -/
theorem performs_numberBody_end (hcounts : palette.Counts spelling) {written : Written}
    (hfits : written.Fits real cap) :
    ∃ choices, ∀ plan fuel, cap ≤ fuel + Text.byteLength written.text →
      Performs inv fails plan (numberBody (hand.planned plan) palette real cap fuel written.text)
        choices [] fun text => text = written.text := by
  by_cases hfull : cap ≤ Text.byteLength written.text
  · refine ⟨[], fun plan fuel _ => ?_⟩
    cases fuel with
    | zero => exact performs_pure rfl
    | succ fuel =>
      unfold numberBody
      rw [if_pos hfull]
      exact performs_pure rfl
  · obtain ⟨token, hending⟩ := hcounts.terminator
    refine ⟨[token], fun plan fuel hfuel => ?_⟩
    cases fuel with
    | zero => omega
    | succ fuel =>
      unfold numberBody
      rw [if_neg hfull]
      have hnext : token ∈ palette.numberNext real cap written.text :=
        Palette.ending_mem_next hfits.valid hending
      refine (performs_choose hnext).bind fun chosen hchosen => ?_
      subst hchosen
      have hcontains := (Palette.terminators_increasing palette).contains_iff.mpr hending
      simp only [hcontains, if_true]
      exact performs_pure rfl

section Laws

variable (hhand : hand.Spells inv spelling) (hfails : hand.FailsBy fails)
  (hpalette : palette.Spelled spelling) (hcounts : palette.Counts spelling)
include hhand hfails hpalette hcounts

/-- **A number is written character by character**, from wherever it is. -/
theorem performs_numberBody {written : Written} (hfits : written.Fits real cap)
    (rest text : List Char) (hsplit : written.text = text ++ rest) :
    ∃ choices, ∀ plan fuel, cap ≤ fuel + Text.byteLength text →
      Performs inv fails plan (numberBody (hand.planned plan) palette real cap fuel text)
        choices rest fun result => result = written.text := by
  induction rest generalizing text with
  | nil =>
    rw [List.append_nil] at hsplit
    exact hsplit ▸ performs_numberBody_end hcounts hfits
  | cons c rest ih =>
    obtain ⟨token, hspelled, hnext, hnot⟩ := hcounts.next hpalette hfits hsplit
    obtain ⟨choices, hrest⟩ := ih (text ++ [c]) (by simpa using hsplit)
    have hbytes := Written.byteLength_text hfits.valid
    have hlength := hfits.length
    have hsize := Char.utf8Size_pos c
    rw [← hbytes, hsplit, Text.byteLength_append, Text.byteLength_cons] at hlength
    refine ⟨token :: choices, fun plan fuel hfuel => ?_⟩
    cases fuel with
    | zero => omega
    | succ fuel =>
      unfold numberBody
      rw [if_neg (by omega)]
      refine (performs_choose hnext).bind fun chosen hchosen => ?_
      subst hchosen
      have hmore : palette.terminators.contains token = false := by
        rwa [← Bool.not_eq_true, (Palette.terminators_increasing palette).contains_iff]
      simp only [hmore, Bool.false_eq_true, if_false]
      have hafter : cap ≤ fuel + Text.byteLength (text ++ [c]) := by
        rw [Text.byteLength_append]
        show cap ≤ fuel + (Text.byteLength text + (c.utf8Size + 0))
        omega
      refine (performs_take_char hhand hfails hspelled).bind fun piece hpiece => ?_
      rw [hpiece]
      exact hrest plan fuel hafter

/-- **Every number** of the kind, within the limit, is written by some plan. -/
theorem canWrite_number (real : Bool) {written : Written}
    (hfits : written.Fits real (if real then maxNumberChars else maxIntegerChars)) :
    hand.CanWrite inv fails (fun hand => number hand palette real) written.text := by
  obtain ⟨choices, hbody⟩ := performs_numberBody hhand hfails hpalette hcounts hfits
    written.text [] rfl
  refine ⟨choices, ?_⟩
  unfold number
  refine (performs_patience _).then fun fuel hfuel => ?_
  refine (hbody choices fuel hfuel).done fun text htext => ?_
  subst htext
  -- a number needs no completion
  have hwhole := hfits.valid.whole
  rw [numberCompletion_of_last (Written.text_ne_nil hwhole) (Written.text_ne_sign hwhole)
    (Written.getLast?_text hfits.valid)]
  exact performs_pure trivial

end Laws

/-- **The numbers that are written** are those of the grammar: whatever is chosen, an integer is an
    integer literal of at most 19 characters, which fits into 64 bits, and a number is a decimal
    literal of at most 32; and with the tokens to count with, each of them is written by some
    plan. -/
theorem numbers_written {σ : Type} {engine : Engine σ} {vocab ready : Vocabulary σ}
    (hvocab : vocab.InUse engine) (hlearn : Palette.learn engine vocab = .ok palette ready)
    (hhand : hand.Spells inv ready.known?) (real : Bool) :
    Writes inv (number hand.noted palette real) (fun _ deed => ∃ written : Written,
        written.Fits real (if real then maxNumberChars else maxIntegerChars)
          ∧ deed.text = written.text
          ∧ (real = false → ∃ value : Int, written.numeral.number = .ok (.integer value)
            ∧ -2 ^ 63 ≤ value ∧ value < 2 ^ 64))
      ∧ ∀ fails, hand.FailsBy fails →
        Fails (number hand palette real) fails
          ∧ (palette.Counts ready.known? → ∀ written : Written,
            written.Fits real (if real then maxNumberChars else maxIntegerChars) →
              hand.CanWrite inv fails (fun hand => number hand palette real) written.text) := by
  have hpalette := Palette.spelled_of_learn hvocab hlearn
  refine ⟨(writes_number hhand hpalette real).mono ?_, fun fails hfails => ?_⟩
  · rintro _ deed ⟨written, hfits, htext⟩
    refine ⟨written, hfits, htext, fun hreal => ?_⟩
    subst hreal
    obtain ⟨hnone, hsign⟩ := hfits.integer rfl
    exact Written.integer_number hfits.valid hnone hfits.length hsign
  · exact ⟨hfails.together.number real, fun hcounts written hfits =>
      canWrite_number hhand hfails hpalette hcounts real hfits⟩

/-- An engine with a token for each digit, and with one of two digits. -/
def counting : Tabulated where
  pieces := ["0", "1", "2", "3", "4", "5", "6", "7", "8", "9", "10"].map String.toList
    ++ Session.affirming.pieces

/-- A statement about a digit holds of every digit. -/
theorem forall_isDigit {p : Char → Prop} (h : ∀ n < 10, p (Char.ofNat (48 + n))) (c : Char)
    (hdigit : c.isDigit = true) : p c := by
  have hrange := Char.isDigit_iff_toNat.mp hdigit
  have hzero : '0'.toNat = 48 := rfl
  have hnine : '9'.toNat = 57 := rfl
  have hp := h (c.toNat - 48) (by omega)
  rwa [show 48 + (c.toNat - 48) = c.toNat by omega, Char.ofNat_toNat] at hp

/-- The longest integer of nines. -/
def nines : Json.Written where
  negative := false
  whole := List.replicate 19 '9'

theorem nines_fits : nines.Fits false maxIntegerChars where
  valid := by
    have hdigits : ∀ c ∈ nines.whole, c.isDigit = true := fun c hc => by
      rw [List.eq_of_mem_replicate hc]
      rfl
    exact ⟨⟨hdigits, List.cons_ne_nil _ _, by decide⟩, fun _ h => nomatch h⟩
  length := by decide
  integer := by decide

/-- Whether the palette is one to count with, by the tokens that the vocabulary knows. -/
def isCounting (palette : Palette) (vocab : Vocabulary Tabulated) : Bool :=
  (∀ n : Nat, n < 10 → ∃ digit ∈ palette.digits,
      vocab.known? digit.token = some (String.singleton (Char.ofNat (48 + n))))
    ∧ palette.minus.isSome ∧ palette.dot.isSome ∧ palette.comma.isSome

/-- An integer of 19 nines, which is past the range of signed integers, is still within reach. -/
theorem numbers_written_counting :
    let vocab : Vocabulary Tabulated := { engine := counting }
    vocab.InUse Tabulated.engine ∧ nines.Fits false maxIntegerChars
      ∧ ∃ palette ready, Palette.learn Tabulated.engine vocab = .ok palette ready
        ∧ palette.Counts ready.known?
        ∧ (Session.hand Tabulated.engine).CanWrite (Session.Knows ready.known?) Session.OfSession
          (fun hand => number hand palette false) nines.text := by
  intro vocab
  have hvocab : vocab.InUse Tabulated.engine := .new _ _
  obtain ⟨palette, ready, hlearn, hcheck⟩ := exists_ok (Palette.learn Tabulated.engine) vocab
    isCounting (by decide +kernel)
  obtain ⟨hdigits, hminus, hdot, hcomma⟩ := of_decide_eq_true hcheck
  have hcounts : palette.Counts ready.known? :=
    ⟨forall_isDigit hdigits, hminus, hdot, .inl hcomma⟩
  obtain ⟨-, hwritten⟩ :=
    numbers_written hvocab hlearn (Session.hand_spells Tabulated.engine ready.known?) false
  exact ⟨hvocab, nines_fits, palette, ready, hlearn, hcounts,
    (hwritten _ (Session.hand_failsBy _)).2 hcounts nines nines_fits⟩

end Writer

end Parley
