import Mathlib.Data.List.TakeDrop
import Mathlib.Tactic.Linarith
import Mathlib.Tactic.Ring
import Parley.Json.Parser
import Parley.Json.Printer
import Parley.Proofs.Step

/-! # Texts that the parser reads

    Which text is read as which value, built up from its parts: a text that is put together from
    texts of values, in the way that JSON puts them together, is the text of the value put together
    from those values.  Nothing is said about what the parser refuses.

    A text of a value is read in any place where values stand: `Json.Reads`.  The parser takes its
    fuel from the length of the text, and the laws show that it is enough at every step.
-/

namespace Parley.Json

/-! ## Section 1: Strings -/

/-- A character that stands for itself inside quotes. -/
def IsPlain (c : Char) : Prop := c ≠ '"' ∧ c ≠ '\\' ∧ 0x20 ≤ c.toNat

theorem readString_plain_cons {c : Char} (h : IsPlain c) (rest : List Char) :
    readString (c :: rest)
      = (readString rest).map fun (glyphs, rest) => (.char c :: glyphs, rest) := by
  obtain ⟨hquote, hbackslash, hcontrol⟩ := h
  have hprintable : ¬ c.toNat < 0x20 := by omega
  rw [readString, if_neg hprintable]
  · exact fun h => hquote h
  · intro a b c d rest h
    exact absurd h hbackslash
  · intro _ _ h
    exact absurd h hbackslash

/-- A body of plain characters is read as it stands. -/
theorem readString_plain {body : List Char} (h : ∀ c ∈ body, IsPlain c) (rest : List Char) :
    readString (body ++ '"' :: rest) = .ok (body.map .char, rest) := by
  induction body with
  | nil => rw [List.nil_append, readString]; rfl
  | cons c body ih =>
    rw [List.cons_append, readString_plain_cons (h c List.mem_cons_self),
      ih fun c hc => h c (List.mem_cons_of_mem _ hc)]
    rfl

theorem decodeGlyphs_chars (text : List Char) : decodeGlyphs (text.map .char) = .ok text := by
  induction text with
  | nil => rfl
  | cons c text ih =>
    rw [List.map_cons, decodeGlyphs, ih]
    rfl

/-- How a character is read that was written with `escape`. -/
def glyphOf (c : Char) : Glyph :=
  if c = '\n' ∨ c = '\r' ∨ c = '\t' ∨ c = '\x08' ∨ c = '\x0c' ∨ 0x20 ≤ c.toNat then .char c
  else .code c.toNat

theorem hexCode?_hexPair : ∀ code, code < 0x20 →
    hexCode? '0' '0' (Nat.digitChar (code / 16)) (Nat.digitChar (code % 16)) = some code := by
  decide

theorem readString_escape (c : Char) (rest : List Char) :
    readString (escape c ++ rest)
      = (readString rest).map fun (glyphs, rest) => (glyphOf c :: glyphs, rest) := by
  unfold escape
  -- the characters with an escape of their own
  by_cases hquote : c = '"'
  · subst hquote; rfl
  by_cases hbackslash : c = '\\'
  · subst hbackslash; rfl
  by_cases hnewline : c = '\n'
  · subst hnewline; rfl
  by_cases hreturn : c = '\r'
  · subst hreturn; rfl
  by_cases htab : c = '\t'
  · subst htab; rfl
  by_cases hbackspace : c = '\x08'
  · subst hbackspace; rfl
  by_cases hfeed : c = '\x0c'
  · subst hfeed; rfl
  rw [if_neg hquote, if_neg hbackslash, if_neg hnewline, if_neg hreturn, if_neg htab,
    if_neg hbackspace, if_neg hfeed]
  by_cases hcontrol : c.toNat < 0x20
  · -- the others below the space are written by their code
    rw [if_pos hcontrol, hexPair, glyphOf, if_neg (by simp_all)]
    simp only [List.cons_append, List.nil_append]
    rw [readString, hexCode?_hexPair _ hcontrol]
  · have hplain : 0x20 ≤ c.toNat := by omega
    rw [if_neg hcontrol, glyphOf, if_pos (by simp [hplain])]
    exact readString_plain_cons ⟨hquote, hbackslash, hplain⟩ rest

/-- A code below the surrogates stands for its character, whatever follows. -/
theorem decodeGlyphs_code {code : Nat} (h : code < 0xd800) (rest : List Glyph) :
    decodeGlyphs (.code code :: rest) = (decodeGlyphs rest).map (Char.ofNat code :: ·) := by
  have hfirst : (decide (0xd800 ≤ code)) = false := by simp; omega
  have hsecond : (decide (0xdc00 ≤ code)) = false := by simp; omega
  rcases rest with _ | ⟨next | next, rest⟩
  · simp only [decodeGlyphs, hfirst]
    rfl
  · simp only [decodeGlyphs, hfirst]
    cases decodeGlyphs rest <;> rfl
  · rw [decodeGlyphs, hfirst, hsecond]
    cases decodeGlyphs (.code next :: rest) <;> rfl

theorem decodeGlyphs_glyphOf (text : List Char) : decodeGlyphs (text.map glyphOf) = .ok text := by
  induction text with
  | nil => rfl
  | cons c text ih =>
    rw [List.map_cons]
    by_cases hchar : c = '\n' ∨ c = '\r' ∨ c = '\t' ∨ c = '\x08' ∨ c = '\x0c' ∨ 0x20 ≤ c.toNat
    · rw [glyphOf, if_pos hchar, decodeGlyphs, ih]
      rfl
    · have hcontrol : c.toNat < 0xd800 := by
        simp only [not_or] at hchar
        omega
      rw [glyphOf, if_neg hchar, decodeGlyphs_code hcontrol, ih, Char.ofNat_toNat]
      rfl

/-- A quoted text is read as the text. -/
theorem readString_quote (text : String) (rest : List Char) :
    readString (text.toList.flatMap escape ++ '"' :: rest)
      = .ok (text.toList.map glyphOf, rest) := by
  induction text.toList with
  | nil => rfl
  | cons c text ih =>
    rw [List.flatMap_cons, List.append_assoc, readString_escape, ih]
    rfl

/-! ## Section 2: Numbers -/

/-- What follows a value inside a text: nothing, or the end of an item or member. -/
def Ends (rest : List Char) : Prop :=
  ∀ c later, rest = c :: later → c = ',' ∨ c = ']' ∨ c = '}'

/-- A text that does not go on with a digit. -/
def NoDigit (rest : List Char) : Prop := ∀ c later, rest = c :: later → c.isDigit = false

theorem Ends.noDigit {rest : List Char} (h : Ends rest) : NoDigit rest := by
  rintro c later rfl
  rcases h c later rfl with rfl | rfl | rfl <;> rfl

theorem readDigits_append {digits rest : List Char} (hdigits : ∀ c ∈ digits, c.isDigit = true)
    (hrest : NoDigit rest) : readDigits (digits ++ rest) = (digits, rest) := by
  -- the digits are taken as a whole, and none of what follows
  rw [readDigits, List.span_eq_takeWhile_dropWhile, List.takeWhile_append_of_pos hdigits,
    List.dropWhile_append_of_pos hdigits]
  rcases rest with _ | ⟨c, later⟩
  · simp
  · have hnot := hrest c later rfl
    simp [hnot]

/-- The digits before a point: a zero alone, or digits that do not start with one. -/
structure IsWhole (whole : List Char) : Prop where
  digits : ∀ c ∈ whole, c.isDigit = true
  nonempty : whole ≠ []
  leading : whole = ['0'] ∨ whole.head? ≠ some '0'

theorem readWhole_append {whole rest : List Char} (h : IsWhole whole) (hrest : NoDigit rest) :
    readWhole (whole ++ rest) = .ok (whole, rest) := by
  rw [readWhole, readDigits_append h.digits hrest]
  split
  · rename_i hdigits
    cases hdigits
    exact absurd rfl h.nonempty
  · -- several digits do not start with a zero
    rename_i hdigits
    cases hdigits
    rcases h.leading with hzero | hhead
    · cases hzero
    · exact absurd rfl hhead
  · rename_i hdigits
    cases hdigits
    rfl

/-- A number as it is written: a sign, digits before the point, and a point with digits behind. -/
structure Written where
  negative : Bool
  whole : List Char
  fraction : Option (List Char) := none

namespace Written

/-- The text of the point and the digits behind it. -/
def fractionText (written : Written) : List Char :=
  match written.fraction with
  | some digits => '.' :: digits
  | none => []

/-- The text of a number. -/
def text (written : Written) : List Char :=
  (if written.negative then ['-'] else []) ++ (written.whole ++ written.fractionText)

/-- The number as the parser takes it apart. -/
def numeral (written : Written) : Numeral where
  negative := written.negative
  whole := written.whole
  fraction := written.fraction

/-- The grammar of numbers. -/
structure Valid (written : Written) : Prop where
  whole : IsWhole written.whole
  fraction : ∀ digits, written.fraction = some digits →
    digits ≠ [] ∧ ∀ c ∈ digits, c.isDigit = true

theorem readFraction_append {written : Written} (h : written.Valid) {rest : List Char}
    (hrest : Ends rest) :
    readFraction (written.fractionText ++ rest) = .ok (written.fraction, rest) := by
  unfold fractionText
  cases hfraction : written.fraction with
  | some digits =>
    obtain ⟨hsome, hdigits⟩ := h.fraction digits hfraction
    show readFraction ('.' :: (digits ++ rest)) = _
    rw [readFraction, readDigits_append hdigits hrest.noDigit]
    rcases digits with _ | ⟨first, others⟩
    · contradiction
    · rfl
  | none =>
    -- what ends a value is not a point
    rw [List.nil_append]
    rcases rest with _ | ⟨c, later⟩
    · rfl
    · rcases hrest c later rfl with rfl | rfl | rfl <;> rfl

theorem readExponent_of_ends {rest : List Char} (hrest : Ends rest) :
    readExponent rest = .ok (none, rest) := by
  rcases rest with _ | ⟨c, later⟩
  · rfl
  · rcases hrest c later rfl with rfl | rfl | rfl <;> rfl

theorem noDigit_fractionText (written : Written) {rest : List Char} (hrest : Ends rest) :
    NoDigit (written.fractionText ++ rest) := by
  unfold fractionText
  cases written.fraction with
  | some digits =>
    rintro c later h
    cases h
    rfl
  | none => exact hrest.noDigit

theorem readMagnitude_append {written : Written} (h : written.Valid) {rest : List Char}
    (hrest : Ends rest) :
    readMagnitude written.negative (written.whole ++ written.fractionText ++ rest)
      = .ok (written.numeral, rest) := by
  rw [readMagnitude, List.append_assoc,
    readWhole_append h.whole (noDigit_fractionText written hrest)]
  simp only [Bind.bind, Except.bind, readFraction_append h hrest, readExponent_of_ends hrest]
  rfl

/-- A number begins with a sign or a digit. -/
theorem Valid.exists_cons {written : Written} (h : written.Valid) :
    ∃ c later, written.text = c :: later ∧ (c = '-' ∨ c.isDigit = true) := by
  unfold text
  cases written.negative with
  | true => exact ⟨'-', _, rfl, .inl rfl⟩
  | false =>
    obtain ⟨first, others, hwhole⟩ := List.exists_cons_of_ne_nil h.whole.nonempty
    refine ⟨first, others ++ written.fractionText, ?_, .inr ?_⟩
    · rw [hwhole]
      rfl
    · exact h.whole.digits first (hwhole ▸ List.mem_cons_self)

theorem readNumber_append {written : Written} (h : written.Valid) {rest : List Char}
    (hrest : Ends rest) : readNumber (written.text ++ rest) = .ok (written.numeral, rest) := by
  have hmagnitude := readMagnitude_append h hrest
  unfold text
  cases hnegative : written.negative with
  | true =>
    rw [hnegative] at hmagnitude
    exact hmagnitude
  | false =>
    rw [hnegative] at hmagnitude
    rw [if_neg Bool.false_ne_true, List.nil_append]
    -- a text that begins with a digit has no sign
    rw [readNumber]
    · exact hmagnitude
    · intro later hsign
      obtain ⟨first, others, hwhole⟩ := List.exists_cons_of_ne_nil h.whole.nonempty
      rw [hwhole, List.cons_append, List.cons_append, List.cons.injEq] at hsign
      have hdigit := h.whole.digits first (hwhole ▸ List.mem_cons_self)
      rw [hsign.1] at hdigit
      contradiction

end Written

/-! ### The values of numbers -/

open Parley.Number in
theorem digitsValue_foldl (digits : List Char) (value : Nat) :
    digits.foldl (fun value c => 10 * value + digitValue c) value
      = value * 10 ^ digits.length + digitsValue digits := by
  unfold digitsValue
  induction digits generalizing value with
  | nil => simp
  | cons c digits ih =>
    rw [List.foldl_cons, List.foldl_cons, ih, ih (10 * 0 + digitValue c), List.length_cons,
      Nat.pow_succ]
    ring

open Parley.Number in
theorem digitsValue_cons (c : Char) (digits : List Char) :
    digitsValue (c :: digits) = digitValue c * 10 ^ digits.length + digitsValue digits := by
  unfold digitsValue
  rw [List.foldl_cons, digitsValue_foldl]
  simp [digitsValue]

theorem digitValue_lt {c : Char} (h : c.isDigit = true) : Number.digitValue c < 10 := by
  have hrange := Char.isDigit_iff_toNat.mp h
  have hnine : '9'.toNat = '0'.toNat + 9 := rfl
  unfold Number.digitValue
  omega

theorem digitValue_pos {c : Char} (h : c.isDigit = true) (hzero : c ≠ '0') :
    0 < Number.digitValue c := by
  have hrange := Char.isDigit_iff_toNat.mp h
  have hnot : c.toNat ≠ '0'.toNat := fun hsame => hzero (Char.toNat_inj.mp hsame)
  unfold Number.digitValue
  omega

theorem digitsValue_lt {digits : List Char} (h : ∀ c ∈ digits, c.isDigit = true) :
    Number.digitsValue digits < 10 ^ digits.length := by
  induction digits with
  | nil => decide
  | cons c digits ih =>
    rw [digitsValue_cons, List.length_cons, Nat.pow_succ]
    have hfirst := digitValue_lt (h c List.mem_cons_self)
    have hrest := ih fun c hc => h c (List.mem_cons_of_mem _ hc)
    nlinarith

theorem digitsValue_pos {whole : List Char} (h : IsWhole whole) (hzero : whole ≠ ['0']) :
    0 < Number.digitsValue whole := by
  obtain ⟨first, others, rfl⟩ := List.exists_cons_of_ne_nil h.nonempty
  have hfirst : first ≠ '0' := by
    rintro rfl
    rcases h.leading with hsame | hhead
    · exact hzero hsame
    · exact hhead rfl
  rw [digitsValue_cons]
  have hpos := Nat.mul_pos (digitValue_pos (h.digits first List.mem_cons_self) hfirst)
    (Nat.pow_pos (n := others.length) (show 0 < 10 by decide))
  omega

/-- **Integers.**  Digits without a point, of which there are few enough for 64 bits, are an
    integer, unless they are a zero with a sign. -/
theorem Written.integer_number {written : Written} (h : written.Valid)
    (hfraction : written.fraction = none)
    (hlength : written.text.length ≤ 19) (hzero : written.negative = true → written.whole ≠ ['0']) :
    ∃ value : Int, written.numeral.number = .ok (.integer value)
      ∧ -2 ^ 63 ≤ value ∧ value < 2 ^ 64 := by
  have hvalue := digitsValue_lt h.whole.digits
  have htext : written.text.length
      = (if written.negative then 1 else 0) + written.whole.length := by
    unfold text fractionText
    rw [hfraction]
    cases written.negative <;> simp [Nat.add_comm]
  unfold Numeral.number Numeral.integer? numeral
  rw [hfraction]
  cases hnegative : written.negative with
  | true =>
    -- the sign takes one of the characters, so the magnitude is below 2 ^ 63
    rw [htext, hnegative, if_pos rfl] at hlength
    have hpos := digitsValue_pos h.whole (hzero hnegative)
    have hpow : 10 ^ written.whole.length ≤ 10 ^ 18 :=
      Nat.pow_le_pow_right (by decide) (by omega)
    have hnot : ¬ (decide (Number.digitsValue written.whole = 0)
        || decide (0x8000000000000000 < Number.digitsValue written.whole)) = true := by
      simp only [Bool.or_eq_true, decide_eq_true_eq]
      omega
    refine ⟨-(Number.digitsValue written.whole : Int), ?_, by omega, by omega⟩
    simp only [Option.isSome_none, Bool.or_self, Bool.false_eq_true, if_false, if_true]
    rw [if_neg hnot]
  | false =>
    rw [htext, hnegative] at hlength
    have hpow : 10 ^ written.whole.length ≤ 10 ^ 19 :=
      Nat.pow_le_pow_right (by decide) (by simpa using hlength)
    have hfits : Number.digitsValue written.whole < 0x10000000000000000 := by omega
    refine ⟨(Number.digitsValue written.whole : Int), ?_, by omega, by omega⟩
    simp only [Option.isSome_none, Bool.or_self, Bool.false_eq_true, if_false]
    rw [if_pos hfits]

/-- Only an integer literal is read as an integer: it has neither a point nor an exponent, and no
    sign in front of a zero. -/
theorem Numeral.literal_of_integer {numeral : Numeral} {value : Int}
    (h : numeral.number = .ok (.integer value)) :
    numeral.fraction = none ∧ numeral.exponent = none
      ∧ (numeral.negative = true → Number.digitsValue numeral.whole ≠ 0) := by
  have hinteger : numeral.integer? = some value := by
    unfold Numeral.number at h
    cases hsome : numeral.integer? with
    | some found =>
      rw [hsome] at h
      cases h
      rfl
    | none =>
      rw [hsome] at h
      obtain ⟨double, -, hdouble⟩ := Step.except_map_eq_ok h
      contradiction
  unfold Numeral.integer? at hinteger
  split at hinteger
  · contradiction
  · rename_i hplain
    simp only [Bool.or_eq_true, Option.isSome_iff_ne_none, not_or, not_not] at hplain
    refine ⟨hplain.1, hplain.2, fun hnegative hzero => ?_⟩
    rw [if_pos hnegative, hzero] at hinteger
    contradiction

theorem length_collect (significand : Nat) (digits : List Char) :
    (Number.Decimal.collect significand digits).2.length ≤ digits.length := by
  induction digits generalizing significand with
  | nil => exact Nat.le_refl _
  | cons c digits ih =>
    rw [Number.Decimal.collect]
    split
    · exact Nat.le_succ_of_le (ih _)
    · exact Nat.le_refl _

/-- A number with few enough digits before the point is not too large. -/
theorem Written.number_isOk {written : Written} (hlength : written.whole.length ≤ 288) :
    ∃ value, written.numeral.number = .ok value := by
  unfold Numeral.number
  cases written.numeral.integer? with
  | some value => exact ⟨_, rfl⟩
  | none =>
    -- dropping digits raises the power of ten by no more than there are digits
    have hdouble : written.numeral.decimal.double?.isSome = true := by
      have hpower : written.numeral.decimal.power ≤ 288 := by
        have hdropped : _ ≤ written.whole.length := length_collect 0 written.numeral.whole
        show (0 : Int) + _ - _ ≤ 288
        omega
      unfold Number.Decimal.double?
      cases hplaces : written.numeral.decimal.power with
      | negSucc places => rfl
      | ofNat places =>
        have hfew : places ≤ 288 := by
          rw [hplaces] at hpower
          exact Int.ofNat_le.mp hpower
        show (Number.Decimal.multiply? _ places).isSome = true
        rw [Number.Decimal.multiply?, if_pos hfew]
        rfl
    obtain ⟨value, hvalue⟩ := Option.isSome_iff_exists.mp hdouble
    dsimp only
    rw [Numeral.double, hvalue]
    exact ⟨_, rfl⟩

/-! ## Section 3: Forms -/

/-- The text begins as a value begins: with no blank, and not with the end of an array. -/
def Begins (text : List Char) : Prop := ∃ c rest, text = c :: rest ∧ isGap c = false ∧ c ≠ ']'

theorem Begins.skipGap {text : List Char} (h : Begins text) (rest : List Char) :
    Json.skipGap (text ++ rest) = text ++ rest := by
  obtain ⟨c, later, rfl, hgap, -⟩ := h
  rw [Json.skipGap, List.cons_append, List.dropWhile_cons, hgap]
  rfl

/-- **The text of a form.**  Wherever a value may stand, the text is read as the form, with the fuel
    that its length gives. -/
structure Spells (text : List Char) (form : Form) : Prop where
  begins : Begins text
  reads : ∀ fuel rest, 2 * text.length ≤ fuel → Ends rest →
    readForm fuel (text ++ rest) = .ok (form, rest)

/-- The text of items with the bracket behind them. -/
structure ItemsSpell (text : List Char) (items : List Form) : Prop where
  begins : Begins text
  reads : ∀ fuel rest, 2 * text.length ≤ fuel → readItems fuel (text ++ rest) = .ok (items, rest)

/-- The text of members with the brace behind them. -/
structure MembersSpell (text : List Char) (members : List (List Glyph × Form)) : Prop where
  begins : ∃ rest, text = '"' :: rest
  reads : ∀ fuel rest, 2 * text.length ≤ fuel →
    readMembers fuel (text ++ rest) = .ok (members, rest)

/-- The text behind a member: the brace, or a comma and more members. -/
inductive TailSpells : (text : List Char) → (members : List (List Glyph × Form)) → Prop
  | last : TailSpells ['}'] []
  | more {text : List Char} {members : List (List Glyph × Form)} (h : MembersSpell text members) :
    TailSpells (',' :: text) members

theorem skipGap_cons {c : Char} (h : isGap c = false) (rest : List Char) :
    skipGap (c :: rest) = c :: rest := by
  rw [skipGap, List.dropWhile_cons, h]
  rfl

theorem isGap_of_isDigit {c : Char} (h : c.isDigit = true) : isGap c = false := by
  cases hgap : isGap c with
  | false => rfl
  | true =>
    simp only [isGap, Bool.or_eq_true, decide_eq_true_eq] at hgap
    rcases hgap with ((rfl | rfl) | rfl) | rfl <;> contradiction

theorem ends_cons {c : Char} (h : c = ',' ∨ c = ']' ∨ c = '}') (rest : List Char) :
    Ends (c :: rest) := by
  rintro first later hsame
  cases hsame
  exact h

namespace Spells

/-- A text of a form is not empty, so there is fuel for the first step. -/
theorem of_succ {text : List Char} {form : Form} (hbegins : Begins text)
    (hreads : ∀ fuel rest, 2 * text.length ≤ fuel + 1 → Ends rest →
      readForm (fuel + 1) (text ++ rest) = .ok (form, rest)) : Spells text form where
  begins := hbegins
  reads fuel rest hfuel hrest := by
    obtain ⟨c, later, rfl, -⟩ := hbegins
    cases fuel with
    | zero => simp at hfuel
    | succ fuel => exact hreads fuel rest hfuel hrest

theorem null : Spells ['n', 'u', 'l', 'l'] .null :=
  of_succ ⟨'n', _, rfl, rfl, by decide⟩ fun _ _ _ _ => rfl

theorem yes : Spells ['t', 'r', 'u', 'e'] (.bool true) :=
  of_succ ⟨'t', _, rfl, rfl, by decide⟩ fun _ _ _ _ => rfl

theorem no : Spells ['f', 'a', 'l', 's', 'e'] (.bool false) :=
  of_succ ⟨'f', _, rfl, rfl, by decide⟩ fun _ _ _ _ => rfl

/-- A string whose body is read as `glyphs`. -/
theorem string {body : List Char} {glyphs : List Glyph}
    (h : ∀ rest, readString (body ++ '"' :: rest) = .ok (glyphs, rest)) :
    Spells ('"' :: (body ++ ['"'])) (.string glyphs) := by
  refine of_succ ⟨'"', _, rfl, rfl, by decide⟩ fun fuel rest _ _ => ?_
  rw [List.cons_append, List.append_assoc, readForm]
  show (readString (body ++ '"' :: rest)).map _ = _
  rw [h]
  rfl

/-- A number is read behind its first character, which is a sign or a digit. -/
theorem number {written : Written} (h : written.Valid) :
    Spells written.text (.number written.numeral) := by
  obtain ⟨c, later, htext, hfirst⟩ := h.exists_cons
  have hnumber : ∀ rest, Ends rest → readNumber (written.text ++ rest) = _ :=
    fun rest hrest => Written.readNumber_append h hrest
  rw [htext] at hnumber ⊢
  refine of_succ ⟨c, later, rfl, ?_, ?_⟩ fun fuel rest _ hrest => ?_
  · rcases hfirst with rfl | hdigit
    · rfl
    · exact isGap_of_isDigit hdigit
  · rintro rfl
    rcases hfirst with hsign | hdigit <;> contradiction
  · rw [List.cons_append, readForm]
    · rw [if_pos (by simpa using hfirst), ← List.cons_append, hnumber rest hrest]
      rfl
    all_goals
      rintro rfl
      rcases hfirst with hsign | hdigit <;> contradiction

theorem array {text : List Char} {items : List Form} (h : ItemsSpell text items) :
    Spells ('[' :: text) (.array items) := by
  refine of_succ ⟨'[', _, rfl, rfl, by decide⟩ fun fuel rest hfuel _ => ?_
  rw [List.cons_append, readForm, h.begins.skipGap]
  have hreads := h.reads fuel rest (by rw [List.length_cons] at hfuel; omega)
  -- the array is not taken for an empty one
  obtain ⟨c, later, rfl, -, hbracket⟩ := h.begins
  split
  · rename_i hempty
    exact absurd (List.cons.inj hempty).1 hbracket
  · rw [hreads]
    rfl

theorem emptyObject : Spells ['{', '}'] (.object []) :=
  of_succ ⟨'{', _, rfl, rfl, by decide⟩ fun _ _ _ _ => rfl

theorem object {text : List Char} {members : List (List Glyph × Form)}
    (h : MembersSpell text members) : Spells ('{' :: text) (.object members) := by
  refine of_succ ⟨'{', _, rfl, rfl, by decide⟩ fun fuel rest hfuel _ => ?_
  have hreads := h.reads fuel rest (by rw [List.length_cons] at hfuel; omega)
  obtain ⟨later, rfl⟩ := h.begins
  rw [List.cons_append, readForm]
  show (readMembers fuel ('"' :: later ++ rest)).map _ = _
  rw [hreads]
  rfl

end Spells

/-! ### Items -/

theorem ItemsSpell.last {text : List Char} {item : Form} (h : Spells text item) :
    ItemsSpell (text ++ [']']) [item] where
  begins := by
    obtain ⟨c, later, rfl, hgap, hbracket⟩ := h.begins
    exact ⟨c, _, rfl, hgap, hbracket⟩
  reads fuel rest hfuel := by
    rw [List.length_append, List.length_singleton] at hfuel
    obtain ⟨fuel, rfl⟩ : ∃ smaller, fuel = smaller + 1 := ⟨fuel - 1, by omega⟩
    have hitem := h.reads fuel (']' :: rest) (by omega) (ends_cons (by simp) rest)
    rw [List.append_assoc, List.singleton_append, readItems, hitem]
    rfl

theorem ItemsSpell.cons {text more : List Char} {item : Form} {items : List Form}
    (h : Spells text item) (hmore : ItemsSpell more items) :
    ItemsSpell (text ++ ',' :: more) (item :: items) where
  begins := by
    obtain ⟨c, later, rfl, hgap, hbracket⟩ := h.begins
    exact ⟨c, _, rfl, hgap, hbracket⟩
  reads fuel rest hfuel := by
    rw [List.length_append, List.length_cons] at hfuel
    obtain ⟨fuel, rfl⟩ : ∃ smaller, fuel = smaller + 1 := ⟨fuel - 1, by omega⟩
    have hitem := h.reads fuel (',' :: (more ++ rest)) (by omega) (ends_cons (by simp) _)
    rw [List.append_assoc, List.cons_append, readItems, hitem]
    have hitems := hmore.reads fuel rest (by omega)
    rw [← hmore.begins.skipGap] at hitems
    simp only [Bind.bind, Except.bind, skipGap_cons (show isGap ',' = false from rfl), hitems]
    rfl

/-! ### Members -/

/-- A key with the colon behind it. -/
def keyText (key : String) : List Char := '"' :: (key.toList.flatMap escape ++ ['"', ':'])

theorem toList_quote_colon (key : String) : (quote key ++ ":").toList = keyText key := by
  simp [quote, keyText]

theorem TailSpells.ends {tail : List Char} {members : List (List Glyph × Form)}
    (h : TailSpells tail members) (rest : List Char) : Ends (tail ++ rest) := by
  cases h with
  | last => exact ends_cons (by simp) rest
  | more => exact ends_cons (by simp) _

theorem MembersSpell.cons (key : String) {text tail : List Char} {value : Form}
    {members : List (List Glyph × Form)} (h : Spells text value) (htail : TailSpells tail members) :
    MembersSpell (keyText key ++ (text ++ tail)) ((key.toList.map glyphOf, value) :: members) := by
  refine ⟨⟨_, rfl⟩, fun fuel rest hfuel => ?_⟩
  have hkey : keyText key ++ (text ++ tail) ++ rest
      = '"' :: (key.toList.flatMap escape ++ '"' :: ':' :: (text ++ (tail ++ rest))) := by
    simp [keyText]
  have hlength : 2 * text.length + 2 * tail.length + 2 ≤ fuel := by
    simp only [keyText, List.length_append, List.length_cons] at hfuel
    omega
  obtain ⟨fuel, rfl⟩ : ∃ smaller, fuel = smaller + 1 := ⟨fuel - 1, by omega⟩
  have hvalue := h.reads fuel (tail ++ rest) (by omega) (htail.ends rest)
  rw [hkey, readMembers]
  -- the key, the colon and the value are read one behind the other
  simp only [Bind.bind, Except.bind, readString_quote,
    skipGap_cons (show isGap ':' = false from rfl), h.begins.skipGap, hvalue]
  cases htail with
  | last => rfl
  | @more more members hmore =>
    have hmembers := hmore.reads fuel rest (by rw [List.length_cons] at hlength; omega)
    obtain ⟨later, rfl⟩ := hmore.begins
    have hskip : skipGap ('"' :: (later ++ rest)) = '"' :: later ++ rest := skipGap_cons rfl _
    rw [List.cons_append, skipGap_cons rfl]
    split
    · rename_i hbrace
      cases hbrace
    · rename_i hcomma
      cases hcomma
      rw [List.cons_append, hskip, hmembers]
      rfl
    · rename_i hcomma
      exact absurd rfl (hcomma _)

/-! ## Section 4: Values -/

/-- **The text of a value.**  Wherever a value may stand, the text is read as the value, which is
    nested at most `depth` deep. -/
def Reads (depth : Nat) (text : List Char) (value : Json) : Prop :=
  ∃ form, Spells text form ∧ form.valueWithin depth = .ok value

/-- The text of items with the bracket behind them, read as values. -/
def ItemsRead (depth : Nat) (text : List Char) (values : List Json) : Prop :=
  ∃ items, ItemsSpell text items ∧ Form.itemsWithin depth items = .ok values

/-- The members are read as pairs of a name and a value, whatever was read before. -/
inductive MembersStand (depth : Nat) : List (List Glyph × Form) → List (String × Json) → Prop
  | nil : MembersStand depth [] []
  | cons {key : List Glyph} {name : String} {form : Form} {value : Json}
    {members : List (List Glyph × Form)} {pairs : List (String × Json)}
    (hkey : textOf key = .ok name) (hvalue : form.valueWithin depth = .ok value)
    (hmembers : MembersStand depth members pairs) :
    MembersStand depth ((key, form) :: members) ((name, value) :: pairs)

/-- The text of members with the brace behind them, read as pairs. -/
def MembersRead (depth : Nat) (text : List Char) (pairs : List (String × Json)) : Prop :=
  ∃ members, MembersSpell text members ∧ MembersStand depth members pairs

/-- The text behind a member, read as pairs. -/
def TailReads (depth : Nat) (text : List Char) (pairs : List (String × Json)) : Prop :=
  ∃ members, TailSpells text members ∧ MembersStand depth members pairs

theorem reads_null (depth : Nat) : Reads depth ['n', 'u', 'l', 'l'] .null :=
  ⟨.null, .null, rfl⟩

theorem reads_true (depth : Nat) : Reads depth ['t', 'r', 'u', 'e'] (.bool true) :=
  ⟨.bool true, .yes, rfl⟩

theorem reads_false (depth : Nat) : Reads depth ['f', 'a', 'l', 's', 'e'] (.bool false) :=
  ⟨.bool false, .no, rfl⟩

/-- A text of plain characters between quotes. -/
theorem reads_plain (depth : Nat) {body : List Char} (h : ∀ c ∈ body, IsPlain c) :
    Reads depth ('"' :: (body ++ ['"'])) (.string (String.ofList body)) := by
  refine ⟨.string (body.map .char), .string (readString_plain h), ?_⟩
  rw [Form.valueWithin, textOf, decodeGlyphs_chars]
  rfl

theorem reads_number (depth : Nat) {written : Written} (h : written.Valid) {value : Number}
    (hvalue : written.numeral.number = .ok value) : Reads depth written.text (.number value) := by
  refine ⟨.number written.numeral, .number h, ?_⟩
  rw [Form.valueWithin, hvalue]
  rfl

/-! ### Items -/

theorem Reads.lastItem {depth : Nat} {text : List Char} {value : Json}
    (h : Reads depth text value) : ItemsRead depth (text ++ [']']) [value] := by
  obtain ⟨form, hspells, hvalue⟩ := h
  refine ⟨[form], .last hspells, ?_⟩
  rw [Form.itemsWithin, hvalue]
  rfl

theorem Reads.consItem {depth : Nat} {text more : List Char} {value : Json} {values : List Json}
    (h : Reads depth text value) (hmore : ItemsRead depth more values) :
    ItemsRead depth (text ++ ',' :: more) (value :: values) := by
  obtain ⟨form, hspells, hvalue⟩ := h
  obtain ⟨items, hitems, hvalues⟩ := hmore
  refine ⟨form :: items, .cons hspells hitems, ?_⟩
  rw [Form.itemsWithin, hvalue, hvalues]
  rfl

theorem ItemsRead.array {depth : Nat} {text : List Char} {values : List Json}
    (h : ItemsRead depth text values) : Reads (depth + 1) ('[' :: text) (.array values) := by
  obtain ⟨items, hitems, hvalues⟩ := h
  refine ⟨.array items, .array hitems, ?_⟩
  rw [Form.valueWithin, if_neg (Nat.succ_ne_zero depth), Nat.add_sub_cancel, hvalues]
  rfl

/-! ### Members -/

theorem textOf_glyphOf (key : String) : textOf (key.toList.map glyphOf) = .ok key := by
  rw [textOf, decodeGlyphs_glyphOf]
  exact congrArg Except.ok String.ofList_toList

theorem Reads.member {depth : Nat} {text tail : List Char} {value : Json}
    {pairs : List (String × Json)} (key : String) (h : Reads depth text value)
    (htail : TailReads depth tail pairs) :
    MembersRead depth (keyText key ++ (text ++ tail)) ((key, value) :: pairs) := by
  obtain ⟨form, hspells, hvalue⟩ := h
  obtain ⟨members, hmembers, hpairs⟩ := htail
  exact ⟨_, .cons key hspells hmembers, .cons (textOf_glyphOf key) hvalue hpairs⟩

theorem tailReads_last (depth : Nat) : TailReads depth ['}'] [] := ⟨[], .last, .nil⟩

theorem MembersRead.tail {depth : Nat} {text : List Char} {pairs : List (String × Json)}
    (h : MembersRead depth text pairs) : TailReads depth (',' :: text) pairs := by
  obtain ⟨members, hmembers, hpairs⟩ := h
  exact ⟨members, .more hmembers, hpairs⟩

/-- A new key goes to the end. -/
theorem bind_of_not_mem {key : String} {value : Json} :
    ∀ {pairs : List (String × Json)}, key ∉ pairs.map Prod.fst →
      Json.bind key value pairs = pairs ++ [(key, value)]
  | [], _ => rfl
  | (name, old) :: rest, h => by
    rw [List.map_cons, List.mem_cons, not_or] at h
    rw [Json.bind, if_neg (Ne.symm h.1), bind_of_not_mem h.2]
    rfl

theorem MembersStand.within {depth : Nat} {members : List (List Glyph × Form)}
    {pairs : List (String × Json)} (h : MembersStand depth members pairs) :
    ∀ before : List (String × Json), ((before ++ pairs).map Prod.fst).Nodup →
      Form.membersWithin depth before members = .ok (before ++ pairs) := by
  induction h with
  | nil =>
    intro before _
    rw [Form.membersWithin, List.append_nil]
  | @cons key name form value members pairs hkey hvalue _ ih =>
    intro before hnodup
    -- the name is new, so its pair goes behind those that were read before
    have hnew : name ∉ before.map Prod.fst := by
      rw [List.map_append, List.nodup_append] at hnodup
      intro hprev
      exact hnodup.2.2 name hprev name (by simp) rfl
    have hrest : before ++ (name, value) :: pairs = before ++ [(name, value)] ++ pairs := by simp
    rw [hrest] at hnodup ⊢
    rw [Form.membersWithin]
    simp only [Bind.bind, Except.bind, hkey, hvalue]
    rw [bind_of_not_mem hnew]
    exact ih _ hnodup

theorem MembersRead.object {depth : Nat} {text : List Char} {pairs : List (String × Json)}
    (h : MembersRead depth text pairs) (hnodup : (pairs.map Prod.fst).Nodup) :
    Reads (depth + 1) ('{' :: text) (.object pairs) := by
  obtain ⟨members, hmembers, hpairs⟩ := h
  refine ⟨.object members, .object hmembers, ?_⟩
  rw [Form.valueWithin, if_neg (Nat.succ_ne_zero depth), Nat.add_sub_cancel,
    hpairs.within [] hnodup]
  rfl

theorem reads_emptyObject (depth : Nat) : Reads (depth + 1) ['{', '}'] (.object []) := by
  refine ⟨.object [], .emptyObject, ?_⟩
  rw [Form.valueWithin, if_neg (Nat.succ_ne_zero depth), Form.membersWithin]
  rfl

/-- **A text of a value parses.** -/
theorem parse_of_reads {text : String} {value : Json} (h : Reads maxDepth text.toList value) :
    parse text = .ok value := by
  obtain ⟨form, hspells, hvalue⟩ := h
  have hreads := hspells.reads (2 * text.toList.length + 2) [] (by omega) (by rintro _ _ ⟨⟩)
  have hskip := hspells.begins.skipGap []
  rw [List.append_nil] at hreads hskip
  unfold parse formOf
  rw [hskip]
  simp only [Bind.bind, Except.bind, hreads]
  exact hvalue

end Parley.Json
