import Parley.Proofs.Constrained.Writing
import Parley.Proofs.Json.Reading
import Parley.Proofs.Text.Search

/-! # Writing numbers

    A number is written from its beginning on, and every beginning has one of four shapes:
    `NumberStart`.  What may follow keeps to the shapes, and every shape has a completion, so the
    hand may stop wherever it likes.  An integer is as long as its limit at most, which is short
    enough for 64 bits.
-/

namespace Parley

open Step Json

/-! ## Section 1: Beginnings of numbers -/

/-- **The beginnings of numbers.**  `real` says whether there may be a point.  Without it a zero has
    no sign. -/
inductive NumberStart (real : Bool) : List Char → Prop
  | empty : NumberStart real []
  | sign : NumberStart real ['-']
  | whole {negative : Bool} {whole : List Char} (h : IsWhole whole)
    (hzero : real = false → negative = true → whole ≠ ['0']) :
    NumberStart real (Written.text ⟨negative, whole, none⟩)
  | fraction {negative : Bool} {whole digits : List Char} (hreal : real = true) (h : IsWhole whole)
    (hdigits : ∀ c ∈ digits, c.isDigit = true) :
    NumberStart real (Written.text ⟨negative, whole, some digits⟩)

/-- The text has at most `cap` bytes, and room for a digit behind a point. -/
structure Roomy (cap : Nat) (text : List Char) : Prop where
  size : Text.byteLength text ≤ cap
  point : text.getLast? = some '.' → Text.byteLength text < cap

/-- A number with at most `cap` characters; it has a point only if it is real, and a sign in front
    of a zero only then. -/
structure Json.Written.Fits (written : Written) (real : Bool) (cap : Nat) : Prop where
  valid : written.Valid
  length : written.text.length ≤ cap
  integer : real = false →
    written.fraction = none ∧ (written.negative = true → written.whole ≠ ['0'])

theorem length_le_byteLength (text : List Char) : text.length ≤ Text.byteLength text := by
  induction text with
  | nil => exact Nat.le_refl 0
  | cons c text ih =>
    have hsize := Char.utf8Size_pos c
    rw [List.length_cons, Text.byteLength_cons]
    omega

theorem byteLength_digits {digits : List Char} (h : ∀ c ∈ digits, c.isDigit = true) :
    Text.byteLength digits = digits.length := by
  induction digits with
  | nil => rfl
  | cons c digits ih =>
    rw [List.forall_mem_cons] at h
    have hsize : c.utf8Size = 1 := by
      have hrange := Char.isDigit_iff_toNat.mp h.1
      have hnine : '9'.toNat = 57 := rfl
      rw [Char.utf8Size_eq_one_iff, UInt32.le_iff_toNat_le]
      show c.toNat ≤ 127
      omega
    rw [Text.byteLength_cons, ih h.2, List.length_cons, hsize, Nat.add_comm]

/-- Digits do not end with a point. -/
theorem getLast?_append_digits (start : List Char) {digits : List Char} (hsome : digits ≠ [])
    (h : ∀ c ∈ digits, c.isDigit = true) : (start ++ digits).getLast? ≠ some '.' := by
  intro hpoint
  rw [List.getLast?_append_of_ne_nil _ hsome] at hpoint
  have hdigit := h '.' (List.mem_of_getLast? hpoint)
  contradiction

namespace Json.Written

variable {negative : Bool} {whole digits more : List Char}

theorem text_whole_append :
    text ⟨negative, whole, none⟩ ++ more = text ⟨negative, whole ++ more, none⟩ := by
  simp [text, fractionText]

theorem text_whole_point :
    text ⟨negative, whole, none⟩ ++ ['.'] = text ⟨negative, whole, some []⟩ := by
  simp [text, fractionText]

theorem text_fraction_append : text ⟨negative, whole, some digits⟩ ++ more
    = text ⟨negative, whole, some (digits ++ more)⟩ := by
  simp [text, fractionText]

theorem text_ne_nil {written : Written} (h : IsWhole written.whole) : written.text ≠ [] := by
  simp [text, h.nonempty]

/-- What stands behind the sign begins with a digit. -/
theorem magnitude_text {written : Written} (h : IsWhole written.whole) :
    Palette.magnitude written.text = written.whole ++ written.fractionText := by
  unfold text
  cases written.negative with
  | true => rfl
  | false =>
    obtain ⟨first, others, hwhole⟩ := List.exists_cons_of_ne_nil h.nonempty
    have hdigit := h.digits first (hwhole ▸ List.mem_cons_self)
    rw [if_neg Bool.false_ne_true, List.nil_append, hwhole, List.cons_append, Palette.magnitude]
    rintro later hsign
    cases hsign
    contradiction

end Json.Written

theorem Json.IsWhole.not_mem_point {whole : List Char} (h : IsWhole whole) : '.' ∉ whole := by
  intro hmem
  have hdigit := h.digits '.' hmem
  contradiction

theorem Json.IsWhole.append {whole digits : List Char} (h : IsWhole whole) (hzero : whole ≠ ['0'])
    (hdigits : ∀ c ∈ digits, c.isDigit = true) : IsWhole (whole ++ digits) where
  digits := List.forall_mem_append.mpr ⟨h.digits, hdigits⟩
  nonempty := fun hnil => h.nonempty (List.append_eq_nil_iff.mp hnil).1
  leading := by
    refine .inr ?_
    rw [List.head?_append_of_ne_nil _ h.nonempty]
    exact h.leading.resolve_left hzero

/-! ## Section 2: What may follow -/

theorem IsDigits.toList_ne_nil {piece : String} (h : IsDigits piece) : piece.toList ≠ [] :=
  fun hnil => h.1 (String.toList_eq_nil_iff.mp hnil)

namespace Palette

variable {palette : Palette} {spelling : Spelling} {token : TokenId} {real : Bool} {cap : Nat}

theorem mem_next_empty : token ∈ palette.numberNext real cap []
    ↔ palette.minus = some token ∨ token ∈ palette.digitSet true cap :=
  mem_withOption (digitSet_increasing _ _ _)

theorem mem_next_sign : token ∈ palette.numberNext real cap ['-']
    ↔ token ∈ palette.digitSet true (cap - 1) ∧ (real = false → palette.isZero token = false) := by
  show token ∈ (if real then palette.digitSet true (cap - 1) else
    (palette.digitSet true (cap - 1)).filter fun token => !palette.isZero token) ↔ _
  cases real <;> simp [TokenSet.mem_filter]

/-- Behind a zero there may be a point, but no digits. -/
theorem mem_next_zero {negative : Bool} :
    token ∈ palette.numberNext real cap (Written.text ⟨negative, ['0'], none⟩)
      ↔ token ∈ palette.terminators ∨ (real = true ∧ palette.dot = some token) := by
  have hsame : palette.numberNext real cap (Written.text ⟨negative, ['0'], none⟩)
      = if real then withOption palette.terminators palette.dot else palette.terminators := by
    cases negative <;> rfl
  rw [hsame]
  cases real with
  | true => simp [mem_withOption (terminators_increasing palette), or_comm]
  | false => simp

theorem numberNext_text {written : Written} (h : IsWhole written.whole) :
    palette.numberNext real cap written.text =
      let room := cap - Text.byteLength written.text
      let unsigned := written.whole ++ written.fractionText
      if unsigned == ['0'] then
        if real then withOption palette.terminators palette.dot else palette.terminators
      else if unsigned.getLast? == some '.' then palette.digitSet false room
      else
        let more := (palette.digitSet false room).union palette.terminators
        if real && !unsigned.contains '.' && 1 < room then withOption more palette.dot
        else more := by
  unfold numberNext
  have htext : written.text.isEmpty = false :=
    List.isEmpty_eq_false_iff.mpr (Written.text_ne_nil h)
  have hunsigned : (written.whole ++ written.fractionText).isEmpty = false := by
    simp [h.nonempty]
  rw [Written.magnitude_text h]
  simp only [htext, hunsigned, Bool.false_eq_true, if_false]

theorem mem_next_whole {negative : Bool} {whole : List Char} (h : IsWhole whole)
    (hzero : whole ≠ ['0']) :
    token ∈ palette.numberNext real cap (Written.text ⟨negative, whole, none⟩)
      ↔ token ∈ palette.digitSet false
          (cap - Text.byteLength (Written.text ⟨negative, whole, none⟩))
        ∨ token ∈ palette.terminators ∨ (real = true ∧ palette.dot = some token
          ∧ Text.byteLength (Written.text ⟨negative, whole, none⟩) + 1 < cap) := by
  have hpoint : (whole.getLast? == some '.') = false :=
    beq_eq_false_iff_ne.mpr (getLast?_append_digits [] h.nonempty h.digits)
  have hnone : whole.contains '.' = false := by simpa using h.not_mem_point
  have hmore := (digitSet_increasing palette false
    (cap - Text.byteLength (Written.text ⟨negative, whole, none⟩)))
  rw [numberNext_text h]
  simp only [Written.fractionText, List.append_nil, beq_eq_false_iff_ne.mpr hzero, hpoint, hnone,
    Bool.false_eq_true, if_false, Bool.not_false, Bool.and_true]
  split <;> rename_i hreal
  · rw [mem_withOption (hmore.union _), TokenSet.mem_union hmore]
    simp only [Bool.and_eq_true, decide_eq_true_eq] at hreal
    have hroom := hreal.2
    simp only [hreal.1, true_and]
    constructor
    · rintro (hdot | hdigit | hend)
      · exact .inr (.inr ⟨hdot, by omega⟩)
      · exact .inl hdigit
      · exact .inr (.inl hend)
    · rintro (hdigit | hend | ⟨hdot, -⟩)
      · exact .inr (.inl hdigit)
      · exact .inr (.inr hend)
      · exact .inl hdot
  · rw [TokenSet.mem_union hmore]
    simp only [Bool.and_eq_true, decide_eq_true_eq, not_and] at hreal
    constructor
    · rintro (hdigit | hend)
      · exact .inl hdigit
      · exact .inr (.inl hend)
    · rintro (hdigit | hend | ⟨hsame, -, hroom⟩)
      · exact .inl hdigit
      · exact .inr hend
      · exact absurd (by omega) (hreal hsame)

/-- Behind a point there have to be digits. -/
theorem mem_next_point {negative : Bool} {whole : List Char} (h : IsWhole whole) :
    token ∈ palette.numberNext real cap (Written.text ⟨negative, whole, some []⟩)
      ↔ token ∈ palette.digitSet false
        (cap - Text.byteLength (Written.text ⟨negative, whole, some []⟩)) := by
  have hzero : ((whole ++ ['.']) == ['0']) = false := by
    refine beq_eq_false_iff_ne.mpr fun hsame => ?_
    have hmem : '.' ∈ ['0'] := hsame ▸ List.mem_append_right whole List.mem_cons_self
    contradiction
  rw [numberNext_text h]
  simp [Written.fractionText, hzero]

theorem mem_next_fraction {negative : Bool} {whole digits : List Char} (h : IsWhole whole)
    (hsome : digits ≠ []) (hdigits : ∀ c ∈ digits, c.isDigit = true) :
    token ∈ palette.numberNext real cap (Written.text ⟨negative, whole, some digits⟩)
      ↔ token ∈ palette.digitSet false
          (cap - Text.byteLength (Written.text ⟨negative, whole, some digits⟩))
        ∨ token ∈ palette.terminators := by
  have hmem : '.' ∈ whole ++ '.' :: digits := List.mem_append_right whole List.mem_cons_self
  have hzero : ((whole ++ '.' :: digits) == ['0']) = false := by
    refine beq_eq_false_iff_ne.mpr fun hsame => ?_
    rw [hsame] at hmem
    contradiction
  have hpoint : ((whole ++ '.' :: digits).getLast? == some '.') = false := by
    rw [List.append_cons]
    exact beq_eq_false_iff_ne.mpr (getLast?_append_digits (whole ++ ['.']) hsome hdigits)
  rw [numberNext_text h]
  simp only [Written.fractionText, hzero, hpoint, List.contains_iff_mem.mpr hmem,
    Bool.false_eq_true, if_false, Bool.not_true, Bool.and_false, Bool.false_and]
  exact TokenSet.mem_union (digitSet_increasing _ _ _)

/-- A token of digits that fits is written as digits; at the start of a number they are the digits
    before the point. -/
theorem digits_of_mem (hpalette : palette.Spelled spelling) {atStart : Bool} {room : Nat}
    {piece : String} (hmem : token ∈ palette.digitSet atStart room)
    (hread : ∀ known, spelling token = some known → piece = known) :
    IsDigits piece ∧ piece.toList.length ≤ room ∧ (atStart = true → IsWhole piece.toList)
      ∧ (palette.isZero token = false → piece.toList ≠ ['0']) := by
  obtain ⟨digit, hdigit, rfl, hroom, hleading⟩ := mem_digitSet.mp hmem
  obtain ⟨token, known, hknown, hdigits, rfl⟩ := hpalette.digits digit hdigit
  cases hread known hknown
  refine ⟨hdigits, ?_, fun hstart => ⟨hdigits.2, ?_, ?_⟩, fun hzero hsame => ?_⟩
  · rw [String.length_toList]
    exact hroom
  · exact hdigits.toList_ne_nil
  · have hhead := hleading hstart
    simp only [DigitToken.ofPiece, Bool.and_eq_false_imp, beq_iff_eq] at hhead
    by_cases hfirst : piece.toList.head? = some '0'
    · have hsame : piece = "0" := by simpa using hhead hfirst
      exact .inl (by rw [hsame]; rfl)
    · exact .inr hfirst
  · have hpiece : piece = "0" := String.toList_inj.mp hsame
    have hany : palette.isZero token = true :=
      List.any_eq_true.mpr ⟨_, hdigit, by simp [DigitToken.ofPiece, hpiece]⟩
    exact Bool.eq_false_iff.mp hzero hany

end Palette

/-! ## Section 3: One more token -/

section Tokens

variable {palette : Palette} {spelling : Spelling} {token : TokenId} {real : Bool} {cap : Nat}
  {text : List Char} {piece : String}

theorem roomy_append_digits {digits : List Char} (hsome : digits ≠ [])
    (hdigits : ∀ c ∈ digits, c.isDigit = true)
    (hfits : digits.length ≤ cap - Text.byteLength text) (htext : Text.byteLength text ≤ cap) :
    Roomy cap (text ++ digits) where
  size := by
    rw [Text.byteLength_append, byteLength_digits hdigits]
    omega
  point hpoint := absurd hpoint (getLast?_append_digits text hsome hdigits)

section Append

variable (hpalette : palette.Spelled spelling)
  (hread : ∀ known, spelling token = some known → piece = known)
include hpalette hread

theorem append_empty (hcap : 4 ≤ cap) (hnext : token ∈ palette.numberNext real cap []) :
    NumberStart real piece.toList ∧ Roomy cap piece.toList := by
  rcases Palette.mem_next_empty.mp hnext with hminus | hdigit
  · have hpiece : piece.toList = ['-'] := by
      rw [hpalette.read palette.minus "-" (by simp [Palette.marks]) hminus hread]
      simp
    rw [hpiece]
    refine ⟨.sign, show 1 ≤ cap by omega, fun hlast => ?_⟩
    contradiction
  · obtain ⟨hdigits, hfits, hwhole, -⟩ := Palette.digits_of_mem hpalette hdigit hread
    have hroomy : Roomy cap ([] ++ piece.toList) :=
      roomy_append_digits hdigits.toList_ne_nil hdigits.2 hfits (Nat.zero_le cap)
    refine ⟨?_, hroomy⟩
    rw [show piece.toList = Written.text ⟨false, piece.toList, none⟩ by
      simp [Written.text, Written.fractionText]]
    exact .whole (hwhole rfl) fun _ hsign => Bool.noConfusion hsign

/-- Behind the sign there are digits, and an integer does not go on with a zero. -/
theorem append_sign (hroomy : Roomy cap ['-'])
    (hnext : token ∈ palette.numberNext real cap ['-']) :
    NumberStart real (['-'] ++ piece.toList) ∧ Roomy cap (['-'] ++ piece.toList) := by
  obtain ⟨hdigit, hzero⟩ := Palette.mem_next_sign.mp hnext
  obtain ⟨hdigits, hfits, hwhole, hnot⟩ := Palette.digits_of_mem hpalette hdigit hread
  refine ⟨?_, roomy_append_digits hdigits.toList_ne_nil hdigits.2 hfits hroomy.size⟩
  rw [show ['-'] ++ piece.toList = Written.text ⟨true, piece.toList, none⟩ by
    simp [Written.text, Written.fractionText]]
  exact .whole (hwhole rfl) fun hreal _ => hnot (hzero hreal)

/-- A point goes behind digits if there is room for one more digit. -/
theorem append_point {negative : Bool} {whole : List Char} (hreal : real = true)
    (hwhole : IsWhole whole) (hdot : palette.dot = some token)
    (hroom : Text.byteLength (Written.text ⟨negative, whole, none⟩) + 1 < cap) :
    NumberStart real (Written.text ⟨negative, whole, none⟩ ++ piece.toList)
      ∧ Roomy cap (Written.text ⟨negative, whole, none⟩ ++ piece.toList) := by
  have hpiece : piece.toList = ['.'] := by
    rw [hpalette.read palette.dot "." (by simp [Palette.marks]) hdot hread]
    simp
  have hlength : Text.byteLength (Written.text ⟨negative, whole, none⟩ ++ ['.'])
      = Text.byteLength (Written.text ⟨negative, whole, none⟩) + 1 :=
    Text.byteLength_append _ _
  rw [hpiece]
  refine ⟨?_, by omega, fun _ => by omega⟩
  rw [Written.text_whole_point]
  exact .fraction hreal hwhole (List.forall_mem_nil _)

theorem append_whole {negative : Bool} {whole : List Char} (hcap : 4 ≤ cap)
    (hwhole : IsWhole whole) (hroomy : Roomy cap (Written.text ⟨negative, whole, none⟩))
    (hnext : token ∈ palette.numberNext real cap (Written.text ⟨negative, whole, none⟩))
    (hmore : token ∉ palette.terminators) :
    NumberStart real (Written.text ⟨negative, whole, none⟩ ++ piece.toList)
      ∧ Roomy cap (Written.text ⟨negative, whole, none⟩ ++ piece.toList) := by
  by_cases hzero : whole = ['0']
  · -- behind a zero there is nothing but a point
    subst hzero
    obtain ⟨hreal, hdot⟩ := (Palette.mem_next_zero.mp hnext).resolve_left hmore
    have hroom : Text.byteLength (Written.text ⟨negative, ['0'], none⟩) ≤ 2 := by
      cases negative <;> decide
    exact append_point hpalette hread hreal hwhole hdot (by omega)
  rcases (Palette.mem_next_whole hwhole hzero).mp hnext with hdigit | hend | ⟨hreal, hdot, hroom⟩
  · obtain ⟨hdigits, hfits, -⟩ := Palette.digits_of_mem hpalette hdigit hread
    refine ⟨?_, roomy_append_digits hdigits.toList_ne_nil hdigits.2 hfits hroomy.size⟩
    rw [Written.text_whole_append]
    -- at least two digits are not a zero
    refine .whole (hwhole.append hzero hdigits.2) fun _ _ hsame => ?_
    have hlength := congrArg List.length hsame
    have hfirst := List.length_pos_iff.mpr hwhole.nonempty
    have hsecond := List.length_pos_iff.mpr hdigits.toList_ne_nil
    rw [List.length_append, List.length_singleton] at hlength
    omega
  · exact absurd hend hmore
  · exact append_point hpalette hread hreal hwhole hdot hroom

/-- Behind a point there are only digits. -/
theorem append_fraction {negative : Bool} {whole digits : List Char} (hreal : real = true)
    (hwhole : IsWhole whole) (hwritten : ∀ c ∈ digits, c.isDigit = true)
    (hroomy : Roomy cap (Written.text ⟨negative, whole, some digits⟩))
    (hnext : token ∈ palette.numberNext real cap (Written.text ⟨negative, whole, some digits⟩))
    (hmore : token ∉ palette.terminators) :
    NumberStart real (Written.text ⟨negative, whole, some digits⟩ ++ piece.toList)
      ∧ Roomy cap (Written.text ⟨negative, whole, some digits⟩ ++ piece.toList) := by
  have hdigit : token ∈ palette.digitSet false
      (cap - Text.byteLength (Written.text ⟨negative, whole, some digits⟩)) := by
    by_cases hfirst : digits = []
    · subst hfirst
      exact (Palette.mem_next_point hwhole).mp hnext
    · exact ((Palette.mem_next_fraction hwhole hfirst hwritten).mp hnext).resolve_right hmore
  obtain ⟨hdigits, hfits, -⟩ := Palette.digits_of_mem hpalette hdigit hread
  refine ⟨?_, roomy_append_digits hdigits.toList_ne_nil hdigits.2 hfits hroomy.size⟩
  rw [Written.text_fraction_append]
  exact .fraction hreal hwhole (List.forall_mem_append.mpr ⟨hwritten, hdigits.2⟩)

/-- **Invariant**: whatever token is written behind the beginning of a number, if it may follow and
    does not end the number, the text is the beginning of a number and has room. -/
theorem NumberStart.append (hcap : 4 ≤ cap) (h : NumberStart real text) (hroomy : Roomy cap text)
    (hnext : token ∈ palette.numberNext real cap text) (hmore : token ∉ palette.terminators) :
    NumberStart real (text ++ piece.toList) ∧ Roomy cap (text ++ piece.toList) := by
  cases h with
  | empty => exact append_empty hpalette hread hcap hnext
  | sign => exact append_sign hpalette hread hroomy hnext
  | whole hwhole hsign => exact append_whole hpalette hread hcap hwhole hroomy hnext hmore
  | fraction hreal hwhole hwritten =>
    exact append_fraction hpalette hread hreal hwhole hwritten hroomy hnext hmore

end Append

end Tokens

/-! ## Section 4: Completions -/

theorem isWhole_singleton {c : Char} (h : c.isDigit = true) : IsWhole [c] where
  digits := by simpa using h
  nonempty := List.cons_ne_nil _ _
  leading := by
    by_cases hzero : c = '0'
    · exact .inl (by rw [hzero])
    · exact .inr (by simpa using hzero)

/-- A number that ends with a digit needs no completion. -/
theorem numberCompletion_of_last {real : Bool} {text : List Char} (hsome : text ≠ [])
    (hsign : text ≠ ['-']) (hlast : text.getLast? ≠ some '.') :
    Writer.numberCompletion real text = "" := by
  unfold Writer.numberCompletion
  simp [hsome, hsign, hlast]

/-- A text with a digit in it is not a sign. -/
theorem Json.Written.text_ne_sign {written : Written} (h : IsWhole written.whole) :
    written.text ≠ ['-'] := by
  intro hsame
  have hmagnitude := congrArg Palette.magnitude hsame
  rw [Written.magnitude_text h] at hmagnitude
  exact h.nonempty (List.append_eq_nil_iff.mp hmagnitude).1

/-- A point needs a digit behind it, for which there is room. -/
theorem completed_point {real : Bool} {cap : Nat} {negative : Bool} {whole : List Char}
    (hreal : real = true) (hwhole : IsWhole whole)
    (hroomy : Roomy cap (Written.text ⟨negative, whole, some []⟩)) :
    ∃ written : Written, written.Fits real cap
      ∧ Written.text ⟨negative, whole, some []⟩
        ++ (Writer.numberCompletion real (Written.text ⟨negative, whole, some []⟩)).toList
          = written.text := by
  have hpoint : (Written.text ⟨negative, whole, some []⟩).getLast? = some '.' := by
    simp [Written.text, Written.fractionText]
  have hcompletion : Writer.numberCompletion real (Written.text ⟨negative, whole, some []⟩)
      = "0" := by
    unfold Writer.numberCompletion
    simp [hreal, hpoint]
  have htext : Written.text ⟨negative, whole, some []⟩ ++ ['0']
      = Written.text ⟨negative, whole, some ['0']⟩ := Written.text_fraction_append
  have hroom := hroomy.point hpoint
  have hlength := length_le_byteLength (Written.text ⟨negative, whole, some []⟩)
  refine ⟨⟨negative, whole, some ['0']⟩, ⟨⟨hwhole, ?_⟩, ?_, fun h => ?_⟩, ?_⟩
  · intro _ hfraction
    cases hfraction
    exact ⟨List.cons_ne_nil _ _, List.forall_mem_singleton.mpr rfl⟩
  · rw [← htext, List.length_append, List.length_singleton]
    omega
  · cases hreal.symm.trans h
  · rw [hcompletion]
    exact htext

/-- A number that may end is written as it stands. -/
theorem completed_of_fits {real : Bool} {cap : Nat} {written : Written}
    (h : written.Fits real cap) (hlast : written.text.getLast? ≠ some '.') :
    ∃ written' : Written, written'.Fits real cap
      ∧ written.text ++ (Writer.numberCompletion real written.text).toList = written'.text := by
  have hwhole := h.valid.whole
  rw [numberCompletion_of_last (Written.text_ne_nil hwhole) (Written.text_ne_sign hwhole) hlast]
  exact ⟨written, h, List.append_nil _⟩

/-- **Completions.**  Wherever a number is left, it is completed to a number of the same kind, which
    is not too long. -/
theorem NumberStart.completed {real : Bool} {cap : Nat} {text : List Char} (hcap : 4 ≤ cap)
    (h : NumberStart real text) (hroomy : Roomy cap text) :
    ∃ written : Written, written.Fits real cap
      ∧ text ++ (Writer.numberCompletion real text).toList = written.text := by
  have hzero : IsWhole ['0'] := isWhole_singleton rfl
  have hlength := Nat.le_trans (length_le_byteLength text) hroomy.size
  cases h with
  | empty =>
    refine ⟨⟨false, ['0'], none⟩, ⟨⟨hzero, fun _ h => nomatch h⟩, ?_, ?_⟩, by cases real <;> rfl⟩
    · exact show 1 ≤ cap by omega
    · exact fun _ => ⟨rfl, fun hsign => nomatch hsign⟩
  | sign =>
    cases real with
    | false =>
      -- an integer is never a zero with a sign
      refine ⟨⟨true, ['1'], none⟩, ⟨⟨isWhole_singleton rfl, fun _ h => nomatch h⟩, ?_, ?_⟩, rfl⟩
      · exact show 2 ≤ cap by omega
      · exact fun _ => ⟨rfl, fun _ => by decide⟩
    | true =>
      refine ⟨⟨true, ['0'], none⟩, ⟨⟨hzero, fun _ h => nomatch h⟩, ?_, fun h => nomatch h⟩, rfl⟩
      exact show 2 ≤ cap by omega
  | @whole negative whole hwhole hsign =>
    refine completed_of_fits ⟨⟨hwhole, ?_⟩, hlength, fun hreal => ⟨rfl, hsign hreal⟩⟩ ?_
    · intro _ hfraction
      cases hfraction
    · simp only [Written.text, Written.fractionText, List.append_nil]
      exact getLast?_append_digits _ hwhole.nonempty hwhole.digits
  | @fraction negative whole digits hreal hwhole hdigits =>
    by_cases hsome : digits = []
    · subst hsome
      exact completed_point hreal hwhole hroomy
    · have htext : Written.text ⟨negative, whole, some []⟩ ++ digits
          = Written.text ⟨negative, whole, some digits⟩ := Written.text_fraction_append
      refine completed_of_fits ⟨⟨hwhole, ?_⟩, hlength, fun h => ?_⟩ ?_
      · intro _ hfraction
        cases hfraction
        exact ⟨hsome, hdigits⟩
      · cases hreal.symm.trans h
      · rw [← htext]
        exact getLast?_append_digits _ hsome hdigits

/-! ## Section 5: The writer -/

namespace Writer

variable {ε s : Type} {inv : s → Prop} {hand : Hand ε s} {palette : Palette} {spelling : Spelling}
  (hhand : hand.Spells inv spelling) (hpalette : palette.Spelled spelling)
include hhand hpalette

theorem writes_numberBody (real : Bool) {cap : Nat} (hcap : 4 ≤ cap) (fuel : Nat)
    (text : List Char) :
    Writes inv (numberBody hand.noted palette real cap fuel text) fun result deed =>
      NumberStart real text → Roomy cap text →
        result = text ++ deed.text ∧ NumberStart real result ∧ Roomy cap result := by
  -- wherever the loop ends, the text is the beginning of a number
  have hend : ∀ {text : List Char} {deed : Deed}, deed.text = [] → NumberStart real text →
      Roomy cap text → text = text ++ deed.text ∧ NumberStart real text ∧ Roomy cap text :=
    fun hnone hstart hroomy => ⟨by rw [hnone, List.append_nil], hstart, hroomy⟩
  induction fuel generalizing text with
  | zero => exact writes_pure (hend rfl)
  | succ fuel ih =>
    unfold numberBody
    refine writes_ite (fun _ => writes_pure (hend rfl)) fun _ => ?_
    refine (writes_choose hhand _).bind fun chosen => ?_
    cases chosen with
    | none =>
      refine writes_pure ?_
      rintro _ ⟨rfl, -⟩
      exact hend rfl
    | some token =>
      refine writes_ite (fun _ => writes_pure ?_) fun hmore => ?_
      · rintro _ ⟨rfl, -⟩
        exact hend rfl
      refine (writes_take hhand token).bind fun piece => (ih _).mono ?_
      rintro result deed hresult _ ⟨rfl, hread⟩ _ ⟨rfl, hmem⟩ hstart hroomy
      have hnot : token ∉ palette.terminators := fun hterminator =>
        hmore ((Palette.terminators_increasing palette).contains_iff.mpr hterminator)
      obtain ⟨hnext, hroom⟩ :=
        hstart.append hpalette hread hcap hroomy (hmem token rfl) hnot
      obtain ⟨rfl, hlater⟩ := hresult hnext hroom
      exact ⟨by simp, hlater⟩

/-- **Numbers.**  What is written is a number of the kind that was asked for, within its limit. -/
theorem writes_number (real : Bool) :
    Writes inv (number hand.noted palette real) fun _ deed => ∃ written : Written,
      written.Fits real (if real then maxNumberChars else maxIntegerChars)
        ∧ deed.text = written.text := by
  have hcap : 4 ≤ if real then maxNumberChars else maxIntegerChars := by cases real <;> decide
  unfold number
  generalize (if real then maxNumberChars else maxIntegerChars) = cap at hcap ⊢
  refine (writes_patience _).bind fun fuel => ?_
  refine (writes_numberBody hhand hpalette real hcap fuel []).bind fun text => ?_
  refine (writes_literalIfAny hhand _).mono ?_
  rintro _ _ rfl body hbody _ ⟨rfl, -⟩
  obtain ⟨rfl, hstart, hroomy⟩ :=
    hbody .empty ⟨Nat.zero_le cap, fun hpoint => nomatch hpoint⟩
  exact hstart.completed hcap hroomy

end Writer

end Parley
