import Parley.Proofs.Number.Single

/-! # Exact results

    A finite number of single precision is a fraction: `toRat`.  A fraction of at most 24 binary
    digits is one of these numbers, `Short.exists_stands`, and rounding leaves it what it is,
    `Short.magnitude_eq`.  So a natural number below `2 ^ 24` is converted exactly,
    `magnitude_toFloat32`, and a quotient that is short is exact, `magnitude_div`.
-/

open Float.Model Float.Model.UnpackedFloat

namespace Parley.Number

/-- The fraction that a finite number is; 0 for what is infinite or no number. -/
def toRat (x : Float32) : ℚ :=
  match x.toModel.unpack with
  | .finite sign mantissa exponent _ => (sign.apply mantissa : ℤ) * 2 ^ exponent
  | _ => 0

/-- `v` has at most 24 binary digits, at places where a number of single precision has digits. -/
structure Short (v : ℚ) (mantissa : ℕ) (exponent : ℤ) : Prop where
  eq : v = mantissa * 2 ^ exponent
  digits : mantissa < 2 ^ 24
  lowest : -149 ≤ exponent
  highest : exponent ≤ 104

variable {x t : Float32} {v : ℚ} {mantissa : ℕ} {exponent k : ℤ}

/-- The fraction of a number that is not negative is its absolute value. -/
theorem toRat_of_nonneg (h : 0 ≤ rank x) : toRat x = magnitude x.toModel.unpack := by
  by_cases hnan : x.isNaN = false
  · obtain ⟨sign, hstands, hsign⟩ := stands_abs hnan
    unfold toRat
    generalize x.toModel.unpack = number at hstands
    generalize hk : |rank x| = k at hstands hsign
    cases hstands with
    | zero => rfl
    | infinity => rfl
    | finite hpositive _ hlowest =>
      cases sign with
      | positive => rfl
      | negative =>
        -- what is not zero has the sign of its rank
        simp only [Sign.apply] at hsign
        omega
  · have hunpack : x.toModel.unpack = .notANumber := isNaN_iff.mp (eq_true_of_ne_false hnan)
    unfold toRat
    rw [hunpack]
    rfl

/-- **Short fractions** are numbers of single precision. -/
theorem Short.exists_stands (h : Short v mantissa exponent) :
    ∃ k number, Stands .positive k number ∧ k < topRank ∧ magnitude number = v := by
  obtain ⟨rfl, hdigits, hlowest, hhighest⟩ := h
  by_cases hzero : mantissa = 0
  · subst hzero
    refine ⟨0, .zero .positive, .zero, by decide, ?_⟩
    simp [magnitude]
  · have hpositive : 0 < mantissa := Nat.pos_of_ne_zero hzero
    have hlog : mantissa.log2 < 24 := (Nat.log2_lt hzero).mpr hdigits
    -- the digits move to the left until there are 24, or the lowest place is reached
    generalize hcount : min (23 - mantissa.log2) (exponent + 149).toNat = count
    have hlog' : (mantissa * 2 ^ count).log2 = mantissa.log2 + count :=
      log2_mul_two_pow hpositive count
    have hpositive' : 0 < mantissa * 2 ^ count := Nat.mul_pos hpositive (Nat.two_pow_pos count)
    have hdigits' : mantissa * 2 ^ count < 2 ^ 24 := (Nat.log2_lt hpositive'.ne').mp (by omega)
    have hnormal : exponent - count = -149 ∨ 2 ^ 23 ≤ mantissa * 2 ^ count := by
      by_cases hlow : exponent - count = -149
      · exact .inl hlow
      · exact .inr ((Nat.le_log2 hpositive'.ne').mp (by omega))
    have hstands : Stands .positive _ (.finite .positive (mantissa * 2 ^ count) (exponent - count)
        hpositive') := .finite hpositive' hdigits' (by omega) (by omega) hnormal
    refine ⟨_, _, hstands, ?_, ?_⟩
    · unfold topRank
      omega
    · unfold magnitude
      push_cast
      rw [mul_assoc, ← zpow_natCast, ← zpow_add₀ (by norm_num)]
      congr 2
      omega

/-- **Rounding** leaves a short fraction what it is. -/
theorem Short.magnitude_eq (h : Short v mantissa exponent) (hrounds : Rounds v k) :
    k < topRank ∧ ∀ {sign number}, Stands sign k number → magnitude number = v := by
  obtain ⟨l, number', hstands', hfinite, rfl⟩ := h.exists_stands
  have hsame : k = l := by
    have hexact := hstands'.rounds hfinite
    exact le_antisymm (hrounds.mono hexact le_rfl) (hexact.mono hrounds le_rfl)
  subst hsame
  refine ⟨hfinite, ?_⟩
  intro sign number hstands
  exact hstands.magnitude_eq hstands'

/-- **Natural numbers** below `2 ^ 24` are converted exactly. -/
theorem magnitude_toFloat32 {n : UInt64} (h : n.toNat < 2 ^ 24) :
    rank n.toFloat32 < topRank ∧ magnitude n.toFloat32.toModel.unpack = n.toNat := by
  have hunpack : n.toFloat32.toModel.unpack = unpack .binary32 (pack .binary32
      (UnpackedFloat.normalize .binary32 (n.toNat : ℤ) 0 .positive)) := rfl
  rw [rank, hunpack]
  by_cases hzero : (n.toNat : ℤ) = 0
  · have hcast : (n.toNat : ℚ) = 0 := by exact_mod_cast hzero
    rw [hzero, hcast]
    exact ⟨by decide, rfl⟩
  · obtain ⟨k, hrounds, hstands⟩ := stands_normalize hzero 0 .positive
    have hshort : Short ((n.toNat : ℤ).natAbs * 2 ^ (0 : ℤ)) n.toNat 0 :=
      ⟨by rw [Int.natAbs_natCast], h, by decide, by decide⟩
    obtain ⟨hfinite, hmagnitude⟩ := hshort.magnitude_eq hrounds
    rw [if_pos (by omega), min_eq_left hfinite.le] at hstands
    rw [hstands.rank_eq, hmagnitude hstands]
    exact ⟨hfinite, by simp⟩

/-- **A quotient** that is short is exact. -/
theorem magnitude_div (hx : x.isNaN = false) (hfinite : |rank x| < topRank) (ht : 0 < rank t)
    (hdivisor : rank t < topRank)
    (hshort : Short (magnitude x.toModel.unpack / magnitude t.toModel.unpack) mantissa exponent) :
    |rank (x / t)| < topRank
      ∧ magnitude (x / t).toModel.unpack
        = magnitude x.toModel.unpack / magnitude t.toModel.unpack := by
  obtain ⟨sign, k, -, hquotient, hdivides⟩ := stands_div hx ht hdivisor
  obtain ⟨q, hrounds, rfl⟩ := hdivides.finite hfinite
  obtain ⟨hless, hmagnitude⟩ := hshort.magnitude_eq hrounds
  rw [min_eq_left hless.le] at hquotient
  exact ⟨hquotient.abs_rank.trans_lt hless, hmagnitude hquotient⟩

end Parley.Number
