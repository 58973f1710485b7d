import Parley.Number.Binary
import Parley.Proofs.Number.Rounding

/-! # Arithmetic in single precision

    Every number of single precision has a rank, its place in the order of the numbers: `rank`.
    Numbers are compared as their ranks are, and ranks are integers, so what is known of an
    operation is said in ranks: division by a positive number is monotone, `rank_div_mono`, so is
    the addition of numbers that are not negative, `rank_add_mono`, and negative infinity stays what
    it is under division, multiplication and subtraction.
-/

open Float.Model Float.Model.UnpackedFloat

namespace Parley.Number

/-! ## Section 1: Ranks -/

/-- The number of a number of single precision, counted from 0 in both directions; both zeros have
    the number 0. -/
def rankOf : UnpackedFloat → ℤ
  | .notANumber => 0
  | .infinity sign => sign.apply topRank
  | .zero _ => 0
  | .finite sign mantissa exponent _ => sign.apply ((exponent + 149) * 2 ^ 23 + mantissa)

/-- The rank of `x` among the numbers of single precision. -/
def rank (x : Float32) : ℤ := rankOf x.toModel.unpack

/-- Exponents count before mantissas, as a larger exponent makes a larger number. -/
theorem compare_parts {mantissa mantissa' : ℕ} {exponent exponent' : ℤ}
    (hmantissa : mantissa < 2 ^ 24) (hmantissa' : mantissa' < 2 ^ 24)
    (hlowest : -149 ≤ exponent) (hlowest' : -149 ≤ exponent')
    (hnormal : exponent = -149 ∨ 2 ^ 23 ≤ mantissa)
    (hnormal' : exponent' = -149 ∨ 2 ^ 23 ≤ mantissa') :
    (compare exponent exponent').then (compare mantissa mantissa')
      = compare ((exponent + 149) * 2 ^ 23 + mantissa) ((exponent' + 149) * 2 ^ 23 + mantissa') := by
  rcases lt_trichotomy exponent exponent' with hlt | rfl | hgt
  · rw [compare_lt_iff_lt.mpr hlt]
    exact (compare_lt_iff_lt.mpr (by omega)).symm
  · rw [compare_eq_iff_eq.mpr rfl]
    show compare mantissa mantissa' = _
    rcases lt_trichotomy mantissa mantissa' with hlt | rfl | hgt
    · rw [compare_lt_iff_lt.mpr hlt, compare_lt_iff_lt.mpr (by omega)]
    · rw [compare_eq_iff_eq.mpr rfl, compare_eq_iff_eq.mpr rfl]
    · rw [compare_gt_iff_gt.mpr hgt, compare_gt_iff_gt.mpr (by omega)]
  · rw [compare_gt_iff_gt.mpr hgt]
    exact (compare_gt_iff_gt.mpr (by omega)).symm

namespace Stands

variable {sign other : Sign} {k l : ℤ} {number number' : UnpackedFloat}

/-- Numbers of one rank have the same parts. -/
theorem inj (h : Stands sign k number) (h' : Stands sign k number') : number = number' := by
  cases h with
  | zero =>
    generalize hk : (0 : ℤ) = k at h'
    cases h' with
    | zero => rfl
    | finite => omega
    | infinity => exact absurd hk (by decide)
  | infinity =>
    generalize hk : topRank = k at h'
    unfold topRank at hk
    cases h' with
    | zero => omega
    | finite => omega
    | infinity => rfl
  | @finite mantissa exponent _ hmant hlow _ hnorm =>
    generalize hk : (exponent + 149) * 2 ^ 23 + (mantissa : ℤ) = k at h'
    cases h' with
    | zero => omega
    | infinity =>
      unfold topRank at hk
      omega
    | @finite mantissa' exponent' _ hmant' hlow' _ hnorm' =>
      have hparts := compare_parts hmant hmant' hlow hlow' hnorm hnorm'
      rw [compare_eq_iff_eq.mpr hk, Ordering.then_eq_eq, compare_eq_iff_eq,
        compare_eq_iff_eq] at hparts
      obtain ⟨rfl, rfl⟩ := hparts
      rfl

theorem rank_eq (h : Stands sign k number) : rankOf number = sign.apply k := by
  cases h with
  | zero => cases sign <;> rfl
  | finite => rfl
  | infinity => rfl

theorem nonneg (h : Stands sign k number) : 0 ≤ k := by
  cases h <;> (try unfold topRank) <;> omega

theorem le_topRank (h : Stands sign k number) : k ≤ topRank := by
  cases h <;> unfold topRank <;> omega

theorem isNaN_eq_false (h : Stands sign k number) : number.isNaN = false := by
  cases h <;> rfl

theorem isFinite_iff (h : Stands sign k number) : number.isFinite = true ↔ k < topRank := by
  cases h <;> simp [UnpackedFloat.isFinite, topRank]
  omega

end Stands

theorem apply_zero (sign : Sign) : sign.apply 0 = 0 := by
  cases sign <;> rfl

theorem some_lt_eq {a b : ℤ} (h : a < b) : some Ordering.lt = some (compare a b) :=
  congrArg some (compare_lt_iff_lt.mpr h).symm

theorem some_gt_eq {a b : ℤ} (h : b < a) : some Ordering.gt = some (compare a b) :=
  congrArg some (compare_gt_iff_gt.mpr h).symm

theorem swap_compare (a b : ℤ) : (compare a b).swap = compare (-a) (-b) := by
  rcases lt_trichotomy a b with hlt | rfl | hgt
  · rw [compare_lt_iff_lt.mpr hlt, compare_gt_iff_gt.mpr (by omega)]
    rfl
  · rw [compare_eq_iff_eq.mpr rfl, compare_eq_iff_eq.mpr rfl]
    rfl
  · rw [compare_gt_iff_gt.mpr hgt, compare_lt_iff_lt.mpr (by omega)]
    rfl

/-- **Order.**  Numbers are compared as their ranks are. -/
theorem Stands.compare_eq {sign other : Sign} {k l : ℤ} {number number' : UnpackedFloat}
    (h : Stands sign k number) (h' : Stands other l number') :
    number.compare number' = some (compare (sign.apply k) (other.apply l)) := by
  cases h with
  | zero =>
    rw [apply_zero]
    cases h' with
    | zero => rw [apply_zero]; rfl
    | finite =>
      cases other with
      | negative => exact some_gt_eq (by simp only [Sign.apply]; omega)
      | positive => exact some_lt_eq (by simp only [Sign.apply]; omega)
    | infinity => cases other <;> rfl
  | infinity =>
    cases h' with
    | zero =>
      rw [apply_zero]
      cases sign <;> rfl
    | finite =>
      cases sign with
      | negative => exact some_lt_eq (by cases other <;> simp only [Sign.apply, topRank] <;> omega)
      | positive => exact some_gt_eq (by cases other <;> simp only [Sign.apply, topRank] <;> omega)
    | infinity => cases sign <;> cases other <;> rfl
  | finite _ hmant hlow _ hnorm =>
    cases h' with
    | zero =>
      rw [apply_zero]
      cases sign with
      | negative => exact some_lt_eq (by simp only [Sign.apply]; omega)
      | positive => exact some_gt_eq (by simp only [Sign.apply]; omega)
    | infinity =>
      cases other with
      | negative => exact some_gt_eq (by cases sign <;> simp only [Sign.apply, topRank] <;> omega)
      | positive => exact some_lt_eq (by cases sign <;> simp only [Sign.apply, topRank] <;> omega)
    | finite _ hmant' hlow' _ hnorm' =>
      have hparts := compare_parts hmant hmant' hlow hlow' hnorm hnorm'
      cases sign with
      | positive =>
        cases other with
        | positive => exact congrArg some hparts
        | negative => exact some_gt_eq (by simp only [Sign.apply]; omega)
      | negative =>
        cases other with
        | positive => exact some_lt_eq (by simp only [Sign.apply]; omega)
        | negative =>
          -- of two negative numbers the one with the larger magnitude is the smaller
          refine congrArg some ?_
          rw [hparts]
          exact swap_compare _ _

theorem stands_unpack (bits : BitVec Format.binary32.numBits) :
    (unpack .binary32 bits).isNaN = true ∨ ∃ sign k, Stands sign k (unpack .binary32 bits) := by
  rw [UnpackedFloat.unpack]
  dsimp only
  by_cases hones : unpackExponent bits = -1#8
  · rw [if_pos hones]
    by_cases hmant : unpackMantissa bits = 0#23
    · rw [if_pos hmant]
      exact .inr ⟨_, _, .infinity⟩
    · rw [if_neg hmant]
      exact .inl rfl
  rw [if_neg hones]
  right
  by_cases hzero : unpackExponent bits = 0#8
  · rw [if_pos hzero]
    by_cases hmant : unpackMantissa bits = 0#23
    · rw [dif_pos hmant]
      exact ⟨_, _, .zero⟩
    · rw [dif_neg hmant]
      have hpositive : (unpackMantissa bits).toNat ≠ 0 := by
        intro heq
        exact hmant (BitVec.eq_of_toNat_eq heq)
      have hplace : ((unpackExponent bits).toNat : ℤ) - ((127 : ℕ) + (23 : ℕ)) + 1 = -149 := by
        rw [hzero]
        rfl
      have hlt : (unpackMantissa bits).toNat < 2 ^ 23 := (unpackMantissa bits).isLt
      exact ⟨_, _, .finite (Nat.pos_of_ne_zero hpositive) (by omega) hplace.ge (by omega)
        (.inl hplace)⟩
  · rw [if_neg hzero]
    have hlt : (unpackMantissa bits).toNat < 2 ^ 23 := (unpackMantissa bits).isLt
    have happend := toNat_append_one (unpackMantissa bits)
    have hnotzero : (unpackExponent bits).toNat ≠ 0 := fun heq =>
      hzero (BitVec.eq_of_toNat_eq heq)
    have hnotones : (unpackExponent bits).toNat ≠ 255 := fun heq =>
      hones (BitVec.eq_of_toNat_eq heq)
    have hexponent : (unpackExponent bits).toNat < 256 := (unpackExponent bits).isLt
    refine ⟨_, _, .finite (by omega) (by omega) ?_ ?_ (.inr (by omega))⟩
    · show -149 ≤ ((unpackExponent bits).toNat : ℤ) - ((127 : ℕ) + (23 : ℕ))
      omega
    · show ((unpackExponent bits).toNat : ℤ) - ((127 : ℕ) + (23 : ℕ)) ≤ 104
      omega

/-! ## Section 2: Numbers of single precision -/

section Order

variable {x y : Float32}

/-- What is no NaN has a sign and a rank. -/
theorem exists_stands (h : x.isNaN = false) : ∃ sign k, Stands sign k x.toModel.unpack := by
  rcases stands_unpack x.toModel.toBits.toBitVec with hnan | hstands
  · exact absurd (hnan.symm.trans h) (by decide)
  · exact hstands

theorem Stands.isNaN_float {sign : Sign} {k : ℤ} (h : Stands sign k x.toModel.unpack) :
    x.isNaN = false := h.isNaN_eq_false

theorem lt_iff_rank_lt (hx : x.isNaN = false) (hy : y.isNaN = false) :
    x < y ↔ rank x < rank y := by
  obtain ⟨sign, k, hk⟩ := exists_stands hx
  obtain ⟨other, l, hl⟩ := exists_stands hy
  have hmodel : x < y ↔ (x.toModel.unpack.compare y.toModel.unpack == some .lt) = true :=
    decide_eq_true_iff
  rw [hmodel, hk.compare_eq hl, beq_iff_eq, Option.some_inj, compare_lt_iff_lt]
  unfold rank
  rw [hk.rank_eq, hl.rank_eq]

theorem le_iff_rank_le (hx : x.isNaN = false) (hy : y.isNaN = false) :
    x ≤ y ↔ rank x ≤ rank y := by
  obtain ⟨sign, k, hk⟩ := exists_stands hx
  obtain ⟨other, l, hl⟩ := exists_stands hy
  have hmodel : x ≤ y ↔ (x.toModel.unpack.compare y.toModel.unpack).any (·.isLE) = true :=
    decide_eq_true_iff
  rw [hmodel, hk.compare_eq hl, Option.any_some, Int.isLE_compare]
  unfold rank
  rw [hk.rank_eq, hl.rank_eq]

/-- What is taken apart in the same way is the same. -/
theorem eq_of_unpack_eq (h : x.toModel.unpack = y.toModel.unpack) : x = y := by
  obtain ⟨⟨⟨bits⟩, hvalid⟩⟩ := x
  obtain ⟨⟨⟨bits'⟩, hvalid'⟩⟩ := y
  have hbits : bits = bits' := (unpack_inj_of_valid hvalid hvalid').mp h
  subst hbits
  rfl

/-- There is only one NaN. -/
theorem eq_of_isNaN (hx : x.isNaN = true) (hy : y.isNaN = true) : x = y :=
  eq_of_unpack_eq ((isNaN_iff.mp hx).trans (isNaN_iff.mp hy).symm)

/-- A NaN is not compared to anything. -/
theorem numbers_of_le (h : x ≤ y) : x.isNaN = false ∧ y.isNaN = false := by
  have hmodel : (x.toModel.unpack.compare y.toModel.unpack).any (·.isLE) = true :=
    of_decide_eq_true h
  constructor
  · by_contra hnan
    have hunpack : x.toModel.unpack = .notANumber := isNaN_iff.mp (eq_true_of_ne_false hnan)
    rw [hunpack] at hmodel
    exact Bool.false_ne_true hmodel
  · by_contra hnan
    have hunpack : y.toModel.unpack = .notANumber := isNaN_iff.mp (eq_true_of_ne_false hnan)
    rw [hunpack] at hmodel
    cases hx : x.toModel.unpack <;> rw [hx] at hmodel <;> exact Bool.false_ne_true hmodel

theorem numbers_of_lt (h : x < y) : x.isNaN = false ∧ y.isNaN = false := by
  have hlt : (x.toModel.unpack.compare y.toModel.unpack == some .lt) = true := of_decide_eq_true h
  have hle : (x.toModel.unpack.compare y.toModel.unpack).any (·.isLE) = true := by
    rw [eq_of_beq hlt]
    rfl
  exact numbers_of_le (decide_eq_true hle)

theorem le_trans_single {z : Float32} (h : x ≤ y) (h' : y ≤ z) : x ≤ z := by
  obtain ⟨hx, hy⟩ := numbers_of_le h
  obtain ⟨-, hz⟩ := numbers_of_le h'
  rw [le_iff_rank_le hx hy] at h
  rw [le_iff_rank_le hy hz] at h'
  exact (le_iff_rank_le hx hz).mpr (h.trans h')

theorem lt_of_lt_of_le_single {z : Float32} (h : x < y) (h' : y ≤ z) : x < z := by
  obtain ⟨hx, hy⟩ := numbers_of_lt h
  obtain ⟨-, hz⟩ := numbers_of_le h'
  rw [lt_iff_rank_lt hx hy] at h
  rw [le_iff_rank_le hy hz] at h'
  exact (lt_iff_rank_lt hx hz).mpr (h.trans_le h')

theorem not_lt_of_le_single (h : x ≤ y) : ¬ y < x := by
  obtain ⟨hx, hy⟩ := numbers_of_le h
  rw [le_iff_rank_le hx hy] at h
  rw [lt_iff_rank_lt hy hx]
  exact h.not_gt

theorem isFinite_iff (h : x.isNaN = false) :
    x.isFinite = true ↔ -topRank < rank x ∧ rank x < topRank := by
  obtain ⟨sign, k, hk⟩ := exists_stands h
  have hfinite : x.isFinite = x.toModel.unpack.isFinite := rfl
  have hnonneg := hk.nonneg
  rw [hfinite, hk.isFinite_iff, rank, hk.rank_eq]
  cases sign <;> simp only [Sign.apply] <;> unfold topRank <;> omega

/-- Only numbers are finite. -/
theorem number_of_isFinite (h : x.isFinite = true) : x.isNaN = false := by
  by_contra hnan
  have hunpack : x.toModel.unpack = .notANumber := isNaN_iff.mp (eq_true_of_ne_false hnan)
  have hfinite : x.isFinite = x.toModel.unpack.isFinite := rfl
  rw [hfinite, hunpack] at h
  exact Bool.false_ne_true h

theorem rank_bounds (x : Float32) : -topRank ≤ rank x ∧ rank x ≤ topRank := by
  by_cases hnan : x.isNaN = true
  · have hunpack : x.toModel.unpack = .notANumber := isNaN_iff.mp hnan
    rw [rank, hunpack]
    decide
  · obtain ⟨sign, k, hk⟩ := exists_stands (by simpa using hnan)
    have hnonneg := hk.nonneg
    have hle := hk.le_topRank
    rw [rank, hk.rank_eq]
    cases sign <;> simp only [Sign.apply] <;> omega


end Order

/-! ## Section 3: Arithmetic -/

/-- The absolute value of a finite number. -/
def magnitude : UnpackedFloat → ℚ
  | .finite _ mantissa exponent _ => mantissa * 2 ^ exponent
  | _ => 0

namespace Stands

variable {sign other : Sign} {k l : ℤ} {number number' : UnpackedFloat}

/-- A finite number is the nearest one to itself. -/
theorem rounds (h : Stands sign k number) (hfinite : k < topRank) : Rounds (magnitude number) k := by
  cases h with
  | zero =>
    refine ⟨⟨0, false, false⟩, -149, ⟨?_, le_rfl, by norm_num [magnitude], .inl rfl⟩, rfl⟩
    show 2 * (0 / 2 ^ (-149 : ℤ)) = (0 : ℚ)
    norm_num
  | infinity => exact absurd hfinite (lt_irrefl _)
  | @finite mantissa exponent hpositive hmantissa hlowest _ hnormal =>
    have hpow : (0 : ℚ) < 2 ^ exponent := by positivity
    refine ⟨⟨mantissa, false, false⟩, exponent, ⟨?_, hlowest, ?_, ?_⟩, rfl⟩
    · have hvalue : magnitude (.finite sign mantissa exponent hpositive) / 2 ^ exponent = mantissa :=
        mul_div_cancel_right₀ _ hpow.ne'
      rw [hvalue]
      exact spans_exact mantissa
    · rw [zpow_add₀ (by norm_num), mul_comm ((2 : ℚ) ^ exponent)]
      refine mul_lt_mul_of_pos_right ?_ hpow
      exact_mod_cast hmantissa
    · refine hnormal.imp_right fun hlarge => ?_
      rw [zpow_add₀ (by norm_num), mul_comm ((2 : ℚ) ^ exponent)]
      refine mul_le_mul_of_nonneg_right ?_ hpow.le
      exact_mod_cast hlarge

theorem magnitude_pos (h : Stands sign k number) (hpositive : 0 < k) (hfinite : k < topRank) :
    0 < magnitude number := by
  cases h with
  | zero => omega
  | infinity => omega
  | finite hmantissa =>
    have hcast : (0 : ℚ) < _ := Nat.cast_pos.mpr hmantissa
    unfold magnitude
    positivity

theorem magnitude_nonneg (number : UnpackedFloat) : 0 ≤ magnitude number := by
  unfold magnitude
  split <;> positivity

theorem magnitude_eq (h : Stands sign k number) (h' : Stands other k number') :
    magnitude number = magnitude number' := by
  have hflip : ∀ {number}, Stands sign k number → ∃ number', Stands other k number'
      ∧ magnitude number' = magnitude number := by
    intro number h
    cases h with
    | zero => exact ⟨_, .zero, rfl⟩
    | finite hpos hmant hlow hhigh hnorm => exact ⟨_, .finite hpos hmant hlow hhigh hnorm, rfl⟩
    | infinity => exact ⟨_, .infinity, rfl⟩
  obtain ⟨flipped, hflipped, hmagnitude⟩ := hflip h
  rw [← hmagnitude, hflipped.inj h']

/-- A larger rank is that of a larger number. -/
theorem magnitude_mono (h : Stands sign k number) (h' : Stands other l number') (hle : k ≤ l)
    (hfinite : l < topRank) : magnitude number ≤ magnitude number' := by
  by_contra! hlt
  have hsame : k = l := le_antisymm hle
    ((h'.rounds hfinite).mono (h.rounds (by omega)) hlt.le)
  subst hsame
  exact hlt.ne (h'.magnitude_eq h)

end Stands

theorem unpack_pack_zero (sign : Sign) :
    unpack .binary32 (pack .binary32 (.zero sign)) = .zero sign := by
  cases sign <;> rfl

theorem unpack_pack_infinity (sign : Sign) :
    unpack .binary32 (pack .binary32 (.infinity sign)) = .infinity sign := by
  cases sign <;> rfl

theorem stands_zero (sign : Sign) :
    Stands sign 0 (unpack .binary32 (pack .binary32 (.zero sign))) := by
  rw [unpack_pack_zero]
  exact .zero

theorem stands_infinity (sign : Sign) :
    Stands sign topRank (unpack .binary32 (pack .binary32 (.infinity sign))) := by
  rw [unpack_pack_infinity]
  exact .infinity

section Arithmetic

variable {x y s t : Float32}

theorem abs_rank_le (x : Float32) : |rank x| ≤ topRank := by
  obtain ⟨hlow, hhigh⟩ := rank_bounds x
  exact abs_le.mpr ⟨hlow, hhigh⟩

theorem Stands.abs_rank {sign : Sign} {k : ℤ} (h : Stands sign k x.toModel.unpack) :
    |rank x| = k := by
  have hrank : rank x = sign.apply k := h.rank_eq
  rw [hrank]
  cases sign with
  | positive => exact abs_of_nonneg h.nonneg
  | negative => exact (abs_neg k).trans (abs_of_nonneg h.nonneg)

/-- What is no NaN has a sign and an absolute value. -/
theorem stands_abs (h : x.isNaN = false) :
    ∃ sign, Stands sign |rank x| x.toModel.unpack ∧ rank x = sign.apply |rank x| := by
  obtain ⟨sign, k, hk⟩ := exists_stands h
  rw [hk.abs_rank]
  exact ⟨sign, hk, hk.rank_eq⟩

/-- A NaN has the rank of zero. -/
theorem isNaN_eq_false_of_rank (h : rank x ≠ 0) : x.isNaN = false := by
  by_contra hnan
  have hunpack : x.toModel.unpack = .notANumber := isNaN_iff.mp (eq_true_of_ne_false hnan)
  rw [rank, hunpack] at h
  exact h rfl

theorem stands_of_pos (h : 0 < rank x) : Stands .positive (rank x) x.toModel.unpack := by
  obtain ⟨sign, hstands, hrank⟩ := stands_abs (isNaN_eq_false_of_rank h.ne')
  rw [abs_of_pos h] at hstands hrank
  cases sign with
  | positive => exact hstands
  | negative =>
    simp only [Sign.apply] at hrank
    omega

/-! ### Quotients -/

/-- `k` is the rank of the absolute value of `x / t`: it is rounded, zero stays zero and infinite
    stays infinite. -/
structure Divides (x t : Float32) (k : ℤ) : Prop where
  zero : rank x = 0 → k = 0
  infinite : |rank x| = topRank → k = topRank
  finite : |rank x| < topRank →
    ∃ q, Rounds (magnitude x.toModel.unpack / magnitude t.toModel.unpack) q ∧ k = min q topRank

/-- The quotient of a number and a positive finite one has the sign of the number. -/
theorem stands_div (hx : x.isNaN = false) (ht : 0 < rank t) (hfinite : rank t < topRank) :
    ∃ sign k, rank x = sign.apply |rank x| ∧ Stands sign k (x / t).toModel.unpack
      ∧ Divides x t k := by
  obtain ⟨sign, hstands, hrank⟩ := stands_abs hx
  have hdivisor := stands_of_pos ht
  have hquotient : (x / t).toModel.unpack = unpack .binary32
      (pack .binary32 (UnpackedFloat.div .binary32 x.toModel.unpack t.toModel.unpack)) := rfl
  have hsign : ∀ sign : Sign, sign / .positive = sign := fun sign => by cases sign <;> rfl
  have hzero : rank x = 0 → |rank x| = 0 := abs_eq_zero.mpr
  rw [hquotient]
  suffices h : ∃ k, Stands sign k (unpack .binary32 (pack .binary32
      (UnpackedFloat.div .binary32 x.toModel.unpack t.toModel.unpack))) ∧ (|rank x| = 0 → k = 0)
      ∧ (|rank x| = topRank → k = topRank) ∧ (|rank x| < topRank → ∃ q,
        Rounds (magnitude x.toModel.unpack / magnitude t.toModel.unpack) q ∧ k = min q topRank) by
    obtain ⟨k, hresult, hzero', hinfinite, hnear⟩ := h
    exact ⟨sign, k, hrank, hresult, fun h => hzero' (hzero h), hinfinite, hnear⟩
  generalize x.toModel.unpack = dividend at hstands
  generalize t.toModel.unpack = divisor at hdivisor
  generalize |rank x| = k at hstands
  generalize rank t = l at hdivisor ht hfinite
  cases hdivisor with
  | zero => omega
  | infinity => omega
  | @finite mantissa' exponent' hpositive' =>
    cases hstands with
    | zero =>
      refine ⟨0, ?_, id, id, fun _ => ⟨0, ?_, rfl⟩⟩
      · rw [UnpackedFloat.div, hsign]
        exact stands_zero sign
      · have hzero := (Stands.zero : Stands sign 0 (.zero sign)).rounds (by decide)
        simpa only [magnitude, zero_div] using hzero
    | infinity =>
      refine ⟨topRank, ?_, id, id, fun hlt => absurd hlt (lt_irrefl _)⟩
      rw [UnpackedFloat.div, hsign]
      exact stands_infinity sign
    | @finite mantissa exponent hpositive hmantissa hlowest hhighest =>
      obtain ⟨q, hq, hresult⟩ :=
        stands_divide (sign / .positive) exponent exponent' hpositive hpositive'
      refine ⟨min q topRank, ?_, fun hzero => ?_, fun htop => ?_, fun _ => ⟨q, hq, rfl⟩⟩
      · rw [UnpackedFloat.div]
        rwa [hsign] at hresult ⊢
      · omega
      · unfold topRank at htop
        omega

theorem isNaN_div (hx : x.isNaN = false) (ht : 0 < rank t) (hfinite : rank t < topRank) :
    (x / t).isNaN = false := by
  obtain ⟨sign, k, -, hquotient, -⟩ := stands_div hx ht hfinite
  exact hquotient.isNaN_float

/-- The larger of two absolute values has the larger quotient, and the smaller of two divisors
    gives it. -/
theorem abs_rank_div_mono (hx : x.isNaN = false) (hy : y.isNaN = false)
    (hle : |rank x| ≤ |rank y|) (hs : 0 < rank s) (hdivisors : rank s ≤ rank t)
    (hfinite : rank t < topRank) : |rank (x / t)| ≤ |rank (y / s)| := by
  have ht : 0 < rank t := hs.trans_le hdivisors
  obtain ⟨_, habs, -⟩ := stands_abs hx
  obtain ⟨_, habs', -⟩ := stands_abs hy
  obtain ⟨sign, k, -, hquotient, hdivides⟩ := stands_div hx ht hfinite
  obtain ⟨other, l, -, hquotient', hdivides'⟩ := stands_div hy hs (hdivisors.trans_lt hfinite)
  rw [hquotient.abs_rank, hquotient'.abs_rank]
  rcases (abs_rank_le y).eq_or_lt with hinfinite | hlt
  · rw [hdivides'.infinite hinfinite]
    exact hquotient.le_topRank
  · obtain ⟨q, hq, rfl⟩ := hdivides.finite (hle.trans_lt hlt)
    obtain ⟨r, hr, rfl⟩ := hdivides'.finite hlt
    have hdividends := habs.magnitude_mono habs' hle hlt
    have hmagnitudes := (stands_of_pos hs).magnitude_mono (stands_of_pos ht) hdivisors hfinite
    have hpositive := (stands_of_pos hs).magnitude_pos hs (hdivisors.trans_lt hfinite)
    have hmono := hq.mono hr
      (div_le_div₀ (Stands.magnitude_nonneg _) hdividends hpositive hmagnitudes)
    omega

/-- A quotient has the sign of the dividend. -/
theorem rank_div_nonneg (hx : x.isNaN = false) (hsign : 0 ≤ rank x) (ht : 0 < rank t)
    (hfinite : rank t < topRank) : 0 ≤ rank (x / t) := by
  obtain ⟨sign, k, hrank, hquotient, hdivides⟩ := stands_div hx ht hfinite
  have hnonneg := hquotient.nonneg
  rw [abs_of_nonneg hsign] at hrank
  have hresult : rank (x / t) = sign.apply k := hquotient.rank_eq
  rw [hresult]
  cases sign with
  | positive => exact hnonneg
  | negative =>
    have hzero := hdivides.zero (by simp only [Sign.apply] at hrank; omega)
    simp only [Sign.apply]
    omega

theorem rank_div_nonpos (hx : x.isNaN = false) (hsign : rank x ≤ 0) (ht : 0 < rank t)
    (hfinite : rank t < topRank) : rank (x / t) ≤ 0 := by
  obtain ⟨sign, k, hrank, hquotient, hdivides⟩ := stands_div hx ht hfinite
  have hnonneg := hquotient.nonneg
  rw [abs_of_nonpos hsign] at hrank
  have hresult : rank (x / t) = sign.apply k := hquotient.rank_eq
  rw [hresult]
  cases sign with
  | negative =>
    simp only [Sign.apply]
    omega
  | positive =>
    have hzero := hdivides.zero (by simp only [Sign.apply] at hrank; omega)
    exact hzero.le

/-- **Division by a positive number is monotone.** -/
theorem rank_div_mono (hx : x.isNaN = false) (hy : y.isNaN = false) (hle : rank x ≤ rank y)
    (ht : 0 < rank t) (hfinite : rank t < topRank) : rank (x / t) ≤ rank (y / t) := by
  rcases le_total 0 (rank x) with hpositive | hnegative
  · have hnonneg := rank_div_nonneg hx hpositive ht hfinite
    have hnonneg' := rank_div_nonneg hy (hpositive.trans hle) ht hfinite
    have habs := abs_rank_div_mono hx hy (abs_le_abs_of_nonneg hpositive hle) ht le_rfl hfinite
    rwa [abs_of_nonneg hnonneg, abs_of_nonneg hnonneg'] at habs
  · have hnonpos := rank_div_nonpos hx hnegative ht hfinite
    rcases le_total 0 (rank y) with hpositive | hnegative'
    · exact hnonpos.trans (rank_div_nonneg hy hpositive ht hfinite)
    · have hnonpos' := rank_div_nonpos hy hnegative' ht hfinite
      have habs := abs_rank_div_mono hy hx (abs_le_abs_of_nonpos hnegative' hle) ht le_rfl hfinite
      rw [abs_of_nonpos hnonpos, abs_of_nonpos hnonpos'] at habs
      omega

/-- A larger divisor gives the smaller quotient. -/
theorem rank_div_anti (hx : x.isNaN = false) (hsign : 0 ≤ rank x) (hs : 0 < rank s)
    (hle : rank s ≤ rank t) (hfinite : rank t < topRank) : rank (x / t) ≤ rank (x / s) := by
  have habs := abs_rank_div_mono hx hx le_rfl hs hle hfinite
  rwa [abs_of_nonneg (rank_div_nonneg hx hsign (hs.trans_le hle) hfinite),
    abs_of_nonneg (rank_div_nonneg hx hsign hs (hle.trans_lt hfinite))] at habs

/-- What is infinite stays infinite. -/
theorem abs_rank_div_of_infinite (hinfinite : |rank x| = topRank) (ht : 0 < rank t)
    (hfinite : rank t < topRank) : |rank (x / t)| = topRank := by
  have hx : x.isNaN = false := isNaN_eq_false_of_rank fun hzero => by
    rw [hzero] at hinfinite
    exact absurd hinfinite (by decide)
  obtain ⟨sign, k, -, hquotient, hdivides⟩ := stands_div hx ht hfinite
  rw [hquotient.abs_rank, hdivides.infinite hinfinite]

theorem rank_div_of_masked (hmasked : rank x = -topRank) (ht : 0 < rank t)
    (hfinite : rank t < topRank) : rank (x / t) = -topRank := by
  have hx : x.isNaN = false := isNaN_eq_false_of_rank (by rw [hmasked]; decide)
  have hnonpos := rank_div_nonpos hx (by rw [hmasked]; decide) ht hfinite
  have habs := abs_rank_div_of_infinite (by rw [hmasked]; rfl) ht hfinite
  rw [abs_of_nonpos hnonpos] at habs
  omega

/-! ### Products -/

/-- The product of a number and a positive finite one. -/
theorem stands_mul (hx : x.isNaN = false) (ht : 0 < rank t) (hfinite : rank t < topRank) :
    ∃ sign k, rank x = sign.apply |rank x| ∧ Stands sign k (x * t).toModel.unpack
      ∧ (|rank x| = topRank → k = topRank) := by
  obtain ⟨sign, hstands, hrank⟩ := stands_abs hx
  have hfactor := stands_of_pos ht
  have hproduct : (x * t).toModel.unpack = unpack .binary32
      (pack .binary32 (UnpackedFloat.mul .binary32 x.toModel.unpack t.toModel.unpack)) := rfl
  have hsign : ∀ sign : Sign, sign * .positive = sign := fun sign => by cases sign <;> rfl
  rw [hproduct]
  suffices h : ∃ k, Stands sign k (unpack .binary32 (pack .binary32
      (UnpackedFloat.mul .binary32 x.toModel.unpack t.toModel.unpack)))
      ∧ (|rank x| = topRank → k = topRank) by
    obtain ⟨k, hresult⟩ := h
    exact ⟨sign, k, hrank, hresult⟩
  generalize x.toModel.unpack = number at hstands
  generalize t.toModel.unpack = factor at hfactor
  generalize |rank x| = k at hstands
  generalize rank t = l at hfactor ht hfinite
  cases hfactor with
  | zero => omega
  | infinity => omega
  | @finite mantissa' exponent' hpositive' _ _ _ hnormal' =>
    cases hstands with
    | zero =>
      refine ⟨0, ?_, id⟩
      rw [UnpackedFloat.mul, hsign]
      exact stands_zero sign
    | infinity =>
      refine ⟨topRank, ?_, id⟩
      rw [UnpackedFloat.mul, hsign]
      exact stands_infinity sign
    | @finite mantissa exponent hpositive hmantissa hlowest hhighest hnormal =>
      obtain ⟨q, -, hresult⟩ :=
        stands_multiply (sign * .positive) hpositive hpositive' hnormal hnormal'
      refine ⟨min q topRank, ?_, fun htop => ?_⟩
      · rw [UnpackedFloat.mul]
        rwa [hsign] at hresult ⊢
      · unfold topRank at htop
        omega

theorem isNaN_mul (hx : x.isNaN = false) (ht : 0 < rank t) (hfinite : rank t < topRank) :
    (x * t).isNaN = false := by
  obtain ⟨sign, k, -, hproduct, -⟩ := stands_mul hx ht hfinite
  exact hproduct.isNaN_float

theorem rank_mul_of_masked (hmasked : rank x = -topRank) (ht : 0 < rank t)
    (hfinite : rank t < topRank) : rank (x * t) = -topRank := by
  have hx : x.isNaN = false := isNaN_eq_false_of_rank (by rw [hmasked]; decide)
  obtain ⟨sign, k, hsign, hproduct, htop⟩ := stands_mul hx ht hfinite
  have hk := htop (by rw [hmasked]; rfl)
  subst hk
  have hrank : rank (x * t) = sign.apply topRank := hproduct.rank_eq
  rw [hmasked] at hsign
  rw [hrank]
  cases sign with
  | negative => rfl
  | positive => exact absurd hsign (by decide)

/-! ### Sums and differences -/

/-- What is taken apart and put together again is what it was. -/
theorem unpack_pack_unpack (x : Float32) :
    unpack .binary32 (pack .binary32 x.toModel.unpack) = x.toModel.unpack :=
  congrArg (unpack .binary32) (pack_unpack_of_valid x.toModel.valid)

theorem unpack_add (x y : Float32) : (x + y).toModel.unpack = unpack .binary32
    (pack .binary32 (UnpackedFloat.add .binary32 x.toModel.unpack y.toModel.unpack)) := rfl

theorem unpack_sub (x y : Float32) : (x - y).toModel.unpack = unpack .binary32
    (pack .binary32 (UnpackedFloat.sub .binary32 x.toModel.unpack y.toModel.unpack)) := rfl

theorem unpack_eq_zero (hx : x.isNaN = false) (hzero : rank x = 0) :
    ∃ sign, x.toModel.unpack = .zero sign := by
  obtain ⟨sign, hstands, -⟩ := stands_abs hx
  rw [hzero, abs_zero] at hstands
  generalize hk : (0 : ℤ) = k at hstands
  generalize x.toModel.unpack = number at hstands
  cases hstands with
  | zero => exact ⟨sign, rfl⟩
  | finite => omega
  | infinity => exact absurd hk (by decide)

/-- **Zero added** changes no number, though it may change the sign of a zero. -/
theorem add_zero_cases (hy : y.isNaN = false) (hzero : rank y = 0) (x : Float32) :
    rank (x + y) = rank x ∧ (x + y).isNaN = x.isNaN := by
  obtain ⟨sign, hsign⟩ := unpack_eq_zero hy hzero
  have hsum := unpack_add x y
  have hpacked := unpack_pack_unpack x
  have hisNaN : ∀ x : Float32, x.isNaN = x.toModel.unpack.isNaN := fun _ => rfl
  rw [hisNaN, hisNaN, rank, rank, hsum, hsign]
  generalize x.toModel.unpack = number at hpacked
  have hadd : (∃ other, number = .zero other)
      ∨ UnpackedFloat.add .binary32 number (.zero sign) = number := by
    cases number with
    | zero other => exact .inl ⟨other, rfl⟩
    | notANumber => exact .inr rfl
    | infinity other => exact .inr rfl
    | finite => exact .inr rfl
  rcases hadd with ⟨other, rfl⟩ | hadd
  · cases sign <;> cases other <;> decide
  · rw [hadd, hpacked]
    exact ⟨rfl, rfl⟩

/-- A whole number of steps is rounded; its sign is kept. -/
theorem stands_normalize {steps : ℤ} (hnonzero : steps ≠ 0) (place : ℤ) (sign : Sign) :
    ∃ k, Rounds (steps.natAbs * 2 ^ place) k
      ∧ Stands (if 0 < steps then .positive else .negative) (min k topRank)
        (unpack .binary32 (pack .binary32 (UnpackedFloat.normalize .binary32 steps place sign))) := by
  unfold UnpackedFloat.normalize
  rcases lt_or_gt_of_ne hnonzero with hnegative | hpositive
  · have habs : steps.natAbs = (-steps).toNat := by omega
    rw [compare_lt_iff_lt.mpr hnegative, if_neg hnegative.not_gt, habs]
    exact stands_round_exact .negative place (by omega)
  · have habs : steps.natAbs = steps.toNat := by omega
    rw [compare_gt_iff_gt.mpr hpositive, if_pos hpositive, habs]
    exact stands_round_exact .positive place (by omega)

theorem add_comm_single (x y : Float32) : x + y = y + x := by
  have hcomm : ∀ a b : UnpackedFloat,
      UnpackedFloat.add .binary32 a b = UnpackedFloat.add .binary32 b a := by
    intro a b
    cases a with
    | notANumber => cases b <;> rfl
    | infinity sign => cases b <;> cases sign <;> (try rename_i other; cases other) <;> rfl
    | zero sign => cases b <;> cases sign <;> (try rename_i other; cases other) <;> rfl
    | finite sign mantissa exponent =>
      cases b with
      | finite other mantissa' exponent' =>
        simp only [UnpackedFloat.add, min_comm exponent exponent']
        rw [Int.add_comm]
      | _ => rfl
  exact congrArg (fun number => Float32.ofModel (Float32.Model.pack number)) (hcomm _ _)

/-- The sum of two finite numbers that are not negative is rounded. -/
theorem add_rounds (hx : x.isNaN = false) (hy : y.isNaN = false) (hxsign : 0 ≤ rank x)
    (hysign : 0 ≤ rank y) (hxfinite : rank x < topRank) (hyfinite : rank y < topRank) :
    (x + y).isNaN = false ∧ ∃ q,
      Rounds (magnitude x.toModel.unpack + magnitude y.toModel.unpack) q
        ∧ rank (x + y) = min q topRank := by
  obtain ⟨_, hstands, -⟩ := stands_abs hx
  obtain ⟨_, hstands', -⟩ := stands_abs hy
  rw [abs_of_nonneg hxsign] at hstands
  rw [abs_of_nonneg hysign] at hstands'
  rcases hxsign.eq_or_lt with hxzero | hxpositive
  · obtain ⟨hrank, hnan⟩ := add_zero_cases hx hxzero.symm y
    obtain ⟨sign, hsign⟩ := unpack_eq_zero hx hxzero.symm
    rw [add_comm_single]
    refine ⟨hnan.trans hy, rank y, ?_, ?_⟩
    · rw [hsign]
      simpa only [magnitude, zero_add] using hstands'.rounds hyfinite
    · rw [hrank, min_eq_left hyfinite.le]
  rcases hysign.eq_or_lt with hyzero | hypositive
  · obtain ⟨hrank, hnan⟩ := add_zero_cases hy hyzero.symm x
    obtain ⟨sign, hsign⟩ := unpack_eq_zero hy hyzero.symm
    refine ⟨hnan.trans hx, rank x, ?_, ?_⟩
    · rw [hsign]
      simpa only [magnitude, add_zero] using hstands.rounds hxfinite
    · rw [hrank, min_eq_left hxfinite.le]
  have hleft := stands_of_pos hxpositive
  have hright := stands_of_pos hypositive
  have hsum := unpack_add x y
  suffices h : ∃ q, Rounds (magnitude x.toModel.unpack + magnitude y.toModel.unpack) q
      ∧ Stands .positive (min q topRank) (x + y).toModel.unpack by
    obtain ⟨q, hq, hresult⟩ := h
    exact ⟨hresult.isNaN_float, q, hq, hresult.rank_eq⟩
  rw [hsum]
  generalize x.toModel.unpack = number at hleft
  generalize y.toModel.unpack = other at hright
  generalize rank x = k at hleft hxpositive hxfinite
  generalize rank y = l at hright hypositive hyfinite
  cases hleft with
  | zero => omega
  | infinity => omega
  | @finite mantissa exponent hpositive =>
    cases hright with
    | zero => omega
    | infinity => omega
    | @finite mantissa' exponent' hpositive' =>
      rw [UnpackedFloat.add]
      simp only [decreaseExponent, Sign.apply, Nat.shiftLeft_eq, ← Nat.cast_add]
      generalize hlower : min exponent exponent' = lower
      generalize hcount : (exponent - lower).toNat = count
      generalize hcount' : (exponent' - lower).toNat = count'
      have hsteps : 0 < mantissa * 2 ^ count + mantissa' * 2 ^ count' := by positivity
      have hshift : ∀ (count : ℕ) (place : ℤ), (place - lower).toNat = count → lower ≤ place →
          (2 : ℚ) ^ place = 2 ^ count * 2 ^ lower := by
        intro count place hcount hle
        rw [← zpow_natCast, ← zpow_add₀ (by norm_num)]
        congr 1
        omega
      have hvalue : (mantissa : ℚ) * 2 ^ exponent + mantissa' * 2 ^ exponent'
          = (mantissa * 2 ^ count + mantissa' * 2 ^ count' : ℕ) * 2 ^ lower := by
        rw [hshift count exponent hcount (by omega), hshift count' exponent' hcount' (by omega)]
        push_cast
        ring
      have hnonzero : ((mantissa * 2 ^ count + mantissa' * 2 ^ count' : ℕ) : ℤ) ≠ 0 := by omega
      obtain ⟨q, hq, hresult⟩ := stands_normalize hnonzero lower .positive
      rw [if_pos (by omega)] at hresult
      rw [Int.natAbs_natCast, ← hvalue] at hq
      exact ⟨q, hq, hresult⟩

/-- **Addition is monotone** on numbers that are not negative. -/
theorem rank_add_mono {x' y' : Float32} (hx : x.isNaN = false) (hy : y.isNaN = false)
    (hx' : x'.isNaN = false) (hy' : y'.isNaN = false) (hxsign : 0 ≤ rank x) (hysign : 0 ≤ rank y)
    (hxle : rank x ≤ rank x') (hyle : rank y ≤ rank y') (hxfinite : rank x' < topRank)
    (hyfinite : rank y' < topRank) : rank (x + y) ≤ rank (x' + y') := by
  obtain ⟨-, q, hq, hsum⟩ := add_rounds hx hy hxsign hysign (by omega) (by omega)
  obtain ⟨-, r, hr, hsum'⟩ := add_rounds hx' hy' (by omega) (by omega) hxfinite hyfinite
  have hle : ∀ {a b : Float32}, a.isNaN = false → b.isNaN = false → 0 ≤ rank a →
      rank a ≤ rank b → rank b < topRank →
      magnitude a.toModel.unpack ≤ magnitude b.toModel.unpack := by
    intro a b ha hb hsign hle hfinite
    obtain ⟨_, hstands, -⟩ := stands_abs ha
    obtain ⟨_, hstands', -⟩ := stands_abs hb
    rw [abs_of_nonneg hsign] at hstands
    rw [abs_of_nonneg (hsign.trans hle)] at hstands'
    exact hstands.magnitude_mono hstands' hle hfinite
  have hmono := hq.mono hr (add_le_add (hle hx hx' hxsign hxle hxfinite)
    (hle hy hy' hysign hyle hyfinite))
  rw [hsum, hsum']
  omega

/-- A sum is not below its parts. -/
theorem rank_le_add (hx : x.isNaN = false) (hy : y.isNaN = false) (hxsign : 0 ≤ rank x)
    (hysign : 0 ≤ rank y) (hxfinite : rank x < topRank) (hyfinite : rank y < topRank) :
    rank x ≤ rank (x + y) ∧ rank y ≤ rank (x + y) := by
  have hzero : Float32.isNaN 0 = false := by decide
  have hrank : rank 0 = 0 := by decide
  constructor
  · have hmono := rank_add_mono hx hzero hx hy hxsign hrank.ge le_rfl (hrank.trans_le hysign)
      hxfinite hyfinite
    rwa [(add_zero_cases hzero hrank x).1] at hmono
  · have hmono := rank_add_mono hzero hy hx hy hrank.ge hysign (hrank.trans_le hxsign) le_rfl
      hxfinite hyfinite
    rwa [add_comm_single, (add_zero_cases hzero hrank y).1] at hmono

theorem isNaN_sub (hx : x.isNaN = false) (hy : y.isNaN = false) (hfinite : |rank y| < topRank) :
    (x - y).isNaN = false := by
  obtain ⟨sign, hstands, -⟩ := stands_abs hx
  obtain ⟨other, hstands', -⟩ := stands_abs hy
  suffices h : ∃ sign k, Stands sign k (x - y).toModel.unpack by
    obtain ⟨sign, k, hresult⟩ := h
    exact hresult.isNaN_float
  rw [unpack_sub]
  generalize x.toModel.unpack = number at hstands
  generalize y.toModel.unpack = taken at hstands'
  generalize |rank x| = k at hstands
  generalize |rank y| = l at hstands' hfinite
  cases hstands' with
  | infinity => exact absurd hfinite (lt_irrefl _)
  | zero =>
    cases hstands with
    | zero => cases sign <;> cases other <;> exact ⟨_, _, stands_zero _⟩
    | infinity => exact ⟨_, _, stands_infinity sign⟩
    | finite hpositive hmantissa hlowest _ hnormal =>
      exact ⟨_, _, stands_unpack_pack sign hpositive hmantissa hlowest hnormal⟩
  | @finite mantissa' exponent' hpositive' hmantissa' hlowest' _ hnormal' =>
    cases hstands with
    | zero => exact ⟨_, _, stands_unpack_pack (-other) hpositive' hmantissa' hlowest' hnormal'⟩
    | infinity => exact ⟨_, _, stands_infinity sign⟩
    | @finite mantissa exponent =>
      rw [UnpackedFloat.sub]
      simp only [decreaseExponent]
      generalize sign.apply _ - other.apply _ = steps
      by_cases hzero : steps = 0
      · rw [hzero]
        exact ⟨_, _, stands_zero .positive⟩
      · obtain ⟨q, -, hresult⟩ := stands_normalize hzero (min exponent exponent') .positive
        exact ⟨_, _, hresult⟩

/-- Negative infinity stays what it is. -/
theorem rank_sub_of_masked (hmasked : rank x = -topRank) (hy : y.isNaN = false)
    (hfinite : |rank y| < topRank) : rank (x - y) = -topRank := by
  have hx : x.isNaN = false := isNaN_eq_false_of_rank (by rw [hmasked]; decide)
  obtain ⟨sign, hstands, hsign⟩ := stands_abs hx
  obtain ⟨other, hstands', -⟩ := stands_abs hy
  have habs : |rank x| = topRank := by rw [hmasked]; rfl
  rw [habs] at hstands hsign
  have hnegative : sign = .negative := by
    cases sign with
    | negative => rfl
    | positive => exact absurd (hmasked.symm.trans hsign) (by decide)
  rw [rank, unpack_sub, hstands.inj .infinity, hnegative]
  generalize y.toModel.unpack = taken at hstands'
  generalize |rank y| = l at hstands' hfinite
  have hinfinite := (stands_infinity .negative).rank_eq
  cases hstands' with
  | infinity => exact absurd hfinite (lt_irrefl _)
  | zero => exact hinfinite
  | finite => exact hinfinite

/-- A number that is not zero is determined by its rank. -/
theorem eq_of_rank_eq (h : rank x = rank y) (hnonzero : rank y ≠ 0) : x = y := by
  obtain ⟨sign, hstands, hsign⟩ := stands_abs (isNaN_eq_false_of_rank (h.trans_ne hnonzero))
  obtain ⟨other, hstands', hother⟩ := stands_abs (isNaN_eq_false_of_rank hnonzero)
  rw [h] at hstands hsign
  have hboth : sign = other := by
    cases sign with
    | negative =>
      cases other with
      | negative => rfl
      | positive => exact absurd (by simp only [Sign.apply] at hsign hother; omega) hnonzero
    | positive =>
      cases other with
      | positive => rfl
      | negative => exact absurd (by simp only [Sign.apply] at hsign hother; omega) hnonzero
  subst hboth
  exact eq_of_unpack_eq (hstands.inj hstands')

/-- Two finite numbers of one rank leave a zero. -/
theorem rank_sub_of_same (hx : x.isNaN = false) (hy : y.isNaN = false) (hsame : rank x = rank y)
    (hfinite : |rank y| < topRank) : rank (x - y) = 0 := by
  by_cases hzero : rank y = 0
  · obtain ⟨sign, hx⟩ := unpack_eq_zero hx (hsame.trans hzero)
    obtain ⟨other, hy⟩ := unpack_eq_zero hy hzero
    rw [rank, unpack_sub, hx, hy]
    cases sign <;> cases other <;> rfl
  · rw [eq_of_rank_eq hsame hzero, rank, unpack_sub]
    obtain ⟨sign, hstands, -⟩ := stands_abs hy
    generalize y.toModel.unpack = taken at hstands
    generalize |rank y| = l at hstands hfinite
    cases hstands with
    | infinity => exact absurd hfinite (lt_irrefl _)
    | zero => cases sign <;> rfl
    | finite =>
      rw [UnpackedFloat.sub]
      simp only [sub_self]
      exact (stands_zero .positive).rank_eq

end Arithmetic

/-- A natural number is no NaN and not negative. -/
theorem toFloat32_spec (n : UInt64) : n.toFloat32.isNaN = false ∧ 0 ≤ rank n.toFloat32 := by
  have hunpack : n.toFloat32.toModel.unpack = unpack .binary32 (pack .binary32
      (UnpackedFloat.normalize .binary32 (n.toNat : ℤ) 0 .positive)) := rfl
  suffices h : ∃ k, Stands .positive k n.toFloat32.toModel.unpack by
    obtain ⟨k, hstands⟩ := h
    have hrank : rank n.toFloat32 = k := hstands.rank_eq
    exact ⟨hstands.isNaN_float, hrank.symm ▸ hstands.nonneg⟩
  rw [hunpack]
  by_cases hzero : (n.toNat : ℤ) = 0
  · rw [hzero]
    exact ⟨0, stands_zero .positive⟩
  · obtain ⟨k, -, hstands⟩ := stands_normalize hzero 0 .positive
    rw [if_pos (by omega)] at hstands
    exact ⟨_, hstands⟩

end Parley.Number
