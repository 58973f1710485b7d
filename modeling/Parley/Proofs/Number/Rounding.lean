import Mathlib

/-! # Rounding to single precision

    The numbers of single precision are counted from 0 on: subnormal ones first, then from one power
    of two to the next, infinity last.  Rounding is read as finding a place in this order,
    `Rounds`, and it is monotone: `Rounds.mono`.  What the model of floating-point numbers computes,
    a mantissa that is shifted with two further bits, rounded, and packed into 32 bits, is the
    number at that place: `stands_round`.  Sums, products and quotients of mantissas are given to it
    with all the digits that it needs.
-/

open Float.Model Float.Model.UnpackedFloat

namespace Parley.Number

/-! ## Section 1: Mantissas with two further bits -/

/-- The mantissa in halves of a step, with the half that the first of the further bits stands
    for. -/
def halves (extended : ExtendedMantissa) : ℕ :=
  2 * extended.mantissa + extended.roundBit.toNat

/-- `q` is what the extended mantissa says: a number of halves, or strictly between two of them if
    the sticky bit is set. -/
def Spans (extended : ExtendedMantissa) (q : ℚ) : Prop :=
  if extended.stickyBit then halves extended < 2 * q ∧ 2 * q < halves extended + 1
  else 2 * q = halves extended

theorem halves_shiftRightOne (extended : ExtendedMantissa) :
    halves extended.shiftRightOne = extended.mantissa := by
  unfold halves ExtendedMantissa.shiftRightOne
  rcases Nat.mod_two_eq_zero_or_one extended.mantissa with heven | hodd
  · simp only [heven, bne_self_eq_false, Bool.toNat_false]
    omega
  · simp only [hodd, (by decide : (1 != 0) = true), Bool.toNat_true]
    omega

theorem roundedMantissa_eq (extended : ExtendedMantissa) :
    extended.roundedMantissa = match extended.roundBit, extended.stickyBit with
      | false, _ => extended.mantissa
      | true, false => extended.mantissa + extended.mantissa % 2
      | true, true => extended.mantissa + 1 := by
  obtain ⟨mantissa, roundBit, stickyBit⟩ := extended
  cases roundBit <;> cases stickyBit <;> rfl

theorem roundedMantissa_bounds (extended : ExtendedMantissa) :
    extended.mantissa ≤ extended.roundedMantissa
      ∧ extended.roundedMantissa ≤ extended.mantissa + 1 := by
  rw [roundedMantissa_eq]
  split <;> omega

namespace Spans

variable {extended other : ExtendedMantissa} {q r : ℚ}

theorem bounds (h : Spans extended q) :
    (halves extended : ℚ) ≤ 2 * q ∧ 2 * q < halves extended + 1 := by
  unfold Spans at h
  split at h
  · exact ⟨h.1.le, h.2⟩
  · constructor <;> linarith

/-- The mantissa is the integer part. -/
theorem floor (h : Spans extended q) :
    (extended.mantissa : ℚ) ≤ q ∧ q < extended.mantissa + 1 := by
  obtain ⟨hlow, hhigh⟩ := h.bounds
  have hhalves : 2 * extended.mantissa ≤ halves extended
      ∧ halves extended ≤ 2 * extended.mantissa + 1 := by
    unfold halves
    cases extended.roundBit <;> simp
  have hcast : (2 * extended.mantissa : ℚ) ≤ halves extended
      ∧ (halves extended : ℚ) ≤ 2 * extended.mantissa + 1 := by exact_mod_cast hhalves
  constructor <;> linarith [hcast.1, hcast.2]

/-- What is shifted out is kept in the two further bits. -/
theorem shiftRightOne (h : Spans extended q) : Spans extended.shiftRightOne (q / 2) := by
  have hq : 2 * (q / 2) = q := by ring
  obtain ⟨hlow, hhigh⟩ := h.floor
  unfold Spans
  rw [halves_shiftRightOne, hq]
  by_cases hbits : extended.shiftRightOne.stickyBit = true
  · rw [if_pos hbits]
    refine ⟨lt_of_le_of_ne hlow fun heq => ?_, hhigh⟩
    -- nothing is left of an integer behind its mantissa
    unfold Spans halves at h
    rw [← heq] at h
    cases hround : extended.roundBit <;> cases hsticky : extended.stickyBit <;>
      simp [ExtendedMantissa.shiftRightOne, hround, hsticky] at h hbits
    norm_num at h
  · rw [if_neg hbits]
    have hnone : extended.roundBit = false ∧ extended.stickyBit = false := by
      simpa [ExtendedMantissa.shiftRightOne] using hbits
    unfold Spans halves at h
    simp only [hnone.1, hnone.2, Bool.toNat_false, Bool.false_eq_true, if_false] at h
    push_cast at h
    linarith

theorem shiftRight (h : Spans extended q) (count : ℕ) :
    Spans (extended >>> count) (q / 2 ^ count) := by
  induction count with
  | zero =>
    rw [pow_zero, div_one]
    exact h
  | succ count ih =>
    have hstep := ih.shiftRightOne
    rwa [div_div, ← pow_succ] at hstep

/-- **Rounding to the nearest integer is monotone**: the larger number is not below in halves, and
    of two equal numbers of halves the one with something behind it is not smaller. -/
theorem roundedMantissa_mono (h : Spans extended q) (hother : Spans other r) (hle : q ≤ r) :
    extended.roundedMantissa ≤ other.roundedMantissa := by
  have hbelow : halves extended < halves other + 1 := by
    have hcast : (halves extended : ℚ) < halves other + 1 := by linarith [h.bounds.1, hother.bounds.2]
    exact_mod_cast hcast
  have hsticky : halves extended = halves other → extended.stickyBit = true →
      other.stickyBit = true := by
    intro hsame hset
    by_contra hclear
    unfold Spans at h hother
    rw [if_pos hset, hsame] at h
    rw [if_neg hclear] at hother
    linarith [h.1]
  rw [roundedMantissa_eq, roundedMantissa_eq]
  unfold halves at hbelow hsticky
  cases hround : extended.roundBit <;> cases hround' : other.roundBit <;>
    cases hset : extended.stickyBit <;> cases hset' : other.stickyBit <;>
    simp only [hround, hround', hset, hset', Bool.toNat_true, Bool.toNat_false] at hbelow hsticky ⊢ <;>
    grind

end Spans

/-! ## Section 2: Ranks are monotone -/

/-- `v` is rounded to `extended` steps of `2 ^ place`: the step is the one of the numbers of single
    precision around `v`. -/
structure Nearest (v : ℚ) (extended : ExtendedMantissa) (place : ℤ) : Prop where
  spans : Spans extended (v / 2 ^ place)
  lowest : -149 ≤ place
  below : v < 2 ^ (place + 24)
  above : place = -149 ∨ (2 : ℚ) ^ (place + 23) ≤ v

/-- The number of the nearest number of single precision, counted from 0 on, as if there were no
    largest one. -/
def Rounds (v : ℚ) (rank : ℤ) : Prop :=
  ∃ extended place, Nearest v extended place
    ∧ rank = (place + 149) * 2 ^ 23 + extended.roundedMantissa

namespace Nearest

variable {extended other : ExtendedMantissa} {v w : ℚ} {place lower : ℤ}

theorem two_zpow_pos (place : ℤ) : (0 : ℚ) < 2 ^ place := by positivity

theorem mantissa_lt (h : Nearest v extended place) : extended.mantissa < 2 ^ 24 := by
  have hpow := two_zpow_pos place
  have hlt : v / 2 ^ place < 2 ^ 24 := by
    rw [div_lt_iff₀ hpow, ← zpow_natCast, ← zpow_add₀ (by norm_num)]
    have hbelow := h.below
    rwa [add_comm] at hbelow
  have hcast : (extended.mantissa : ℚ) < 2 ^ 24 := lt_of_le_of_lt h.spans.floor.1 hlt
  exact_mod_cast hcast

theorem le_mantissa (h : Nearest v extended place) (hplace : place ≠ -149) :
    2 ^ 23 ≤ extended.mantissa := by
  have hpow := two_zpow_pos place
  have hle : (2 : ℚ) ^ 23 ≤ v / 2 ^ place := by
    rw [le_div_iff₀ hpow, ← zpow_natCast, ← zpow_add₀ (by norm_num)]
    have habove := h.above.resolve_left hplace
    rwa [add_comm] at habove
  have hcast : ((2 ^ 23 : ℕ) : ℚ) < extended.mantissa + 1 := by
    push_cast
    exact lt_of_le_of_lt hle h.spans.floor.2
  have hnat : 2 ^ 23 < extended.mantissa + 1 := by exact_mod_cast hcast
  omega

end Nearest

/-- **Rounding is monotone**, also from one step to another. -/
theorem Rounds.mono {v w : ℚ} {k l : ℤ} (h : Rounds v k) (hother : Rounds w l) (hle : v ≤ w) :
    k ≤ l := by
  obtain ⟨extended, place, hnear, rfl⟩ := h
  obtain ⟨other, place', hnear', rfl⟩ := hother
  have hbounds := roundedMantissa_bounds extended
  have hbounds' := roundedMantissa_bounds other
  have hupper := hnear.mantissa_lt
  rcases lt_trichotomy place place' with hlt | rfl | hgt
  · -- the larger number is beyond the last step of the smaller one
    have hlower := hnear'.le_mantissa (by have := hnear.lowest; omega)
    have hsteps : (place + 150) * 2 ^ 23 ≤ (place' + 149) * 2 ^ 23 := by
      apply mul_le_mul_of_nonneg_right <;> omega
    omega
  · have hmono := hnear.spans.roundedMantissa_mono hnear'.spans
      (div_le_div_of_nonneg_right hle (Nearest.two_zpow_pos place).le)
    omega
  · -- the smaller number would be beyond the last step of the larger one
    have hlower := hnear.above.resolve_left (by have := hnear'.lowest; omega)
    have hsteps : (2 : ℚ) ^ (place' + 24) ≤ 2 ^ (place + 23) :=
      zpow_le_zpow_right₀ (by norm_num) (by omega)
    linarith [hnear'.below]

/-! ## Section 3: Rounding a mantissa -/

theorem targetExponent_eq (total : ℤ) :
    Format.binary32.targetExponent total = max (total - 24) (-149) := rfl

/-- The first shift finds the step: whatever is left out of the mantissa is kept in mind. -/
theorem nearest_shiftToTargetExponent {mantissa : ℕ} {exponent : ℤ} {accuracy : Accuracy} {v : ℚ}
    (hspans : Spans (.ofMantissaAndAccuracy mantissa accuracy) (v / 2 ^ exponent))
    (hexponent : exponent ≤ Format.binary32.targetExponent (totalExponent mantissa exponent)) :
    Nearest v (shiftToTargetExponent .binary32 mantissa exponent accuracy).1
        (Format.binary32.targetExponent (totalExponent mantissa exponent))
      ∧ (shiftToTargetExponent .binary32 mantissa exponent accuracy).2
        = Format.binary32.targetExponent (totalExponent mantissa exponent) := by
  have hmantissa : (ExtendedMantissa.ofMantissaAndAccuracy mantissa accuracy).mantissa = mantissa := by
    rcases accuracy with _ | order
    · rfl
    · cases order <;> rfl
  obtain ⟨hlow, hhigh⟩ := hspans.floor
  rw [hmantissa] at hlow hhigh
  have hpow : (0 : ℚ) < 2 ^ exponent := by positivity
  rw [le_div_iff₀ hpow] at hlow
  rw [div_lt_iff₀ hpow] at hhigh
  generalize htarget : Format.binary32.targetExponent (totalExponent mantissa exponent) = place
    at hexponent
  rw [targetExponent_eq, totalExponent] at htarget
  have hcount : exponent + (place - exponent).toNat = place := by omega
  refine ⟨⟨?_, by omega, ?_, ?_⟩, ?_⟩
  · have hshift := hspans.shiftRight (place - exponent).toNat
    rw [div_div, ← zpow_natCast, ← zpow_add₀ (by norm_num), hcount] at hshift
    simpa only [shiftToTargetExponent, shiftToExponent, targetExponent_eq, totalExponent, htarget]
      using hshift
  · -- a number with so many binary digits is below the next power of two
    have hlog : ((mantissa + 1 : ℕ) : ℚ) ≤ ((2 ^ (mantissa.log2 + 1) : ℕ) : ℚ) := by
      exact_mod_cast Nat.lt_log2_self
    calc v < (mantissa + 1) * 2 ^ exponent := hhigh
      _ ≤ 2 ^ (mantissa.log2 + 1) * 2 ^ exponent := by
        push_cast at hlog
        exact mul_le_mul_of_nonneg_right hlog hpow.le
      _ = 2 ^ ((mantissa.log2 + 1 : ℕ) + exponent) := by
        rw [zpow_add₀ (by norm_num), zpow_natCast]
      _ ≤ 2 ^ (place + 24) := zpow_le_zpow_right₀ (by norm_num) (by push_cast; omega)
  · by_cases hlowest : place = -149
    · exact .inl hlowest
    right
    -- zero has no digits, and would be at the lowest place
    have hpositive : mantissa ≠ 0 := by
      rintro rfl
      simp at htarget
      omega
    have hlog : ((2 ^ mantissa.log2 : ℕ) : ℚ) ≤ (mantissa : ℚ) := by
      exact_mod_cast Nat.log2_self_le hpositive
    calc (2 : ℚ) ^ (place + 23) = 2 ^ ((mantissa.log2 : ℤ) + exponent) := by congr 1; omega
      _ = 2 ^ mantissa.log2 * 2 ^ exponent := by rw [zpow_add₀ (by norm_num), zpow_natCast]
      _ ≤ mantissa * 2 ^ exponent := by
        push_cast at hlog
        exact mul_le_mul_of_nonneg_right hlog hpow.le
      _ ≤ v := hlow
  · simp only [shiftToTargetExponent, shiftToExponent, targetExponent_eq, totalExponent, htarget]
    exact hcount

/-- The largest rank: that of infinity. -/
def topRank : ℤ := 255 * 2 ^ 23

/-- `number` is the number of single precision with the given sign and rank, as it is taken
    apart. -/
inductive Stands (sign : Sign) : ℤ → UnpackedFloat → Prop
  | zero : Stands sign 0 (.zero sign)
  | finite {mantissa : ℕ} {exponent : ℤ} (hpositive : 0 < mantissa) (hmantissa : mantissa < 2 ^ 24)
      (hlowest : -149 ≤ exponent) (hhighest : exponent ≤ 104)
      (hnormal : exponent = -149 ∨ 2 ^ 23 ≤ mantissa) :
      Stands sign ((exponent + 149) * 2 ^ 23 + mantissa) (.finite sign mantissa exponent hpositive)
  | infinity : Stands sign topRank (.infinity sign)

theorem toNat_append_one (mantissa : BitVec 23) :
    (1#1 ++ mantissa).toNat = 2 ^ 23 + mantissa.toNat := by
  rw [BitVec.toNat_append, ← Nat.shiftLeft_add_eq_or_of_lt mantissa.isLt]
  rfl

/-- Packing keeps a number; what is too large becomes infinite. -/
theorem stands_unpack_pack (sign : Sign) {mantissa : ℕ} {exponent : ℤ} (hpositive : 0 < mantissa)
    (hmantissa : mantissa < 2 ^ 24) (hlowest : -149 ≤ exponent)
    (hnormal : exponent = -149 ∨ 2 ^ 23 ≤ mantissa) :
    Stands sign (min ((exponent + 149) * 2 ^ 23 + mantissa) topRank)
      (unpack .binary32 (pack .binary32 (.finite sign mantissa exponent hpositive))) := by
  have hbiased : (exponent + Format.binary32.exponentBias
      + Format.binary32.mantissaBitsWithoutImplicit).toNat = (exponent + 150).toNat := by
    show (exponent + (127 : ℕ) + (23 : ℕ)).toNat = (exponent + 150).toNat
    omega
  have hbits : Format.binary32.mantissaBits = 24 := rfl
  rw [UnpackedFloat.pack]
  simp only [hbiased, hbits]
  by_cases hlarge : 105 ≤ exponent
  · rw [if_pos (by show 2 ^ 8 ≤ _; omega)]
    have hcap : min ((exponent + 149) * 2 ^ 23 + (mantissa : ℤ)) topRank = topRank := by
      unfold topRank
      omega
    rw [hcap]
    cases sign <;> exact .infinity
  rw [if_neg (by show ¬ 2 ^ 8 ≤ _; omega)]
  have hcap : min ((exponent + 149) * 2 ^ 23 + (mantissa : ℤ)) topRank
      = (exponent + 149) * 2 ^ 23 + mantissa := by
    unfold topRank
    omega
  rw [hcap]
  by_cases hnormal' : 2 ^ 23 ≤ mantissa
  · -- a normal number: its leading digit is not stored
    have hlog : mantissa.log2 = 23 := by
      have hle : 23 ≤ mantissa.log2 := (Nat.le_log2 (by omega)).mpr hnormal'
      have hlt : mantissa.log2 < 24 := (Nat.log2_lt (by omega)).mpr hmantissa
      omega
    have hexp : (BitVec.ofNat 8 (exponent + 150).toNat).toNat = (exponent + 150).toNat := by
      rw [BitVec.toNat_ofNat]
      omega
    have hones : BitVec.ofNat 8 (exponent + 150).toNat ≠ -1#8 := by
      intro heq
      have hnat := congrArg BitVec.toNat heq
      rw [hexp] at hnat
      simp at hnat
      omega
    have hzero : BitVec.ofNat 8 (exponent + 150).toNat ≠ 0#8 := by
      intro heq
      have hnat := congrArg BitVec.toNat heq
      rw [hexp] at hnat
      simp at hnat
      omega
    have hmant : (1#1 ++ BitVec.ofNat 23 mantissa).toNat = mantissa := by
      rw [toNat_append_one, BitVec.toNat_ofNat]
      omega
    have hplace : ((exponent + 150).toNat : ℤ) - ((127 : ℕ) + (23 : ℕ)) = exponent := by omega
    rw [if_pos (by omega), UnpackedFloat.unpack]
    simp only [unpackMantissa_packComponents, unpackExponent_packComponents,
      unpackSign_packComponents, Sign.ofBitVec_toBitVec]
    rw [if_neg hones, if_neg hzero]
    simp only [hmant, hexp]
    rw [show ((exponent + 150).toNat : ℤ) - (Format.binary32.exponentBias
      + Format.binary32.mantissaBitsWithoutImplicit) = exponent from hplace]
    exact .finite hpositive hmantissa hlowest (by omega) hnormal
  · -- a subnormal number is stored with all its digits
    have hexponent : exponent = -149 := hnormal.resolve_right hnormal'
    subst hexponent
    have hlog : mantissa.log2 < 23 := (Nat.log2_lt (by omega)).mpr (by omega)
    have hmant : (BitVec.ofNat 23 mantissa).toNat = mantissa := by
      rw [BitVec.toNat_ofNat]
      omega
    have hzero : BitVec.ofNat 23 mantissa ≠ 0#23 := by
      intro heq
      have hnat := congrArg BitVec.toNat heq
      rw [hmant] at hnat
      simp at hnat
      omega
    rw [if_neg (by omega), UnpackedFloat.unpack]
    simp only [unpackMantissa_packComponents, unpackExponent_packComponents,
      unpackSign_packComponents, Sign.ofBitVec_toBitVec]
    rw [if_neg (by decide), if_pos trivial, dif_neg hzero]
    simp only [hmant]
    exact .finite hpositive hmantissa hlowest (by omega) hnormal

/-- A mantissa of few digits is not shifted, one of 25 is shifted once. -/
theorem shiftToTargetExponent_exact {mantissa : ℕ} {place : ℤ} (hplace : -149 ≤ place)
    (hmantissa : mantissa ≤ 2 ^ 24) :
    shiftToTargetExponent .binary32 mantissa place .exact
      = if mantissa = 2 ^ 24 then (⟨2 ^ 23, false, false⟩, place + 1)
        else (⟨mantissa, false, false⟩, place) := by
  by_cases hcarry : mantissa = 2 ^ 24
  · subst hcarry
    have htarget : Format.binary32.targetExponent (totalExponent (2 ^ 24) place) = place + 1 := by
      rw [targetExponent_eq, totalExponent, Nat.log2_two_pow]
      omega
    have hcount : (place + 1 - place).toNat = 1 := by omega
    rw [if_pos rfl]
    simp only [shiftToTargetExponent, shiftToExponent, htarget, hcount]
    rfl
  · have hlog : mantissa.log2 < 24 := by
      by_cases hzero : mantissa = 0
      · rw [hzero]
        decide
      · exact (Nat.log2_lt hzero).mpr (by omega)
    have hcount : (Format.binary32.targetExponent (totalExponent mantissa place) - place).toNat
        = 0 := by
      rw [targetExponent_eq, totalExponent]
      omega
    rw [if_neg hcarry]
    simp only [shiftToTargetExponent, shiftToExponent, hcount, Nat.cast_zero, add_zero]
    rfl

/-- **Rounding.**  The number that stands for a mantissa, and for what is left of it, is the one
    nearest to it. -/
theorem stands_round {sign : Sign} {mantissa : ℕ} {exponent : ℤ} {accuracy : Accuracy} {v : ℚ}
    (hspans : Spans (.ofMantissaAndAccuracy mantissa accuracy) (v / 2 ^ exponent))
    (hexponent : exponent ≤ Format.binary32.targetExponent (totalExponent mantissa exponent)) :
    ∃ k, Rounds v k ∧ Stands sign (min k topRank) (unpack .binary32 (pack .binary32
      (roundWithAccuracy .binary32 sign mantissa exponent accuracy))) := by
  obtain ⟨hnear, hplace⟩ := nearest_shiftToTargetExponent hspans hexponent
  unfold roundWithAccuracy
  generalize shiftToTargetExponent .binary32 mantissa exponent accuracy = shifted at hnear hplace
  obtain ⟨extended, place⟩ := shifted
  dsimp only at hnear hplace ⊢
  rw [← hplace] at hnear
  refine ⟨_, ⟨extended, place, hnear, rfl⟩, ?_⟩
  have hlowest := hnear.lowest
  have hupper : extended.roundedMantissa ≤ 2 ^ 24 := by
    have hlt := hnear.mantissa_lt
    have hbounds := roundedMantissa_bounds extended
    omega
  have hnormal : place = -149 ∨ 2 ^ 23 ≤ extended.roundedMantissa := by
    by_cases hplace : place = -149
    · exact .inl hplace
    · exact .inr ((hnear.le_mantissa hplace).trans (roundedMantissa_bounds extended).1)
  rw [shiftToTargetExponent_exact hlowest hupper]
  generalize extended.roundedMantissa = rounded at hupper hnormal
  by_cases hcarry : rounded = 2 ^ 24
  · -- a carry out of the mantissa runs into the exponent
    subst hcarry
    have hrank : (place + 149) * 2 ^ 23 + ((2 ^ 24 : ℕ) : ℤ)
        = (place + 1 + 149) * 2 ^ 23 + ((2 ^ 23 : ℕ) : ℤ) := by
      push_cast
      ring
    rw [hrank]
    exact stands_unpack_pack sign (by decide) (by decide) (by omega) (.inr le_rfl)
  simp only [if_neg hcarry]
  by_cases hzero : rounded = 0
  · subst hzero
    have hrank : min ((place + 149) * 2 ^ 23 + ((0 : ℕ) : ℤ)) topRank = 0 := by
      unfold topRank
      omega
    rw [hrank, dif_pos rfl]
    cases sign <;> exact .zero
  · rw [dif_neg hzero]
    exact stands_unpack_pack sign (by omega) (by omega) hlowest hnormal

/-! ## Section 4: Computing a mantissa -/

theorem log2_mul_two_pow {mantissa : ℕ} (hpositive : 0 < mantissa) (count : ℕ) :
    (mantissa * 2 ^ count).log2 = mantissa.log2 + count := by
  have hcount : 0 < 2 ^ count := Nat.two_pow_pos count
  rw [Nat.log2_eq_iff (Nat.mul_pos hpositive hcount).ne', Nat.pow_add, Nat.add_right_comm,
    Nat.pow_add]
  exact ⟨Nat.mul_le_mul_right _ (Nat.log2_self_le hpositive.ne'),
    Nat.mul_lt_mul_of_pos_right Nat.lt_log2_self hcount⟩

theorem spans_exact (mantissa : ℕ) : Spans (.ofMantissaAndAccuracy mantissa .exact) mantissa := by
  show 2 * (mantissa : ℚ) = ((2 * mantissa + 0 : ℕ) : ℚ)
  push_cast
  ring

/-- A number that is given exactly is rounded to the nearest one. -/
theorem stands_round_exact (sign : Sign) {mantissa : ℕ} (exponent : ℤ) (hpositive : 0 < mantissa) :
    ∃ k, Rounds (mantissa * 2 ^ exponent) k
      ∧ Stands sign (min k topRank) (unpack .binary32 (pack .binary32
        (UnpackedFloat.round .binary32 sign mantissa exponent))) := by
  unfold UnpackedFloat.round decreaseExponent
  dsimp only
  generalize hplace : Format.binary32.targetExponent (totalExponent mantissa exponent) = place
  rw [targetExponent_eq, totalExponent] at hplace
  rw [Nat.shiftLeft_eq]
  have hlog : (mantissa * 2 ^ (exponent - place).toNat).log2
      = mantissa.log2 + (exponent - place).toNat := log2_mul_two_pow hpositive _
  have hpow : (0 : ℚ) < 2 ^ (exponent - ((exponent - place).toNat : ℤ)) := by positivity
  refine stands_round ?_ ?_
  · have hsame : (mantissa : ℚ) * 2 ^ exponent / 2 ^ (exponent - ((exponent - place).toNat : ℤ))
        = ((mantissa * 2 ^ (exponent - place).toNat : ℕ) : ℚ) := by
      rw [div_eq_iff hpow.ne']
      push_cast
      rw [mul_assoc, ← zpow_natCast, ← zpow_add₀ (by norm_num)]
      congr 2
      omega
    rw [hsame]
    exact spans_exact _
  · rw [targetExponent_eq, totalExponent, hlog]
    push_cast
    omega

theorem spans_fraction (dividend : ℕ) {divisor : ℕ} (hpositive : 0 < divisor) :
    Spans (.ofMantissaAndAccuracy (dividend / divisor)
      (accuracyOfFraction (dividend % divisor) divisor)) (dividend / divisor) := by
  have hdivisor : (0 : ℚ) < divisor := by exact_mod_cast hpositive
  have hlt := Nat.mod_lt dividend hpositive
  have hsplit : (2 : ℚ) * (dividend / divisor)
      = (2 * (dividend / divisor : ℕ) : ℕ) + (2 * (dividend % divisor) : ℕ) / divisor := by
    have hnat : (divisor : ℚ) * (dividend / divisor : ℕ) + (dividend % divisor : ℕ) = dividend := by
      exact_mod_cast Nat.div_add_mod dividend divisor
    rw [← hnat]
    push_cast
    field_simp
  generalize dividend / divisor = quotient at hsplit
  generalize dividend % divisor = rest at hsplit hlt
  unfold accuracyOfFraction Spans halves
  rw [hsplit]
  by_cases hzero : rest = 0
  · rw [if_pos hzero]
    simp [ExtendedMantissa.ofMantissaAndAccuracy, hzero]
  rw [if_neg hzero]
  rcases lt_trichotomy (2 * rest) divisor with hbelow | hhalf | habove
  · -- the rest is less than a half
    rw [compare_lt_iff_lt.mpr hbelow]
    have hless : ((2 * rest : ℕ) : ℚ) / divisor < 1 := by
      rw [div_lt_one hdivisor]
      exact_mod_cast hbelow
    have hmore : (0 : ℚ) < ((2 * rest : ℕ) : ℚ) / divisor :=
      div_pos (by exact_mod_cast (by omega : 0 < 2 * rest)) hdivisor
    simp only [ExtendedMantissa.ofMantissaAndAccuracy, if_true, Bool.toNat_false, add_zero]
    constructor <;> linarith
  · rw [compare_eq_iff_eq.mpr hhalf]
    have hone : ((2 * rest : ℕ) : ℚ) / divisor = 1 := by
      rw [hhalf]
      exact div_self hdivisor.ne'
    simp only [ExtendedMantissa.ofMantissaAndAccuracy, Bool.false_eq_true, if_false,
      Bool.toNat_true]
    rw [hone]
    push_cast
    ring
  · rw [compare_gt_iff_gt.mpr habove]
    have hmore : (1 : ℚ) < ((2 * rest : ℕ) : ℚ) / divisor := by
      rw [one_lt_div hdivisor]
      exact_mod_cast habove
    have hless : ((2 * rest : ℕ) : ℚ) / divisor < 2 := by
      rw [div_lt_iff₀ hdivisor]
      exact_mod_cast (by omega : 2 * rest < 2 * divisor)
    simp only [ExtendedMantissa.ofMantissaAndAccuracy, if_true, Bool.toNat_true]
    push_cast at hmore hless ⊢
    constructor <;> linarith

/-- The quotient of two mantissas is computed with as many digits as rounding needs. -/
theorem stands_divide (sign : Sign) {mantissa divisor : ℕ} (exponent place : ℤ)
    (hpositive : 0 < mantissa) (hdivisor : 0 < divisor) :
    ∃ k, Rounds (mantissa * 2 ^ exponent / (divisor * 2 ^ place)) k
      ∧ Stands sign (min k topRank) (unpack .binary32 (pack .binary32
        (roundWithAccuracy .binary32 sign (divCore .binary32 mantissa exponent divisor place).1
          (divCore .binary32 mantissa exponent divisor place).2.1
          (divCore .binary32 mantissa exponent divisor place).2.2))) := by
  unfold divCore
  dsimp only
  generalize htarget : min (exponent - place) (Format.binary32.targetExponent
    (totalExponent mantissa exponent - totalExponent divisor place)) = target
  rw [targetExponent_eq, totalExponent, totalExponent] at htarget
  rw [Nat.shiftLeft_eq]
  generalize hcount : (exponent - place - target).toNat = count
  have hshift : (count : ℤ) = exponent - place - target := by omega
  refine stands_round ?_ ?_
  · have hvalue : (mantissa : ℚ) * 2 ^ exponent / (divisor * 2 ^ place) / 2 ^ target
        = ((mantissa * 2 ^ count : ℕ) : ℚ) / divisor := by
      have hpow : (2 : ℚ) ^ exponent = 2 ^ count * 2 ^ place * 2 ^ target := by
        rw [← zpow_natCast, ← zpow_add₀ (by norm_num), ← zpow_add₀ (by norm_num), hshift]
        congr 1
        ring
      have hplace : (2 : ℚ) ^ place ≠ 0 := by positivity
      have hpowtarget : (2 : ℚ) ^ target ≠ 0 := by positivity
      have hcast : (divisor : ℚ) ≠ 0 := by exact_mod_cast hdivisor.ne'
      rw [hpow]
      push_cast
      field_simp
    rw [hvalue]
    exact spans_fraction _ hdivisor
  · rw [targetExponent_eq, totalExponent]
    by_cases hlowest : target ≤ -149
    · exact hlowest.trans (le_max_right _ _)
    -- above the lowest place the shift leaves the quotient at least 24 digits
    have hdigits : divisor.log2 + 24 ≤ mantissa.log2 + count := by omega
    have hquotient : 2 ^ 23 ≤ mantissa * 2 ^ count / divisor := by
      rw [Nat.le_div_iff_mul_le hdivisor]
      calc 2 ^ 23 * divisor ≤ 2 ^ 23 * 2 ^ (divisor.log2 + 1) :=
            Nat.mul_le_mul_left _ Nat.lt_log2_self.le
        _ = 2 ^ (divisor.log2 + 24) := by rw [← Nat.pow_add]; congr 1; omega
        _ ≤ 2 ^ (mantissa.log2 + count) := Nat.pow_le_pow_right (by decide) hdigits
        _ = 2 ^ mantissa.log2 * 2 ^ count := Nat.pow_add _ _ _
        _ ≤ mantissa * 2 ^ count := Nat.mul_le_mul_right _ (Nat.log2_self_le hpositive.ne')
    have hlog : 23 ≤ (mantissa * 2 ^ count / divisor).log2 :=
      (Nat.le_log2 (by omega)).mpr hquotient
    omega

/-- The product of two mantissas is not rounded before its exponent is known. -/
theorem stands_multiply (sign : Sign) {mantissa other : ℕ} {exponent place : ℤ}
    (hpositive : 0 < mantissa) (hother : 0 < other)
    (hnormal : exponent = -149 ∨ 2 ^ 23 ≤ mantissa) (hnormal' : place = -149 ∨ 2 ^ 23 ≤ other) :
    ∃ k, Rounds (mantissa * 2 ^ exponent * (other * 2 ^ place)) k
      ∧ Stands sign (min k topRank) (unpack .binary32 (pack .binary32
        (roundWithAccuracy .binary32 sign (mantissa * other) (exponent + place) .exact))) := by
  refine stands_round ?_ ?_
  · have hpow : (2 : ℚ) ^ (exponent + place) ≠ 0 := by positivity
    have hvalue : (mantissa : ℚ) * 2 ^ exponent * (other * 2 ^ place) / 2 ^ (exponent + place)
        = ((mantissa * other : ℕ) : ℚ) := by
      rw [div_eq_iff hpow, zpow_add₀ (by norm_num)]
      push_cast
      ring
    rw [hvalue]
    exact spans_exact _
  · rw [targetExponent_eq, totalExponent]
    by_cases hlowest : exponent + place ≤ -149
    · exact hlowest.trans (le_max_right _ _)
    have hproduct : 2 ^ 23 ≤ mantissa * other := by
      rcases hnormal with hexponent | hlarge
      · exact (hnormal'.resolve_left (by omega)).trans (Nat.le_mul_of_pos_left _ hpositive)
      · exact hlarge.trans (Nat.le_mul_of_pos_right _ hother)
    have hlog : 23 ≤ (mantissa * other).log2 :=
      (Nat.le_log2 (by omega)).mpr hproduct
    omega

end Parley.Number
