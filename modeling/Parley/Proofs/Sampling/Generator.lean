import Parley.Proofs.Number.Exact
import Parley.Sampling.Generator

/-! # The words of a generator

    A step exclusive-ors a word with three shifts of itself.  A shift is additive, and leaves
    nothing of a word when it is repeated often enough, so each of the three can be undone:
    `Vanishes.injective`.  Hence the step is a bijection of the words, and as zero stays zero, also
    of the others: `step_bijOn`.  A draw is a fraction of 24 binary digits, which single
    precision has: `value_drawnFrom`.  The main statement is `seeds_draw`.
-/

namespace Parley.Generator

open Number

/-- The generator after `count` draws. -/
def after (generator : Generator) (count : ℕ) : Generator := next^[count] generator

/-- `draw` is exactly the upper 24 digits of `word` behind the point: a multiple of `2 ^ -24`, not
    below 0 and below 1. -/
structure DrawnFrom (word : UInt64) (draw : Float32) : Prop where
  finite : draw.isFinite = true
  eq : toRat draw = (word >>> 40).toNat / 2 ^ 24
  nonneg : 0 ≤ toRat draw
  lt_one : toRat draw < 1

variable {generator : Generator}

/-! ## Section 1: Shifts -/

/-- `shift` is additive, and `times` of it leave nothing of a word. -/
structure Vanishes (shift : UInt64 → UInt64) (times : ℕ) : Prop where
  additive : ∀ x y, shift (x ^^^ y) = shift x ^^^ shift y
  vanishes : ∀ x, shift^[times] x = 0

theorem toBitVec_iterate_shiftLeft (count : UInt64) (times : ℕ) (x : UInt64) :
    ((· <<< count)^[times] x).toBitVec = x.toBitVec <<< (times * (count.toNat % 64)) := by
  induction times with
  | zero => simp
  | succ times ih =>
    rw [Function.iterate_succ_apply', UInt64.toBitVec_shiftLeft, ih, Nat.succ_mul,
      BitVec.shiftLeft_add]
    rfl

theorem toBitVec_iterate_shiftRight (count : UInt64) (times : ℕ) (x : UInt64) :
    ((· >>> count)^[times] x).toBitVec = x.toBitVec >>> (times * (count.toNat % 64)) := by
  induction times with
  | zero => simp
  | succ times ih =>
    rw [Function.iterate_succ_apply', UInt64.toBitVec_shiftRight, ih, Nat.succ_mul,
      BitVec.shiftRight_add]
    rfl

theorem vanishes_shiftLeft (count : UInt64) (h : 0 < count.toNat % 64) :
    Vanishes (· <<< count) 64 where
  additive x y := UInt64.shiftLeft_xor
  vanishes x := by
    apply UInt64.toBitVec_inj.mp
    rw [toBitVec_iterate_shiftLeft]
    exact BitVec.shiftLeft_eq_zero (Nat.le_mul_of_pos_right 64 h)

theorem vanishes_shiftRight (count : UInt64) (h : 0 < count.toNat % 64) :
    Vanishes (· >>> count) 64 where
  additive x y := UInt64.shiftRight_xor
  vanishes x := by
    apply UInt64.toBitVec_inj.mp
    rw [toBitVec_iterate_shiftRight]
    exact BitVec.ushiftRight_eq_zero (Nat.le_mul_of_pos_right 64 h)

/-- **No two words** come to the same one when they are exclusive-ored with shifts of themselves. -/
theorem Vanishes.injective {shift : UInt64 → UInt64} {times : ℕ} (h : Vanishes shift times) :
    Function.Injective fun x => x ^^^ shift x := by
  intro x y hsame
  have hsame : x ^^^ shift x = y ^^^ shift y := hsame
  -- the shift takes what the two words differ in to itself
  have hfixed : shift (x ^^^ y) = x ^^^ y := by
    rw [h.additive, ← UInt64.xor_eq_zero_iff]
    calc shift x ^^^ shift y ^^^ (x ^^^ y)
        = (x ^^^ shift x) ^^^ (y ^^^ shift y) := by ac_rfl
      _ = 0 := UInt64.xor_eq_zero_iff.mpr hsame
  -- but when it is repeated it leaves nothing
  have hzero : x ^^^ y = 0 := by
    rw [← h.vanishes (x ^^^ y)]
    exact (Function.iterate_fixed hfixed times).symm
  exact UInt64.xor_eq_zero_iff.mp hzero

/-! ## Section 2: Steps -/

theorem step_injective : Function.Injective step := by
  have hfirst := (vanishes_shiftLeft 13 (by decide)).injective
  have hsecond := (vanishes_shiftRight 7 (by decide)).injective
  have hthird := (vanishes_shiftLeft 17 (by decide)).injective
  exact (hthird.comp hsecond).comp hfirst

theorem step_eq_zero_iff {x : UInt64} : step x = 0 ↔ x = 0 := by
  have hzero : step 0 = 0 := by decide
  constructor
  · intro h
    exact step_injective (h.trans hzero.symm)
  · rintro rfl
    exact hzero

/-- **The step** is a bijection of the words that are not zero. -/
theorem step_bijOn : Set.BijOn step {x | x ≠ 0} {x | x ≠ 0} := by
  have hsurjective : Function.Surjective step := Finite.injective_iff_surjective.mp step_injective
  refine ⟨?_, step_injective.injOn, ?_⟩
  · intro x hx
    exact mt step_eq_zero_iff.mp hx
  · intro y hy
    obtain ⟨x, rfl⟩ := hsurjective y
    exact ⟨x, mt step_eq_zero_iff.mpr hy, rfl⟩

theorem state_after (generator : Generator) (count : ℕ) :
    (generator.after count).state = step^[count] generator.state := by
  unfold after
  induction count with
  | zero => rfl
  | succ count ih =>
    rw [Function.iterate_succ_apply', Function.iterate_succ_apply', ← ih]
    rfl

/-- Draws do not lead to zero. -/
theorem state_after_ne_zero (h : generator.state ≠ 0) (count : ℕ) :
    (generator.after count).state ≠ 0 := by
  rw [state_after]
  exact (step_bijOn.mapsTo.iterate count) h

theorem state_ofSeed_ne_zero (seed : UInt64) : (ofSeed seed).state ≠ 0 := by
  unfold ofSeed
  by_cases h : seed = 0
  · simp [h]
  · simp [h]

/-! ## Section 3: Draws -/

theorem upper_lt (generator : Generator) : generator.upper.toNat < 2 ^ 24 := by
  have hword : generator.state.toNat < 2 ^ 64 := generator.state.toNat_lt
  unfold upper
  rw [UInt64.toNat_shiftRight, Nat.shiftRight_eq_div_pow]
  exact Nat.div_lt_of_lt_mul hword

theorem rank_divisor : rank 16777216 = (1 + 149) * 2 ^ 23 + (2 ^ 23 : ℕ) := by decide +kernel

theorem divisor_bounds : 0 < rank 16777216 ∧ rank 16777216 < topRank := by
  rw [rank_divisor]
  decide

/-- The upper digits are divided by a power of two. -/
theorem magnitude_divisor : magnitude (16777216 : Float32).toModel.unpack = 2 ^ 24 := by
  have hstands := stands_of_pos divisor_bounds.1
  have hpower : Stands .positive _ (.finite .positive (2 ^ 23) 1 (by decide)) :=
    .finite (by decide) (by decide) (by decide) (by decide) (.inr le_rfl)
  rw [rank_divisor] at hstands
  rw [hstands.inj hpower]
  norm_num [magnitude]

/-- A draw is a number that is not negative. -/
theorem value_spec (generator : Generator) :
    generator.value.isNaN = false ∧ 0 ≤ rank generator.value := by
  obtain ⟨hnumber, hnonneg⟩ := toFloat32_spec generator.upper
  obtain ⟨hpositive, hbounded⟩ := divisor_bounds
  exact ⟨isNaN_div hnumber hpositive hbounded, rank_div_nonneg hnumber hnonneg hpositive hbounded⟩

/-- **A draw** is exact: neither the conversion of the upper digits nor their division is
    rounded. -/
theorem value_drawnFrom (generator : Generator) : DrawnFrom generator.state generator.value := by
  obtain ⟨hnumber, hnonneg⟩ := toFloat32_spec generator.upper
  obtain ⟨hfinite, hmagnitude⟩ := magnitude_toFloat32 generator.upper_lt
  obtain ⟨hpositive, hbounded⟩ := divisor_bounds
  have hpower : (2 : ℚ) ^ (-24 : ℤ) = (2 ^ 24)⁻¹ := by rw [zpow_neg, zpow_ofNat]
  have hshort : Short (generator.upper.toNat / 2 ^ 24) generator.upper.toNat (-24) :=
    ⟨by rw [hpower, div_eq_mul_inv], generator.upper_lt, by decide, by decide⟩
  rw [← hmagnitude, ← magnitude_divisor] at hshort
  obtain ⟨hvalue, hquotient⟩ := magnitude_div hnumber
    ((abs_of_nonneg hnonneg).trans_lt hfinite) hpositive hbounded hshort
  obtain ⟨hvalueNumber, hvalueNonneg⟩ := generator.value_spec
  have heq : toRat generator.value = generator.upper.toNat / 2 ^ 24 := by
    rw [← hmagnitude, ← magnitude_divisor, ← hquotient]
    exact toRat_of_nonneg hvalueNonneg
  have hless : (generator.upper.toNat : ℚ) < 2 ^ 24 := by exact_mod_cast generator.upper_lt
  refine ⟨?_, heq, ?_, ?_⟩
  · exact (isFinite_iff hvalueNumber).mpr (abs_lt.mp hvalue)
  · rw [heq]
    positivity
  · rw [heq, div_lt_one (by positivity)]
    exact hless

/-- **What seeds draw.**  Whatever the seed is, no word is ever zero.  The step from one word to the
    next is a bijection of the words that are not zero, so two generators with different seeds other
    than zero never come to the same word after as many draws.  And every draw is exactly the upper
    24 digits of its word as a fraction. -/
theorem seeds_draw :
    (∀ seed count, ((ofSeed seed).after count).state ≠ 0)
      ∧ Set.BijOn step {x | x ≠ 0} {x | x ≠ 0}
      ∧ (∀ count, Set.InjOn (fun seed => ((ofSeed seed).after count).state) {seed | seed ≠ 0})
      ∧ ∀ seed count, DrawnFrom ((ofSeed seed).after (count + 1)).state
          ((ofSeed seed).after (count + 1)).value := by
  refine ⟨?_, step_bijOn, ?_, ?_⟩
  · intro seed count
    exact state_after_ne_zero (state_ofSeed_ne_zero seed) count
  · intro count seed hseed other hother hsame
    -- equal words come from equal words, back to the seeds
    have hwords : step^[count] (ofSeed seed).state = step^[count] (ofSeed other).state := by
      rw [← state_after, ← state_after]
      exact hsame
    have hseeds := step_injective.iterate count hwords
    unfold ofSeed at hseeds
    rwa [if_neg hseed, if_neg hother] at hseeds
  · intro seed count
    exact value_drawnFrom _

end Parley.Generator
