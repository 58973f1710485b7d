import Parley.Proofs.Sampling.Filter
import Parley.Proofs.Sampling.Generator

/-! # What is drawn

    A draw goes through the probabilities and stops where their running sum exceeds a random number;
    if rounding has left the sum below it, the last positive probability is taken.  The running sum
    is the same before and after a probability of zero, so where it first exceeds the number the
    probability is positive: `Exceeds.positive`.  This does not depend on how large the
    probabilities are: even infinite ones are no obstacle, as no sum of theirs is undefined,
    `nonneg_add`.  The main statement is `Sampler.draws_positive`.
-/

namespace Parley.Sampling

open Number

/-- The running sum exceeds `r` at `place`, and nowhere before. -/
def Exceeds (r : Float32) (probabilities : List Float32) (place : ℕ) : Prop :=
  r < sum (probabilities.take (place + 1))
    ∧ ∀ earlier < place, ¬ r < sum (probabilities.take (earlier + 1))

/-- The value at `index` is positive. -/
def PositiveAt (values : List Float32) (index : ℕ) : Prop :=
  ∃ value, values[index]? = some value ∧ 0 < value

/-- `r` draws `index`, which has a positive probability: it is the first place at which the running
    sum exceeds `r`; or there is no such place, and no later probability is positive. -/
structure Drawn (r : Float32) (probabilities : List Float32) (index : ℕ) : Prop where
  positive : PositiveAt probabilities index
  place : Exceeds r probabilities index
    ∨ (∀ place < probabilities.length, ¬ r < sum (probabilities.take (place + 1)))
      ∧ ∀ later > index, ¬ PositiveAt probabilities later

variable {r before x y : Float32} {values probabilities : List Float32} {index place result : ℕ}

/-! ## Section 1: Running sums -/

/-- What is infinite stays infinite when something is added that is not negative. -/
theorem rank_add_of_infinite (hx : rank x = topRank) (hy : 0 ≤ y) : rank (x + y) = topRank := by
  obtain ⟨hnumber, hnonneg⟩ := nonneg_iff.mp hy
  have hinfinite := stands_of_pos (x := x) (by rw [hx]; decide)
  obtain ⟨sign, hstands, hsign⟩ := stands_abs hnumber
  rw [hx] at hinfinite
  rw [rank, unpack_add, hinfinite.inj .infinity]
  generalize y.toModel.unpack = number at hstands
  generalize rank y = k at hstands hsign hnonneg
  rw [abs_of_nonneg hnonneg] at hstands hsign
  have htop := (stands_infinity .positive).rank_eq
  cases hstands with
  | zero => exact htop
  | finite => exact htop
  | infinity =>
    cases sign with
    | positive => exact htop
    | negative => exact absurd hsign (by decide)

/-- **A sum** of numbers that are not negative is one, even if it is infinite. -/
theorem nonneg_add (hx : 0 ≤ x) (hy : 0 ≤ y) : 0 ≤ x + y := by
  have hinfinite : ∀ {z : Float32}, rank z = topRank → 0 ≤ z := by
    intro z hz
    have hpositive : 0 < rank z := by rw [hz]; decide
    exact nonneg_iff.mpr ⟨isNaN_eq_false_of_rank hpositive.ne', hpositive.le⟩
  obtain ⟨hxnumber, hxnonneg⟩ := nonneg_iff.mp hx
  obtain ⟨hynumber, hynonneg⟩ := nonneg_iff.mp hy
  rcases (rank_bounds x).2.eq_or_lt with hxtop | hxfinite
  · exact hinfinite (rank_add_of_infinite hxtop hy)
  rcases (rank_bounds y).2.eq_or_lt with hytop | hyfinite
  · rw [add_comm_single]
    exact hinfinite (rank_add_of_infinite hytop hx)
  · obtain ⟨hnumber, -⟩ := add_rounds hxnumber hynumber hxnonneg hynonneg hxfinite hyfinite
    obtain ⟨hle, -⟩ := rank_le_add hxnumber hynumber hxnonneg hynonneg hxfinite hyfinite
    exact nonneg_iff.mpr ⟨hnumber, hxnonneg.trans hle⟩

theorem sum_concat (values : List Float32) (value : Float32) :
    sum (values ++ [value]) = sum values + value :=
  List.foldl_concat ..

theorem nonneg_sum (h : ∀ value ∈ values, 0 ≤ value) : 0 ≤ sum values := by
  induction values using List.reverseRecOn with
  | nil => decide
  | append_singleton values value ih =>
    obtain ⟨hvalues, hvalue⟩ := List.forall_mem_append.mp h
    rw [sum_concat]
    exact nonneg_add (ih hvalues) (hvalue value (List.mem_singleton_self value))

/-- **Where the running sum exceeds** a number for the first time, it has grown. -/
theorem Exceeds.positive (h : Exceeds r probabilities place) (hr : 0 ≤ r)
    (hnonneg : ∀ probability ∈ probabilities, 0 ≤ probability)
    (hplace : place < probabilities.length) : PositiveAt probabilities place := by
  refine ⟨probabilities[place], List.getElem?_eq_getElem hplace, ?_⟩
  obtain ⟨hexceeds, hearlier⟩ := h
  obtain ⟨hnumber, hsign⟩ := nonneg_iff.mp (hnonneg _ (List.getElem_mem hplace))
  obtain ⟨hrnumber, hrsign⟩ := nonneg_iff.mp hr
  have hsum : 0 ≤ sum (probabilities.take place) := nonneg_sum fun probability hmem =>
    hnonneg probability (List.mem_of_mem_take hmem)
  obtain ⟨hsumNumber, -⟩ := nonneg_iff.mp hsum
  -- before this place the running sum was not above `r`
  have hbefore : ¬ r < sum (probabilities.take place) := by
    cases place with
    | zero => exact not_lt_of_le_single hr
    | succ place => exact hearlier place (Nat.lt_succ_self place)
  rw [List.take_succ_eq_append_getElem hplace, sum_concat] at hexceeds
  rw [lt_iff_rank_lt hrnumber hsumNumber] at hbefore
  rw [lt_iff_rank_lt hrnumber (numbers_of_lt hexceeds).2] at hexceeds
  apply pos_iff.mpr
  apply hsign.lt_of_ne
  intro hzero
  rw [(add_zero_cases hnumber hzero.symm _).1] at hexceeds
  exact hbefore hexceeds

/-! ## Section 2: The two searches -/

/-- Where the search along the running sum stops. -/
theorem drawFrom_eq_some (h : drawFrom r before index probabilities = some result) :
    ∃ place < probabilities.length, result = index + place
      ∧ r < (probabilities.take (place + 1)).foldl (· + ·) before
      ∧ ∀ earlier < place, ¬ r < (probabilities.take (earlier + 1)).foldl (· + ·) before := by
  induction probabilities generalizing before index with
  | nil => contradiction
  | cons probability rest ih =>
    unfold drawFrom at h
    by_cases hexceeds : r < before + probability
    · rw [if_pos hexceeds] at h
      exact ⟨0, Nat.zero_lt_succ _, (Option.some.inj h).symm, hexceeds, nofun⟩
    · rw [if_neg hexceeds] at h
      obtain ⟨place, hplace, rfl, hstops, hearlier⟩ := ih h
      refine ⟨place + 1, Nat.succ_lt_succ hplace, by omega, hstops, ?_⟩
      intro earlier hlt
      cases earlier with
      | zero => exact hexceeds
      | succ earlier => exact hearlier earlier (Nat.lt_of_succ_lt_succ hlt)

theorem drawFrom_eq_none (h : drawFrom r before index probabilities = none) :
    ∀ place < probabilities.length,
      ¬ r < (probabilities.take (place + 1)).foldl (· + ·) before := by
  induction probabilities generalizing before index with
  | nil => exact nofun
  | cons probability rest ih =>
    unfold drawFrom at h
    by_cases hexceeds : r < before + probability
    · rw [if_pos hexceeds] at h
      contradiction
    · rw [if_neg hexceeds] at h
      intro place hplace
      cases place with
      | zero => exact hexceeds
      | succ place => exact ih h place (Nat.lt_of_succ_lt_succ hplace)

theorem positiveAt_concat_iff {value : Float32} : PositiveAt (values ++ [value]) index ↔
    PositiveAt values index ∨ index = values.length ∧ 0 < value := by
  unfold PositiveAt
  rcases lt_trichotomy index values.length with hlt | rfl | hgt
  · rw [List.getElem?_append_left hlt]
    simp [hlt.ne]
  · simp
  · have hnone : (values ++ [value])[index]? = none := by
      rw [List.getElem?_eq_none_iff, List.length_append, List.length_singleton]
      exact hgt
    rw [hnone, List.getElem?_eq_none hgt.le]
    simp [hgt.ne']

theorem lastPositive_concat (values : List Float32) (value : Float32) :
    lastPositive (values ++ [value])
      = if 0 < value then some values.length else lastPositive values := by
  unfold lastPositive
  rw [List.zipIdx_append, List.reverse_append]
  by_cases h : 0 < value
  · simp [h]
  · simp [h]

/-- The search from behind stops at the last positive value. -/
theorem exists_lastPositive (h : ∃ value ∈ values, 0 < value) :
    ∃ index, lastPositive values = some index ∧ PositiveAt values index
      ∧ ∀ later > index, ¬ PositiveAt values later := by
  induction values using List.reverseRecOn with
  | nil =>
    obtain ⟨value, hmem, -⟩ := h
    contradiction
  | append_singleton values value ih =>
    rw [lastPositive_concat]
    simp only [positiveAt_concat_iff]
    by_cases hvalue : 0 < value
    · rw [if_pos hvalue]
      refine ⟨values.length, rfl, .inr ⟨rfl, hvalue⟩, ?_⟩
      rintro later hlater (⟨found, hfound, -⟩ | ⟨rfl, -⟩)
      · have hlt := (List.getElem?_eq_some_iff.mp hfound).1
        omega
      · omega
    · -- the last value is passed over
      have hany : ∃ value ∈ values, 0 < value := by
        obtain ⟨found, hmem, hpositive⟩ := h
        rcases List.mem_append.mp hmem with hmem | hmem
        · exact ⟨found, hmem, hpositive⟩
        · rw [List.mem_singleton.mp hmem] at hpositive
          contradiction
      obtain ⟨index, hlast, hpositive, hlater⟩ := ih hany
      rw [if_neg hvalue]
      refine ⟨index, hlast, .inl hpositive, ?_⟩
      rintro later hgt (hlater' | ⟨-, hvalue'⟩)
      · exact hlater later hgt hlater'
      · contradiction

/-! ## Section 3: Draws -/

/-- **A draw** finds a token of positive probability if there is one. -/
theorem draw_spec (hr : 0 ≤ r) (hnonneg : ∀ probability ∈ probabilities, 0 ≤ probability)
    (hany : ∃ probability ∈ probabilities, 0 < probability) :
    ∃ index, draw r probabilities = some index ∧ Drawn r probabilities index := by
  unfold draw
  cases hdraw : drawFrom r 0 0 probabilities with
  | some result =>
    obtain ⟨place, hplace, rfl, hexceeds⟩ := drawFrom_eq_some hdraw
    rw [Nat.zero_add]
    exact ⟨place, rfl, Exceeds.positive hexceeds hr hnonneg hplace, .inl hexceeds⟩
  | none =>
    obtain ⟨index, hlast, hpositive, hlater⟩ := exists_lastPositive hany
    rw [Option.none_or]
    exact ⟨index, hlast, hpositive, .inr ⟨drawFrom_eq_none hdraw, hlater⟩⟩

end Parley.Sampling

namespace Parley.Sampler

open Sampling

theorem drawIndex_eq_ok {sampler : Sampler} {probabilities : List Float32} {index : ℕ}
    (h : draw sampler.generator.next.value probabilities = some index) :
    sampler.drawIndex probabilities
      = (.ok index, { sampler with generator := sampler.generator.next }) := by
  unfold drawIndex
  dsimp only
  rw [h]

/-- **What the sampler draws.**  If no probability is negative and one of them is positive, the
    sampler draws an index of positive probability, whatever its generator is.  The generator makes
    one step: its word is exclusive-ored with a shift of itself by 13 to the left, the result with a
    shift by 7 to the right, and that with a shift by 17 to the left.  The random number is exactly
    the upper 24 digits of the new word as a fraction.  The index is the first one at which the
    running sum exceeds that number, or the last one of a positive probability if there is none. -/
theorem draws_positive (sampler : Sampler) {probabilities : List Float32}
    (hnonneg : ∀ probability ∈ probabilities, 0 ≤ probability)
    (hany : ∃ probability ∈ probabilities, 0 < probability) :
    let first := sampler.generator.state ^^^ (sampler.generator.state <<< 13)
    let second := first ^^^ (first >>> 7)
    let word := second ^^^ (second <<< 17)
    ∃ index random, sampler.drawIndex probabilities
        = (.ok index, { sampler with generator := ⟨word⟩ })
      ∧ Generator.DrawnFrom word random ∧ Drawn random probabilities index := by
  intro first second word
  have hnext : sampler.generator.next = ⟨word⟩ := rfl
  have hrandom := sampler.generator.next.value_drawnFrom
  have hdrawing : 0 ≤ sampler.generator.next.value :=
    nonneg_iff.mpr sampler.generator.next.value_spec
  obtain ⟨index, hdraw, hdrawn⟩ := draw_spec hdrawing hnonneg hany
  have hindex := drawIndex_eq_ok hdraw
  rw [hnext] at hindex hrandom hdrawn
  exact ⟨index, Generator.value ⟨word⟩, hindex, hrandom, hdrawn⟩

/-- The sum stays below the random number, and zeros stand around the positive probabilities. -/
theorem draws_positive_short :
    ∃ random, drawIndex { generator := ⟨0xffffffffffff⟩ } [0, 0.25, 0, 0.5, 0]
        = (.ok 3, { generator := ⟨16411396319156903872⟩ })
      ∧ Generator.DrawnFrom 16411396319156903872 random
      ∧ Drawn random [0, 0.25, 0, 0.5, 0] 3 := by
  have hnonneg : ∀ probability ∈ ([0, 0.25, 0, 0.5, 0] : List Float32), 0 ≤ probability := by
    decide +kernel
  have hany : ∃ probability ∈ ([0, 0.25, 0, 0.5, 0] : List Float32), 0 < probability := by
    decide +kernel
  obtain ⟨index, random, hdraw, hrandom, hdrawn⟩ :=
    draws_positive { generator := ⟨0xffffffffffff⟩ } hnonneg hany
  have hthree : (drawIndex { generator := ⟨0xffffffffffff⟩ } [0, 0.25, 0, 0.5, 0]).1.toOption
      = some 3 := by decide +kernel
  rw [hdraw] at hthree
  obtain rfl : index = 3 := Option.some.inj hthree
  exact ⟨random, hdraw, hrandom, hdrawn⟩

end Parley.Sampler
