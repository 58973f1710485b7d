import Parley.Proofs.Number.Single
import Parley.Sampling.Sampler

/-! # Stages of the sampler

    Each stage takes scores that are numbers to scores that are numbers, keeps masked tokens masked,
    and keeps all of the best scores: `Masked`, `Best` and `Spares`.  From scores with a finite best
    one the softmax makes probabilities that are 0 exactly for masked tokens and largest for the
    best ones, `softmax_spec`; and the top-p selection keeps the best ones, `Weighs.topP`.  Sums do
    not overflow: the running sum of probabilities gets stuck at `2 ^ 24` at the latest.
-/

namespace Parley.Sampling

open Number

/-- Every score is a number. -/
def Numbers (scores : List Float32) : Prop := ∀ score ∈ scores, score.isNaN = false

/-- The token `index`, if there is one, has the score of negative infinity. -/
def Masked (scores : List Float32) (index : ℕ) : Prop :=
  ∀ score, scores[index]? = some score → rank score = -topRank

theorem exists_of_not_masked {scores : List Float32} {index : ℕ} (h : ¬ Masked scores index) :
    ∃ score, scores[index]? = some score ∧ rank score ≠ -topRank := by
  by_contra hnone
  exact h fun score hscore => by_contra fun hrank => hnone ⟨score, hscore, hrank⟩

/-- `best` is the largest rank of the scores. -/
structure Best (scores : List Float32) (best : ℤ) : Prop where
  numbers : Numbers scores
  le : ∀ score ∈ scores, rank score ≤ best
  attained : ∃ score ∈ scores, rank score = best

/-- `filtered` is `scores` with some of the scores masked, but none of those of the rank `best`. -/
def Spares (best : ℤ) (scores filtered : List Float32) : Prop :=
  ∀ index : ℕ, filtered[index]? = scores[index]?
    ∨ ∃ score, scores[index]? = some score ∧ rank score ≠ best
      ∧ filtered[index]? = some negInfinity

/-! ## Section 1: Order -/

@[simp] theorem rank_negInfinity : rank negInfinity = -topRank := by decide

@[simp] theorem isNaN_negInfinity : negInfinity.isNaN = false := by decide

/-- Going through values and keeping the larger of two leaves a largest one. -/
theorem foldl_larger : ∀ (rest : List Float32) (first : Float32), Numbers (first :: rest) →
    ∃ result ∈ first :: rest,
      rest.foldl (fun best value => if best < value then value else best) first = result
        ∧ ∀ value ∈ first :: rest, rank value ≤ rank result := by
  intro rest
  induction rest with
  | nil =>
    intro first _
    refine ⟨first, List.mem_singleton_self _, rfl, fun value hmem => ?_⟩
    rw [List.mem_singleton.mp hmem]
  | cons next rest ih =>
    intro first hnumbers
    obtain ⟨hfirst, hrest⟩ := List.forall_mem_cons.mp hnumbers
    obtain ⟨hnext, hlater⟩ := List.forall_mem_cons.mp hrest
    have hcompare := lt_iff_rank_lt hfirst hnext
    rw [List.foldl_cons]
    by_cases hlt : first < next
    · obtain ⟨result, hmem, hresult, hall⟩ := ih next hrest
      have hle := (hcompare.mp hlt).le.trans (hall next List.mem_cons_self)
      rw [if_pos hlt]
      exact ⟨result, List.mem_cons_of_mem _ hmem, hresult, List.forall_mem_cons.mpr ⟨hle, hall⟩⟩
    · obtain ⟨result, hmem, hresult, hall⟩ := ih first (List.forall_mem_cons.mpr ⟨hfirst, hlater⟩)
      obtain ⟨hbest, hall⟩ := List.forall_mem_cons.mp hall
      have hle := (not_lt.mp (mt hcompare.mpr hlt)).trans hbest
      rw [if_neg hlt]
      refine ⟨result, ?_, hresult,
        List.forall_mem_cons.mpr ⟨hbest, List.forall_mem_cons.mpr ⟨hle, hall⟩⟩⟩
      rcases List.mem_cons.mp hmem with heq | hmem
      · exact List.mem_cons.mpr (.inl heq)
      · exact List.mem_cons_of_mem _ (List.mem_cons_of_mem _ hmem)

theorem largest_spec {scores : List Float32} (h : Numbers scores) :
    largest scores ∈ negInfinity :: scores
      ∧ ∀ score ∈ scores, rank score ≤ rank (largest scores) := by
  obtain ⟨result, hmem, hresult, hall⟩ :=
    foldl_larger scores negInfinity (List.forall_mem_cons.mpr ⟨isNaN_negInfinity, h⟩)
  unfold largest
  rw [hresult]
  exact ⟨hmem, (List.forall_mem_cons.mp hall).2⟩

theorem isNaN_largest {scores : List Float32} (h : Numbers scores) :
    (largest scores).isNaN = false := by
  rcases List.mem_cons.mp (largest_spec h).1 with heq | hmem
  · rw [heq]
    exact isNaN_negInfinity
  · exact h _ hmem

/-- **The largest score** is the best one, unless all are masked. -/
theorem best_largest {scores : List Float32} (h : Numbers scores)
    (hany : -topRank < rank (largest scores)) : Best scores (rank (largest scores)) := by
  obtain ⟨hmem, hall⟩ := largest_spec h
  refine ⟨h, hall, largest scores, ?_, rfl⟩
  rcases List.mem_cons.mp hmem with heq | hmem
  · rw [heq, rank_negInfinity] at hany
    exact absurd hany (lt_irrefl _)
  · exact hmem

theorem Best.rank_largest {scores : List Float32} {best : ℤ} (h : Best scores best) :
    rank (largest scores) = best := by
  obtain ⟨hmem, hall⟩ := largest_spec h.numbers
  obtain ⟨score, hscore, hbest⟩ := h.attained
  refine le_antisymm ?_ (hbest.ge.trans (hall score hscore))
  rcases List.mem_cons.mp hmem with heq | hmem
  · rw [heq, rank_negInfinity, ← hbest]
    exact (rank_bounds score).1
  · exact h.le _ hmem

theorem insertIncreasing_perm (value : Float32) :
    ∀ values : List Float32, (insertIncreasing value values).Perm (value :: values)
  | [] => .refl _
  | first :: rest => by
    unfold insertIncreasing
    split
    · exact ((insertIncreasing_perm value rest).cons first).trans (.swap _ _ _)
    · exact .refl _

/-- Sorting loses and adds nothing. -/
theorem decreasing_perm (values : List Float32) : (decreasing values).Perm values := by
  suffices h : ∀ sorted : List Float32,
      (values.foldl (fun sorted value => insertIncreasing value sorted) sorted).Perm
        (values ++ sorted) by
    have hsorted := h []
    rw [List.append_nil] at hsorted
    exact (List.reverse_perm _).trans hsorted
  induction values with
  | nil => exact fun _ => .refl _
  | cons value rest ih =>
    intro sorted
    rw [List.foldl_cons]
    refine (ih _).trans (((insertIncreasing_perm value sorted).append_left rest).trans ?_)
    exact List.perm_middle

/-- Going through entries in the order of their places, and keeping the last of the largest ones. -/
theorem foldl_last : ∀ (rest : List (Float32 × ℕ)) (first : Float32 × ℕ),
    (∀ entry ∈ first :: rest, entry.1.isNaN = false) →
      (first :: rest).Pairwise (fun entry later => entry.2 < later.2) →
        ∃ result ∈ first :: rest,
          rest.foldl (fun best entry => if entry.1 < best.1 then best else entry) first = result
            ∧ ∀ entry ∈ first :: rest, rank entry.1 ≤ rank result.1
              ∧ (result.2 < entry.2 → rank entry.1 < rank result.1) := by
  intro rest
  induction rest with
  | nil =>
    intro first _ _
    refine ⟨first, List.mem_singleton_self _, rfl, fun entry hmem => ?_⟩
    rw [List.mem_singleton.mp hmem]
    exact ⟨le_rfl, fun hlt => absurd hlt (lt_irrefl _)⟩
  | cons next rest ih =>
    intro first hnumbers hplaces
    obtain ⟨hfirst, hrest⟩ := List.forall_mem_cons.mp hnumbers
    obtain ⟨hnext, hlater⟩ := List.forall_mem_cons.mp hrest
    obtain ⟨hbefore, hplaces⟩ := List.pairwise_cons.mp hplaces
    have hcompare := lt_iff_rank_lt hnext hfirst
    rw [List.foldl_cons]
    by_cases hlt : next.1 < first.1
    · -- the first entry stays, and the next one is below it
      obtain ⟨result, hmem, hresult, hall⟩ := ih first
        (List.forall_mem_cons.mpr ⟨hfirst, hlater⟩) (List.pairwise_cons.mpr
          ⟨fun entry hentry => hbefore entry (List.mem_cons_of_mem _ hentry),
            (List.pairwise_cons.mp hplaces).2⟩)
      obtain ⟨hbest, hall⟩ := List.forall_mem_cons.mp hall
      have hbelow := (hcompare.mp hlt).trans_le hbest.1
      rw [if_pos hlt]
      refine ⟨result, ?_, hresult, List.forall_mem_cons.mpr ⟨hbest, List.forall_mem_cons.mpr
        ⟨⟨hbelow.le, fun _ => hbelow⟩, hall⟩⟩⟩
      rcases List.mem_cons.mp hmem with heq | hmem
      · exact List.mem_cons.mpr (.inl heq)
      · exact List.mem_cons_of_mem _ (List.mem_cons_of_mem _ hmem)
    · -- the next entry takes its place, and the first one is not after the result
      obtain ⟨result, hmem, hresult, hall⟩ := ih next hrest hplaces
      have hle := (not_lt.mp (mt hcompare.mpr hlt)).trans (hall next List.mem_cons_self).1
      rw [if_neg hlt]
      refine ⟨result, List.mem_cons_of_mem _ hmem, hresult,
        List.forall_mem_cons.mpr ⟨⟨hle, fun hplace => ?_⟩, hall⟩⟩
      exact absurd hplace (hbefore result hmem).not_gt

/-- **The last maximum** is one, and every later score is below it. -/
theorem lastMaximum_spec {scores : List Float32} (h : Numbers scores) (hnonempty : scores ≠ []) :
    ∃ score, scores[lastMaximum scores]? = some score
      ∧ (∀ other ∈ scores, rank other ≤ rank score)
      ∧ ∀ (place : ℕ) (other : Float32), lastMaximum scores < place →
        scores[place]? = some other → rank other < rank score := by
  have hentries : ∀ entry ∈ scores.zipIdx, entry.1.isNaN = false := fun entry hmem =>
    h entry.1 (List.fst_mem_of_mem_zipIdx hmem)
  have hplaces : scores.zipIdx.Pairwise (fun entry later => entry.2 < later.2) := by
    rw [← List.pairwise_map (f := Prod.snd) (R := (· < ·)), List.zipIdx_map_snd]
    exact List.pairwise_lt_range'
  cases hzip : scores.zipIdx with
  | nil => exact absurd (List.zipIdx_eq_nil_iff.mp hzip) hnonempty
  | cons first rest =>
    rw [hzip] at hentries hplaces
    obtain ⟨result, hmem, hresult, hall⟩ := foldl_last rest first hentries hplaces
    have hlast : lastMaximum scores = result.2 := by
      unfold lastMaximum
      rw [hzip]
      exact congrArg Prod.snd hresult
    rw [← hzip] at hmem hall
    rw [hlast]
    refine ⟨result.1, List.mem_zipIdx_iff_getElem?.mp hmem, fun other hother => ?_,
      fun place other hplace hother => ?_⟩
    · obtain ⟨index, hlt, rfl⟩ := List.getElem_of_mem hother
      exact (hall (scores[index], index)
        (List.mem_zipIdx_iff_getElem?.mpr (List.getElem?_eq_getElem hlt))).1
    · exact (hall (other, place) (List.mem_zipIdx_iff_getElem?.mpr hother)).2 hplace

/-! ## Section 2: Filters -/

theorem Numbers.map {scores : List Float32} (h : Numbers scores) {f : Float32 → Float32}
    (hf : ∀ score, score.isNaN = false → (f score).isNaN = false) : Numbers (scores.map f) := by
  intro score hmem
  obtain ⟨before, hbefore, rfl⟩ := List.mem_map.mp hmem
  exact hf before (h before hbefore)

theorem Masked.map {scores : List Float32} {index : ℕ} (h : Masked scores index)
    {f : Float32 → Float32} (hf : ∀ score, rank score = -topRank → rank (f score) = -topRank) :
    Masked (scores.map f) index := by
  intro score hscore
  rw [List.getElem?_map, Option.map_eq_some_iff] at hscore
  obtain ⟨before, hbefore, rfl⟩ := hscore
  exact hf before (h before hbefore)

/-- A number that is finite or infinite below, and the penalty on it. -/
theorem penalty_spec {penalty score : Float32} (hscore : score.isNaN = false)
    (hpositive : 0 < rank penalty) (hfinite : rank penalty < topRank) :
    (if 0 < score then score / penalty else score * penalty).isNaN = false
      ∧ (rank score = -topRank →
        rank (if 0 < score then score / penalty else score * penalty) = -topRank) := by
  split
  · exact ⟨isNaN_div hscore hpositive hfinite,
      fun hmasked => rank_div_of_masked hmasked hpositive hfinite⟩
  · exact ⟨isNaN_mul hscore hpositive hfinite,
      fun hmasked => rank_mul_of_masked hmasked hpositive hfinite⟩

theorem penalize_getElem? (penalty : Float32) (history : List ℕ) (scores : List Float32)
    (index : ℕ) : (penalize penalty history scores)[index]? = scores[index]?.map fun score =>
      if history.contains index then
        if 0 < score then score / penalty else score * penalty
      else score := by
  unfold penalize
  rw [List.getElem?_mapIdx]

section Penalty

variable {penalty : Float32} {history : List ℕ} {scores : List Float32}
  (hpositive : 0 < rank penalty) (hfinite : rank penalty < topRank)

include hpositive hfinite

theorem Numbers.penalize (h : Numbers scores) : Numbers (penalize penalty history scores) := by
  intro score hmem
  obtain ⟨index, hindex⟩ := List.getElem?_of_mem hmem
  rw [penalize_getElem?, Option.map_eq_some_iff] at hindex
  obtain ⟨before, hbefore, rfl⟩ := hindex
  have hnumber := h before (List.mem_of_getElem? hbefore)
  split
  · exact (penalty_spec hnumber hpositive hfinite).1
  · exact hnumber

theorem Masked.penalize {index : ℕ} (h : Masked scores index) :
    Masked (penalize penalty history scores) index := by
  intro score hscore
  rw [penalize_getElem?, Option.map_eq_some_iff] at hscore
  obtain ⟨before, hbefore, rfl⟩ := hscore
  have hmasked := h before hbefore
  have hnumber := isNaN_eq_false_of_rank (x := before) (by rw [hmasked]; decide)
  split
  · exact (penalty_spec hnumber hpositive hfinite).2 hmasked
  · exact hmasked

end Penalty

theorem Spares.refl (best : ℤ) (scores : List Float32) : Spares best scores scores :=
  fun _ => .inl rfl

/-- What one filter spares after another is spared by both. -/
theorem Spares.trans {best : ℤ} {scores kept filtered : List Float32} (h : Spares best scores kept)
    (h' : Spares best kept filtered) : Spares best scores filtered := by
  intro index
  rcases h' index with hsame | ⟨score, hscore, hrank, hmasked⟩
  · rw [hsame]
    exact h index
  · rcases h index with hsame | ⟨before, hbefore, hbelow, -⟩
    · exact .inr ⟨score, hsame.symm.trans hscore, hrank, hmasked⟩
    · exact .inr ⟨before, hbefore, hbelow, hmasked⟩

/-- **A filter that spares the best scores** leaves a best one. -/
theorem Spares.best {best : ℤ} {scores filtered : List Float32} (h : Spares best scores filtered)
    (hbest : Best scores best) : Best filtered best := by
  have hentries : ∀ score ∈ filtered, score ∈ scores ∨ score = negInfinity := by
    intro score hmem
    obtain ⟨index, hindex⟩ := List.getElem?_of_mem hmem
    rcases h index with hsame | ⟨_, _, _, hmasked⟩
    · exact .inl (List.mem_of_getElem? (hsame.symm.trans hindex))
    · exact .inr (Option.some.inj (hindex.symm.trans hmasked))
  obtain ⟨score, hmem, hrank⟩ := hbest.attained
  refine ⟨fun score hmem => ?_, fun score hmem => ?_, score, ?_, hrank⟩
  · rcases hentries score hmem with hmem | rfl
    · exact hbest.numbers score hmem
    · exact isNaN_negInfinity
  · rcases hentries score hmem with hmem | rfl
    · exact hbest.le score hmem
    · rw [rank_negInfinity, ← hrank]
      exact (rank_bounds _).1
  · obtain ⟨index, hindex⟩ := List.getElem?_of_mem hmem
    rcases h index with hsame | ⟨other, hother, hbelow, -⟩
    · exact List.mem_of_getElem? (hsame.trans hindex)
    · rw [hindex] at hother
      cases hother
      exact absurd hrank hbelow

/-- **The best `k` scores** have all the best ones among them. -/
theorem Best.spares_topK {scores : List Float32} {best : ℤ} (h : Best scores best) (k : ℕ) :
    Spares best scores (topK k scores) := by
  unfold topK
  split
  · exact .refl best scores
  split
  · exact .refl best scores
  rename_i threshold hthreshold
  have hmem : threshold ∈ scores :=
    (decreasing_perm scores).mem_iff.mp (List.mem_of_getElem? hthreshold)
  have hle := h.le threshold hmem
  intro index
  rw [List.getElem?_map]
  cases hscore : scores[index]? with
  | none => exact .inl rfl
  | some score =>
    have hcompare := lt_iff_rank_lt (h.numbers score (List.mem_of_getElem? hscore))
      (h.numbers threshold hmem)
    by_cases hlt : score < threshold
    · have hbelow := hcompare.mp hlt
      exact .inr ⟨score, rfl, by omega, congrArg some (if_pos hlt)⟩
    · exact .inl (congrArg some (if_neg hlt))

theorem Masked.topK {scores : List Float32} {index : ℕ} (h : Masked scores index) (k : ℕ) :
    Masked (topK k scores) index := by
  unfold Sampling.topK
  split
  · exact h
  split
  · exact h
  refine h.map fun score hmasked => ?_
  split
  · exact rank_negInfinity
  · exact hmasked

theorem maskUnkept_getElem? (kept scores : List Float32) (index : ℕ) :
    (maskUnkept kept scores)[index]? = match scores[index]?, kept[index]? with
      | some score, some probability => some (if probability ≤ 0 then negInfinity else score)
      | _, _ => none := by
  unfold maskUnkept
  rw [List.getElem?_zipWith]
  cases scores[index]? <;> cases kept[index]? <;> rfl

theorem Masked.maskUnkept {scores : List Float32} {index : ℕ} (h : Masked scores index)
    (kept : List Float32) : Masked (maskUnkept kept scores) index := by
  intro score hscore
  rw [maskUnkept_getElem?] at hscore
  split at hscore
  · rename_i before probability hbefore _
    cases hscore
    split
    · exact rank_negInfinity
    · exact h before hbefore
  · contradiction

/-- The scores that are kept have all the best ones among them if their probabilities are
    positive. -/
theorem spares_maskUnkept {scores kept : List Float32} {best : ℤ}
    (hlength : kept.length = scores.length)
    (hkept : ∀ (index : ℕ) (score : Float32), scores[index]? = some score → rank score = best →
      ∃ probability, kept[index]? = some probability ∧ 0 < rank probability) :
    Spares best scores (maskUnkept kept scores) := by
  intro index
  rw [maskUnkept_getElem?]
  cases hscore : scores[index]? with
  | none => exact .inl rfl
  | some score =>
    by_cases hbest : rank score = best
    · obtain ⟨probability, hprobability, hpositive⟩ := hkept index score hscore hbest
      have hzero : ¬ probability ≤ 0 := by
        have hrank : rank 0 = 0 := by decide
        rw [le_iff_rank_le (isNaN_eq_false_of_rank hpositive.ne') (by decide)]
        omega
      rw [hprobability]
      exact .inl (congrArg some (if_neg hzero))
    · have hlt : index < kept.length := hlength ▸ (List.getElem?_eq_some_iff.mp hscore).1
      rw [List.getElem?_eq_getElem hlt]
      by_cases hzero : kept[index] ≤ 0
      · exact .inr ⟨score, rfl, hbest, congrArg some (if_pos hzero)⟩
      · exact .inl (congrArg some (if_neg hzero))

/-! ## Section 3: Probabilities -/

/-- A number from 0 to 1. -/
structure Portion (x : Float32) : Prop where
  number : x.isNaN = false
  nonneg : 0 ≤ rank x
  le_one : rank x ≤ rank 1

/-- A number from 0 to `2 ^ 24`: as far as a sum of portions can get. -/
structure Amount (x : Float32) : Prop where
  number : x.isNaN = false
  nonneg : 0 ≤ rank x
  le_max : rank x ≤ rank 16777216

theorem rank_zero : rank 0 = 0 := by decide +kernel

theorem rank_one : rank 1 = 127 * 2 ^ 23 := by decide +kernel

theorem rank_max : rank 16777216 = 151 * 2 ^ 23 := by decide +kernel

theorem pos_iff {x : Float32} : 0 < x ↔ 0 < rank x := by
  constructor
  · intro h
    rwa [lt_iff_rank_lt (by decide) (numbers_of_lt h).2, rank_zero] at h
  · intro h
    rwa [lt_iff_rank_lt (by decide) (isNaN_eq_false_of_rank h.ne'), rank_zero]

theorem nonneg_iff {x : Float32} : 0 ≤ x ↔ x.isNaN = false ∧ 0 ≤ rank x := by
  constructor
  · intro h
    have hnumber := (numbers_of_le h).2
    rw [le_iff_rank_le (by decide) hnumber, rank_zero] at h
    exact ⟨hnumber, h⟩
  · rintro ⟨hnumber, h⟩
    rwa [le_iff_rank_le (by decide) hnumber, rank_zero]

theorem Portion.zero_le {x : Float32} (h : Portion x) : 0 ≤ x := nonneg_iff.mpr ⟨h.number, h.nonneg⟩

theorem portion_zero : Portion 0 := ⟨by decide, rank_zero.ge, by rw [rank_zero, rank_one]; decide⟩

theorem Portion.amount {x : Float32} (h : Portion x) : Amount x where
  number := h.number
  nonneg := h.nonneg
  le_max := h.le_one.trans (by rw [rank_one, rank_max]; decide)

theorem Amount.finite {x : Float32} (h : Amount x) : rank x < topRank :=
  h.le_max.trans_lt (by rw [rank_max]; decide)

/-- **A sum of portions** stays within its bound, as the largest amount absorbs one more. -/
theorem Amount.add {x y : Float32} (hx : Amount x) (hy : Portion y) :
    Amount (x + y) ∧ rank x ≤ rank (x + y) ∧ rank y ≤ rank (x + y) := by
  have hyfinite := hy.amount.finite
  obtain ⟨hnumber, -⟩ := add_rounds hx.number hy.number hx.nonneg hy.nonneg hx.finite hyfinite
  obtain ⟨hleft, hright⟩ := rank_le_add hx.number hy.number hx.nonneg hy.nonneg hx.finite hyfinite
  have hmax : (16777216 : Float32).isNaN = false := by decide +kernel
  have hone : (1 : Float32).isNaN = false := by decide +kernel
  have hmono := rank_add_mono hx.number hy.number hmax hone hx.nonneg hy.nonneg hx.le_max hy.le_one
    (by rw [rank_max]; decide) (by rw [rank_one]; decide)
  have habsorbs : rank (16777216 + 1) = rank 16777216 := by decide +kernel
  rw [habsorbs] at hmono
  exact ⟨⟨hnumber, hx.nonneg.trans hleft, hmono⟩, hleft, hright⟩

/-- **The sum** of portions is not below any of them. -/
theorem sum_spec {values : List Float32} (h : ∀ value ∈ values, Portion value) :
    Amount (sum values) ∧ ∀ value ∈ values, rank value ≤ rank (sum values) := by
  suffices hfold : ∀ before, Amount before → Amount (values.foldl (· + ·) before)
      ∧ rank before ≤ rank (values.foldl (· + ·) before)
      ∧ ∀ value ∈ values, rank value ≤ rank (values.foldl (· + ·) before) by
    obtain ⟨hamount, -, hall⟩ :=
      hfold 0 portion_zero.amount
    exact ⟨hamount, hall⟩
  induction values with
  | nil => exact fun before hbefore => ⟨hbefore, le_rfl, nofun⟩
  | cons value rest ih =>
    intro before hbefore
    obtain ⟨hvalue, hrest⟩ := List.forall_mem_cons.mp h
    obtain ⟨hamount, hleft, hright⟩ := hbefore.add hvalue
    obtain ⟨hsum, hle, hall⟩ := ih hrest (before + value) hamount
    exact ⟨hsum, hleft.trans hle, List.forall_mem_cons.mpr ⟨hright.trans hle, hall⟩⟩

/-- **The exponential** of a number that is not positive is a portion: all of it at zero, and none
    of it at negative infinity. -/
theorem expNonpos_spec {x : Float32} (h : x.isNaN = false) :
    Portion (expNonpos x) ∧ (rank x = -topRank → rank (expNonpos x) = 0)
      ∧ (rank x = 0 → rank (expNonpos x) = rank 1) := by
  refine ⟨?_, fun hmasked => ?_, fun hzero => ?_⟩
  · have hhighest : Portion 1 := ⟨by decide +kernel, by rw [rank_one]; decide, le_rfl⟩
    unfold expNonpos
    rw [if_neg (by rw [h]; decide)]
    dsimp only
    split_ifs with hlow hhigh
    · obtain ⟨hnumber, hone⟩ := numbers_of_le hhigh
      exact ⟨hnumber, (nonneg_iff.mp hlow).2, (le_iff_rank_le hnumber hone).mp hhigh⟩
    · exact hhighest
    · exact portion_zero
  · have hx : x = negInfinity := eq_of_rank_eq (by rw [hmasked, rank_negInfinity]) (by decide)
    rw [hx]
    decide +kernel
  · obtain ⟨sign, hsign⟩ := unpack_eq_zero h hzero
    have hx : x = 0 ∨ x = Float32.ofBits 0x80000000 := by
      cases sign with
      | positive => exact .inl (eq_of_unpack_eq (hsign.trans rfl))
      | negative => exact .inr (eq_of_unpack_eq (hsign.trans rfl))
    rcases hx with rfl | rfl <;> decide +kernel

/-- A sum of portions with a whole one among them. -/
structure Whole (total : Float32) : Prop extends Amount total where
  one_le : rank 1 ≤ rank total

namespace Whole

variable {total : Float32} (h : Whole total)

include h

theorem pos : 0 < rank total := lt_of_lt_of_le (by rw [rank_one]; decide) h.one_le

/-- A portion of the whole is a portion, and no larger than that of the whole one. -/
theorem div {weight : Float32} (hweight : Portion weight) :
    Portion (weight / total) ∧ rank (weight / total) ≤ rank (1 / total) := by
  have hone : Float32.isNaN 1 = false := by decide +kernel
  have hpositive : 0 < rank 1 := by rw [rank_one]; decide
  have hunit : rank (1 / 1) = rank 1 := by decide +kernel
  have hle := rank_div_mono hweight.number hone hweight.le_one h.pos h.finite
  have hcap := rank_div_anti hone hpositive.le hpositive h.one_le h.finite
  exact ⟨⟨isNaN_div hweight.number h.pos h.finite,
    rank_div_nonneg hweight.number hweight.nonneg h.pos h.finite,
    hle.trans (hcap.trans hunit.le)⟩, hle⟩

/-- The largest portion is no less than `2 ^ -24`. -/
theorem least : 103 * 2 ^ 23 ≤ rank (1 / total) := by
  have hleast : rank (1 / 16777216) = 103 * 2 ^ 23 := by decide +kernel
  rw [← hleast]
  exact rank_div_anti (by decide +kernel) (by rw [rank_one]; decide) h.pos h.le_max
    (by rw [rank_max]; decide)

end Whole

/-- What is known of the probabilities of scores with a finite best one: they are portions, the best
    scores have the largest, which is no less than `2 ^ -24`, and masked tokens have none. -/
structure Weighs (scores probabilities : List Float32) (best top : ℤ) : Prop where
  portions : ∀ probability ∈ probabilities, Portion probability ∧ rank probability ≤ top
  masked : ∀ index, Masked scores index → ∀ probability,
    probabilities[index]? = some probability → rank probability = 0
  best : ∀ (index : ℕ) (score : Float32), scores[index]? = some score → rank score = best →
    ∃ probability, probabilities[index]? = some probability ∧ rank probability = top
  least : 103 * 2 ^ 23 ≤ top

theorem length_softmax (scores : List Float32) : (softmax scores).length = scores.length := by
  unfold softmax uniform
  dsimp only
  split_ifs <;> simp

section Softmax

variable {scores : List Float32} {best : ℤ} (h : Best scores best) (hlow : -topRank < best)
  (hhigh : best < topRank)

include h hlow hhigh

/-- The exponential of the distance from a finite best score. -/
theorem weight_spec {score : Float32} (hmem : score ∈ scores) :
    Portion (expNonpos (score - largest scores))
      ∧ (rank score = -topRank → rank (expNonpos (score - largest scores)) = 0)
      ∧ (rank score = best → expNonpos (score - largest scores) = 1) := by
  have hlargest := isNaN_largest h.numbers
  have hfinite : |rank (largest scores)| < topRank := by
    rw [h.rank_largest]
    exact abs_lt.mpr ⟨hlow, hhigh⟩
  have hscore := h.numbers score hmem
  obtain ⟨hportion, hnone, hone⟩ := expNonpos_spec (isNaN_sub hscore hlargest hfinite)
  refine ⟨hportion, fun hmasked => ?_, fun hbest => ?_⟩
  · exact hnone (rank_sub_of_masked hmasked hlargest hfinite)
  · have hsame := rank_sub_of_same hscore hlargest (hbest.trans h.rank_largest.symm) hfinite
    exact eq_of_rank_eq (hone hsame) (by rw [rank_one]; decide)

theorem whole_weights :
    Whole (sum (scores.map fun score => expNonpos (score - largest scores))) := by
  have hportions : ∀ weight ∈ scores.map fun score => expNonpos (score - largest scores),
      Portion weight := fun weight hmem => by
    obtain ⟨score, hscore, rfl⟩ := List.mem_map.mp hmem
    exact (weight_spec h hlow hhigh hscore).1
  obtain ⟨hamount, hall⟩ := sum_spec hportions
  obtain ⟨score, hmem, hbest⟩ := h.attained
  have hone := hall _ (List.mem_map_of_mem hmem)
  rw [(weight_spec h hlow hhigh hmem).2.2 hbest] at hone
  exact ⟨hamount, hone⟩

theorem softmax_eq : softmax scores = scores.map fun score =>
    expNonpos (score - largest scores)
      / sum (scores.map fun score => expNonpos (score - largest scores)) := by
  have hlargest := isNaN_largest h.numbers
  have hisFinite : (largest scores).isFinite = true :=
    (isFinite_iff hlargest).mpr (by rw [h.rank_largest]; exact ⟨hlow, hhigh⟩)
  have hwhole := whole_weights h hlow hhigh
  have hpositive : 0 < sum (scores.map fun score => expNonpos (score - largest scores)) :=
    pos_iff.mpr hwhole.pos
  unfold softmax
  rw [if_neg (by rw [hisFinite]; decide)]
  exact (if_pos hpositive).trans (List.map_map ..)

/-- **Softmax** of scores with a finite best one. -/
theorem softmax_spec : ∃ top, Weighs scores (softmax scores) best top := by
  have hwhole := whole_weights h hlow hhigh
  rw [softmax_eq h hlow hhigh]
  generalize sum (scores.map fun score => expNonpos (score - largest scores)) = total at hwhole
  refine ⟨rank (1 / total), ⟨fun probability hmem => ?_, fun index hmasked probability hindex => ?_,
    fun index score hindex hbest => ?_, hwhole.least⟩⟩
  · obtain ⟨score, hscore, rfl⟩ := List.mem_map.mp hmem
    exact hwhole.div (weight_spec h hlow hhigh hscore).1
  · rw [List.getElem?_map, Option.map_eq_some_iff] at hindex
    obtain ⟨score, hscore, rfl⟩ := hindex
    obtain ⟨hportion, hnone, -⟩ := weight_spec h hlow hhigh (List.mem_of_getElem? hscore)
    exact le_antisymm (rank_div_nonpos hportion.number (hnone (hmasked score hscore)).le hwhole.pos
      hwhole.finite) (hwhole.div hportion).1.nonneg
  · refine ⟨1 / total, ?_, rfl⟩
    rw [List.getElem?_map, hindex,
      ← (weight_spec h hlow hhigh (List.mem_of_getElem? hindex)).2.2 hbest]
    rfl

end Softmax

/-! ### Top-p -/

theorem cutoffFrom_mem (p : Float32) : ∀ (before last : Float32) {values : List Float32},
    values ≠ [] → cutoffFrom p before last values ∈ values
  | _, _, [], h => absurd rfl h
  | before, _, value :: rest, _ => by
    unfold cutoffFrom
    split
    · exact List.mem_cons_self
    · cases rest with
      | nil =>
        unfold cutoffFrom
        exact List.mem_cons_self
      | cons next rest => exact List.mem_cons_of_mem _ (cutoffFrom_mem p _ _ (List.cons_ne_nil _ _))

/-- The cutoff is one of the probabilities. -/
theorem cutoff_mem (p : Float32) {probabilities : List Float32} (h : probabilities ≠ []) :
    cutoff p probabilities ∈ probabilities := by
  have hperm := decreasing_perm probabilities
  have hnonempty : decreasing probabilities ≠ [] := fun hnil => by
    rw [hnil] at hperm
    exact h hperm.nil_eq.symm
  exact hperm.mem_iff.mp (cutoffFrom_mem p 0 0 hnonempty)

theorem length_topP (p : Float32) (probabilities : List Float32) :
    (topP p probabilities).length = probabilities.length := by
  unfold topP select
  dsimp only
  split_ifs <;> simp

/-- **The most probable token** is selected, whatever `p` is, and keeps a positive probability. -/
theorem Weighs.topP {scores probabilities : List Float32} {best top : ℤ}
    (h : Weighs scores probabilities best top) (p : Float32) {index : ℕ} {score : Float32}
    (hscore : scores[index]? = some score) (hbest : rank score = best) :
    ∃ probability, (topP p probabilities)[index]? = some probability ∧ 0 < rank probability := by
  obtain ⟨probability, hindex, htop⟩ := h.best index score hscore hbest
  have hmem := List.mem_of_getElem? hindex
  have hleast := h.least
  have hnumber := (h.portions probability hmem).1.number
  have hlimit := h.portions _ (cutoff_mem p (List.ne_nil_of_mem hmem))
  have hkept : (decide (cutoff p probabilities ≤ probability) && decide (0 < probability)) = true := by
    rw [Bool.and_eq_true, decide_eq_true_iff, decide_eq_true_iff,
      le_iff_rank_le hlimit.1.number hnumber, pos_iff, htop]
    exact ⟨hlimit.2, by omega⟩
  have hselected : (select p probabilities)[index]? = some probability := by
    unfold select
    rw [List.getElem?_map, hindex]
    exact congrArg some (if_pos hkept)
  have hportions : ∀ value ∈ select p probabilities, Portion value := by
    intro value hvalue
    obtain ⟨before, hbefore, rfl⟩ := List.mem_map.mp hvalue
    split
    · exact (h.portions before hbefore).1
    · exact portion_zero
  obtain ⟨hamount, hall⟩ := sum_spec hportions
  have hle := hall probability (List.mem_of_getElem? hselected)
  unfold Sampling.topP
  dsimp only
  split
  · refine ⟨probability / sum (select p probabilities), ?_, ?_⟩
    · rw [List.getElem?_map, hselected]
      rfl
    · -- not even the smallest largest probability vanishes in the largest sum
      have hsmallest : rank (Float32.ofBits 0x33800000) = 103 * 2 ^ 23 := by decide +kernel
      have hquotient : 0 < rank (Float32.ofBits 0x33800000 / 16777216) := by decide +kernel
      have hmono := rank_div_mono (t := 16777216) (x := Float32.ofBits 0x33800000)
        (by decide +kernel) hnumber (by omega) (by rw [rank_max]; decide) (by rw [rank_max]; decide)
      have hanti := rank_div_anti hnumber (by omega) (by omega : 0 < rank (sum (select p probabilities)))
        hamount.le_max (by rw [rank_max]; decide)
      omega
  · exact ⟨probability, hselected, by omega⟩

end Parley.Sampling
