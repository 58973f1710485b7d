import Parley.Proofs.Sampling.Sampler

/-! # Sampling at a very low temperature

    The last of the best scores wins at a very low temperature, but it is looked for only when a
    sort, a softmax and a running sum have masked a part of the scores.  All the best scores survive
    that in their places, `Sampler.spares_filter`, and a masked score is none of them; hence the
    filters do not change which score is the last of the best: `Sampler.sample_of_cold`.
-/

namespace Parley

open Number Sampling

namespace Sampling

/-- The score at `index` is a largest one, and every later score is smaller. -/
def LastMaximum (scores : List Float32) (index : ℕ) : Prop :=
  ∃ score, scores[index]? = some score ∧ ∀ (place : ℕ) (other : Float32),
    scores[place]? = some other → other ≤ score ∧ (index < place → other < score)

/-- **Filters that spare the best scores** leave the last of them. -/
theorem Spares.lastMaximum {scores filtered : List Float32} {best : ℤ}
    (h : Spares best scores filtered) (hbest : Best scores best) (hlow : -topRank < best) :
    LastMaximum scores (Sampling.lastMaximum filtered) := by
  have hfiltered := h.best hbest
  obtain ⟨attained, hmem, hattained⟩ := hfiltered.attained
  obtain ⟨score, hscore, hall, hlater⟩ :=
    lastMaximum_spec hfiltered.numbers (List.ne_nil_of_mem hmem)
  generalize Sampling.lastMaximum filtered = index at hscore hlater ⊢
  have hrank : best ≤ rank score := hattained ▸ hall attained hmem
  -- the winner is not masked, so it is a score from before
  have hbefore : scores[index]? = some score := by
    rcases h index with hsame | ⟨_, _, _, hmasked⟩
    · exact hsame.symm.trans hscore
    · cases hscore.symm.trans hmasked
      rw [rank_negInfinity] at hrank
      omega
  have hnumber := hbest.numbers score (List.mem_of_getElem? hbefore)
  refine ⟨score, hbefore, fun place other hother => ?_⟩
  have hmem := List.mem_of_getElem? hother
  have hle := hbest.le other hmem
  rw [le_iff_rank_le (hbest.numbers other hmem) hnumber,
    lt_iff_rank_lt (hbest.numbers other hmem) hnumber]
  refine ⟨hle.trans hrank, fun hplace => ?_⟩
  rcases h place with hsame | ⟨before, hscores, hbelow, -⟩
  · exact hlater place other hplace (hsame.trans hother)
  · cases hscores.symm.trans hother
    omega

/-- Scores that are finite or masked, one of them finite, have a finite best one. -/
theorem exists_best {scores : List Float32}
    (hscores : ∀ score ∈ scores, score = negInfinity ∨ score.isFinite = true)
    (hany : ∃ score ∈ scores, score.isFinite = true) :
    ∃ best, Best scores best ∧ -topRank < best ∧ best < topRank := by
  have hfinite : ∀ {score : Float32}, score.isFinite = true →
      -topRank < rank score ∧ rank score < topRank := by
    intro score h
    exact (isFinite_iff (number_of_isFinite h)).mp h
  have hnumbers : Numbers scores := by
    intro score hmem
    rcases hscores score hmem with rfl | hscore
    · exact isNaN_negInfinity
    · exact number_of_isFinite hscore
  obtain ⟨score, hmem, hscore⟩ := hany
  have hlow := (hfinite hscore).1.trans_le ((largest_spec hnumbers).2 score hmem)
  have hbest := best_largest hnumbers hlow
  refine ⟨_, hbest, hlow, ?_⟩
  obtain ⟨attained, hmem, hattained⟩ := hbest.attained
  rcases hscores attained hmem with rfl | hattainedFinite
  · rw [← hattained, rank_negInfinity] at hlow
    exact absurd hlow (lt_irrefl _)
  · exact hattained ▸ (hfinite hattainedFinite).2

end Sampling

namespace Sampler

/-- **Near-greedy sampling ignores the filters.**  Below a temperature of a thousandth and without a
    penalty, the sampler returns the last of the best scores, whatever its filters, its random
    numbers and the recent tokens are, and draws no random number. -/
theorem sample_of_cold (sampler : Sampler) (scores : List Float32) (history : List ℕ)
    (hwarm : 0 < sampler.temperature) (hcold : sampler.temperature < 1e-3)
    (hpenalty : sampler.penalty = none)
    (hscores : ∀ score ∈ scores, score = negInfinity ∨ score.isFinite = true)
    (hany : ∃ score ∈ scores, score.isFinite = true) :
    ∃ index, LastMaximum scores index ∧ sampler.sample scores history = (.ok index, sampler) := by
  obtain ⟨best, hbest, hlow, hhigh⟩ := exists_best hscores hany
  have hweaken : sampler.weaken scores history = scores := by
    unfold weaken
    rw [hpenalty]
  have hspares : Spares best (sampler.weaken scores history) (sampler.filter scores history) :=
    spares_filter (hweaken.symm ▸ hbest) hlow hhigh
  rw [hweaken] at hspares
  refine ⟨lastMaximum (sampler.filter scores history), hspares.lastMaximum hbest hlow, ?_⟩
  -- none of the checks in front of the filters fails
  have hempty : ¬ scores.isEmpty = true := by
    obtain ⟨score, hmem, -⟩ := hany
    rw [List.isEmpty_iff]
    exact List.ne_nil_of_mem hmem
  have htemperature : ¬ sampler.temperature ≤ 0 := fun hle => not_lt_of_le_single hle hwarm
  have hfinite : scores.any (·.isFinite) = true := List.any_eq_true.mpr hany
  unfold sample
  rw [if_neg hempty, if_neg htemperature, hfinite, if_neg (by decide)]
  exact if_pos hcold

/-- Two best scores, of which the filters must leave both. -/
theorem sample_of_cold_tied :
    ∃ index, LastMaximum [1, 3, negInfinity, 3, 0] index
      ∧ sample { temperature := 1e-4, topK := some 1, topP := some 0.5 }
          [1, 3, negInfinity, 3, 0] [3]
        = (.ok index, { temperature := 1e-4, topK := some 1, topP := some 0.5 }) :=
  sample_of_cold _ _ _ (by decide +kernel) (by decide +kernel) rfl (by decide +kernel)
    (by decide +kernel)

end Sampler

end Parley
