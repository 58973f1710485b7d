import Parley.Proofs.Sampling.Drawing

/-! # What the sampler draws

    A masked token is drawn by none of the stages as long as the best score stays finite under the
    penalty and the temperature: `Sampler.sample_spec`.  Beyond that the probabilities fall back to
    the uniform ones, which know no masks.
-/

namespace Parley

open Number Sampling

namespace Sampler

/-- The parameters are within their ranges. -/
structure Sound (sampler : Sampler) : Prop where
  positive : 0 < rank sampler.temperature
  finite : rank sampler.temperature < topRank
  penalty : ∀ penalty, sampler.penalty = some penalty → 0 < rank penalty ∧ rank penalty < topRank

/-- The scores with the recent tokens weakened. -/
def weaken (sampler : Sampler) (scores : List Float32) (history : List ℕ) : List Float32 :=
  match sampler.penalty with
  | none => scores
  | some penalty => penalize penalty history scores

/-- The scores as they are compared in the end: divided by the temperature, unless it is so low that
    the best one wins. -/
def compared (sampler : Sampler) (scores : List Float32) (history : List ℕ) : List Float32 :=
  if sampler.temperature < 1e-3 then sampler.weaken scores history
  else sampler.scale (sampler.weaken scores history)

/-- If there is a finite score, the best one stays finite under the penalty and the temperature. -/
def Settles (sampler : Sampler) (scores : List Float32) (history : List ℕ) : Prop :=
  scores.any (·.isFinite) = true → (largest (sampler.compared scores history)).isFinite = true

variable {sampler : Sampler} {scores : List Float32} {history : List ℕ} {best : ℤ}

/-! ## Section 1: Stages -/

theorem numbers_weaken (hsound : sampler.Sound) (h : Numbers scores) :
    Numbers (sampler.weaken scores history) := by
  unfold weaken
  split
  · exact h
  · rename_i penalty hpenalty
    obtain ⟨hpositive, hfinite⟩ := hsound.penalty penalty hpenalty
    exact h.penalize hpositive hfinite

theorem masked_weaken (hsound : sampler.Sound) (history : List ℕ) {index : ℕ}
    (h : Masked scores index) :
    Masked (sampler.weaken scores history) index := by
  unfold weaken
  split
  · exact h
  · rename_i penalty hpenalty
    obtain ⟨hpositive, hfinite⟩ := hsound.penalty penalty hpenalty
    exact h.penalize hpositive hfinite

/-- The two filters, after the penalty. -/
theorem filter_eq (sampler : Sampler) (scores : List Float32) (history : List ℕ) :
    sampler.filter scores history =
      let kept := match sampler.topK with
        | none => sampler.weaken scores history
        | some k => Sampling.topK k (sampler.weaken scores history)
      match sampler.topP with
      | none => kept
      | some p => maskUnkept (Sampling.topP p (softmax kept)) kept := rfl

/-- **The filters** leave the best scores, whatever `k` and `p` are. -/
theorem spares_filter (h : Best (sampler.weaken scores history) best) (hlow : -topRank < best)
    (hhigh : best < topRank) :
    Spares best (sampler.weaken scores history) (sampler.filter scores history) := by
  rw [filter_eq]
  dsimp only
  have hspares : Spares best (sampler.weaken scores history) (match sampler.topK with
      | none => sampler.weaken scores history
      | some k => Sampling.topK k (sampler.weaken scores history)) := by
    split
    · exact .refl _ _
    · exact h.spares_topK _
  generalize (match sampler.topK with
      | none => sampler.weaken scores history
      | some k => Sampling.topK k (sampler.weaken scores history)) = kept at hspares
  split
  · exact hspares
  · rename_i p _
    obtain ⟨top, hweighs⟩ := softmax_spec (hspares.best h) hlow hhigh
    exact hspares.trans (spares_maskUnkept ((length_topP _ _).trans (length_softmax _))
      fun index score hscore hbest => hweighs.topP p hscore hbest)

theorem masked_filter (hsound : sampler.Sound) (history : List ℕ) {index : ℕ}
    (h : Masked scores index) :
    Masked (sampler.filter scores history) index := by
  rw [filter_eq]
  dsimp only
  have hweaken := masked_weaken hsound history h
  have hkept : Masked (match sampler.topK with
      | none => sampler.weaken scores history
      | some k => Sampling.topK k (sampler.weaken scores history)) index := by
    split
    · exact hweaken
    · exact hweaken.topK _
  split
  · exact hkept
  · exact hkept.maskUnkept _

/-- A score divided by the temperature, unless that is 1. -/
def scaled (sampler : Sampler) (score : Float32) : Float32 :=
  if 1e-6 < (sampler.temperature - 1.0).abs then score / sampler.temperature else score

theorem scale_eq (sampler : Sampler) (scores : List Float32) :
    sampler.scale scores = scores.map sampler.scaled := by
  unfold scale scaled
  split
  · rfl
  · rw [List.map_id']

section Scaled

variable {score other : Float32} (hsound : sampler.Sound)

include hsound

theorem isNaN_scaled (h : score.isNaN = false) : (sampler.scaled score).isNaN = false := by
  unfold scaled
  split
  · exact isNaN_div h hsound.positive hsound.finite
  · exact h

theorem rank_scaled_mono (h : score.isNaN = false) (hother : other.isNaN = false)
    (hle : rank score ≤ rank other) : rank (sampler.scaled score) ≤ rank (sampler.scaled other) := by
  unfold scaled
  split
  · exact rank_div_mono h hother hle hsound.positive hsound.finite
  · exact hle

theorem abs_rank_scaled (h : |rank score| = topRank) : |rank (sampler.scaled score)| = topRank := by
  unfold scaled
  split
  · exact abs_rank_div_of_infinite h hsound.positive hsound.finite
  · exact h

theorem rank_scaled_of_masked (h : rank score = -topRank) :
    rank (sampler.scaled score) = -topRank := by
  unfold scaled
  split
  · exact rank_div_of_masked h hsound.positive hsound.finite
  · exact h

/-- **The temperature** leaves the order of the scores. -/
theorem best_scale (h : Best scores (rank score)) (hscore : score.isNaN = false) :
    Best (sampler.scale scores) (rank (sampler.scaled score)) := by
  rw [scale_eq]
  refine ⟨h.numbers.map fun _ => isNaN_scaled hsound, fun result hmem => ?_, ?_⟩
  · obtain ⟨before, hbefore, rfl⟩ := List.mem_map.mp hmem
    exact rank_scaled_mono hsound (h.numbers before hbefore) hscore (h.le before hbefore)
  · obtain ⟨before, hbefore, hbest⟩ := h.attained
    have hnumber := h.numbers before hbefore
    exact ⟨_, List.mem_map_of_mem hbefore, le_antisymm
      (rank_scaled_mono hsound hnumber hscore hbest.le)
      (rank_scaled_mono hsound hscore hnumber hbest.ge)⟩

theorem masked_scale {index : ℕ} (h : Masked scores index) :
    Masked (sampler.scale scores) index := by
  rw [scale_eq]
  exact h.map fun _ => rank_scaled_of_masked hsound

end Scaled

/-! ## Section 2: The draw -/

/-- A score that is not masked, if there is one after the temperature. -/
theorem best_of_scale (hsound : sampler.Sound) (h : Numbers scores)
    (hany : -topRank < rank (largest (sampler.scale scores))) :
    Best scores (rank (largest scores)) := by
  refine best_largest h ?_
  by_contra! hnone
  have hmasked : ∀ result ∈ sampler.scale scores, rank result = -topRank := by
    intro result hmem
    rw [scale_eq] at hmem
    obtain ⟨score, hscore, rfl⟩ := List.mem_map.mp hmem
    have hle := (largest_spec h).2 score hscore
    exact rank_scaled_of_masked hsound
      (le_antisymm (hle.trans hnone) (rank_bounds score).1)
  have hnumbers : Numbers (sampler.scale scores) := fun result hmem =>
    isNaN_eq_false_of_rank (by rw [hmasked result hmem]; decide)
  rcases List.mem_cons.mp (largest_spec hnumbers).1 with heq | hmem
  · rw [heq, rank_negInfinity] at hany
    exact lt_irrefl _ hany
  · rw [hmasked _ hmem] at hany
    exact lt_irrefl _ hany

/-- Scores that settle have a finite best one under the penalty, and it stays finite under the
    temperature unless the best one wins anyway. -/
theorem Settles.exists_best (hsettles : sampler.Settles scores history) (hsound : sampler.Sound)
    (h : Numbers scores) (hany : scores.any (·.isFinite) = true) :
    ∃ score : Float32, score.isNaN = false
      ∧ Best (sampler.weaken scores history) (rank score) ∧ |rank score| < topRank
      ∧ (¬ sampler.temperature < 1e-3 → |rank (sampler.scaled score)| < topRank) := by
  have hnumbers : Numbers (sampler.weaken scores history) := numbers_weaken hsound h
  have hlargest := isNaN_largest hnumbers
  have hfinite := hsettles hany
  unfold compared at hfinite
  refine ⟨largest (sampler.weaken scores history), hlargest, ?_⟩
  by_cases hgreedy : sampler.temperature < 1e-3
  · rw [if_pos hgreedy, isFinite_iff hlargest] at hfinite
    exact ⟨best_largest hnumbers hfinite.1, abs_lt.mpr hfinite, absurd hgreedy⟩
  · have hscaled : Numbers (sampler.scale (sampler.weaken scores history)) := by
      rw [scale_eq]
      exact hnumbers.map fun _ => isNaN_scaled hsound
    rw [if_neg hgreedy, isFinite_iff (isNaN_largest hscaled)] at hfinite
    have hbest := best_of_scale hsound hnumbers hfinite.1
    rw [(best_scale hsound hbest hlargest).rank_largest, ← abs_lt] at hfinite
    refine ⟨hbest, (abs_rank_le _).lt_of_ne fun hinfinite => ?_, fun _ => hfinite⟩
    exact hfinite.ne (abs_rank_scaled hsound hinfinite)

/-- **What is drawn is not masked.**  As long as the best score settles, the sampler fails if no
    score is finite, and else finds a token that is not masked. -/
theorem sample_spec (hsound : sampler.Sound) (hsettles : sampler.Settles scores history)
    (h : Numbers scores) (hnonempty : scores ≠ []) :
    (scores.any (·.isFinite) = false ∧ (sampler.sample scores history).1 = .error .noValidTokens)
      ∨ (scores.any (·.isFinite) = true ∧ ∃ index, (sampler.sample scores history).1 = .ok index
        ∧ ¬ Masked scores index) := by
  have htemperature : ¬ sampler.temperature ≤ 0 := fun hle =>
    not_lt_of_le_single hle (pos_iff.mpr hsound.positive)
  have hempty : ¬ scores.isEmpty = true := by
    rwa [List.isEmpty_iff]
  unfold sample
  rw [if_neg hempty, if_neg htemperature]
  cases hany : scores.any (·.isFinite) with
  | false => exact .inl ⟨rfl, rfl⟩
  | true =>
    refine .inr ⟨rfl, ?_⟩
    obtain ⟨score, hnumber, hbest, hfinite, hscaled⟩ := hsettles.exists_best hsound h hany
    obtain ⟨hlow, hhigh⟩ := abs_lt.mp hfinite
    have hfilter := (spares_filter hbest hlow hhigh).best hbest
    rw [if_neg (by decide)]
    dsimp only
    by_cases hgreedy : sampler.temperature < 1e-3
    · -- the last of the best scores is not masked
      rw [if_pos hgreedy]
      obtain ⟨attained, hmem, hattained⟩ := hfilter.attained
      obtain ⟨found, hfound, hall, -⟩ := lastMaximum_spec hfilter.numbers (List.ne_nil_of_mem hmem)
      refine ⟨_, rfl, fun hmasked => ?_⟩
      have hrank := masked_filter hsound history hmasked found hfound
      have hle := hall attained hmem
      omega
    · -- a masked token has no probability, and what is drawn has one
      rw [if_neg hgreedy]
      obtain ⟨hlow', hhigh'⟩ := abs_lt.mp (hscaled hgreedy)
      have hscale := best_scale hsound hfilter hnumber
      obtain ⟨top, hweighs⟩ := softmax_spec hscale hlow' hhigh'
      obtain ⟨attained, hmem, hattained⟩ := hscale.attained
      obtain ⟨position, hposition⟩ := List.getElem?_of_mem hmem
      obtain ⟨most, hmost, htop⟩ := hweighs.best position attained hposition hattained
      have hleast := hweighs.least
      obtain ⟨index, hdraw, hdrawn⟩ := draw_spec
        (nonneg_iff.mpr sampler.generator.next.value_spec)
        (fun probability hmem => (hweighs.portions probability hmem).1.zero_le)
        ⟨most, List.mem_of_getElem? hmost, pos_iff.mpr (by omega)⟩
      obtain ⟨probability, hindex, hpositive⟩ := hdrawn.positive
      rw [pos_iff] at hpositive
      rw [drawIndex_eq_ok hdraw]
      refine ⟨index, rfl, fun hmasked => ?_⟩
      have hnone := hweighs.masked index
        (masked_scale hsound (masked_filter hsound history hmasked)) probability hindex
      omega

end Sampler

end Parley
