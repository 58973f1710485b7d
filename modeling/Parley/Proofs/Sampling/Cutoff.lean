import Parley.Proofs.Sampling.Filter

/-! # What the filters keep

    Both filters look for a limit among the sorted values and then go through the unsorted ones
    again.  The limit does not depend on how the sort arranges values that compare equal: two
    descending arrangements agree but for the signs of their zeros, `Descends.map_rank_eq`, and
    these change no running sum, `Alike.add`.  So each filter is described by any descending
    arrangement, and a permutation of the tokens permutes what it keeps: `filters_keep`.
-/

namespace Parley.Sampling

open Number

/-- `sorted` are the values from the largest down. -/
structure Descends (sorted values : List Float32) : Prop where
  perm : sorted.Perm values
  ordered : sorted.Pairwise fun before after => after ≤ before

/-- The running sum of `sorted` first reaches `p` at `limit`, or else never, and then `limit` is the
    last entry. -/
def Crosses (p : Float32) (sorted : List Float32) (limit : Float32) : Prop :=
  ∃ place, sorted[place]? = some limit
    ∧ (∀ earlier < place, ¬ p ≤ sum (sorted.take (earlier + 1)))
    ∧ (p ≤ sum (sorted.take (place + 1)) ∨ place + 1 = sorted.length)

/-- At how many places the two lists agree. -/
def unchanged (before after : List Float32) : ℕ :=
  (before.zip after).countP fun entry => entry.2 = entry.1

/-- The entry at `index` is positive. -/
def Chosen (selected : List Float32) (index : ℕ) : Prop :=
  ∃ probability, selected[index]? = some probability ∧ 0 < probability

/-- The values in another order: first the one at the first place in `order`, and so on. -/
def rearrange (order : List ℕ) (values : List Float32) : List Float32 :=
  order.filterMap (values[·]?)

/-- Of the scores those are kept that are no less than `limit`, the `k`-th largest. -/
structure KeepsBest (k : ℕ) (limit : Float32) (scores filtered : List Float32) : Prop where
  entries : filtered = scores.map fun score => if limit ≤ score then score else negInfinity
  enough : k ≤ unchanged scores filtered
  few : scores.countP (fun score => limit < score) < k
  ties : ∀ (index place : ℕ) (score other : Float32), scores[index]? = some score →
    scores[place]? = some other → score ≤ other → other ≤ score →
      (filtered[index]? = some score ↔ filtered[place]? = some other)

/-- Of the probabilities those are selected that are positive and no less than `limit`. -/
structure SelectsFrom (limit : Float32) (probabilities selected : List Float32) : Prop where
  entries : selected = probabilities.map fun probability =>
    if limit ≤ probability ∧ 0 < probability then probability else 0
  upward : ∀ (index place : ℕ) (probability other : Float32),
    probabilities[index]? = some probability → probabilities[place]? = some other →
      0 < other → probability ≤ other → Chosen selected index → Chosen selected place
  ties : ∀ (index place : ℕ) (probability other : Float32),
    probabilities[index]? = some probability → probabilities[place]? = some other →
      probability ≤ other → other ≤ probability → (Chosen selected index ↔ Chosen selected place)

/-! ## Section 1: Values that compare equal -/

/-- Two results that no comparison tells apart: the same number but for the sign of a zero, or no
    number both. -/
structure Alike (x y : Float32) : Prop where
  rank_eq : rank x = rank y
  isNaN_eq : x.isNaN = y.isNaN

namespace Alike

variable {x x' y y' : Float32}

/-- What is alike and not zero is the same. -/
theorem eq_of_rank_ne_zero (h : Alike x x') (hnonzero : rank x' ≠ 0) : x = x' :=
  eq_of_rank_eq h.rank_eq hnonzero

theorem le_iff (h : Alike x x') (p : Float32) : p ≤ x ↔ p ≤ x' := by
  by_cases hnumbers : p.isNaN = false ∧ x.isNaN = false
  · obtain ⟨hp, hx⟩ := hnumbers
    rw [le_iff_rank_le hp hx, le_iff_rank_le hp (h.isNaN_eq ▸ hx), h.rank_eq]
  · -- a NaN is not compared to anything
    have hleft : ¬ p ≤ x := fun hle => hnumbers (numbers_of_le hle)
    have hright : ¬ p ≤ x' := fun hle => hnumbers
      ⟨(numbers_of_le hle).1, h.isNaN_eq.trans (numbers_of_le hle).2⟩
    exact iff_of_false hleft hright

/-- **The signs of zeros** make no difference to a sum. -/
theorem add (h : Alike x x') (hy : Alike y y') (hnumber : y.isNaN = false) :
    Alike (x + y) (x' + y') := by
  have hnumber' : y'.isNaN = false := hy.isNaN_eq.symm.trans hnumber
  by_cases hzero : rank y = 0
  · -- a zero leaves the sum as it is
    obtain ⟨hrank, hisNaN⟩ := add_zero_cases hnumber hzero x
    obtain ⟨hrank', hisNaN'⟩ := add_zero_cases hnumber' (hy.rank_eq.symm.trans hzero) x'
    exact ⟨hrank.trans (h.rank_eq.trans hrank'.symm),
      hisNaN.trans (h.isNaN_eq.trans hisNaN'.symm)⟩
  · obtain rfl : y = y' := hy.eq_of_rank_ne_zero (hy.rank_eq ▸ hzero)
    by_cases hnan : x.isNaN = true
    · rw [eq_of_isNaN hnan (h.isNaN_eq.symm.trans hnan)]
      exact ⟨rfl, rfl⟩
    · have hx : x.isNaN = false := eq_false_of_ne_true hnan
      by_cases hstart : rank x = 0
      · -- so far the sum is a zero
        obtain ⟨hrank, hisNaN⟩ := add_zero_cases hx hstart y
        obtain ⟨hrank', hisNaN'⟩ := add_zero_cases (h.isNaN_eq.symm.trans hx)
          (h.rank_eq.symm.trans hstart) y
        rw [add_comm_single x, add_comm_single x']
        exact ⟨hrank.trans hrank'.symm, hisNaN.trans hisNaN'.symm⟩
      · rw [h.eq_of_rank_ne_zero (h.rank_eq ▸ hstart)]
        exact ⟨rfl, rfl⟩

end Alike

/-! ## Section 2: Descending arrangements -/

/-- A value is put in its place. -/
theorem insertIncreasing_ordered {value : Float32} {values : List Float32}
    (hvalue : value.isNaN = false) (hvalues : Numbers values)
    (hordered : values.Pairwise fun before after => before ≤ after) :
    (insertIncreasing value values).Pairwise fun before after => before ≤ after := by
  induction values with
  | nil => exact List.pairwise_singleton _ _
  | cons first rest ih =>
    obtain ⟨hfirst, hrest⟩ := List.forall_mem_cons.mp hvalues
    obtain ⟨hbefore, hbehind⟩ := List.pairwise_cons.mp hordered
    unfold insertIncreasing
    by_cases hlt : first < value
    · -- the first entry stays in front
      have hle : first ≤ value := (le_iff_rank_le hfirst hvalue).mpr
        ((lt_iff_rank_lt hfirst hvalue).mp hlt).le
      rw [if_pos hlt, List.pairwise_cons]
      refine ⟨?_, ih hrest hbehind⟩
      intro after hmem
      rcases List.mem_cons.mp ((insertIncreasing_perm value rest).mem_iff.mp hmem) with rfl | hmem
      · exact hle
      · exact hbefore after hmem
    · -- the value comes before all others
      have hle : value ≤ first := (le_iff_rank_le hvalue hfirst).mpr
        (not_lt.mp (mt (lt_iff_rank_lt hfirst hvalue).mpr hlt))
      rw [if_neg hlt, List.pairwise_cons, List.forall_mem_cons]
      refine ⟨⟨hle, ?_⟩, hordered⟩
      intro after hmem
      exact le_trans_single hle (hbefore after hmem)

/-- **Sorting** gives a descending arrangement. -/
theorem descends_decreasing {values : List Float32} (h : Numbers values) :
    Descends (decreasing values) values := by
  refine ⟨decreasing_perm values, List.pairwise_reverse.mpr ?_⟩
  suffices hfold : ∀ sorted : List Float32, Numbers sorted →
      sorted.Pairwise (fun before after => before ≤ after) →
        (values.foldl (fun sorted value => insertIncreasing value sorted) sorted).Pairwise
          (fun before after => before ≤ after) from hfold [] nofun .nil
  induction values with
  | nil =>
    intro sorted _ hordered
    exact hordered
  | cons value rest ih =>
    intro sorted hsorted hordered
    obtain ⟨hvalue, hrest⟩ := List.forall_mem_cons.mp h
    have hnumbers : Numbers (insertIncreasing value sorted) := by
      intro entry hmem
      rcases List.mem_cons.mp ((insertIncreasing_perm value sorted).mem_iff.mp hmem) with rfl | hmem
      · exact hvalue
      · exact hsorted entry hmem
    rw [List.foldl_cons]
    exact ih hrest _ hnumbers (insertIncreasing_ordered hvalue hsorted hordered)

namespace Descends

variable {sorted sorted' values : List Float32} (h : Descends sorted values)

include h

theorem ordered_rank : (sorted.map rank).Pairwise (· ≥ ·) := by
  rw [List.pairwise_map]
  refine h.ordered.imp fun hle => ?_
  obtain ⟨hafter, hbefore⟩ := numbers_of_le hle
  exact (le_iff_rank_le hafter hbefore).mp hle

/-- **Two descending arrangements** differ by the signs of zeros at most. -/
theorem map_rank_eq (h' : Descends sorted' values) : sorted.map rank = sorted'.map rank :=
  List.Perm.eq_of_pairwise (fun _ _ _ _ hge hle => le_antisymm hle hge)
    h.ordered_rank h'.ordered_rank ((h.perm.trans h'.perm.symm).map rank)

theorem numbers (hnumbers : Numbers values) : Numbers sorted :=
  fun value hmem => hnumbers value (h.perm.mem_iff.mp hmem)

/-- **Counting from a place** in the arrangement: the values above it stand before it, and those
    before it are not below it. -/
theorem countP_place (hnumbers : Numbers values) {place : ℕ} {limit : Float32}
    (hlimit : sorted[place]? = some limit) :
    values.countP (fun value => limit < value) ≤ place
      ∧ place + 1 ≤ values.countP (fun value => limit ≤ value) := by
  have hnumber := h.numbers hnumbers limit (List.mem_of_getElem? hlimit)
  obtain ⟨hlt, hget⟩ := List.getElem?_eq_some_iff.mp hlimit
  have hsplit : sorted = sorted.take place ++ limit :: sorted.drop (place + 1) := by
    rw [← hget, ← List.drop_eq_getElem_cons hlt, List.take_append_drop]
  have hlength : (sorted.take place).length = place := List.length_take_of_le hlt.le
  have hordered := h.ordered
  rw [← h.perm.countP_eq, ← h.perm.countP_eq]
  generalize sorted.take place = above at hsplit hlength
  generalize sorted.drop (place + 1) = below at hsplit
  subst hsplit hlength
  obtain ⟨-, hbelow, habove⟩ := List.pairwise_append.mp hordered
  rw [List.countP_append, List.countP_append]
  constructor
  · -- what comes from the limit on is not above it
    have hnone : (limit :: below).countP (fun value => limit < value) = 0 := by
      rw [List.countP_eq_zero]
      intro value hmem
      rw [decide_eq_true_eq]
      rcases List.mem_cons.mp hmem with rfl | hmem
      · exact not_lt_of_le_single ((le_iff_rank_le hnumber hnumber).mpr le_rfl)
      · exact not_lt_of_le_single ((List.pairwise_cons.mp hbelow).1 value hmem)
    rw [hnone]
    exact List.countP_le_length
  · -- what comes before the limit is no less, and neither is the limit
    have hall : above.countP (fun value => limit ≤ value) = above.length := by
      rw [List.countP_eq_length]
      intro value hmem
      exact decide_eq_true (habove value hmem limit List.mem_cons_self)
    have hself : decide (limit ≤ limit) = true :=
      decide_eq_true ((le_iff_rank_le hnumber hnumber).mpr le_rfl)
    rw [hall, List.countP_cons, if_pos hself]
    omega

end Descends

/-! ## Section 3: Limits -/

/-- The limit is the same for two arrangements, but for the sign of a zero. -/
theorem rank_cutoffFrom (p : Float32) {values values' : List Float32} (hnumbers : Numbers values)
    (hnumbers' : Numbers values') (hranks : values.map rank = values'.map rank)
    {before before' last last' : Float32} (hbefore : Alike before before')
    (hlast : rank last = rank last') :
    rank (cutoffFrom p before last values) = rank (cutoffFrom p before' last' values') := by
  induction values generalizing values' before before' last last' with
  | nil =>
    cases List.map_eq_nil_iff.mp hranks.symm
    exact hlast
  | cons value rest ih =>
    obtain ⟨value', rest', rfl, hrank, hranks⟩ := List.map_eq_cons_iff.mp hranks.symm
    obtain ⟨hnumber, hrest⟩ := List.forall_mem_cons.mp hnumbers
    obtain ⟨hnumber', hrest'⟩ := List.forall_mem_cons.mp hnumbers'
    -- the running sums stay alike, so both reach `p` at the same place
    have hsum : Alike (before + value) (before' + value') :=
      hbefore.add ⟨hrank.symm, hnumber.trans hnumber'.symm⟩ hnumber
    unfold cutoffFrom
    by_cases hreached : p ≤ before + value
    · rw [if_pos hreached, if_pos ((hsum.le_iff p).mp hreached)]
      exact hrank.symm
    · rw [if_neg hreached, if_neg (mt (hsum.le_iff p).mpr hreached)]
      exact ih hrest hrest' hranks.symm hsum hrank.symm

/-- Where the running sum crosses `p`, with `before` in front. -/
theorem cutoffFrom_spec (p : Float32) {values : List Float32} (hnonempty : values ≠ [])
    (before last : Float32) :
    ∃ place, values[place]? = some (cutoffFrom p before last values)
      ∧ (∀ earlier < place, ¬ p ≤ (values.take (earlier + 1)).foldl (· + ·) before)
      ∧ (p ≤ (values.take (place + 1)).foldl (· + ·) before ∨ place + 1 = values.length) := by
  induction values generalizing before last with
  | nil => contradiction
  | cons value rest ih =>
    unfold cutoffFrom
    by_cases hreached : p ≤ before + value
    · rw [if_pos hreached]
      exact ⟨0, rfl, fun _ hlt => absurd hlt (Nat.not_lt_zero _), .inl hreached⟩
    · rw [if_neg hreached]
      by_cases hend : rest = []
      · -- the last value, though the sum does not reach `p`
        subst hend
        exact ⟨0, rfl, fun _ hlt => absurd hlt (Nat.not_lt_zero _), .inr rfl⟩
      · obtain ⟨place, hplace, hearlier, hcrosses⟩ := ih hend (before + value) value
        refine ⟨place + 1, hplace, ?_, hcrosses.imp id (congrArg (· + 1))⟩
        intro earlier hlt
        cases earlier with
        | zero => exact hreached
        | succ earlier => exact hearlier earlier (Nat.lt_of_succ_lt_succ hlt)

theorem crosses_cutoffFrom (p : Float32) {sorted : List Float32} (hnonempty : sorted ≠ []) :
    Crosses p sorted (cutoffFrom p 0 0 sorted) :=
  cutoffFrom_spec p hnonempty 0 0

section Limits

variable {scores sorted : List Float32} (h : Numbers scores) (hsorted : Descends sorted scores)

include h hsorted

/-- **The `k`-th largest score** is the limit of the filter, in any descending arrangement. -/
theorem topK_eq {k : ℕ} {limit : Float32} (hpositive : 0 < k) (hlt : k < scores.length)
    (hlimit : sorted[k - 1]? = some limit) :
    topK k scores = scores.map fun score => if limit ≤ score then score else negInfinity := by
  have hdecreasing := descends_decreasing h
  have hranks : (sorted.map rank)[k - 1]? = ((decreasing scores).map rank)[k - 1]? := by
    rw [hsorted.map_rank_eq hdecreasing]
  rw [List.getElem?_map, List.getElem?_map, hlimit] at hranks
  obtain ⟨threshold, hthreshold, hrank⟩ := Option.map_eq_some_iff.mp hranks.symm
  have hnumber := hsorted.numbers h limit (List.mem_of_getElem? hlimit)
  have hnumber' := hdecreasing.numbers h threshold (List.mem_of_getElem? hthreshold)
  have hchecks : ¬ (decide (k = 0) || decide (scores.length ≤ k)) = true := by
    simp only [Bool.or_eq_true, decide_eq_true_eq]
    omega
  unfold topK
  rw [if_neg hchecks, hthreshold]
  refine List.map_congr_left fun score hmem => ?_
  have hcompare : score < threshold ↔ ¬ limit ≤ score := by
    rw [lt_iff_rank_lt (h score hmem) hnumber', le_iff_rank_le hnumber (h score hmem), hrank,
      not_le]
  by_cases hbelow : score < threshold
  · rw [if_pos hbelow, if_neg (hcompare.mp hbelow)]
  · rw [if_neg hbelow, if_pos (not_not.mp (mt hcompare.mpr hbelow))]

/-- **The value at which the running sum reaches `p`** is the limit of the selection, in any
    descending arrangement. -/
theorem select_eq (p : Float32) (hnonempty : scores ≠ []) :
    select p scores = scores.map fun score =>
      if cutoffFrom p 0 0 sorted ≤ score ∧ 0 < score then score else 0 := by
  have hdecreasing := descends_decreasing h
  have hsome : sorted ≠ [] := fun hnil => hnonempty (hnil ▸ hsorted.perm).nil_eq.symm
  have hrank : rank (cutoff p scores) = rank (cutoffFrom p 0 0 sorted) :=
    rank_cutoffFrom p (hdecreasing.numbers h) (hsorted.numbers h)
      (hdecreasing.map_rank_eq hsorted) ⟨rfl, rfl⟩ rfl
  have hnumber := h _ (cutoff_mem p hnonempty)
  have hnumber' := hsorted.numbers h _ (cutoffFrom_mem p 0 0 hsome)
  unfold select
  refine List.map_congr_left fun score hmem => ?_
  have hcompare : cutoff p scores ≤ score ↔ cutoffFrom p 0 0 sorted ≤ score := by
    rw [le_iff_rank_le hnumber (h score hmem), le_iff_rank_le hnumber' (h score hmem), hrank]
  simp only [Bool.and_eq_true, decide_eq_true_eq, hcompare]

end Limits

/-! ## Section 4: What is kept -/

theorem unchanged_map (f : Float32 → Float32) (values : List Float32) :
    unchanged values (values.map f) = values.countP fun value => f value = value := by
  unfold unchanged
  rw [← List.map_prod_left_eq_zip, List.countP_map]
  rfl

/-- A score that compares equal to one that is kept is kept. -/
theorem kept_of_same {limit score other : Float32} (hle : score ≤ other) (hge : other ≤ score)
    (hkept : (if limit ≤ score then score else negInfinity) = score) :
    (if limit ≤ other then other else negInfinity) = other := by
  by_cases hlimit : limit ≤ score
  · exact if_pos (le_trans_single hlimit hle)
  · -- a score that was masked before is a negative infinity, and so is the other one
    rw [if_neg hlimit] at hkept
    obtain ⟨hscore, hother⟩ := numbers_of_le hle
    rw [le_iff_rank_le hscore hother] at hle
    rw [le_iff_rank_le hother hscore] at hge
    have hrank : rank other = rank negInfinity := by
      rw [hkept]
      exact le_antisymm hge hle
    have hsame : other = negInfinity := eq_of_rank_eq hrank (by decide)
    rw [hsame]
    exact ite_self _

theorem keepsBest {scores sorted : List Float32} (h : Numbers scores)
    (hsorted : Descends sorted scores) {k : ℕ} (hpositive : 0 < k) (hlt : k < scores.length) :
    ∃ limit, sorted[k - 1]? = some limit ∧ KeepsBest k limit scores (topK k scores) := by
  have hplace : k - 1 < sorted.length := by
    rw [hsorted.perm.length_eq]
    omega
  have hlimit : sorted[k - 1]? = some sorted[k - 1] := List.getElem?_eq_getElem hplace
  have hentries := topK_eq h hsorted hpositive hlt hlimit
  generalize sorted[k - 1] = limit at hlimit hentries
  obtain ⟨habove, hfrom⟩ := hsorted.countP_place h hlimit
  refine ⟨limit, hlimit, hentries, ?_, by omega, ?_⟩
  · rw [hentries, unchanged_map]
    have hmono := List.countP_mono_left (l := scores) (p := fun score => decide (limit ≤ score))
      (q := fun score => decide ((if limit ≤ score then score else negInfinity) = score))
      fun score _ hle => decide_eq_true (if_pos (of_decide_eq_true hle))
    omega
  · intro index place score other hscore hother hle hge
    rw [hentries, List.getElem?_map, List.getElem?_map, hscore, hother, Option.map_some,
      Option.map_some, Option.some_inj, Option.some_inj]
    exact ⟨kept_of_same hle hge, kept_of_same hge hle⟩

/-- What is chosen is positive and no less than the limit. -/
theorem chosen_iff {limit probability : Float32} {probabilities : List Float32} {index : ℕ}
    (h : probabilities[index]? = some probability) :
    Chosen (probabilities.map fun probability =>
      if limit ≤ probability ∧ 0 < probability then probability else 0) index
        ↔ limit ≤ probability ∧ 0 < probability := by
  unfold Chosen
  rw [List.getElem?_map, h, Option.map_some]
  by_cases hchosen : limit ≤ probability ∧ 0 < probability
  · rw [if_pos hchosen]
    exact iff_of_true ⟨probability, rfl, hchosen.2⟩ hchosen
  · rw [if_neg hchosen]
    refine iff_of_false ?_ hchosen
    rintro ⟨value, hvalue, hpositive⟩
    cases hvalue
    exact absurd hpositive (by decide)

theorem selectsFrom {probabilities sorted : List Float32} (h : Numbers probabilities)
    (hsorted : Descends sorted probabilities) (hnonempty : probabilities ≠ []) (p : Float32) :
    ∃ limit, Crosses p sorted limit ∧ SelectsFrom limit probabilities (select p probabilities) := by
  have hsome : sorted ≠ [] := fun hnil => hnonempty (hnil ▸ hsorted.perm).nil_eq.symm
  refine ⟨cutoffFrom p 0 0 sorted, crosses_cutoffFrom p hsome, select_eq h hsorted p hnonempty,
    ?_, ?_⟩
  · intro index place probability other hindex hplace hpositive hle
    rw [select_eq h hsorted p hnonempty, chosen_iff hindex, chosen_iff hplace]
    exact fun hchosen => ⟨le_trans_single hchosen.1 hle, hpositive⟩
  · intro index place probability other hindex hplace hle hge
    rw [select_eq h hsorted p hnonempty, chosen_iff hindex, chosen_iff hplace]
    exact ⟨fun hchosen => ⟨le_trans_single hchosen.1 hle, lt_of_lt_of_le_single hchosen.2 hle⟩,
      fun hchosen => ⟨le_trans_single hchosen.1 hge, lt_of_lt_of_le_single hchosen.2 hge⟩⟩

/-! ## Section 5: Permutations -/

section Rearrange

variable {values : List Float32} {order : List ℕ}

theorem rearrange_map (order : List ℕ) (values : List Float32) (f : Float32 → Float32) :
    rearrange order (values.map f) = (rearrange order values).map f := by
  unfold rearrange
  rw [List.map_filterMap]
  simp only [List.getElem?_map]

/-- The places in their own order. -/
theorem rearrange_range (values : List Float32) :
    rearrange (List.range values.length) values = values := by
  unfold rearrange
  induction values with
  | nil => rfl
  | cons value rest ih =>
    rw [List.length_cons, List.range_succ_eq_map, List.filterMap_cons, List.filterMap_map]
    exact congrArg (value :: ·) ih

variable (horder : order.Perm (List.range values.length))

include horder

theorem rearrange_perm : (rearrange order values).Perm values :=
  (horder.filterMap _).trans (.of_eq (rearrange_range values))

theorem topK_rearrange (h : Numbers values) (k : ℕ) :
    topK k (rearrange order values) = rearrange order (topK k values) := by
  have hperm := rearrange_perm horder
  have hlength := hperm.length_eq
  by_cases hlt : 0 < k ∧ k < values.length
  · have hsorted := descends_decreasing h
    have hsorted' : Descends (decreasing values) (rearrange order values) :=
      ⟨hsorted.perm.trans hperm.symm, hsorted.ordered⟩
    obtain ⟨limit, hlimit, -⟩ := keepsBest h hsorted hlt.1 hlt.2
    rw [topK_eq h hsorted hlt.1 hlt.2 hlimit, rearrange_map,
      topK_eq (fun value hmem => h value (hperm.mem_iff.mp hmem)) hsorted' hlt.1
        (hlength.symm ▸ hlt.2) hlimit]
  · -- without a limit both lists stay as they are
    have hall : ∀ scores : List Float32, scores.length = values.length →
        topK k scores = scores := by
      intro scores hscores
      unfold topK
      refine if_pos ?_
      rw [Bool.or_eq_true, decide_eq_true_eq, decide_eq_true_eq]
      omega
    rw [hall _ hlength, hall _ rfl]

theorem select_rearrange (h : Numbers values) (p : Float32) :
    select p (rearrange order values) = rearrange order (select p values) := by
  have hperm := rearrange_perm horder
  by_cases hnonempty : values = []
  · subst hnonempty
    rw [hperm.eq_nil]
    exact hperm.eq_nil.symm
  · have hsorted := descends_decreasing h
    have hsorted' : Descends (decreasing values) (rearrange order values) :=
      ⟨hsorted.perm.trans hperm.symm, hsorted.ordered⟩
    rw [select_eq h hsorted p hnonempty, rearrange_map,
      select_eq (fun value hmem => h value (hperm.mem_iff.mp hmem)) hsorted' p
        fun hnil => hnonempty (hnil ▸ hperm).nil_eq.symm]

end Rearrange

/-- **What the filters keep.**  In any descending arrangement of the values the `k`-th one is the
    limit of the first filter, and the one at which the running sum reaches `p` is the limit of the
    second; each keeps all that is no less than its limit, the second only what is positive.
    Permuting the tokens permutes what is kept. -/
theorem filters_keep {values sorted : List Float32} (h : Numbers values)
    (hsorted : Descends sorted values) :
    (∀ k, 0 < k → k < values.length →
        ∃ limit, sorted[k - 1]? = some limit ∧ KeepsBest k limit values (topK k values))
      ∧ (values ≠ [] → ∀ p, ∃ limit, Crosses p sorted limit
          ∧ SelectsFrom limit values (select p values))
      ∧ ∀ order : List ℕ, order.Perm (List.range values.length) →
          (∀ k, topK k (rearrange order values) = rearrange order (topK k values))
            ∧ ∀ p, select p (rearrange order values) = rearrange order (select p values) := by
  refine ⟨?_, ?_, ?_⟩
  · intro k hpositive hlt
    exact keepsBest h hsorted hpositive hlt
  · intro hnonempty p
    exact selectsFrom h hsorted hnonempty p
  · intro order horder
    exact ⟨topK_rearrange horder h, select_rearrange horder h⟩

/-- Two scores at the limit of the first filter: both are kept, wherever they stand. -/
theorem filters_keep_ties :
    (∃ limit, ([3, 3, 1, 0.5] : List Float32)[0]? = some limit
        ∧ KeepsBest 1 limit [1, 3, 3, 0.5] (topK 1 [1, 3, 3, 0.5]))
      ∧ (∃ limit, Crosses 0.8 [3, 3, 1, 0.5] limit
        ∧ SelectsFrom limit [1, 3, 3, 0.5] (select 0.8 [1, 3, 3, 0.5]))
      ∧ topK 1 (rearrange [2, 0, 3, 1] [1, 3, 3, 0.5])
        = rearrange [2, 0, 3, 1] (topK 1 [1, 3, 3, 0.5]) := by
  have hnumbers : Numbers [1, 3, 3, 0.5] := by
    unfold Numbers
    decide +kernel
  have hsorted : Descends [3, 3, 1, 0.5] [1, 3, 3, 0.5] := ⟨by decide +kernel, by decide +kernel⟩
  obtain ⟨hbest, hselected, hrearrange⟩ := filters_keep hnumbers hsorted
  exact ⟨hbest 1 (by decide) (by decide), hselected (by decide) 0.8,
    (hrearrange [2, 0, 3, 1] (by decide)).1 1⟩

end Parley.Sampling
