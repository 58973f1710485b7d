import Mathlib.Data.List.Basic
import Parley.Token.Set

/-! # Sets of tokens are sets

    The identifiers of a set are kept in increasing order, so bisection finds the place of a token,
    and what the operations build has the members that their names promise.  `TokenSet.Increasing`
    is the invariant; every set that is built from the empty one has it.
-/

namespace Parley.TokenSet

variable {set other : TokenSet} {token member : TokenId}

/-! ## Section 1: Members and order -/

instance : Membership TokenId TokenSet where
  mem set token := token ∈ set.toList

theorem mem_toList : token ∈ set.toList ↔ token ∈ set := Iff.rfl

/-- The identifiers stand in increasing order, each once. -/
def Increasing (set : TokenSet) : Prop := set.toList.Pairwise (· < ·)

theorem empty_increasing : empty.Increasing := List.Pairwise.nil

theorem getD_ids {index : Nat} (h : index < set.ids.size) :
    set.ids.getD index token = set.ids[index] := by
  rw [Array.getD_eq_getD_getElem?, Array.getElem?_eq_getElem h, Option.getD_some]

theorem Increasing.getElem_lt (h : set.Increasing) {earlier later : Nat}
    (horder : earlier < later) (hsize : later < set.ids.size) :
    set.ids[earlier] < set.ids[later] :=
  List.pairwise_iff_getElem.mp h earlier later (Nat.lt_trans horder hsize) hsize horder

/-- What is below a token stands before everything that is not. -/
theorem Increasing.getD_lt (h : set.Increasing) {earlier later : Nat} (horder : earlier ≤ later)
    (hsize : later < set.ids.size) (hlater : set.ids.getD later token < token) :
    set.ids.getD earlier token < token := by
  rcases Nat.lt_or_eq_of_le horder with hless | rfl
  · rw [getD_ids hsize] at hlater
    rw [getD_ids (Nat.lt_trans hless hsize)]
    exact Int32.lt_trans (h.getElem_lt hless hsize) hlater
  · exact hlater

/-! ## Section 2: Bisection -/

/-- **Bisection.**  If what is below the token stands in front, and the stretch under search is
    where it may end, then bisection finds the end. -/
theorem bisect_spec {ids : Array TokenId}
    (horder : ∀ earlier later, earlier ≤ later → later < ids.size →
      ids.getD later token < token → ids.getD earlier token < token) :
    ∀ fuel low high, high ≤ low + fuel → low ≤ high → high ≤ ids.size →
      (∀ index, index < low → ids.getD index token < token) →
      (∀ index, high ≤ index → index < ids.size → ¬ ids.getD index token < token) →
      bisect ids token fuel low high ≤ ids.size
        ∧ (∀ index, index < bisect ids token fuel low high → ids.getD index token < token)
        ∧ ∀ index, bisect ids token fuel low high ≤ index → index < ids.size →
          ¬ ids.getD index token < token := by
  intro fuel
  induction fuel with
  | zero =>
    intro low high hfuel hlow hhigh hbelow habove
    -- the stretch is used up when the fuel is
    have hsame : low = high := by omega
    rw [bisect]
    exact ⟨by omega, hbelow, hsame ▸ habove⟩
  | succ fuel ih =>
    intro low high hfuel hlow hhigh hbelow habove
    rw [bisect]
    by_cases hstretch : low < high
    · rw [if_pos hstretch]
      by_cases hmiddle : ids.getD ((low + high) / 2) token < token
      · -- everything up to the middle is below the token
        rw [if_pos hmiddle]
        refine ih _ _ (by omega) (by omega) hhigh (fun index hindex => ?_) habove
        exact horder index _ (by omega) (by omega) hmiddle
      · -- nothing from the middle on is below the token
        rw [if_neg hmiddle]
        refine ih _ _ (by omega) (by omega) (by omega) hbelow (fun index hindex hsize hless => ?_)
        exact hmiddle (horder _ index hindex hsize hless)
    · rw [if_neg hstretch]
      have hsame : low = high := by omega
      exact ⟨by omega, hbelow, hsame ▸ habove⟩

theorem Increasing.position_spec (h : set.Increasing) (token : TokenId) :
    set.position token ≤ set.ids.size
      ∧ (∀ index, index < set.position token → set.ids.getD index token < token)
      ∧ ∀ index, set.position token ≤ index → index < set.ids.size →
        ¬ set.ids.getD index token < token := by
  refine bisect_spec (fun _ _ hless hsize hlater => h.getD_lt hless hsize hlater)
    set.ids.size 0 set.ids.size (by omega) (by omega) (Nat.le_refl _) ?_ ?_
  · intro index hindex
    omega
  · intro index hindex hsize
    omega

theorem mem_of_contains (h : set.contains token = true) : token ∈ set := by
  rw [contains, beq_iff_eq] at h
  exact Array.mem_toList_iff.mpr (Array.mem_of_getElem? h)

/-- **Search.**  A set in order contains exactly its members. -/
theorem Increasing.contains_iff (h : set.Increasing) : set.contains token = true ↔ token ∈ set := by
  refine ⟨mem_of_contains, fun hmem => ?_⟩
  obtain ⟨index, hindex, rfl⟩ := Array.mem_iff_getElem.mp (Array.mem_toList_iff.mp hmem)
  obtain ⟨-, hbelow, habove⟩ := h.position_spec set.ids[index]
  have hnot_behind : set.position set.ids[index] ≤ index := by
    apply Nat.le_of_not_lt
    intro hless
    have hself := hbelow index hless
    rw [getD_ids hindex] at hself
    exact Int32.lt_irrefl hself
  rcases Nat.lt_or_eq_of_le hnot_behind with hless | hsame
  · -- what stands before the token is below it
    have hposition := Nat.lt_trans hless hindex
    have hnot := habove _ (Nat.le_refl _) hposition
    rw [getD_ids hposition] at hnot
    exact absurd (h.getElem_lt hless hindex) hnot
  · rw [contains, hsame, beq_iff_eq, Array.getElem?_eq_getElem hindex]

/-! ## Section 3: Building sets -/

theorem insertIdx_eq_append {α : Type} (value : α) {index : Nat} {values : List α}
    (h : index ≤ values.length) :
    values.insertIdx index value = values.take index ++ value :: values.drop index := by
  induction values generalizing index with
  | nil =>
    have hzero : index = 0 := Nat.le_zero.mp h
    rw [hzero]
    rfl
  | cons first rest ih =>
    cases index with
    | zero => rfl
    | succ index =>
      rw [List.insertIdx_succ_cons, ih (Nat.le_of_succ_le_succ h)]
      rfl

/-- A new member goes to its place. -/
theorem insert_toList (h : set.Increasing) (hnew : set.contains token = false) :
    (set.insert token).toList
      = set.toList.take (set.position token) ++ token :: set.toList.drop (set.position token) := by
  have hposition := (h.position_spec token).1
  rw [insert, hnew]
  obtain ⟨⟨ids⟩⟩ := set
  show (ids.toArray.insertIdxIfInBounds _ token).toList = _
  rw [List.insertIdxIfInBounds_toArray]
  exact insertIdx_eq_append token hposition

theorem Increasing.lt_of_mem_take (h : set.Increasing)
    (hmem : member ∈ set.toList.take (set.position token)) : member < token := by
  obtain ⟨index, hindex, rfl⟩ := List.mem_iff_getElem.mp hmem
  rw [List.length_take] at hindex
  have hsize : index < set.ids.size := Nat.lt_of_lt_of_le hindex (Nat.min_le_right _ _)
  have hbelow := (h.position_spec token).2.1 index
    (Nat.lt_of_lt_of_le hindex (Nat.min_le_left _ _))
  rw [getD_ids hsize] at hbelow
  rw [List.getElem_take]
  exact hbelow

theorem Increasing.lt_of_mem_drop (h : set.Increasing) (hnew : set.contains token = false)
    (hmem : member ∈ set.toList.drop (set.position token)) : token < member := by
  obtain ⟨index, hindex, rfl⟩ := List.mem_iff_getElem.mp hmem
  rw [List.length_drop] at hindex
  have hsize : set.position token + index < set.ids.size := Nat.add_lt_of_lt_sub' hindex
  have habove := (h.position_spec token).2.2 _ (Nat.le_add_right _ index) hsize
  rw [getD_ids hsize, Int32.not_lt] at habove
  rw [List.getElem_drop]
  -- a member that is not below the token is the token itself or above it
  refine Int32.lt_of_le_of_ne habove ?_
  intro hsame
  have hmember : token ∈ set.toList := hsame ▸ List.getElem_mem _
  rw [h.contains_iff.mpr hmember] at hnew
  contradiction

theorem Increasing.insert (h : set.Increasing) (token : TokenId) :
    (set.insert token).Increasing := by
  cases hcontains : set.contains token with
  | true =>
    rw [TokenSet.insert, if_pos hcontains]
    exact h
  | false =>
    rw [Increasing, insert_toList h hcontains, List.pairwise_append, List.pairwise_cons]
    refine ⟨h.take, ⟨fun _ => h.lt_of_mem_drop hcontains, h.drop⟩, fun before hbefore after => ?_⟩
    rw [List.mem_cons]
    rintro (rfl | hafter)
    · exact h.lt_of_mem_take hbefore
    · exact Int32.lt_trans (h.lt_of_mem_take hbefore) (h.lt_of_mem_drop hcontains hafter)

theorem mem_insert (h : set.Increasing) :
    member ∈ set.insert token ↔ member = token ∨ member ∈ set := by
  cases hcontains : set.contains token with
  | true =>
    rw [TokenSet.insert, if_pos hcontains]
    have hmem := mem_of_contains hcontains
    refine ⟨.inr, ?_⟩
    rintro (rfl | hmember)
    · exact hmem
    · exact hmember
  | false =>
    -- nothing is lost where the list is cut for the new member
    rw [← mem_toList, insert_toList h hcontains, List.mem_append, List.mem_cons, ← mem_toList]
    have hsplit : member ∈ set.toList ↔ member ∈ set.toList.take (set.position token)
        ∨ member ∈ set.toList.drop (set.position token) := by
      rw [← List.mem_append, List.take_append_drop]
    rw [hsplit]
    exact or_left_comm

theorem foldl_insert (h : set.Increasing) (tokens : List TokenId) :
    (tokens.foldl insert set).Increasing
      ∧ ∀ member, member ∈ tokens.foldl insert set ↔ member ∈ tokens ∨ member ∈ set := by
  induction tokens generalizing set with
  | nil => exact ⟨h, fun member => by simp⟩
  | cons token tokens ih =>
    obtain ⟨hincreasing, hmem⟩ := ih (h.insert token)
    refine ⟨hincreasing, fun member => ?_⟩
    rw [List.foldl_cons, hmem, mem_insert h, List.mem_cons, or_left_comm, or_assoc]

theorem ofList_increasing (tokens : List TokenId) : (ofList tokens).Increasing :=
  (foldl_insert empty_increasing tokens).1

@[simp] theorem mem_ofList {tokens : List TokenId} : token ∈ ofList tokens ↔ token ∈ tokens := by
  rw [ofList, (foldl_insert empty_increasing tokens).2]
  exact or_iff_left List.not_mem_nil

theorem Increasing.union (h : set.Increasing) (other : TokenSet) :
    (set.union other).Increasing :=
  (foldl_insert h other.toList).1

theorem mem_union (h : set.Increasing) : token ∈ set.union other ↔ token ∈ set ∨ token ∈ other := by
  rw [TokenSet.union, (foldl_insert h other.toList).2, mem_toList, or_comm]

theorem filter_increasing (keep : TokenId → Bool) (set : TokenSet) :
    (set.filter keep).Increasing :=
  ofList_increasing _

theorem mem_filter {keep : TokenId → Bool} :
    token ∈ set.filter keep ↔ token ∈ set ∧ keep token = true := by
  rw [TokenSet.filter, mem_ofList, List.mem_filter, mem_toList]

theorem ofOptions_increasing (tokens : List (Option TokenId)) : (ofOptions tokens).Increasing :=
  ofList_increasing _

theorem mem_ofOptions {tokens : List (Option TokenId)} :
    token ∈ ofOptions tokens ↔ some token ∈ tokens := by
  rw [ofOptions, mem_ofList, List.mem_filterMap]
  simp

end Parley.TokenSet
