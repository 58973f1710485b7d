import Mathlib.Data.Finset.Card
import Mathlib.Data.List.Destutter
import Mathlib.Data.List.Sort
import Parley.Proofs.Token.Set

/-! # Sets of tokens under operations

    Sets are built by operations, one after the other, each from what was built before.  The same
    operations make sense for finite sets, and the identifiers of a set that was built are always
    the elements of the finite set that is meant, in increasing order: `Denotes`.  One operation
    keeps this, `denotes_assign`, so a run of operations does too, `denotes_perform`.

    There is only one array of identifiers for a finite set, `Denotes.eq_iff`.  So the laws of the
    union hold for the arrays, sets that have the same members compare equal however they were
    built, and to insert the entries of a list one by one is to sort the list and to drop its
    repetitions, `toList_ofList`.  The main statement is `sets_are_sets`.
-/

namespace Parley.TokenSet

variable {set other : TokenSet} {members others : Finset TokenId}

/-! ## Section 1: What a set denotes -/

/-- The identifiers of the set are the elements of `members`, in increasing order. -/
structure Denotes (set : TokenSet) (members : Finset TokenId) : Prop where
  increasing : set.Increasing
  mem_iff : ∀ token, token ∈ set ↔ token ∈ members

theorem toList_injective : Function.Injective toList := by
  intro set other h
  obtain ⟨ids⟩ := set
  obtain ⟨ids'⟩ := other
  exact congrArg TokenSet.mk (Array.toList_inj.mp h)

namespace Denotes

/-- **Membership** is found out by bisection. -/
theorem contains_iff (h : Denotes set members) (token : TokenId) :
    set.contains token = true ↔ token ∈ members := by
  rw [h.increasing.contains_iff]
  exact h.mem_iff token

/-- Each element has one identifier. -/
theorem size_eq (h : Denotes set members) : set.size = members.card := by
  have hnodup : set.toList.Nodup := h.increasing.imp fun hlt => Int32.ne_of_lt hlt
  have hmembers : members = set.toList.toFinset := by
    ext token
    rw [List.mem_toFinset, mem_toList, h.mem_iff]
  rw [hmembers, List.toFinset_card_of_nodup hnodup]
  rfl

/-- **Equality.**  What is denoted is denoted by one set only. -/
theorem eq_iff (h : Denotes set members) (h' : Denotes other others) :
    set = other ↔ members = others := by
  constructor
  · rintro rfl
    ext token
    rw [← h.mem_iff, h'.mem_iff]
  · rintro rfl
    apply toList_injective
    apply List.Pairwise.eq_of_mem_iff h.increasing h'.increasing
    intro token
    rw [mem_toList, mem_toList, h.mem_iff, h'.mem_iff]

end Denotes

/-! ## Section 2: What the operations denote -/

theorem denotes_empty : Denotes empty ∅ where
  increasing := empty_increasing
  mem_iff token := by
    have hnone : token ∉ empty := List.not_mem_nil
    simp [hnone]

theorem denotes_ofList (tokens : List TokenId) : Denotes (ofList tokens) tokens.toFinset where
  increasing := ofList_increasing tokens
  mem_iff token := by simp

theorem Denotes.insert (h : Denotes set members) (token : TokenId) :
    Denotes (set.insert token) (Insert.insert token members) where
  increasing := h.increasing.insert token
  mem_iff member := by rw [mem_insert h.increasing, Finset.mem_insert, h.mem_iff]

theorem Denotes.union (h : Denotes set members) (h' : Denotes other others) :
    Denotes (set.union other) (members ∪ others) where
  increasing := h.increasing.union other
  mem_iff token := by rw [mem_union h.increasing, Finset.mem_union, h.mem_iff, h'.mem_iff]

theorem Denotes.filter (h : Denotes set members) (keep : TokenId → Bool) :
    Denotes (set.filter keep) (members.filter fun token => keep token) where
  increasing := filter_increasing keep set
  mem_iff token := by rw [mem_filter, Finset.mem_filter, h.mem_iff]

/-- What is left of a list when an entry that repeats the one before it is dropped. -/
theorem mem_destutter {tokens : List TokenId} {token : TokenId} :
    token ∈ tokens.destutter (· ≠ ·) ↔ token ∈ tokens := by
  constructor
  · intro h
    exact (List.destutter_sublist _ _).mem h
  · cases tokens with
    | nil => exact id
    | cons first rest =>
      rw [List.destutter_cons']
      induction rest generalizing first with
      | nil => exact id
      | cons second rest ih =>
        intro h
        rw [List.destutter'_cons]
        by_cases hsame : first = second
        · rw [if_neg (not_not.mpr hsame)]
          apply ih
          simpa [hsame] using h
        · rw [if_pos hsame]
          rcases List.mem_cons.mp h with rfl | h
          · exact List.mem_cons_self
          · exact List.mem_cons_of_mem _ (ih second h)

/-- **A set from a list** has the identifiers that are left when the list is sorted and repetitions
    are dropped. -/
theorem toList_ofList (tokens : List TokenId) :
    (ofList tokens).toList = (tokens.mergeSort (· ≤ ·)).destutter (· ≠ ·) := by
  have htrans : ∀ a b c : TokenId, decide (a ≤ b) = true → decide (b ≤ c) = true →
      decide (a ≤ c) = true := by
    intro a b c hab hbc
    simp only [decide_eq_true_iff] at hab hbc ⊢
    exact Int32.le_trans hab hbc
  have htotal : ∀ a b : TokenId, (decide (a ≤ b) || decide (b ≤ a)) = true := by
    intro a b
    simpa using Int32.le_total a b
  have hsorted := List.pairwise_mergeSort htrans htotal tokens
  have hremoved := hsorted.sublist (List.destutter_sublist (· ≠ ·) _)
  -- no two neighbours are equal, so the order is strict
  have hstrict : ((tokens.mergeSort (· ≤ ·)).destutter (· ≠ ·)).Pairwise (· < ·) := by
    have hchain := List.isChain_destutter (· ≠ ·) (tokens.mergeSort (· ≤ ·))
    rw [List.isChain_iff_getElem] at hchain
    apply List.IsChain.pairwise
    rw [List.isChain_iff_getElem]
    intro index hindex
    have hle := List.pairwise_iff_getElem.mp hremoved index (index + 1) (by omega) hindex (by omega)
    exact Int32.lt_of_le_of_ne (of_decide_eq_true hle) (hchain index hindex)
  apply List.Pairwise.eq_of_mem_iff (ofList_increasing tokens) hstrict
  intro token
  rw [mem_toList, mem_ofList, mem_destutter, List.mem_mergeSort]

/-! ## Section 3: Runs of operations -/

/-- An operation on sets that are called by numbers.  It reads some of them, and its result gets the
    name `target`. -/
inductive Operation
  | new (target : ℕ)
  | collect (target : ℕ) (tokens : List TokenId)
  | insert (target : ℕ) (token : TokenId)
  | extend (target source : ℕ)
  | union (target left right : ℕ)
  | filter (target source : ℕ) (keep : TokenId → Bool)

/-- The name of the result. -/
def Operation.target : Operation → ℕ
  | .new target => target
  | .collect target _ => target
  | .insert target _ => target
  | .extend target _ => target
  | .union target _ _ => target
  | .filter target _ _ => target

/-- What an operation makes of the sets. -/
def result (sets : ℕ → TokenSet) : Operation → TokenSet
  | .new _ => empty
  | .collect _ tokens => ofList tokens
  | .insert target token => (sets target).insert token
  | .extend target source => (sets target).union (sets source)
  | .union _ left right => (sets left).union (sets right)
  | .filter _ source keep => (sets source).filter keep

/-- What an operation means for finite sets. -/
def meaning (members : ℕ → Finset TokenId) : Operation → Finset TokenId
  | .new _ => ∅
  | .collect _ tokens => tokens.toFinset
  | .insert target token => Insert.insert token (members target)
  | .extend target source => members target ∪ members source
  | .union _ left right => members left ∪ members right
  | .filter _ source keep => (members source).filter fun token => keep token

/-- What the names stand for after an operation: its result has got its name. -/
def assign {σ : Type} (compute : (ℕ → σ) → Operation → σ) (state : ℕ → σ) (operation : Operation) :
    ℕ → σ :=
  Function.update state operation.target (compute state operation)

section Assign

variable {σ : Type} (compute : (ℕ → σ) → Operation → σ) (state : ℕ → σ) (operation : Operation)

@[simp] theorem assign_target :
    assign compute state operation operation.target = compute state operation :=
  Function.update_self ..

@[simp] theorem assign_of_ne {name : ℕ} (h : name ≠ operation.target) :
    assign compute state operation name = state name :=
  Function.update_of_ne h ..

end Assign

/-- What the names stand for when operations were made one after the other. -/
def perform {σ : Type} (compute : (ℕ → σ) → Operation → σ) (operations : List Operation)
    (start : ℕ → σ) : ℕ → σ :=
  operations.foldl (assign compute) start

/-- The sets that operations build from nothing. -/
def built (operations : List Operation) : ℕ → TokenSet := perform result operations fun _ => empty

/-- The finite sets that are meant. -/
def meant (operations : List Operation) : ℕ → Finset TokenId :=
  perform meaning operations fun _ => ∅

/-- **One operation** makes a set of what it means. -/
theorem denotes_result {sets : ℕ → TokenSet} {members : ℕ → Finset TokenId}
    (h : ∀ name, Denotes (sets name) (members name)) (operation : Operation) :
    Denotes (result sets operation) (meaning members operation) := by
  cases operation with
  | new target => exact denotes_empty
  | collect target tokens => exact denotes_ofList tokens
  | insert target token => exact (h target).insert token
  | extend target source => exact (h target).union (h source)
  | union target left right => exact (h left).union (h right)
  | filter target source keep => exact (h source).filter keep

theorem denotes_assign {sets : ℕ → TokenSet} {members : ℕ → Finset TokenId}
    (h : ∀ name, Denotes (sets name) (members name)) (operation : Operation) (name : ℕ) :
    Denotes (assign result sets operation name) (assign meaning members operation name) := by
  by_cases htarget : name = operation.target
  · subst htarget
    simp only [assign_target]
    exact denotes_result h operation
  · simp only [assign_of_ne _ _ _ htarget]
    exact h name

/-- **A run of operations** goes the same way on both sides. -/
theorem denotes_perform {sets : ℕ → TokenSet} {members : ℕ → Finset TokenId}
    (h : ∀ name, Denotes (sets name) (members name)) (operations : List Operation) :
    ∀ name, Denotes (perform result operations sets name)
      (perform meaning operations members name) := by
  unfold perform
  induction operations generalizing sets members with
  | nil => exact h
  | cons operation rest ih => exact ih (denotes_assign h operation)

theorem denotes_built (operations : List Operation) (name : ℕ) :
    Denotes (built operations name) (meant operations name) :=
  denotes_perform (fun _ => denotes_empty) operations name

/-- One more operation leaves all sets but its target. -/
theorem built_concat_of_ne (operations : List Operation) {operation : Operation} {name : ℕ}
    (h : name ≠ operation.target) :
    built (operations ++ [operation]) name = built operations name := by
  unfold built perform
  rw [List.foldl_concat]
  exact assign_of_ne _ _ _ h

/-- **Sets of tokens are sets.**  Whatever operations have built a set, its identifiers are strictly
    increasing, it contains exactly the tokens of the finite set that is meant, and its size is
    their number.  The union is commutative, associative and idempotent, and leaves its arguments
    as they are.  Two sets compare equal exactly if they have the same members, however they were
    built. -/
theorem sets_are_sets (operations : List Operation) :
    (∀ name, (built operations name).toList.Pairwise (· < ·)
        ∧ (∀ token, (built operations name).contains token = true ↔ token ∈ meant operations name)
        ∧ (built operations name).size = (meant operations name).card)
      ∧ (∀ first second third,
        (built operations first).union (built operations second)
            = (built operations second).union (built operations first)
          ∧ ((built operations first).union (built operations second)).union
              (built operations third)
            = (built operations first).union
              ((built operations second).union (built operations third))
          ∧ (built operations first).union (built operations first) = built operations first)
      ∧ (∀ target left right name, name ≠ target →
        built (operations ++ [.union target left right]) name = built operations name)
      ∧ ∀ operations' name name', (built operations name == built operations' name') = true
          ↔ ∀ token, token ∈ meant operations name ↔ token ∈ meant operations' name' := by
  have hdenotes := denotes_built operations
  refine ⟨?_, ?_, ?_, ?_⟩
  · intro name
    exact ⟨(hdenotes name).increasing, (hdenotes name).contains_iff, (hdenotes name).size_eq⟩
  · intro first second third
    have hfirst := hdenotes first
    have hsecond := hdenotes second
    have hthird := hdenotes third
    -- the laws are those of what is denoted
    refine ⟨?_, ?_, ?_⟩
    · exact ((hfirst.union hsecond).eq_iff (hsecond.union hfirst)).mpr (Finset.union_comm _ _)
    · exact (((hfirst.union hsecond).union hthird).eq_iff
        (hfirst.union (hsecond.union hthird))).mpr (Finset.union_assoc _ _ _)
    · exact ((hfirst.union hfirst).eq_iff hfirst).mpr (Finset.union_self _)
  · intro target left right name hname
    exact built_concat_of_ne operations hname
  · intro operations' name name'
    rw [beq_iff_eq, (hdenotes name).eq_iff (denotes_built operations' name'), Finset.ext_iff]

end Parley.TokenSet
