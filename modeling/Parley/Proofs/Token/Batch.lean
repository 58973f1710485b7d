import Parley.Token.Batch

/-! # Runs of tokens

    A run holds its tokens in order, at consecutive positions, and only its last token wants scores.
    To want all scores changes neither the tokens of a batch nor their number.
-/

namespace Parley.Batch

theorem length_run (tokens : List TokenId) (start : Nat) :
    (run tokens start).length = tokens.length := by
  induction tokens generalizing start with
  | nil => rfl
  | cons token tokens ih =>
    rw [run, List.length_cons, List.length_cons, ih]

theorem size_sequence (tokens : List TokenId) (start : Nat) :
    (sequence tokens start).size = tokens.length :=
  length_run tokens start

theorem tokens_sequence (tokens : List TokenId) (start : Nat) :
    (sequence tokens start).tokens = tokens := by
  unfold Batch.tokens sequence
  induction tokens generalizing start with
  | nil => rfl
  | cons token tokens ih => rw [run, List.map_cons, ih]

theorem positions_sequence (tokens : List TokenId) (start : Nat) :
    (sequence tokens start).positions = List.range' start tokens.length := by
  unfold positions sequence
  induction tokens generalizing start with
  | nil => rfl
  | cons token tokens ih => rw [run, List.map_cons, ih, List.length_cons, List.range'_succ]

theorem wishes_sequence (tokens : List TokenId) (last : TokenId) (start : Nat) :
    (sequence (tokens ++ [last]) start).wishes = List.replicate tokens.length false ++ [true] := by
  unfold wishes sequence
  induction tokens generalizing start with
  | nil => rfl
  | cons token tokens ih =>
    rw [List.cons_append, run, List.map_cons, ih, List.length_cons, List.replicate_succ]
    simp

theorem any_wishes_sequence {tokens : List TokenId} (h : tokens ≠ []) (start : Nat) :
    (sequence tokens start).wishes.any id = true := by
  obtain ⟨init, last, rfl⟩ := (List.eq_nil_or_concat tokens).resolve_left h
  rw [List.concat_eq_append, wishes_sequence]
  simp

/-! ### All scores -/

theorem size_requestAll (batch : Batch) : batch.requestAll.size = batch.size :=
  List.length_map _

theorem tokens_requestAll (batch : Batch) : batch.requestAll.tokens = batch.tokens := by
  simp [Batch.tokens, requestAll]

end Parley.Batch
