import Parley.Engine.Tabulated
import Parley.Proofs.Client.Sharing

/-! # What failing calls leave of the history

    A call that fails adds nothing to the history and changes none of its messages.  A turn whose
    prompt does not fit into the context drops the oldest turns until it fits or none is left,
    `Client.Trims`, and does not bring them back if it fails all the same.  A reset that was
    accepted empties the history before the context.  Whatever else fails leaves the history as it
    was: `Client.failures_trim_history`.
-/

namespace Parley

open Step

variable {σ ρ α : Type}

/-! ## Section 1: Failures -/

/-- Whether the outcome reports a failure: a refusal, a stream that ended with an error, the
    placeholder of a completion, or an error. -/
def Outcome.isFailure : Outcome ρ → Bool
  | .turn none => true
  | .turn (some transcript) => !transcript.summary.isOk
  | .completion answer => answer.text = Client.busyMessage || answer.text = Client.failedAnswer
  | .json result => !result.isOk
  | .embedding result => !result.isOk
  | .emptied result => !result.isOk

namespace Client

variable {engine : Engine σ} {client later : Client σ}

/-! ## Section 2: Dropping turns -/

/-- **Trimming.**  The prompt for `input` did not fit into the context, so the oldest turn of the
    history was dropped, and so on, `dropped` times. -/
inductive Trims (engine : Engine σ) (input : String) : (dropped : Nat) → Client σ → Client σ → Prop
  | none (client : Client σ) : Trims engine input 0 client client
  | drop {client tried later : Client σ} {history : History} {needed capacity dropped : Nat}
    (htry : client.tryPrime engine .turn input = (.error (.contextOverflow needed capacity), tried))
    (hevict : tried.history.evictOldest? = some history)
    (hmore : Trims engine input dropped { tried with history } later) :
    Trims engine input (dropped + 1) client later

theorem evictOldest?_eq_some {history later : History} (h : history.evictOldest? = some later) :
    2 ≤ history.entries.length ∧ later.entries = history.entries.drop 2 := by
  unfold History.evictOldest? at h
  split at h
  · rename_i first second rest hentries
    cases h
    simp [hentries]
  · contradiction

/-- What is left are the newest messages, as they were. -/
theorem Trims.entries_eq {input : String} {dropped : Nat}
    (h : Trims engine input dropped client later) :
    2 * dropped ≤ client.history.entries.length
      ∧ later.history.entries = client.history.entries.drop (2 * dropped) := by
  induction h with
  | none client => exact ⟨Nat.zero_le _, rfl⟩
  | @drop client tried later history needed capacity dropped htry hevict _ ih =>
    have htried : tried.history = client.history := by
      rw [← history_tryPrime .turn input client, htry]
    obtain ⟨htwo, hentries⟩ := evictOldest?_eq_some hevict
    rw [htried] at htwo hentries
    obtain ⟨hlength, hlater⟩ := ih
    rw [hentries, List.length_drop] at hlength
    rw [hentries, List.drop_drop] at hlater
    refine ⟨by omega, ?_⟩
    rw [hlater]
    congr 1
    omega

/-- **Priming trims.**  The attempt that decides comes after the turns that were dropped. -/
theorem primeDropping_trims (engine : Engine σ) (input : String) (turns : Nat) (client : Client σ) :
    ∃ dropped trimmed, Trims engine input dropped client trimmed
      ∧ client.primeDropping engine .turn input turns = trimmed.tryPrime engine .turn input := by
  induction turns generalizing client with
  | zero => exact ⟨0, client, .none client, rfl⟩
  | succ turns ih =>
    unfold primeDropping
    split
    · rename_i needed capacity tried htry
      cases hevict : tried.history.evictOldest? with
      | none => exact ⟨0, client, .none client, htry.symm⟩
      | some history =>
        obtain ⟨dropped, trimmed, htrims, hlast⟩ := ih { tried with history }
        exact ⟨dropped + 1, trimmed, .drop htry hevict htrims, hlast⟩
    · exact ⟨0, client, .none client, rfl⟩

/-- If the first attempt is not refused for lack of room, nothing is dropped. -/
theorem Trims.of_fits {input : String} {dropped : Nat} (h : Trims engine input dropped client later)
    (hfits : ∀ needed capacity,
      (client.tryPrime engine .turn input).1 ≠ .error (.contextOverflow needed capacity)) :
    later = client := by
  cases h with
  | none => rfl
  | drop htry =>
    rw [htry] at hfits
    exact absurd rfl (hfits _ _)

/-! ## Section 3: What the calls do to the history -/

theorem history_conclude_of_failure (engine : Engine σ) (stopAfter : Nat → Bool) (call : Call)
    (client : Client σ)
    (hfailed : (client.conclude engine stopAfter call).1.summary.isOk = false) :
    (client.conclude engine stopAfter call).2.history = client.history := by
  unfold conclude at hfailed ⊢
  dsimp only at hfailed ⊢
  unfold record
  rw [hfailed]
  simp [release]

theorem history_conclude_of_single (engine : Engine σ) (stopAfter : Nat → Bool) (call : Call)
    (client : Client σ)
    (hsingle : call.purpose = .single) :
    (client.conclude engine stopAfter call).2.history = client.history := by
  unfold conclude record
  rw [hsingle]
  simp [release]

/-- A turn that was accepted and failed leaves what its attempts to prime the context left. -/
theorem respond_trims {stopAfter : Nat → Bool} {input : String} (hfree : client.available = true)
    (hfailed : Outcome.isFailure (.turn (client.respond engine stopAfter input).1 : Outcome ρ)
      = true) :
    ∃ dropped trimmed, Trims engine input dropped client.claimed trimmed
      ∧ (client.respond engine stopAfter input).2.history = trimmed.history := by
  obtain ⟨dropped, trimmed, htrims, hlast⟩ :=
    primeDropping_trims engine input (client.claimed.droppableTurns .turn) client.claimed
  refine ⟨dropped, trimmed, htrims, ?_⟩
  have hprimed : (client.claimed.prime engine .turn input).2.history = trimmed.history := by
    unfold prime
    rw [hlast, history_tryPrime]
  have hstarts := starts engine .turn input client
  unfold respond at hfailed ⊢
  generalize client.start engine .turn input = started at hstarts hfailed ⊢
  cases hstarts with
  | refused hbusy =>
    rw [hbusy] at hfree
    contradiction
  | failed _ hprime =>
    rw [hprime] at hprimed
    exact hprimed
  | @running promptTokens primed _ hprime =>
    rw [hprime] at hprimed
    unfold Outcome.isFailure at hfailed
    rw [Bool.not_eq_true'] at hfailed
    have hkept := history_conclude_of_failure engine stopAfter
      (primed.call engine .turn input promptTokens) primed hfailed
    exact hkept.trans hprimed

/-- A question on its own never touches the history. -/
theorem history_complete (input : String) (client : Client σ) :
    (client.complete engine input).2.history = client.history := by
  have hprimed : (client.claimed.prime engine .single input).2.history = client.history :=
    history_tryPrime .single input client.claimed
  have hstarts := starts engine .single input client
  unfold complete
  generalize client.start engine .single input = started at hstarts
  cases hstarts with
  | refused _ => rfl
  | failed _ hprime =>
    rw [hprime] at hprimed
    exact hprimed
  | @running promptTokens primed _ hprime =>
    rw [hprime] at hprimed
    have hkept := history_conclude_of_single engine (fun _ => false)
      (primed.call engine .single input promptTokens) primed rfl
    exact hkept.trans hprimed

theorem history_generate (read : String → Except Json.Error α) (input schemaText : String)
    (client : Client σ) :
    (client.generate engine read input schemaText).2.history = client.history := by
  cases hfree : client.available with
  | true =>
    rw [generate_eq hfree]
    exact history_finishWith _ client.claimed
  | false =>
    unfold generate
    rw [claim?_of_busy hfree]

theorem history_embeddings (text : String) (client : Client σ) :
    (client.embeddings engine text).2.history = client.history := by
  cases hfree : client.available with
  | true =>
    rw [embeddings_eq hfree]
    exact history_finishWith _ client.claimed
  | false =>
    unfold embeddings
    rw [claim?_of_busy hfree]

/-- A reset that was accepted empties the history, be it able to empty the context or not. -/
theorem history_reset (hfree : client.available = true) :
    (client.reset engine).2.history = client.history.clear := by
  rw [reset_eq hfree]
  exact history_finishWith _ { client.claimed with history := client.history.clear }

/-! ## Section 4: Failing calls -/

/-- **What a failing call leaves of the history.**  It is the history before the call if the call
    was refused, which then changes nothing at all; if it was no turn and no reset; or if it was a
    turn whose prompt, with the whole history, was not refused for lack of room.  Otherwise a turn
    leaves the newest messages behind, as they were: it dropped the oldest turns, one for each
    attempt for which the context had no room.  A reset leaves nothing behind. -/
theorem failures_trim_history {stopAfter : Nat → Bool} {request : Request ρ}
    (hfailed : (request.serve engine stopAfter client).1.isFailure = true) :
    (client.available = false → (request.serve engine stopAfter client).2 = client)
    ∧ ((∀ input, request ≠ .answer .turn input) → request ≠ .reset →
      (request.serve engine stopAfter client).2.history = client.history)
    ∧ (∀ input, request = .answer .turn input → client.available = true →
      ((∀ needed capacity, (client.claimed.tryPrime engine .turn input).1
          ≠ .error (.contextOverflow needed capacity)) →
        (request.serve engine stopAfter client).2.history = client.history)
      ∧ ∃ dropped trimmed, Trims engine input dropped client.claimed trimmed
        ∧ (request.serve engine stopAfter client).2.history = trimmed.history
        ∧ trimmed.history.entries = client.history.entries.drop (2 * dropped))
    ∧ (request = .reset → client.available = true →
      (request.serve engine stopAfter client).2.history = client.history.clear) := by
  refine ⟨?_, ?_, ?_, ?_⟩
  · intro hbusy
    rw [Request.serve_of_busy hbusy]
  · intro hturn hreset
    cases request with
    | answer purpose input =>
      cases purpose with
      | turn => exact absurd rfl (hturn input)
      | single => exact history_complete input client
    | generate read input schemaText => exact history_generate read input schemaText client
    | embeddings text => exact history_embeddings text client
    | reset => exact absurd rfl hreset
  · intro input hrequest hfree
    subst hrequest
    obtain ⟨dropped, trimmed, htrims, hlater⟩ := respond_trims hfree hfailed
    constructor
    · intro hfits
      rw [htrims.of_fits hfits] at hlater
      exact hlater
    · exact ⟨dropped, trimmed, htrims, hlater, htrims.entries_eq.2⟩
  · intro hrequest hfree
    subst hrequest
    exact history_reset hfree

/-- An engine whose context holds sixteen tokens, and which decodes four times. -/
def weary : Tabulated where
  pieces := ["<s>", "</s>", "User: ", "\n", "Assistant:", " ", "a"].map String.toList
  control := [0, 1]
  contextSize := 16
  rows := [[(6, 1)]]
  failures := { decodeFrom := some 4 }

/-- The engine of tables, which empties its context only as long as nothing was decoded. -/
def jamming : Engine Tabulated :=
  { Tabulated.engine with
    clear := fun table =>
      if table.decoded = 0 then Tabulated.engine.clear table
      else ⟨.error (.inference "jammed"), table, false⟩ }

/-- A conversation in the format without control tokens, with answers of one token. -/
def terse : Config where
  sampling := .greedy
  template := .plain
  maxNewTokens := 1

/-- A new client with these settings. -/
def conversing : Client Tabulated where
  session := Session.new weary .greedy
  config := terse
  template := Template.plain
  history := History.new terse.historyLimit

theorem new_conversing (engine : Engine Tabulated) :
    Client.new engine weary terse = .ok conversing := by
  have hvalid : terse.validate = .ok () := by decide +kernel
  unfold Client.new
  rw [hvalid]
  rfl

/-- One more turn of the conversation. -/
def another (engine : Engine Tabulated) (client : Client Tabulated) :
    Option Transcript × Client Tabulated :=
  client.respond engine (fun _ => false) "a"

/-- The client after two turns. -/
def conversed : Client Tabulated := (another Tabulated.engine
  (another Tabulated.engine conversing).2).2

/-- For the third turn the context has no room for the first one; the third one fails all the same,
    as the engine decodes no more. -/
theorem failures_trim_history_weary :
    (Outcome.turn (another Tabulated.engine conversed).1 : Outcome Unit).isFailure = true
      ∧ (another Tabulated.engine conversed).2.history.entries = conversed.history.entries.drop 2
      ∧ ∃ dropped trimmed, Trims Tabulated.engine "a" dropped conversed.claimed trimmed
        ∧ (another Tabulated.engine conversed).2.history = trimmed.history
        ∧ trimmed.history.entries = conversed.history.entries.drop (2 * dropped) := by
  have hfailed : (((Request.answer .turn "a" : Request Unit).serve Tabulated.engine
      (fun _ => false) conversed).1).isFailure = true := by
    decide +kernel
  have hfree : conversed.available = true := by decide +kernel
  have hturn := (failures_trim_history hfailed).2.2.1 "a" rfl hfree
  exact ⟨hfailed, by decide +kernel, hturn.2⟩

/-- **Failing calls can change the history.**  A turn fails and has dropped another one, and a reset
    fails and has emptied the history. -/
theorem failures_change_history :
    Client.new Tabulated.engine weary terse = .ok conversing
      ∧ (another Tabulated.engine conversed).1.map (·.summary.isOk) = some false
      ∧ conversed.history.entries
        = [⟨.user, "a"⟩, ⟨.bot, "a"⟩, ⟨.user, "a"⟩, ⟨.bot, "a"⟩]
      ∧ (another Tabulated.engine conversed).2.history.entries = [⟨.user, "a"⟩, ⟨.bot, "a"⟩]
      ∧ Client.new jamming weary terse = .ok conversing
      ∧ ((another jamming conversing).2.reset jamming).1.isOk = false
      ∧ (another jamming conversing).2.history.entries = [⟨.user, "a"⟩, ⟨.bot, "a"⟩]
      ∧ ((another jamming conversing).2.reset jamming).2.history.entries = [] := by
  refine ⟨new_conversing _, ?_, ?_, ?_, new_conversing _, ?_, ?_, ?_⟩
  all_goals decide +kernel

end Client

end Parley
