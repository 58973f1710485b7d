import Mathlib.Data.List.DropRight
import Parley.Conversation.History

/-! # Histories as queues of turns

    A history stores messages and counts messages against its limit, but it gains and loses whole
    turns.  What it holds are the messages of the turns that a bounded queue keeps.

    One operation keeps a history in step with its queue, `Holds.apply`, so a run of operations does
    too, `perform_alike`.  Adding a turn evicts old ones in a loop: on the messages of whole turns
    the loop ends, `evicting_ofTurns`, and where it ends stands what `shrink` leaves,
    `Evicting.entries_eq`.  The main statement is `queues_turns`.  So a turn that is added to a
    history as it is built stands at its end, `Built.adds`. -/

namespace Parley.History

/-! ## Section 1: Operations -/

/-- What can be done to a history. -/
inductive Operation
  | push (user bot : String)
  | evict
  | clear

/-- What an operation reports, and what it leaves.  Only an eviction has something to report:
    whether there was a turn to evict. -/
def apply : Operation → History → Option Bool × History
  | .push user bot, history => (none, history.pushTurn user bot)
  | .evict, history =>
    match history.evictOldest? with
    | some later => (some true, later)
    | none => (some false, history)
  | .clear, history => (none, history.clear)

/-- The reports of operations made one after the other, and what the last one leaves. -/
def perform {σ : Type} (step : Operation → σ → Option Bool × σ) :
    List Operation → σ → List (Option Bool) × σ
  | [], state => ([], state)
  | operation :: rest, state =>
    let (report, state) := step operation state
    let (reports, state) := perform step rest state
    (report :: reports, state)

/-- **Runs in step.**  If each operation keeps two states related and makes the same report on both,
    then so does a run of operations. -/
theorem perform_alike {σ τ : Type} {step : Operation → σ → Option Bool × σ}
    {step' : Operation → τ → Option Bool × τ} {related : σ → τ → Prop}
    (hstep : ∀ operation state state', related state state' →
      (step operation state).1 = (step' operation state').1
        ∧ related (step operation state).2 (step' operation state').2)
    (operations : List Operation) {state : σ} {state' : τ} (h : related state state') :
    (perform step operations state).1 = (perform step' operations state').1
      ∧ related (perform step operations state).2 (perform step' operations state').2 := by
  induction operations generalizing state state' with
  | nil => exact ⟨rfl, h⟩
  | cons operation rest ih =>
    obtain ⟨hreport, hnext⟩ := hstep operation state state' h
    obtain ⟨hreports, hlast⟩ := ih hnext
    simp only [perform]
    exact ⟨by rw [hreport, hreports], hlast⟩

/-! ## Section 2: Turns -/

/-- What the user wrote, and what the bot answered. -/
structure Turn where
  user : String
  bot : String

/-- The messages of turns, in their order. -/
def messages (turns : List Turn) : List Message :=
  turns.flatMap fun turn => [⟨.user, turn.user⟩, ⟨.bot, turn.bot⟩]

@[simp] theorem messages_nil : messages [] = [] := rfl

@[simp] theorem messages_cons (turn : Turn) (turns : List Turn) :
    messages (turn :: turns) = ⟨.user, turn.user⟩ :: ⟨.bot, turn.bot⟩ :: messages turns := rfl

theorem messages_append (turns more : List Turn) :
    messages (turns ++ more) = messages turns ++ messages more :=
  List.flatMap_append

@[simp] theorem length_messages (turns : List Turn) :
    (messages turns).length = 2 * turns.length := by
  induction turns with
  | nil => rfl
  | cons turn turns ih =>
    simp [ih]
    omega

/-- **The user and the bot take turns**, and the user is first. -/
theorem role_messages {turns : List Turn} {index : ℕ} {message : Message}
    (h : (messages turns)[index]? = some message) :
    message.role = if index % 2 = 0 then .user else .bot := by
  induction turns generalizing index with
  | nil => simp at h
  | cons turn turns ih =>
    rw [messages_cons] at h
    rcases index with - | - | index
    · cases h
      rfl
    · cases h
      rfl
    · -- the turns behind the first one have the same places, but for an even distance
      have hplace : (index + 2) % 2 = index % 2 := Nat.add_mod_right index 2
      show message.role = if (index + 2) % 2 = 0 then .user else .bot
      rw [hplace]
      exact ih h

/-- A queue that keeps the last `capacity` turns: what an operation reports, and what it leaves. -/
def enqueue (capacity : ℕ) : Operation → List Turn → Option Bool × List Turn
  | .push user bot, turns => (none, (turns ++ [Turn.mk user bot]).rtake capacity)
  | .evict, turns => (some !turns.isEmpty, turns.tail)
  | .clear, _ => (none, [])

/-! ## Section 3: The loop that evicts -/

/-- **The loop** that evicts the oldest turn as long as there are more messages than the limit: it
    goes from the first history to the second one in `rounds` rounds, and there it ends. -/
inductive Evicting : (rounds : ℕ) → History → History → Prop
  | done {history : History} (hfits : history.entries.length ≤ history.limit) :
    Evicting 0 history history
  | round {history later : History} {rounds : ℕ} (hmore : history.limit < history.entries.length)
    (h : Evicting rounds (history.apply .evict).2 later) : Evicting (rounds + 1) history later

/-- Where the loop ends, it has done what `shrink` does. -/
theorem Evicting.entries_eq {rounds : ℕ} {history later : History}
    (h : Evicting rounds history later) :
    later = { history with entries := shrink history.limit history.entries } := by
  induction h with
  | @done history hfits =>
    obtain ⟨limit, entries⟩ := history
    rcases entries with - | ⟨first, - | ⟨second, rest⟩⟩
    · rfl
    · rfl
    · have hshort : ¬ limit < rest.length + 2 := Nat.not_lt.mpr hfits
      simp [shrink, hshort]
  | @round history later rounds hmore _ ih =>
    obtain ⟨limit, entries⟩ := history
    rcases entries with - | ⟨first, - | ⟨second, rest⟩⟩
    · exact ih
    · exact ih
    · -- a turn was there, and the loop goes on behind it
      have hlong : limit < rest.length + 2 := hmore
      have hlater : later = ⟨limit, shrink limit rest⟩ := ih
      rw [hlater]
      simp [shrink, hlong]

/-- The history that holds `turns`, and for which `capacity` turns are enough. -/
def ofTurns (capacity : ℕ) (turns : List Turn) : History := ⟨2 * capacity, messages turns⟩

theorem apply_evict_ofTurns (capacity : ℕ) (turns : List Turn) :
    (ofTurns capacity turns).apply .evict = (some !turns.isEmpty, ofTurns capacity turns.tail) := by
  cases turns with
  | nil => rfl
  | cons turn turns => rfl

/-- **The loop ends** on whole turns, after one round for each turn that is too many. -/
theorem evicting_ofTurns (capacity : ℕ) (turns : List Turn) :
    Evicting (turns.length - capacity) (ofTurns capacity turns)
      (ofTurns capacity (turns.rtake capacity)) := by
  induction turns with
  | nil =>
    rw [List.rtake_nil, List.length_nil, Nat.zero_sub]
    apply Evicting.done
    show (messages []).length ≤ 2 * capacity
    exact Nat.zero_le _
  | cons turn turns ih =>
    by_cases hfits : (turn :: turns).length ≤ capacity
    · have hall : (turn :: turns).rtake capacity = turn :: turns := by
        rw [List.rtake, Nat.sub_eq_zero_of_le hfits, List.drop_zero]
      rw [hall, Nat.sub_eq_zero_of_le hfits]
      apply Evicting.done
      show (messages (turn :: turns)).length ≤ 2 * capacity
      rw [length_messages]
      omega
    · -- the first turn goes, and the last ones are among the others
      have hrounds : (turn :: turns).length - capacity = turns.length - capacity + 1 := by
        rw [List.length_cons] at hfits ⊢
        omega
      have hlast : (turn :: turns).rtake capacity = turns.rtake capacity := by
        rw [List.rtake, hrounds, List.drop_succ_cons, List.rtake]
      rw [hlast, hrounds]
      apply Evicting.round
      · show 2 * capacity < (messages (turn :: turns)).length
        rw [length_messages]
        omega
      · rw [apply_evict_ofTurns]
        exact ih

/-! ## Section 4: The queue of a history -/

/-- The history with a turn added, before older ones are evicted. -/
def grow (history : History) (user bot : String) : History :=
  { history with entries := history.entries ++ [⟨.user, user⟩, ⟨.bot, bot⟩] }

theorem grow_ofTurns (capacity : ℕ) (turns : List Turn) (user bot : String) :
    (ofTurns capacity turns).grow user bot = ofTurns capacity (turns ++ [Turn.mk user bot]) := by
  unfold grow ofTurns
  rw [messages_append]
  rfl

/-- Adding a turn leaves the last turns. -/
theorem pushTurn_ofTurns (capacity : ℕ) (turns : List Turn) (user bot : String) :
    (ofTurns capacity turns).pushTurn user bot
      = ofTurns capacity ((turns ++ [Turn.mk user bot]).rtake capacity) := by
  have hloop := evicting_ofTurns capacity (turns ++ [Turn.mk user bot])
  rw [hloop.entries_eq, ← grow_ofTurns]
  rfl

/-- **In step.**  The history holds the turns of a queue, and these are no more than fit. -/
structure Holds (capacity : ℕ) (history : History) (turns : List Turn) : Prop where
  eq : history = ofTurns capacity turns
  fits : turns.length ≤ capacity

/-- **One operation** keeps a history in step with its queue. -/
theorem Holds.apply {capacity : ℕ} {history : History} {turns : List Turn} (operation : Operation)
    (h : Holds capacity history turns) :
    (history.apply operation).1 = (enqueue capacity operation turns).1
      ∧ Holds capacity (history.apply operation).2 (enqueue capacity operation turns).2 := by
  obtain ⟨rfl, hfits⟩ := h
  cases operation with
  | push user bot =>
    refine ⟨rfl, pushTurn_ofTurns capacity turns user bot, ?_⟩
    show ((turns ++ [Turn.mk user bot]).rtake capacity).length ≤ capacity
    rw [List.rtake, List.length_drop]
    omega
  | evict =>
    rw [apply_evict_ofTurns]
    refine ⟨rfl, rfl, ?_⟩
    show turns.tail.length ≤ capacity
    rw [List.length_tail]
    omega
  | clear => exact ⟨rfl, rfl, Nat.zero_le _⟩

/-- Whole turns, and at least one. -/
theorem normalizeLimit_eq (limit : ℕ) : normalizeLimit limit = 2 * max 1 (limit / 2) := by
  unfold normalizeLimit
  omega

/-- A new history is in step with an empty queue. -/
theorem holds_new (limit : ℕ) : Holds (max 1 (limit / 2)) (new limit) [] := by
  refine ⟨?_, Nat.zero_le _⟩
  unfold new ofTurns
  rw [normalizeLimit_eq]
  rfl

/-- **Histories are queues of turns.**  After any operations on a new history, its entries are the
    messages of the turns that a queue for `max 1 (limit / 2)` turns keeps, and the reports were
    those of the queue.  So the messages are whole turns and no more than the limit, the user and
    the bot take turns, and the loop that evicts old turns when one more is added comes to an end,
    after one round at most. -/
theorem queues_turns (limit : ℕ) (operations : List Operation) :
    ∃ (reports : List (Option Bool)) (history : History) (turns : List Turn),
      perform apply operations (new limit) = (reports, history)
      ∧ perform (enqueue (max 1 (limit / 2))) operations [] = (reports, turns)
      ∧ history.entries = messages turns
      ∧ history.limit = normalizeLimit limit
      ∧ history.entries.length % 2 = 0
      ∧ history.entries.length ≤ normalizeLimit limit
      ∧ (∀ (index : ℕ) (message : Message), history.entries[index]? = some message →
        message.role = if index % 2 = 0 then .user else .bot)
      ∧ ∀ user bot : String, ∃ rounds ≤ 1,
        Evicting rounds (history.grow user bot) (history.pushTurn user bot) := by
  have hlimit := normalizeLimit_eq limit
  obtain ⟨hreports, hholds⟩ :=
    perform_alike (fun operation _ _ h => Holds.apply operation h) operations (holds_new limit)
  generalize perform apply operations (new limit) = ran at hreports hholds
  generalize perform (enqueue _) operations [] = queued at hreports hholds
  obtain ⟨reports, history⟩ := ran
  obtain ⟨reports', turns⟩ := queued
  obtain rfl : reports = reports' := hreports
  obtain ⟨rfl, hfits⟩ := hholds
  have hfits : turns.length ≤ max 1 (limit / 2) := hfits
  generalize max 1 (limit / 2) = capacity at hlimit hfits ⊢
  refine ⟨reports, _, turns, rfl, rfl, rfl, hlimit.symm, ?_, ?_, ?_, ?_⟩
  · show (messages turns).length % 2 = 0
    rw [length_messages]
    omega
  · show (messages turns).length ≤ normalizeLimit limit
    rw [length_messages]
    omega
  · intro index message hmessage
    exact role_messages hmessage
  · intro user bot
    refine ⟨(turns ++ [Turn.mk user bot]).length - capacity, ?_, ?_⟩
    · rw [List.length_append, List.length_singleton]
      omega
    · rw [grow_ofTurns, pushTurn_ofTurns]
      exact evicting_ofTurns capacity _

/-! ## Section 5: Histories as they are built -/

/-- A history as it is built: from an empty one, by adding turns, dropping them, and forgetting
    them all. -/
inductive Built : History → Prop
  | new (limit : Nat) : Built (new limit)
  | pushTurn {history : History} (h : Built history) (user bot : String) :
    Built (history.pushTurn user bot)
  | evict {history later : History} (h : Built history)
    (hevict : history.evictOldest? = some later) : Built later
  | clear {history : History} (h : Built history) : Built history.clear

/-- **Built histories** are in step with a queue, which has room for a turn. -/
theorem Built.exists_holds {history : History} (h : history.Built) :
    ∃ capacity turns, 0 < capacity ∧ Holds capacity history turns := by
  induction h with
  | new limit => exact ⟨max 1 (limit / 2), [], by omega, holds_new limit⟩
  | @pushTurn history _ user bot ih =>
    obtain ⟨capacity, turns, hroom, hholds⟩ := ih
    exact ⟨capacity, _, hroom, (hholds.apply (.push user bot)).2⟩
  | @evict history later _ hevict ih =>
    obtain ⟨capacity, turns, hroom, hholds⟩ := ih
    have hlater : (history.apply .evict).2 = later := by
      simp only [History.apply, hevict]
    rw [← hlater]
    exact ⟨capacity, _, hroom, (hholds.apply .evict).2⟩
  | @clear history _ ih =>
    obtain ⟨capacity, turns, hroom, hholds⟩ := ih
    exact ⟨capacity, _, hroom, (hholds.apply .clear).2⟩

/-- A turn was added: its two messages stand at the end of `later`, behind the messages of `before`,
    of which only the oldest may have gone. -/
def Adds (user bot : String) (before later : History) : Prop :=
  ∃ kept, kept <:+ before.entries ∧ later.entries = kept ++ [⟨.user, user⟩, ⟨.bot, bot⟩]

/-- **Adding a turn** to a history adds its two messages: they are not among those that go. -/
theorem Built.adds {history : History} (h : history.Built) (user bot : String) :
    Adds user bot history (history.pushTurn user bot) := by
  obtain ⟨capacity, turns, hroom, rfl, -⟩ := h.exists_holds
  obtain ⟨room, rfl⟩ := Nat.exists_eq_add_of_lt hroom
  rw [Nat.zero_add, pushTurn_ofTurns, List.rtake_concat_succ]
  refine ⟨messages (turns.rtake room), ?_, messages_append _ _⟩
  have hsplit : messages turns
      = messages (turns.take (turns.length - room)) ++ messages (turns.rtake room) := by
    rw [← messages_append, List.rtake, List.take_append_drop]
  show messages (turns.rtake room) <:+ messages turns
  rw [hsplit]
  exact List.suffix_append _ _

end Parley.History
