/-! # Steps that may fail

    A step takes a state and leaves a state behind, whether it fails or not: `Step.after`.  What a
    step keeps is a relation between the two, and it is shown along the steps that it is made of.
    So is that a step does what it does over a fuller state, `Step.Mirrors`, or over another state
    that is related, `Step.Couples`; and that its result does not depend on the state,
    `Step.Answers`.  A result without a state is taken apart in the same way.
-/

namespace Parley.Step

variable {ε σ α β : Type}

/-- The state that a step leaves behind, whether it fails or not. -/
def after (step : EStateM ε σ α) (state : σ) : σ :=
  match step state with
  | .ok _ state => state
  | .error _ state => state

/-- What a step returns, be it an error. -/
def result (step : EStateM ε σ α) (state : σ) : Except ε α :=
  match step state with
  | .ok value _ => .ok value
  | .error error _ => .error error

section Outcomes

variable {step : EStateM ε σ α} {next : α → EStateM ε σ β} {state later : σ}

theorem after_ok {value : α} (h : step state = .ok value later) : after step state = later := by
  unfold after
  rw [h]

theorem after_error {error : ε} (h : step state = .error error later) :
    after step state = later := by
  unfold after
  rw [h]

theorem result_ok {value : α} (h : step state = .ok value later) :
    result step state = .ok value := by
  unfold result
  rw [h]

theorem result_error {error : ε} (h : step state = .error error later) :
    result step state = .error error := by
  unfold result
  rw [h]

theorem bind_ok {value : α} (h : step state = .ok value later) :
    (step >>= next) state = next value later := by
  show EStateM.bind step next state = _
  unfold EStateM.bind
  rw [h]

theorem get_bind (next : σ → EStateM ε σ α) (state : σ) : (get >>= next) state = next state state :=
  rfl

theorem bind_error {error : ε} (h : step state = .error error later) :
    (step >>= next) state = .error error later := by
  show EStateM.bind step next state = _
  unfold EStateM.bind
  rw [h]

theorem after_bind_ok {value : α} (h : step state = .ok value later) :
    after (step >>= next) state = after (next value) later := by
  unfold after
  rw [bind_ok h]

theorem after_bind_error {error : ε} (h : step state = .error error later) :
    after (step >>= next) state = later := by
  unfold after
  rw [bind_error h]

theorem after_bind_pure (value : β) :
    after (step >>= fun _ => pure value) state = after step state := by
  cases hstep : step state with
  | ok result later =>
    rw [after_bind_ok hstep, after_ok hstep]
    rfl
  | error error later => rw [after_bind_error hstep, after_error hstep]

/-- What two steps in a row return, both have to succeed for. -/
theorem bind_eq_ok {value : β} (h : (step >>= next) state = .ok value later) :
    ∃ first middle, step state = .ok first middle ∧ next first middle = .ok value later := by
  cases hstep : step state with
  | ok first middle =>
    rw [bind_ok hstep] at h
    exact ⟨first, middle, rfl, h⟩
  | error error middle =>
    rw [bind_error hstep] at h
    contradiction

/-- A step that returns something succeeds. -/
theorem run'_eq_some {value : α} (h : step.run' state = some value) :
    ∃ later, step state = .ok value later := by
  unfold EStateM.run' EStateM.run at h
  cases hstep : step state with
  | ok result later =>
    rw [hstep] at h
    exact ⟨later, congrArg (EStateM.Result.ok · later) (Option.some.inj h)⟩
  | error error later =>
    rw [hstep] at h
    contradiction

/-- Whether the step succeeds and its result and state pass the check. -/
def succeedsWith (step : EStateM ε σ α) (state : σ) (check : α → σ → Bool) : Bool :=
  match step state with
  | .ok value later => check value later
  | .error _ _ => false

/-- Whether the step fails and its error and state pass the check. -/
def failsWith (step : EStateM ε σ α) (state : σ) (check : ε → σ → Bool) : Bool :=
  match step state with
  | .ok _ _ => false
  | .error error later => check error later

theorem exists_ok (step : EStateM ε σ α) (state : σ) (check : α → σ → Bool)
    (h : succeedsWith step state check = true) :
    ∃ value later, step state = .ok value later ∧ check value later = true := by
  unfold succeedsWith at h
  cases hstep : step state with
  | ok value later =>
    rw [hstep] at h
    exact ⟨value, later, rfl, h⟩
  | error error later =>
    rw [hstep] at h
    contradiction

theorem exists_error (step : EStateM ε σ α) (state : σ) (check : ε → σ → Bool)
    (h : failsWith step state check = true) :
    ∃ error later, step state = .error error later ∧ check error later = true := by
  unfold failsWith at h
  cases hstep : step state with
  | ok value later =>
    rw [hstep] at h
    contradiction
  | error error later =>
    rw [hstep] at h
    exact ⟨error, later, rfl, h⟩

end Outcomes

/-! ## What a step keeps -/

/-- The step goes from `state` to a state related to it. -/
def Keeps (relation : σ → σ → Prop) (step : EStateM ε σ α) (state : σ) : Prop :=
  relation state (after step state)

section Keeps

variable {relation : σ → σ → Prop} {step other : EStateM ε σ α} {state : σ}

theorem Keeps.of_ok {value : α} {later : σ} (h : Keeps relation step state)
    (hstep : step state = .ok value later) : relation state later := by
  rw [Keeps, after_ok hstep] at h
  exact h

theorem Keeps.of_error {error : ε} {later : σ} (h : Keeps relation step state)
    (hstep : step state = .error error later) : relation state later := by
  rw [Keeps, after_error hstep] at h
  exact h

theorem Keeps.discard (h : Keeps relation step state) : Keeps relation (discard step) state := by
  have hafter : after (Functor.discard step) state = after step state := after_bind_pure ()
  rwa [Keeps, hafter]

theorem Keeps.adaptExcept {δ : Type} {adapt : ε → δ} (h : Keeps relation step state) :
    Keeps relation (step.adaptExcept adapt) state := by
  unfold Keeps after at h
  unfold Keeps after EStateM.adaptExcept
  cases hstep : step state <;> simp only [hstep] at h ⊢ <;> exact h

theorem Keeps.bind {next : α → EStateM ε σ β}
    (htrans : ∀ {a b c}, relation a b → relation b c → relation a c)
    (h : Keeps relation step state) (hnext : ∀ value later, Keeps relation (next value) later) :
    Keeps relation (step >>= next) state := by
  unfold Keeps at h ⊢
  cases hstep : step state with
  | ok value later =>
    rw [after_ok hstep] at h
    rw [after_bind_ok hstep]
    exact htrans h (hnext value later)
  | error error later =>
    rw [after_error hstep] at h
    rwa [after_bind_error hstep]

/-- Reading the state gives the state. -/
theorem keeps_get {next : σ → EStateM ε σ β} (h : Keeps relation (next state) state) :
    Keeps relation (get >>= next) state := h

theorem keeps_ite {p : Prop} [Decidable p] (hthen : p → Keeps relation step state)
    (helse : ¬ p → Keeps relation other state) :
    Keeps relation (if p then step else other) state := by
  by_cases hp : p
  · rw [if_pos hp]
    exact hthen hp
  · rw [if_neg hp]
    exact helse hp

end Keeps

/-! ## What a step ensures -/

/-- If the step succeeds, it kept `inv`, and `post` holds of what it returns. -/
def Ensures (inv : σ → Prop) (step : EStateM ε σ α) (post : α → Prop) : Prop :=
  ∀ state value later, inv state → step state = .ok value later → inv later ∧ post value

theorem Keeps.ensures {relation : σ → σ → Prop} {inv : σ → Prop} {step : EStateM ε σ α}
    (hinv : ∀ {before later}, relation before later → inv before → inv later)
    (h : ∀ state, Keeps relation step state) : Ensures inv step fun _ => True :=
  fun state _ _ hstate hstep => ⟨hinv ((h state).of_ok hstep) hstate, trivial⟩

theorem ensures_pure {inv : σ → Prop} {post : α → Prop} {value : α} (h : post value) :
    Ensures (ε := ε) inv (pure value) post := by
  intro state result later hinv hstep
  cases hstep
  exact ⟨hinv, h⟩

theorem Ensures.bind {inv : σ → Prop} {step : EStateM ε σ α} {next : α → EStateM ε σ β}
    {first : α → Prop} {post : β → Prop} (h : Ensures inv step first)
    (hnext : ∀ value, first value → Ensures inv (next value) post) :
    Ensures inv (step >>= next) post := by
  intro state result last hinv hstep
  obtain ⟨value, later, hstart, hstep⟩ := bind_eq_ok hstep
  obtain ⟨hlater, hfirst⟩ := h state value later hinv hstart
  exact hnext value hfirst later result last hlater hstep

theorem Ensures.mono {inv : σ → Prop} {step : EStateM ε σ α} {post wider : α → Prop}
    (h : Ensures inv step post) (hwider : ∀ value, post value → wider value) :
    Ensures inv step wider := by
  intro state value later hinv hstep
  obtain ⟨hlater, hvalue⟩ := h state value later hinv hstep
  exact ⟨hlater, hwider value hvalue⟩

theorem Ensures.discard {inv : σ → Prop} {step : EStateM ε σ α} {post : α → Prop}
    (h : Ensures inv step post) : Ensures inv (discard step) fun _ => True := by
  intro state result later hinv hstep
  replace hstep : (step >>= fun _ => pure ()) state = .ok result later := hstep
  obtain ⟨value, _, hfirst, hlast⟩ := bind_eq_ok hstep
  cases hlast
  exact ⟨(h state value _ hinv hfirst).1, trivial⟩

/-! ## How a step fails -/

/-- If the step fails, `post` holds of the error. -/
def Fails (step : EStateM ε σ α) (post : ε → Prop) : Prop :=
  ∀ state error later, step state = .error error later → post error

theorem fails_pure {post : ε → Prop} (value : α) : Fails (σ := σ) (pure value) post :=
  fun _ _ _ hstep => nomatch hstep

theorem Fails.bind {step : EStateM ε σ α} {next : α → EStateM ε σ β} {post : ε → Prop}
    (h : Fails step post) (hnext : ∀ value, Fails (next value) post) :
    Fails (step >>= next) post := by
  intro state error later hstep
  cases hfirst : step state with
  | ok value middle =>
    rw [bind_ok hfirst] at hstep
    exact hnext value middle error later hstep
  | error failure middle =>
    rw [bind_error hfirst] at hstep
    cases hstep
    exact h state error later hfirst

theorem Fails.discard {step : EStateM ε σ α} {post : ε → Prop} (h : Fails step post) :
    Fails (discard step) post :=
  h.bind fun _ => fails_pure ()

/-! ## Steps over a fuller state

    A fuller state holds more than a step works with: a record of what was done, say.  Each step is
    followed by the same step over the fuller state, and the two are compared from one fuller state.
    The comparison passes through sequences of steps, so a step needs no more than the comparisons
    of its parts. -/

section Mirrors

variable {τ : Type} {project : τ → σ}

/-- An outcome, with no more of the state than `project` shows. -/
def outcome (project : τ → σ) : EStateM.Result ε τ α → EStateM.Result ε σ α
  | .ok value state => .ok value (project state)
  | .error error state => .error error (project state)

/-- The step has the outcome of the step over the fuller state. -/
def Mirrors (project : τ → σ) (step : EStateM ε σ α) (fuller : EStateM ε τ α) (state : τ) : Prop :=
  step (project state) = outcome project (fuller state)

variable {step : EStateM ε σ α} {fuller : EStateM ε τ α} {state : τ}

theorem mirrors_pure (value : α) :
    Mirrors project (pure value : EStateM ε σ α) (pure value : EStateM ε τ α) state := rfl

theorem Mirrors.bind {next : α → EStateM ε σ β} {fullerNext : α → EStateM ε τ β}
    (h : Mirrors project step fuller state)
    (hnext : ∀ value state, Mirrors project (next value) (fullerNext value) state) :
    Mirrors project (step >>= next) (fuller >>= fullerNext) state := by
  show EStateM.bind step next (project state)
    = outcome project (EStateM.bind fuller fullerNext state)
  unfold EStateM.bind
  rw [show step (project state) = _ from h]
  cases fuller state with
  | ok value state => exact hnext value state
  | error error state => rfl

end Mirrors

/-! ## Steps side by side

    Two steps, over states of two kinds that are related, are coupled if they have the same result
    and leave related states behind.  Coupling passes through sequences of steps as well. -/

section Couples

variable {τ : Type}

/-- Outcomes with the same result and related states. -/
inductive Alike (related : σ → τ → Prop) : EStateM.Result ε σ α → EStateM.Result ε τ α → Prop
  | ok (value : α) {state : σ} {state' : τ} (h : related state state') :
    Alike related (.ok value state) (.ok value state')
  | error (error : ε) {state : σ} {state' : τ} (h : related state state') :
    Alike related (.error error state) (.error error state')

/-- From the two states the two steps have the same result and leave related states behind. -/
def Couples (related : σ → τ → Prop) (step : EStateM ε σ α) (step' : EStateM ε τ α) (state : σ)
    (state' : τ) : Prop :=
  Alike related (step state) (step' state')

variable {related : σ → τ → Prop} {step other : EStateM ε σ α} {step' other' : EStateM ε τ α}
  {state : σ} {state' : τ}

/-- **Coupled steps** succeed together or fail together. -/
theorem Couples.outcomes (h : Couples related step step' state state') :
    (∃ value later later', step state = .ok value later ∧ step' state' = .ok value later'
      ∧ related later later')
    ∨ (∃ error later later', step state = .error error later
      ∧ step' state' = .error error later' ∧ related later later') := by
  unfold Couples at h
  cases hstep : step state <;> cases hstep' : step' state' <;> rw [hstep, hstep'] at h <;> cases h
  · rename_i value later later' hrelated
    exact .inl ⟨value, later, later', rfl, rfl, hrelated⟩
  · rename_i error later later' hrelated
    exact .inr ⟨error, later, later', rfl, rfl, hrelated⟩

theorem Couples.of_ok {value : α} {later : σ} {later' : τ} (hstep : step state = .ok value later)
    (hstep' : step' state' = .ok value later') (h : related later later') :
    Couples related step step' state state' := by
  unfold Couples
  rw [hstep, hstep']
  exact .ok value h

theorem Couples.of_error {error : ε} {later : σ} {later' : τ}
    (hstep : step state = .error error later) (hstep' : step' state' = .error error later')
    (h : related later later') : Couples related step step' state state' := by
  unfold Couples
  rw [hstep, hstep']
  exact .error error h

theorem Couples.related_after (h : Couples related step step' state state') :
    related (after step state) (after step' state') := by
  rcases h.outcomes with ⟨value, later, later', hstep, hstep', hrelated⟩ |
    ⟨error, later, later', hstep, hstep', hrelated⟩
  · rwa [after_ok hstep, after_ok hstep']
  · rwa [after_error hstep, after_error hstep']

theorem Couples.mono {wider : σ → τ → Prop} (h : Couples related step step' state state')
    (hwider : ∀ {later later'}, related later later' → wider later later') :
    Couples wider step step' state state' := by
  rcases h.outcomes with ⟨value, later, later', hstep, hstep', hrelated⟩ |
    ⟨error, later, later', hstep, hstep', hrelated⟩
  · exact .of_ok hstep hstep' (hwider hrelated)
  · exact .of_error hstep hstep' (hwider hrelated)

theorem Couples.adaptExcept {δ : Type} {adapt : ε → δ}
    (h : Couples related step step' state state') :
    Couples related (step.adaptExcept adapt) (step'.adaptExcept adapt) state state' := by
  unfold Couples EStateM.adaptExcept
  rcases h.outcomes with ⟨value, later, later', hstep, hstep', hrelated⟩ |
    ⟨error, later, later', hstep, hstep', hrelated⟩
  · rw [hstep, hstep']
    exact .ok value hrelated
  · rw [hstep, hstep']
    exact .error _ hrelated

theorem couples_pure (value : α) (h : related state state') :
    Couples (ε := ε) related (pure value) (pure value) state state' := .ok value h

theorem couples_throw (error : ε) (h : related state state') :
    Couples related (throw error : EStateM ε σ α) (throw error : EStateM ε τ α) state state' :=
  .error error h

theorem Couples.bind {next : α → EStateM ε σ β} {next' : α → EStateM ε τ β}
    (h : Couples related step step' state state')
    (hnext : ∀ value state state', related state state' →
      Couples related (next value) (next' value) state state') :
    Couples related (step >>= next) (step' >>= next') state state' := by
  rcases h.outcomes with ⟨value, later, later', hstep, hstep', hrelated⟩ |
    ⟨error, later, later', hstep, hstep', hrelated⟩
  · unfold Couples
    rw [bind_ok hstep, bind_ok hstep']
    exact hnext value later later' hrelated
  · exact .of_error (bind_error hstep) (bind_error hstep') hrelated

theorem Couples.discard (h : Couples related step step' state state') :
    Couples related (discard step) (discard step') state state' :=
  h.bind fun _ _ _ h => couples_pure () h

theorem couples_ite {p q : Prop} [Decidable p] [Decidable q] (hsame : p ↔ q)
    (hthen : p → Couples related step step' state state')
    (helse : ¬ p → Couples related other other' state state') :
    Couples related (if p then step else other) (if q then step' else other') state state' := by
  by_cases hp : p
  · rw [if_pos hp, if_pos (hsame.mp hp)]
    exact hthen hp
  · rw [if_neg hp, if_neg (fun hq => hp (hsame.mpr hq))]
    exact helse hp

/-- Reading the states gives the states. -/
theorem couples_get {next : σ → EStateM ε σ β} {next' : τ → EStateM ε τ β}
    (h : Couples related (next state) (next' state') state state') :
    Couples related (get >>= next) (get >>= next') state state' := h

theorem couples_modify {change : σ → σ} {change' : τ → τ}
    (h : related (change state) (change' state')) :
    Couples (ε := ε) related (modify change) (modify change') state state' := .ok () h

end Couples

/-! ## What a step answers

    A step that works with a state may have a result that does not depend on the state, as long as
    an invariant holds. -/

section Answers

/-- The outcome has the result `answer`, and its state satisfies `inv`. -/
inductive Gives (inv : σ → Prop) : Except ε α → EStateM.Result ε σ α → Prop
  | ok (value : α) {state : σ} (h : inv state) : Gives inv (.ok value) (.ok value state)
  | error (error : ε) {state : σ} (h : inv state) : Gives inv (.error error) (.error error state)

/-- The result of the step is `answer`, and `inv` holds after it. -/
def Answers (inv : σ → Prop) (answer : Except ε α) (step : EStateM ε σ α) (state : σ) : Prop :=
  Gives inv answer (step state)

variable {inv : σ → Prop} {answer : Except ε α} {step : EStateM ε σ α} {state : σ}

theorem answers_pure (value : α) (h : inv state) :
    Answers (ε := ε) inv (.ok value) (pure value) state := .ok value h

/-- Reading the state gives the state. -/
theorem answers_get {next : σ → EStateM ε σ α} (h : Answers inv answer (next state) state) :
    Answers inv answer (get >>= next) state := h

/-- Changing the state gives nothing. -/
theorem answers_modify {change : σ → σ} {next : EStateM ε σ α}
    (h : Answers inv answer next (change state)) :
    Answers inv answer (modify change >>= fun _ => next) state := h

theorem Answers.bind {more : α → Except ε β} {next : α → EStateM ε σ β}
    (h : Answers inv answer step state)
    (hnext : ∀ value state, answer = .ok value → inv state →
      Answers inv (more value) (next value) state) :
    Answers inv (answer >>= more) (step >>= next) state := by
  unfold Answers at h
  cases hstep : step state with
  | ok value later =>
    rw [hstep] at h
    cases h with
    | ok _ hinv =>
      unfold Answers
      rw [bind_ok hstep]
      exact hnext value later rfl hinv
  | error error later =>
    rw [hstep] at h
    cases h with
    | error _ hinv =>
      unfold Answers
      rw [bind_error hstep]
      exact .error error hinv

/-- A step that gives its answer keeps the invariant. -/
theorem Answers.holds_after (h : Answers inv answer step state) : inv (after step state) := by
  unfold Answers at h
  unfold after
  cases hstep : step state <;> rw [hstep] at h <;> cases h
  · assumption
  · assumption

/-- A step returns its answer. -/
theorem Answers.result_eq (h : Answers inv answer step state) : result step state = answer := by
  unfold Answers at h
  unfold result
  cases hstep : step state <;> rw [hstep] at h <;> cases h
  · rfl
  · rfl

/-- **Two steps with the same answer** are coupled. -/
theorem Answers.couples {τ : Type} {inv' : τ → Prop} {step' : EStateM ε τ α} {state' : τ}
    {related : σ → τ → Prop} (h : Answers inv answer step state)
    (h' : Answers inv' answer step' state')
    (hrelated : ∀ {later later'}, inv later → inv' later' → related later later') :
    Couples related step step' state state' := by
  unfold Couples
  unfold Answers at h h'
  cases hstep : step state <;> cases hstep' : step' state' <;> rw [hstep] at h <;>
    rw [hstep'] at h' <;> cases h <;> cases h'
  · rename_i hinv hinv'
    exact .ok _ (hrelated hinv hinv')
  · rename_i hinv hinv'
    exact .error _ (hrelated hinv hinv')

end Answers

/-! ## Results -/

theorem except_map_eq_ok {result : Except ε α} {f : α → β} {value : β}
    (h : result.map f = .ok value) : ∃ first, result = .ok first ∧ f first = value := by
  cases result with
  | ok first => exact ⟨first, rfl, Except.ok.inj h⟩
  | error error => contradiction

theorem except_map_eq_error {result : Except ε α} {f : α → β} {error : ε}
    (h : result.map f = .error error) : result = .error error := by
  cases result with
  | ok first => contradiction
  | error reason => exact congrArg Except.error (Except.error.inj h)

theorem except_bind_eq_ok {result : Except ε α} {next : α → Except ε β} {value : β}
    (h : (result >>= next) = .ok value) : ∃ first, result = .ok first ∧ next first = .ok value := by
  cases result with
  | ok first => exact ⟨first, rfl, h⟩
  | error error => contradiction

theorem except_bind_eq_ok_iff {result : Except ε α} {next : α → Except ε β} {value : β} :
    (result >>= next) = .ok value ↔ ∃ first, result = .ok first ∧ next first = .ok value := by
  constructor
  · exact except_bind_eq_ok
  · rintro ⟨first, rfl, h⟩
    exact h

theorem except_mapM_cons {f : α → Except ε β} {item : α} {items : List α} {values : List β}
    (h : (item :: items).mapM f = .ok values) :
    ∃ value rest, values = value :: rest ∧ f item = .ok value ∧ items.mapM f = .ok rest := by
  rw [List.mapM_cons] at h
  obtain ⟨value, hvalue, h⟩ := except_bind_eq_ok h
  obtain ⟨rest, hrest, h⟩ := except_bind_eq_ok h
  exact ⟨value, rest, (Except.ok.inj h).symm, hvalue, hrest⟩

/-- A list is collected item by item.  If each value tells the item that it comes from, and what has
    to hold of it, the values tell the list. -/
theorem except_mapM_eq_ok_iff {f : α → Except ε β} {g : β → α} {p : β → Prop}
    (hitem : ∀ item value, f item = .ok value ↔ item = g value ∧ p value) {items : List α} :
    ∀ {values : List β}, items.mapM f = .ok values
      ↔ items = values.map g ∧ ∀ value ∈ values, p value := by
  induction items with
  | nil =>
    intro values
    cases values <;> simp [pure, Except.pure]
  | cons item items ih =>
    intro values
    constructor
    · intro h
      obtain ⟨value, rest, rfl, hvalue, hrest⟩ := except_mapM_cons h
      obtain ⟨rfl, hp⟩ := (hitem item value).mp hvalue
      obtain ⟨rfl, hothers⟩ := ih.mp hrest
      exact ⟨rfl, List.forall_mem_cons.mpr ⟨hp, hothers⟩⟩
    · rintro ⟨hitems, hp⟩
      cases values with
      | nil => contradiction
      | cons value rest =>
        obtain ⟨hfirst, hothers⟩ := List.cons.inj hitems
        rw [List.forall_mem_cons] at hp
        rw [List.mapM_cons, (hitem item value).mpr ⟨hfirst, hp.1⟩, ih.mpr ⟨hothers, hp.2⟩]
        rfl

end Parley.Step
