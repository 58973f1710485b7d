import Parley.Constrained.Generate
import Parley.Engine.Tabulated
import Parley.Proofs.Constrained.Conformance
import Parley.Proofs.Session.Knowledge

/-! # Generated JSON conforms to its schema

    The hand of a session can spell: the session learns pieces and forgets none, so the tokens of
    the palette are read as they were when it was learnt.  With that the laws of writing hold of the
    sessions in which the model keeps to the allowed tokens, `Session.Obeys`, and what `generate`
    returns is a value of the schema.
-/

namespace Parley

open Step

/-! ## Section 1: The hand of a session -/

namespace Session

variable {σ α : Type} {engine : Engine σ}

/-- The session knows whatever is spelled. -/
def Knows (spelling : Spelling) (session : Session σ) : Prop :=
  ∀ token piece, spelling token = some piece → session.vocab.known? token = some piece

theorem Knows.of_learns {spelling : Spelling} {before later : Session σ}
    (hlearns : before.Learns later) (h : before.Knows spelling) : later.Knows spelling :=
  fun token piece hspelled => hlearns.grown.known (h token piece hspelled)

theorem forGeneration_eq_ok {step : SessionM σ α} {session later : Session σ} {value : α} :
    forGeneration step session = .ok value later ↔ step session = .ok value later := by
  unfold forGeneration EStateM.adaptExcept
  cases step session <;> simp

theorem ensures_forGeneration {inv : Session σ → Prop} {step : SessionM σ α} {post : α → Prop}
    (h : Ensures inv step post) : Ensures inv (forGeneration step) post :=
  fun state value later hinv hstep => h state value later hinv (forGeneration_eq_ok.mp hstep)

theorem ensures_knows {spelling : Spelling} {step : SessionM σ α}
    (h : ∀ session, Keeps Learns step session) : Ensures (Knows spelling) step fun _ => True :=
  Keeps.ensures Knows.of_learns h

/-- **The hand of a session can spell**, whatever the engine answers. -/
theorem hand_spells (engine : Engine σ) (spelling : Spelling) :
    (hand engine).Spells (Knows spelling) spelling where
  choose allowed := ensures_forGeneration
    (ensures_knows fun _ => (lasting_learns engine).keeps_sampleConstrained allowed)
  accept token := ensures_forGeneration
    (ensures_knows fun _ => (lasting_learns engine).keeps_accept token)
  feed text := ensures_forGeneration
    (ensures_knows fun _ => (lasting_learns engine).keeps_feedText text).discard
  piece token := by
    refine ensures_forGeneration fun session text later hknows hstep => ⟨?_, ?_⟩
    · exact .of_learns ((keeps_onVocab (Vocabulary.keeps_piece _ _ _ _)).of_ok hstep) hknows
    · intro known hspelled
      unfold onVocab at hstep
      cases hpiece : Vocabulary.piece engine token false session.vocab with
      | error error vocab =>
        rw [hpiece] at hstep
        contradiction
      | ok piece vocab =>
        rw [hpiece] at hstep
        cases hstep
        exact Vocabulary.eq_of_piece hpiece (hknows token known hspelled)

/-! ## Section 2: Runs -/

/-- Learns the palette and primes a fresh context with the prompt. -/
def primed (engine : Engine σ) (prompt : String) : GenerationM σ Palette := do
  let palette ← forGeneration (onVocab (Palette.learn engine))
  forGeneration (resetContext engine)
  discard (forGeneration (prepareContext engine prompt))
  return palette

theorem writeJson_eq (engine : Engine σ) (prompt : String) (schema : Schema) :
    writeJson engine prompt schema
      = primed engine prompt >>= fun palette => writeObject engine palette schema := by
  unfold writeJson primed
  simp only [bind_assoc, pure_bind]

/-- **The answers of the model** while the text for the schema is written, whether that succeeds or
    not. -/
def answers (engine : Engine σ) (prompt : String) (schema : Schema) (session : Session σ) :
    List Answer :=
  match primed engine prompt session with
  | .ok palette session =>
    (after (Writer.object (hand engine).noted palette schema) { hand := (session, []) }).hand.2
  | .error _ _ => []

/-- The model keeps to the allowed tokens: each time it chooses none, or one of them. -/
def Obeys (engine : Engine σ) (prompt : String) (schema : Schema) (session : Session σ) : Prop :=
  ∀ answer ∈ session.answers engine prompt schema, answer.Obeys

/-- Once the palette is learnt, it is spelled as it is used, and the session knows the spelling. -/
theorem primed_spelled {session later : Session σ} {prompt : String} {palette : Palette}
    (hvocab : session.vocab.InUse engine)
    (hstep : primed engine prompt session = .ok palette later) :
    ∃ spelling, palette.Spelled spelling ∧ later.Knows spelling := by
  unfold primed at hstep
  obtain ⟨learnt, middle, hlearn, hstep⟩ := bind_eq_ok hstep
  obtain ⟨_, cleared, hreset, hstep⟩ := bind_eq_ok hstep
  obtain ⟨_, primed, hprime, hstep⟩ := bind_eq_ok hstep
  cases hstep
  rw [forGeneration_eq_ok] at hlearn hreset
  -- the spelling is what is known once the palette is learnt
  have hspelled : palette.Spelled middle.vocab.known? := by
    unfold onVocab at hlearn
    cases hvocab_step : Palette.learn engine session.vocab with
    | error error vocab =>
      rw [hvocab_step] at hlearn
      contradiction
    | ok learnt vocab =>
      rw [hvocab_step] at hlearn
      cases hlearn
      exact (Palette.tells_learn engine _ _ _ hvocab.coherent hvocab_step).2 _ (vocab.agrees_known)
  have hknown : middle.Knows middle.vocab.known? := fun _ _ h => h
  have hcleared := hknown.of_learns ((lasting_learns engine).keeps_resetContext.of_ok hreset)
  have hprepare : Ensures (Knows middle.vocab.known?)
      (discard (forGeneration (prepareContext engine prompt))) fun _ => True :=
    (ensures_forGeneration
      (ensures_knows fun _ => (lasting_learns engine).keeps_prepareContext prompt)).discard
  exact ⟨_, hspelled, (hprepare cleared _ _ hcleared hprime).1⟩

/-- What an obedient hand writes for a schema is read as a value of the schema. -/
theorem writeObject_conforms {session later : Session σ} {palette : Palette} {spelling : Spelling}
    {schema : Schema} {raw : String} (hpalette : palette.Spelled spelling)
    (hknows : session.Knows spelling)
    (hschema : FieldType.Writable Json.maxDepth (.object schema.fields))
    (hobeys : ∀ answer ∈ (after (Writer.object (hand engine).noted palette schema)
      { hand := (session, []) }).hand.2, answer.Obeys)
    (hstep : writeObject engine palette schema session = .ok raw later) :
    ∃ value, Json.parse raw = .ok value ∧ (FieldType.object schema.fields).Accepts value := by
  -- the run is that of the hand on record, of which the laws of writing speak
  have hmirrors : Mirrors Draft.offRecord (Writer.object (hand engine) palette schema)
      (Writer.object (hand engine).noted palette schema) { hand := (session, []) } :=
    (Writer.parallel_noted (hand engine)).object schema _
  unfold writeObject at hstep
  rw [show Writer.object (hand engine) palette schema { hand := session } = _ from hmirrors]
    at hstep
  cases hnoted : Writer.object (hand engine).noted palette schema { hand := (session, []) } with
  | error error draft =>
    rw [hnoted] at hstep
    contradiction
  | ok result draft =>
    rw [hnoted] at hstep
    rw [after_ok hnoted] at hobeys
    cases hstep
    obtain ⟨-, deed, hdeed, hconforms⟩ := Writer.writes_value (hand_spells engine spelling) hpalette
      hschema _ _ _ hknows hnoted
    obtain ⟨value, hreads, haccepts⟩ := hconforms fun answer hmem => by
      refine hobeys answer ?_
      rw [hdeed.answers]
      exact List.mem_append_right _ hmem
    have htext : draft.text.toList = deed.text := hdeed.text
    exact ⟨value, Json.parse_of_reads (htext ▸ hreads), haccepts⟩

theorem writeJson_conforms {session later : Session σ} {prompt raw : String} {schema : Schema}
    (hvocab : session.vocab.InUse engine)
    (hschema : FieldType.Writable Json.maxDepth (.object schema.fields))
    (hobeys : session.Obeys engine prompt schema)
    (hstep : writeJson engine prompt schema session = .ok raw later) :
    ∃ value, Json.parse raw = .ok value ∧ (FieldType.object schema.fields).Accepts value := by
  rw [writeJson_eq] at hstep
  obtain ⟨palette, middle, hprimed, hstep⟩ := bind_eq_ok hstep
  obtain ⟨spelling, hpalette, hknows⟩ := primed_spelled hvocab hprimed
  unfold Obeys answers at hobeys
  rw [hprimed] at hobeys
  exact writeObject_conforms hpalette hknows hschema hobeys hstep

/-! ## Section 3: Failures -/

/-- An error that comes from the session. -/
def OfSession (error : GenerationError) : Prop := ∃ cause, error = .ofSession cause

theorem OfSession.ne_jsonDecoding {error : GenerationError} (h : OfSession error)
    (raw text reason : String) : error ≠ .jsonDecoding raw text reason := by
  obtain ⟨cause, rfl⟩ := h
  cases cause <;> exact fun h => nomatch h

theorem fails_forGeneration (step : SessionM σ α) : Fails (forGeneration step) OfSession := by
  intro session error later hstep
  unfold forGeneration EStateM.adaptExcept at hstep
  cases hrun : step session with
  | ok value state =>
    rw [hrun] at hstep
    contradiction
  | error cause state =>
    rw [hrun] at hstep
    cases hstep
    exact ⟨cause, rfl⟩

theorem fails_writeObject (palette : Palette) (schema : Schema) :
    Fails (writeObject engine palette schema) OfSession := by
  have hobject : Fails (Writer.object (hand engine) palette schema) OfSession :=
    (Writer.parallel_fails (fun _ => fails_forGeneration _) (fun _ => fails_forGeneration _)
      (fun _ => fails_forGeneration _) fun _ => fails_forGeneration _).object schema
  intro session error later hstep
  unfold writeObject at hstep
  cases hrun : Writer.object (hand engine) palette schema { hand := session } with
  | ok result draft =>
    rw [hrun] at hstep
    contradiction
  | error failure draft =>
    rw [hrun] at hstep
    cases hstep
    exact hobject _ _ _ hrun

theorem fails_writeJson (prompt : String) (schema : Schema) :
    Fails (writeJson engine prompt schema) OfSession := by
  unfold writeJson
  refine (fails_forGeneration _).bind fun palette => (fails_forGeneration _).bind fun _ => ?_
  exact (fails_forGeneration _).discard.bind fun _ => fails_writeObject palette schema

theorem generateArmed_eq {read : String → Except Json.Error α} {prompt schemaText : String}
    {schema : Schema} (hschema : Schema.parse schemaText = .ok schema) :
    generateArmed engine read prompt schemaText = writeJson engine prompt schema >>= fun raw =>
      match read raw with
      | .error error => throw (.jsonDecoding raw schemaText error.message)
      | .ok value => return (value, raw) := by
  unfold generateArmed
  split <;> rename_i hparse
  · rw [hschema] at hparse
    contradiction
  · rw [hschema] at hparse
    cases hparse
    rfl

/-- If whatever is written parses, the generation does not fail at reading it. -/
theorem generateArmed_ne_jsonDecoding {session : Session σ} {prompt schemaText : String}
    {schema : Schema} (hschema : Schema.parse schemaText = .ok schema)
    (hparse : ∀ raw later, writeJson engine prompt schema session = .ok raw later →
      ∃ value, Json.parse raw = .ok value) (raw text reason : String) (later : Session σ) :
    generateArmed engine Json.parse prompt schemaText session
      ≠ .error (.jsonDecoding raw text reason) later := by
  rw [generateArmed_eq hschema]
  intro hstep
  cases hwrite : writeJson engine prompt schema session with
  | error error middle =>
    rw [bind_error hwrite] at hstep
    cases hstep
    exact (fails_writeJson prompt schema _ _ _ hwrite).ne_jsonDecoding _ _ _ rfl
  | ok written middle =>
    obtain ⟨value, hvalue⟩ := hparse written middle hwrite
    rw [bind_ok hwrite, hvalue] at hstep
    contradiction

/-! ## Section 4: Generation -/

/-- **Generated JSON conforms to its schema.**  If the model keeps to the allowed tokens, then what
    is written parses, its value conforms to the schema, and a generation does not fail at reading
    what it wrote.  So a required member is there and is not null, `FieldType.not_accepts_null`, and
    a member of type integer is written without a point and an exponent,
    `Numeral.literal_of_integer`. -/
theorem generate_conforms {session : Session σ} (hvocab : session.vocab.InUse engine)
    {schemaText : String} {schema : Schema} (hschema : Schema.parse schemaText = .ok schema)
    (prompt : String) :
    (session.Obeys engine prompt schema →
      (∀ raw later, writeJson engine prompt schema session = .ok raw later →
        ∃ value, Json.parse raw = .ok value ∧ (FieldType.object schema.fields).Accepts value)
      ∧ ∀ raw text reason later, generateArmed engine Json.parse prompt schemaText session
        ≠ .error (.jsonDecoding raw text reason) later)
    ∧ (session.beginGeneration.Obeys engine prompt schema →
      ∀ raw text reason later, generate engine Json.parse prompt schemaText session
        ≠ .error (.jsonDecoding raw text reason) later) := by
  have hwritable := Schema.parse_writable hschema
  have hconforms : ∀ {session : Session σ}, session.vocab.InUse engine →
      session.Obeys engine prompt schema → ∀ raw later,
      writeJson engine prompt schema session = .ok raw later →
        ∃ value, Json.parse raw = .ok value ∧ (FieldType.object schema.fields).Accepts value :=
    fun hvocab hobeys _ _ hstep => writeJson_conforms hvocab hwritable hobeys hstep
  -- what parses is not refused
  have hparses : ∀ {session : Session σ}, session.vocab.InUse engine →
      session.Obeys engine prompt schema → ∀ raw text reason later,
      generateArmed engine Json.parse prompt schemaText session
        ≠ .error (.jsonDecoding raw text reason) later := by
    intro session hvocab hobeys
    refine generateArmed_ne_jsonDecoding hschema fun raw later hstep => ?_
    obtain ⟨value, hvalue, -⟩ := hconforms hvocab hobeys raw later hstep
    exact ⟨value, hvalue⟩
  -- a new generation is one from a session that is armed again
  exact ⟨fun hobeys => ⟨hconforms hvocab hobeys, hparses hvocab hobeys⟩,
    fun hobeys => hparses (.touched _ _ hvocab) hobeys⟩

/-- An engine with single tokens for some of the characters of JSON and for `true`, which the model
    prefers. -/
def affirming : Tabulated where
  pieces := ["x", "true", "\"", ",", "\x7b", "\x7d", "[", "]", "-", ".", "n", "u", "l", "t", "r",
    "e", "f", "a", "s", "o", "k", ":"].map String.toList
  rows := [[(1, 1)]]

/-- A schema with one field. -/
def okSchema : Schema where
  fields := [⟨"ok", .boolean, true⟩]

/-- The text of the schema. -/
def okText : String :=
  "\x7b\"properties\":\x7b\"ok\":\x7b\"type\":\"boolean\"\x7d\x7d,\"required\":[\"ok\"]\x7d"

theorem generate_conforms_ok :
    let session := Session.new affirming .greedy
    Schema.parse okText = .ok okSchema
      ∧ session.Obeys Tabulated.engine "x" okSchema
      ∧ (∃ later, writeJson Tabulated.engine "x" okSchema session
          = .ok "\x7b\"ok\":true\x7d" later)
      ∧ (∃ value, Json.parse "\x7b\"ok\":true\x7d" = .ok value
        ∧ (FieldType.object okSchema.fields).Accepts value)
      ∧ ∀ raw text reason later, generate Tabulated.engine Json.parse "x" okText session
        ≠ .error (.jsonDecoding raw text reason) later := by
  intro session
  have hschema : Schema.parse okText = .ok okSchema := by cbv
  have hobeys : session.Obeys Tabulated.engine "x" okSchema := by
    unfold Obeys
    decide +kernel
  have hrun : (writeJson Tabulated.engine "x" okSchema).run' session
      = some "\x7b\"ok\":true\x7d" := by
    decide +kernel
  obtain ⟨later, hwrite⟩ := run'_eq_some hrun
  have hvocab : session.vocab.InUse Tabulated.engine := .new _ _
  have hconforms := generate_conforms hvocab hschema "x"
  exact ⟨hschema, hobeys, ⟨later, hwrite⟩, (hconforms.1 hobeys).1 _ later hwrite,
    hconforms.2 hobeys⟩

end Session

end Parley
