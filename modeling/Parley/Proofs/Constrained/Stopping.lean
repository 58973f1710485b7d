import Parley.Proofs.Constrained.Generate

/-! # Stopping a structured generation

    A session looks at its request to stop where the model has to choose, and nowhere else while it
    writes: literal texts are fed without a look.  So a generation that was asked to stop in time
    succeeds only for a schema that leaves nothing to choose, `FieldType.isSettled`, and for such a
    schema it is written like any other: `Session.stopped_generation_iff`.
-/

namespace Parley

open Step

variable {ε s σ α : Type}

/-! ## Section 1: Schemas that leave nothing to choose -/

mutual

/-- Whether nothing is left to choose in a value of the type.  `nullable` says whether there is a
    token for the null, which makes every optional member a choice. -/
def FieldType.isSettled (nullable : Bool) : FieldType → Bool
  | .string (some allowed) => allowed.length ≤ 1
  | .object fields => fieldsSettled nullable fields
  | .string none | .integer | .number | .boolean | .array _ => false

/-- Whether nothing is left to choose in the members for the fields. -/
def fieldsSettled (nullable : Bool) : List (Field FieldType) → Bool
  | [] => true
  | field :: rest => fieldSettled nullable field && fieldsSettled nullable rest

/-- Whether nothing is left to choose in the member for the field. -/
def fieldSettled (nullable : Bool) : Field FieldType → Bool
  | ⟨_, type, required⟩ => (required || !nullable) && type.isSettled nullable

end

mutual

/-- The texts of which a value consists in which nothing is left to choose. -/
def FieldType.literals : FieldType → List String
  | .string (some allowed) => "\"" :: allowed.filter (· ≠ "") ++ ["\""]
  | .object fields => "\x7b" :: memberLiterals true fields ++ ["\x7d"]
  | .string none | .integer | .number | .boolean | .array _ => []

/-- The texts of the members for the fields; `first` says whether none comes before. -/
def memberLiterals (first : Bool) : List (Field FieldType) → List String
  | [] => []
  | field :: rest =>
    (if first then [] else [","]) ++ fieldLiterals field ++ memberLiterals false rest

/-- The texts of the member for the field. -/
def fieldLiterals : Field FieldType → List String
  | ⟨name, type, _⟩ => (Json.quote name ++ ":") :: type.literals

end

/-! ## Section 2: A hand that refuses to choose -/

/-- **A hand that refuses to choose.**  As long as `inv` holds it makes no choice, and whatever else
    it does keeps `inv`. -/
structure Hand.Refuses (hand : Hand ε s) (inv : s → Prop) : Prop where
  choose : ∀ allowed, Ensures inv (hand.choose allowed) fun _ => False
  accept : ∀ token, Ensures inv (hand.accept token) fun _ => True
  feed : ∀ text, Ensures inv (hand.feed text) fun _ => True
  piece : ∀ token, Ensures inv (hand.piece token) fun _ => True

namespace Writer

variable {hand : Hand ε s} {inv : s → Prop} {palette : Palette}

/-- If the step succeeds, the hand still satisfies `inv`, and `post` holds. -/
abbrev Allows (inv : s → Prop) (step : WriterM ε s α) (post : Prop) : Prop :=
  Ensures (fun draft => inv draft.hand) step fun _ => post

theorem ensures_onHand {step : EStateM ε s α} {post : α → Prop} (h : Ensures inv step post) :
    Ensures (fun draft => inv draft.hand) (onHand step) post := by
  intro draft value later hinv hstep
  unfold onHand at hstep
  cases hrun : step draft.hand with
  | ok result state =>
    rw [hrun] at hstep
    cases hstep
    exact h draft.hand value state hinv hrun
  | error error state =>
    rw [hrun] at hstep
    contradiction

theorem allows_append (text : String) : Allows (ε := ε) inv (append text) True := by
  intro draft value later hinv hstep
  cases hstep
  exact ⟨hinv, trivial⟩

theorem enumFuel_pos (values : List (List Char)) : 0 < enumFuel values := by
  cases values with
  | nil => exact Nat.one_pos
  | cons value rest => exact Nat.zero_lt_of_lt (length_lt_enumFuel List.mem_cons_self)

theorem allows_patience (hand : Hand ε s) (most : Nat) :
    Ensures (fun draft => inv draft.hand) (patience hand most) fun fuel => most ≤ fuel := by
  intro draft value later hinv hstep
  cases hstep
  exact ⟨hinv, Nat.le_add_right _ _⟩

section Refuses

variable (h : hand.Refuses inv)
include h

theorem allows_choose (allowed : TokenSet) : Allows inv (choose hand allowed) False :=
  ensures_onHand (h.choose allowed)

/-- Whatever begins with a choice fails. -/
theorem allows_choose_bind {β : Type} (allowed : TokenSet)
    (next : Option TokenId → WriterM ε s β) (post : Prop) :
    Allows inv (choose hand allowed >>= next) post :=
  (allows_choose h allowed).bind fun _ hfalse => hfalse.elim

theorem allows_literal (text : String) : Allows inv (literal hand text) True :=
  (ensures_onHand (h.feed text)).bind fun _ _ => allows_append text

theorem allows_literalIfAny (text : List Char) : Allows inv (literalIfAny hand text) True := by
  unfold literalIfAny
  by_cases hempty : text.isEmpty = true
  · rw [if_pos hempty]
    exact ensures_pure trivial
  · rw [if_neg hempty]
    exact allows_literal h _

theorem allows_continuing (remainders : List (List Char)) (tokens : List TokenId)
    (allowed : TokenSet) : Allows inv (continuing hand remainders tokens allowed) True := by
  induction tokens generalizing allowed with
  | nil => exact ensures_pure trivial
  | cons token rest ih => exact (ensures_onHand (h.piece token)).bind fun piece _ => ih _

theorem allows_freeString : Allows inv (freeString hand palette) False := by
  unfold freeString
  -- a string may have 128 tokens, so the first of them is a choice
  exact (allows_literal h _).bind fun _ _ =>
    (show Allows inv (stringBody hand palette 128 [] false) False from
      allows_choose_bind h _ _ _).bind fun _ hfalse => hfalse.elim

theorem allows_enumBody (values : List (List Char)) (fuel : Nat) :
    Allows inv (enumBody hand palette values (fuel + 1) []) (values.length ≤ 1) := by
  have hall : values.filterMap (Text.dropStart? []) = values := by
    show values.filterMap some = values
    exact List.filterMap_some
  unfold enumBody
  rw [hall]
  rcases values with _ | ⟨value, _ | ⟨second, rest⟩⟩
  · exact ensures_pure (Nat.zero_le 1)
  · exact (allows_literalIfAny h value).mono fun _ _ => Nat.le_refl 1
  · exact (allows_continuing h _ _ _).bind fun allowed _ => allows_choose_bind h _ _ _

theorem allows_enumString (allowed : List String) :
    Allows inv (enumString hand palette allowed) (allowed.length ≤ 1) := by
  unfold enumString
  refine (allows_literal h _).bind fun _ _ => (allows_patience hand _).bind fun fuel hfuel => ?_
  have hpos := Nat.lt_of_lt_of_le (enumFuel_pos (allowed.map String.toList)) hfuel
  obtain ⟨rest, hrest⟩ := Nat.exists_eq_add_one_of_ne_zero hpos.ne'
  subst hrest
  refine (allows_enumBody h _ rest).bind fun _ hfew => ?_
  rw [List.length_map] at hfew
  exact (allows_literal h _).mono fun _ _ => hfew

theorem allows_number (real : Bool) : Allows inv (number hand palette real) False := by
  unfold number
  refine (allows_patience hand _).bind fun fuel hfuel => ?_
  have hbody :
      Allows inv (numberBody hand palette real (if real then 32 else 19) fuel []) False := by
    cases fuel with
    | zero => cases real <;> simp [maxNumberChars, maxIntegerChars] at hfuel
    | succ fuel =>
      unfold numberBody
      -- nothing is written yet, so there is room
      have hroom : ¬ (if real then 32 else 19) ≤ Text.byteLength [] := by cases real <;> decide
      rw [if_neg hroom]
      exact allows_choose_bind h _ _ _
  exact hbody.bind fun _ hfalse => hfalse.elim

theorem allows_chooseNull (type : FieldType) :
    Ensures (fun draft => inv draft.hand) (chooseNull hand palette type) fun isNull =>
      isNull = false ∧ palette.null.isSome = false := by
  unfold chooseNull
  cases palette.null with
  | none => exact ensures_pure ⟨rfl, rfl⟩
  | some null => exact (allows_choose h _).bind fun _ hfalse => hfalse.elim

/-- An array has a choice behind its first item. -/
theorem allows_items {item : WriterM ε s Unit} {post : Prop} (hitem : Allows inv item post) :
    Allows inv (items hand palette item 5) False := by
  unfold items
  exact hitem.bind fun _ _ => allows_choose_bind h _ _ _

mutual

theorem allows_value : (type : FieldType) →
    Allows inv (value hand palette type) (type.isSettled palette.null.isSome = true)
  | .string none => by
    unfold value
    exact (allows_freeString h).mono fun _ hfalse => hfalse.elim
  | .string (some allowed) => by
    unfold value FieldType.isSettled
    exact (allows_enumString h allowed).mono fun _ hfew => decide_eq_true hfew
  | .integer => by
    unfold value
    exact (allows_number h false).mono fun _ hfalse => hfalse.elim
  | .number => by
    unfold value
    exact (allows_number h true).mono fun _ hfalse => hfalse.elim
  | .boolean => by
    unfold value
    exact allows_choose_bind h _ _ _
  | .object fields => by
    unfold value FieldType.isSettled
    refine (allows_literal h _).bind fun _ _ => ?_
    refine (allows_members true fields).bind fun _ hsettled => ?_
    exact (allows_literal h _).mono fun _ _ => hsettled
  | .array type => by
    unfold value
    refine (allows_literal h _).bind fun _ _ => ?_
    exact (allows_items h (allows_value type)).mono fun _ hfalse => hfalse.elim

theorem allows_members (first : Bool) : (fields : List (Field FieldType)) →
    Allows inv (members hand palette first fields)
      (fieldsSettled palette.null.isSome fields = true)
  | [] => by
    unfold members fieldsSettled
    exact ensures_pure rfl
  | field :: rest => by
    have hrest : Allows inv
        (member hand palette field >>= fun _ => members hand palette false rest)
        (fieldsSettled palette.null.isSome (field :: rest) = true) := by
      refine (allows_member field).bind fun _ hfield => ?_
      refine (allows_members false rest).mono fun _ hlater => ?_
      unfold fieldsSettled
      rw [hfield, hlater]
      rfl
    unfold members
    cases first with
    | true => exact hrest
    | false => exact (allows_literal h _).bind fun _ _ => hrest

theorem allows_member : (field : Field FieldType) →
    Allows inv (member hand palette field) (fieldSettled palette.null.isSome field = true)
  | ⟨name, type, required⟩ => by
    unfold member fieldSettled
    refine (allows_literal h _).bind fun _ _ => ?_
    cases required with
    | true =>
      exact (allows_value type).mono fun _ hsettled => by rw [hsettled]; rfl
    | false =>
      refine (allows_chooseNull h type).bind fun isNull hnull => ?_
      rw [hnull.1]
      exact (allows_value type).mono fun _ hsettled => by rw [hsettled, hnull.2]; rfl

end

end Refuses

/-! ## Section 3: Literal texts -/

/-- Writes literal texts, one behind the other. -/
def literals (hand : Hand ε s) (texts : List String) : WriterM ε s Unit := texts.forM (literal hand)

theorem literals_append (texts more : List String) :
    literals hand (texts ++ more) = literals hand texts >>= fun _ => literals hand more :=
  List.forM_append

theorem literals_cons (text : String) (texts : List String) :
    literals hand (text :: texts) = literal hand text >>= fun _ => literals hand texts :=
  List.forM_cons

theorem literals_singleton (text : String) : literals hand [text] = literal hand text := by
  rw [literals_cons]
  exact bind_pure_unit

/-- What does not depend on the patience needs none. -/
theorem patience_bind {β : Type} {most : Nat} {next : Nat → WriterM ε s β} {step : WriterM ε s β}
    (h : ∀ fuel, most ≤ fuel → next fuel = step) : patience hand most >>= next = step := by
  funext draft
  show next (most + hand.room draft.hand) draft = step draft
  rw [h _ (Nat.le_add_right _ _)]

theorem literalIfAny_toList (value : String) :
    literalIfAny hand value.toList = literals hand ([value].filter (· ≠ "")) := by
  unfold literalIfAny
  by_cases hempty : value = ""
  · subst hempty
    rfl
  · have hsome : ¬ value.toList.isEmpty = true := by simpa using hempty
    rw [if_neg hsome, String.ofList_toList]
    simp [hempty, literals_singleton]

theorem enumBody_settled {allowed : List String} (hfew : allowed.length ≤ 1) (fuel : Nat) :
    enumBody hand palette (allowed.map String.toList) (fuel + 1) []
      = literals hand (allowed.filter (· ≠ "")) := by
  match allowed with
  | [] => rfl
  | [value] =>
    show literalIfAny hand value.toList = _
    exact literalIfAny_toList value
  | first :: second :: rest => simp at hfew

theorem enumString_settled {allowed : List String} (hfew : allowed.length ≤ 1) :
    enumString hand palette allowed = literals hand (FieldType.string (some allowed)).literals := by
  unfold enumString FieldType.literals
  rw [List.cons_append, literals_cons, literals_append, literals_singleton]
  refine bind_congr fun _ => patience_bind fun fuel hfuel => ?_
  have hpos := Nat.lt_of_lt_of_le (enumFuel_pos (allowed.map String.toList)) hfuel
  obtain ⟨rest, hrest⟩ := Nat.exists_eq_add_one_of_ne_zero hpos.ne'
  rw [hrest, enumBody_settled hfew]

mutual

/-- A value in which nothing is left to choose is written literally. -/
theorem value_settled : {type : FieldType} → type.isSettled palette.null.isSome = true →
    value hand palette type = literals hand type.literals
  | .string (some allowed), h => by
    unfold FieldType.isSettled at h
    unfold value
    exact enumString_settled (of_decide_eq_true h)
  | .object fields, h => by
    unfold FieldType.isSettled at h
    unfold value FieldType.literals
    rw [List.cons_append, literals_cons, literals_append, literals_singleton,
      members_settled true h]
  | .string none, h | .integer, h | .number, h | .boolean, h | .array _, h => by
    simp [FieldType.isSettled] at h

theorem members_settled (first : Bool) : {fields : List (Field FieldType)} →
    fieldsSettled palette.null.isSome fields = true →
    members hand palette first fields = literals hand (memberLiterals first fields)
  | [], _ => by
    unfold members memberLiterals
    rfl
  | field :: rest, h => by
    unfold fieldsSettled at h
    rw [Bool.and_eq_true] at h
    unfold members memberLiterals
    rw [member_settled h.1, members_settled false h.2]
    cases first with
    | true => exact (literals_append _ _).symm
    | false =>
      show (literal hand "," >>= fun _ => literals hand _ >>= fun _ => literals hand _)
        = literals hand ([","] ++ fieldLiterals field ++ memberLiterals false rest)
      rw [List.append_assoc, literals_append, literals_append, literals_singleton]

theorem member_settled : {field : Field FieldType} →
    fieldSettled palette.null.isSome field = true →
    member hand palette field = literals hand (fieldLiterals field)
  | ⟨name, type, required⟩, h => by
    unfold fieldSettled at h
    rw [Bool.and_eq_true] at h
    obtain ⟨hnull, htype⟩ := h
    unfold member fieldLiterals
    rw [literals_cons, ← value_settled htype]
    refine bind_congr fun _ => ?_
    cases required with
    | true => rfl
    | false =>
      -- without a token for the null a member is not null
      have hnone : palette.null = none := by simpa using hnull
      unfold chooseNull
      rw [hnone]
      rfl

end

theorem mirrors_literals (texts : List String) (draft : Draft s) :
    Mirrors Draft.hand (texts.forM hand.feed) (literals hand texts) draft := by
  induction texts generalizing draft with
  | nil => rfl
  | cons text rest ih =>
    have hfirst : Mirrors Draft.hand (hand.feed text) (literal hand text) draft := by
      unfold Mirrors literal
      cases hfeed : hand.feed text draft.hand with
      | ok _ state =>
        have hhand : onHand (hand.feed text) draft = .ok () { draft with hand := state } := by
          unfold onHand
          rw [hfeed]
        rw [bind_ok hhand]
        rfl
      | error error state =>
        have hhand : onHand (hand.feed text) draft = .error error { draft with hand := state } := by
          unfold onHand
          rw [hfeed]
        rw [bind_error hhand]
        rfl
    rw [literals_cons]
    exact hfirst.bind fun _ draft => ih draft

theorem text_literal {text : String} {draft later : Draft s}
    (hstep : literal hand text draft = .ok () later) : later.text = draft.text ++ text := by
  unfold literal at hstep
  obtain ⟨_, middle, hfeed, happend⟩ := bind_eq_ok hstep
  cases happend
  have htext : middle.text = draft.text := by
    unfold onHand at hfeed
    cases hrun : hand.feed text draft.hand <;> rw [hrun] at hfeed <;> cases hfeed
    rfl
  show middle.text ++ text = _
  rw [htext]

theorem text_literals {texts : List String} {draft later : Draft s}
    (hstep : literals hand texts draft = .ok () later) :
    later.text = draft.text ++ String.join texts := by
  induction texts generalizing draft with
  | nil =>
    cases hstep
    simp
  | cons text rest ih =>
    rw [literals_cons] at hstep
    obtain ⟨_, middle, hfirst, hrest⟩ := bind_eq_ok hstep
    rw [ih hrest, text_literal hfirst, String.join_cons, String.append_assoc]

end Writer

/-! ## Section 4: Stopped sessions -/

namespace Session

variable {engine : Engine σ}

theorem sampleConstrained_of_stopped {session : Session σ} (hstopped : session.isStopped = true)
    (allowed : TokenSet) : sampleConstrained allowed session = .error .stopped session := by
  unfold sampleConstrained
  rw [get_bind, if_pos hstopped]
  rfl

/-- **The hand of a stopped session refuses to choose.** -/
theorem hand_refuses (engine : Engine σ) :
    (hand engine).Refuses fun session => session.isStopped = true := by
  have hlasting := enduring_staysStopped engine
  have hkeeps : ∀ {α : Type} {step : SessionM σ α},
      (∀ session, Keeps StaysStopped step session) →
      Ensures (fun session => session.isStopped = true) (forGeneration step) fun _ => True :=
    fun h => ensures_forGeneration (Keeps.ensures (fun hstays => hstays) h)
  constructor
  · intro allowed
    refine ensures_forGeneration fun session value later hstopped hstep => ?_
    rw [sampleConstrained_of_stopped hstopped] at hstep
    contradiction
  · intro token
    exact hkeeps fun _ => hlasting.keeps_accept token
  · intro text
    exact hkeeps fun _ => (hlasting.keeps_feedText text).discard
  · intro token
    exact hkeeps fun session => hlasting.piece token session

/-- A stop that was requested before the context is primed stands when it is. -/
theorem keeps_primed (engine : Engine σ) (prompt : String) (session : Session σ) :
    Keeps StaysStopped (primed engine prompt) session := by
  have hlasting := enduring_staysStopped engine
  have hlearn : ∀ session, Keeps StaysStopped (onVocab (Palette.learn engine)) session :=
    fun session => keeps_onVocab
      (Palette.keeps_learn (Vocabulary.lasting_stopped engine) session.vocab)
  unfold primed
  refine (hlearn session).adaptExcept.bind hlasting.trans fun palette session => ?_
  refine hlasting.keeps_resetContext.adaptExcept.bind hlasting.trans fun _ session => ?_
  refine (hlasting.keeps_prepareContext prompt).adaptExcept.discard.bind hlasting.trans ?_
  exact fun _ session => hlasting.refl session

/-! ## Section 5: Stopped generations -/

/-- Feeds texts into the context, one behind the other. -/
def feedAll (engine : Engine σ) (texts : List String) : GenerationM σ Unit :=
  texts.forM (hand engine).feed

/-- An object in which nothing is left to choose is written by feeding its texts. -/
theorem writeObject_settled {palette : Palette} {schema : Schema}
    (hsettled : (FieldType.object schema.fields).isSettled palette.null.isSome = true)
    {session later : Session σ} {raw : String} :
    writeObject engine palette schema session = .ok raw later ↔
      raw = String.join (FieldType.object schema.fields).literals
        ∧ feedAll engine (FieldType.object schema.fields).literals session = .ok () later := by
  have hfeed : feedAll engine (FieldType.object schema.fields).literals session
      = outcome Draft.hand (Writer.literals (hand engine) _ { hand := session }) :=
    Writer.mirrors_literals _ { hand := session }
  have hobject : Writer.object (hand engine) palette schema = Writer.literals (hand engine) _ :=
    Writer.value_settled hsettled
  unfold writeObject
  rw [hobject, hfeed]
  cases hstep : Writer.literals (hand engine) (FieldType.object schema.fields).literals
      { hand := session } with
  | ok _ draft =>
    have htext := Writer.text_literals hstep
    rw [String.empty_append] at htext
    constructor
    · intro h
      cases h
      exact ⟨htext, rfl⟩
    · intro h
      obtain ⟨hraw, hlater⟩ := h
      cases hlater
      rw [hraw, ← htext]
  | error error draft => simp [outcome]

/-- A stopped session writes only what leaves nothing to choose. -/
theorem settled_of_writeObject {palette : Palette} {schema : Schema} {session later : Session σ}
    {raw : String} (hstopped : session.isStopped = true)
    (hstep : writeObject engine palette schema session = .ok raw later) :
    (FieldType.object schema.fields).isSettled palette.null.isSome = true := by
  unfold writeObject at hstep
  cases hwrite : Writer.object (hand engine) palette schema { hand := session } with
  | ok _ draft =>
    exact (Writer.allows_value (hand_refuses engine) _ { hand := session } _ draft hstopped
      hwrite).2
  | error error draft =>
    rw [hwrite] at hstep
    contradiction

theorem generateArmed_eq_ok {read : String → Except Json.Error α} {prompt schemaText raw : String}
    {value : α} {session later : Session σ} :
    generateArmed engine read prompt schemaText session = .ok (value, raw) later ↔
      ∃ schema palette ready, Schema.parse schemaText = .ok schema
        ∧ primed engine prompt session = .ok palette ready
        ∧ writeObject engine palette schema ready = .ok raw later ∧ read raw = .ok value := by
  constructor
  · intro hstep
    cases hschema : Schema.parse schemaText with
    | error error =>
      unfold generateArmed at hstep
      rw [hschema] at hstep
      contradiction
    | ok schema =>
      rw [generateArmed_eq hschema, writeJson_eq] at hstep
      obtain ⟨written, last, hwrite, hread⟩ := bind_eq_ok hstep
      obtain ⟨palette, ready, hprimed, hwrite⟩ := bind_eq_ok hwrite
      cases hvalue : read written with
      | error error =>
        rw [hvalue] at hread
        contradiction
      | ok result =>
        rw [hvalue] at hread
        cases hread
        exact ⟨schema, palette, ready, rfl, hprimed, hwrite, hvalue⟩
  · intro h
    obtain ⟨schema, palette, ready, hschema, hprimed, hwrite, hread⟩ := h
    rw [generateArmed_eq hschema, writeJson_eq]
    have hwritten : (primed engine prompt >>= fun palette => writeObject engine palette schema)
        session = .ok raw later := by
      rw [bind_ok hprimed, hwrite]
    rw [bind_ok hwritten, hread]
    rfl

/-- **What a stop does to a structured generation.**  If a stop was requested when the generation
    begins, or is requested before the context is primed, then the generation succeeds exactly if
    the schema leaves nothing to choose, the texts of its object are fed, and what they spell is
    read. -/
theorem stopped_generation_iff {session : Session σ} {prompt : String}
    (hstopped : session.isStopped = true
      ∨ (after (primed engine prompt) session).isStopped = true)
    {read : String → Except Json.Error α} {schemaText raw : String} {value : α}
    {later : Session σ} :
    generateArmed engine read prompt schemaText session = .ok (value, raw) later ↔
      ∃ schema palette ready, Schema.parse schemaText = .ok schema
        ∧ primed engine prompt session = .ok palette ready
        ∧ (FieldType.object schema.fields).isSettled palette.null.isSome = true
        ∧ feedAll engine (FieldType.object schema.fields).literals ready = .ok () later
        ∧ raw = String.join (FieldType.object schema.fields).literals
        ∧ read raw = .ok value := by
  -- the stop stands when the first literal text is fed
  have hready : (after (primed engine prompt) session).isStopped = true :=
    hstopped.elim (keeps_primed engine prompt session) id
  rw [generateArmed_eq_ok]
  constructor
  · intro h
    obtain ⟨schema, palette, ready, hschema, hprimed, hwrite, hread⟩ := h
    rw [after_ok hprimed] at hready
    have hsettled := settled_of_writeObject hready hwrite
    obtain ⟨hraw, hfeed⟩ := (writeObject_settled hsettled).mp hwrite
    exact ⟨schema, palette, ready, hschema, hprimed, hsettled, hfeed, hraw, hread⟩
  · intro h
    obtain ⟨schema, palette, ready, hschema, hprimed, hsettled, hfeed, hraw, hread⟩ := h
    have hwrite : writeObject engine palette schema ready = .ok raw later :=
      (writeObject_settled hsettled).mpr ⟨hraw, hfeed⟩
    exact ⟨schema, palette, ready, hschema, hprimed, hwrite, hread⟩

/-- A schema whose only field has only one value. -/
def settledSchema : Schema where
  fields := [⟨"ok", .string (some ["ok"]), true⟩]

/-- The text of the schema. -/
def settledText : String :=
  "\x7b\"properties\":\x7b\"ok\":\x7b\"enum\":[\"ok\"]\x7d\x7d,\"required\":[\"ok\"]\x7d"

/-- The only object of the schema, and its text. -/
def settledValue : Json := .object [("ok", .string "ok")]

def settledObject : String := "\x7b\"ok\":\"ok\"\x7d"

theorem parse_settledText : Schema.parse settledText = .ok settledSchema := by cbv

theorem parse_settledObject : Json.parse settledObject = .ok settledValue := by cbv

/-- A stopped session still writes an object without choices, and does not begin one with a
    choice. -/
theorem stopped_generation_ok :
    let session := (Session.new affirming .greedy).stop
    session.isStopped = true
      ∧ (∃ later, generateArmed Tabulated.engine Json.parse "x" settledText session
        = .ok (settledValue, settledObject) later)
      ∧ ∀ value raw later, generateArmed Tabulated.engine Json.parse "x" okText session
        ≠ .ok (value, raw) later := by
  intro session
  have hstopped : session.isStopped = true := rfl
  have hrun : (primed Tabulated.engine "x" >>= fun _ => feedAll Tabulated.engine
      (FieldType.object settledSchema.fields).literals).run' session = some () := by
    decide +kernel
  obtain ⟨later, hrun⟩ := run'_eq_some hrun
  obtain ⟨palette, ready, hprimed, hfeed⟩ := bind_eq_ok hrun
  have hsucceeds : generateArmed Tabulated.engine Json.parse "x" settledText session
      = .ok (settledValue, settledObject) later :=
    (stopped_generation_iff (.inl hstopped)).mpr
      ⟨settledSchema, palette, ready, parse_settledText, hprimed, rfl, hfeed, by decide +kernel,
        parse_settledObject⟩
  refine ⟨hstopped, ⟨later, hsucceeds⟩, ?_⟩
  intro value raw last hstep
  obtain ⟨schema, palette, ready, hschema, -, hsettled, -⟩ :=
    (stopped_generation_iff (.inl hstopped)).mp hstep
  rw [show Schema.parse okText = .ok okSchema by cbv] at hschema
  cases hschema
  simp [okSchema, FieldType.isSettled, fieldsSettled, fieldSettled] at hsettled

/-- The engine of tables, which is asked to stop while it empties its context. -/
def stoppingEngine : Engine Tabulated :=
  { Tabulated.engine with clear := fun table => { Tabulated.engine.clear table with stop := true } }

/-- **A stop does not cancel every structured generation**: one that leaves nothing to choose
    succeeds, be the stop requested before it or while the context is emptied. -/
theorem stop_not_heeded :
    let session := Session.new affirming .greedy
    session.stop.isStopped = true
      ∧ (∃ later, generateArmed Tabulated.engine Json.parse "x" settledText session.stop
        = .ok (settledValue, settledObject) later)
      ∧ session.isStopped = false
      ∧ (after (primed stoppingEngine "x") session).isStopped = true
      ∧ ∃ later, generateArmed stoppingEngine Json.parse "x" settledText session
        = .ok (settledValue, settledObject) later := by
  intro session
  have hread : ∀ {engine : Engine Tabulated} {session later : Session Tabulated},
      writeJson engine "x" settledSchema session = .ok settledObject later →
      ∃ later, generateArmed engine Json.parse "x" settledText session
        = .ok (settledValue, settledObject) later := by
    intro engine session later hwrite
    refine ⟨later, ?_⟩
    rw [generateArmed_eq parse_settledText, bind_ok hwrite, parse_settledObject]
    rfl
  have hbefore : (writeJson Tabulated.engine "x" settledSchema).run' session.stop
      = some settledObject := by
    decide +kernel
  have hmeanwhile : (writeJson stoppingEngine "x" settledSchema).run' session
      = some settledObject := by
    decide +kernel
  obtain ⟨_, hbefore⟩ := run'_eq_some hbefore
  obtain ⟨_, hmeanwhile⟩ := run'_eq_some hmeanwhile
  exact ⟨rfl, hread hbefore, rfl, by decide +kernel, hread hmeanwhile⟩

end Session

end Parley
