import Parley.Proofs.Constrained.Numbers
import Parley.Proofs.Constrained.Strings
import Parley.Proofs.Schema.Reading

/-! # What is written conforms

    A value conforms to a type as `FieldType.Accepts` says, which does not mention tokens or texts.
    Whatever an obedient hand chooses, the text that is written for a type is read as a value that
    conforms to it: `Writer.writes_value`.  The proof follows the type; each kind of value has its
    law, and the laws of arrays and objects take those of the types inside as hypotheses.
-/

namespace Parley

open Step

/-! ## Section 1: Conformance -/

mutual

/-- **Conformance.**  An integer is a number that is read as one: it has no point and no exponent,
    and it is not a zero with a sign. -/
inductive FieldType.Accepts : FieldType → Json → Prop
  | text (value : String) : FieldType.Accepts (.string none) (.string value)
  | choice {allowed : List String} {value : String} (h : value ∈ allowed) :
    FieldType.Accepts (.string (some allowed)) (.string value)
  | integer {value : Int} (hlow : -2 ^ 63 ≤ value) (hhigh : value < 2 ^ 64) :
    FieldType.Accepts .integer (.number (.integer value))
  | number (value : Json.Number) : FieldType.Accepts .number (.number value)
  | boolean (value : Bool) : FieldType.Accepts .boolean (.bool value)
  | object {fields : List (Field FieldType)} {members : List (String × Json)}
    (hnames : (members.map Prod.fst).Nodup) (h : FieldsAccept fields members) :
    FieldType.Accepts (.object fields) (.object members)
  | array {type : FieldType} {items : List Json} (hsome : items ≠ []) (hfew : items.length ≤ 5)
    (h : ∀ item ∈ items, type.Accepts item) : FieldType.Accepts (.array type) (.array items)

/-- The members are those of the fields, in order: each has the name of its field and a value of its
    type, or the null if it may be missing. -/
inductive FieldsAccept : List (Field FieldType) → List (String × Json) → Prop
  | nil : FieldsAccept [] []
  | value {name : String} {type : FieldType} {required : Bool} {value : Json}
    {fields : List (Field FieldType)} {members : List (String × Json)} (hvalue : type.Accepts value)
    (h : FieldsAccept fields members) :
    FieldsAccept (⟨name, type, required⟩ :: fields) ((name, value) :: members)
  | missing {name : String} {type : FieldType} {fields : List (Field FieldType)}
    {members : List (String × Json)} (h : FieldsAccept fields members) :
    FieldsAccept (⟨name, type, false⟩ :: fields) ((name, .null) :: members)

end

/-- No type accepts the null, so a required member is never null. -/
theorem FieldType.not_accepts_null {type : FieldType} : ¬ type.Accepts .null := by
  intro h
  cases h

theorem FieldsAccept.names : ∀ {fields : List (Field FieldType)} {members : List (String × Json)},
    FieldsAccept fields members → members.map Prod.fst = fields.map (·.name)
  | _, _, .nil => rfl
  | _, _, .value _ h => congrArg (_ :: ·) h.names
  | _, _, .missing h => congrArg (_ :: ·) h.names

namespace Writer

variable {ε s : Type} {inv : s → Prop} {hand : Hand ε s} {palette : Palette} {spelling : Spelling}

/-- What was written is read as a value of the type, nested at most `depth` deep. -/
def Conforms (depth : Nat) (type : FieldType) (deed : Deed) : Prop :=
  ∃ value, Json.Reads depth deed.text value ∧ type.Accepts value

/-- What was written is the key of the field with a value behind it, which is of its type, or null
    if it may be missing. -/
def MemberConforms (depth : Nat) (field : Field FieldType) (deed : Deed) : Prop :=
  ∃ text value, deed.text = Json.keyText field.name ++ text ∧ Json.Reads depth text value
    ∧ (field.type.Accepts value ∨ field.required = false ∧ value = .null)

theorem MemberConforms.accept {depth : Nat} {field : Field FieldType} {deed : Deed}
    (h : MemberConforms depth field deed) :
    ∃ text value, deed.text = Json.keyText field.name ++ text ∧ Json.Reads depth text value
      ∧ ∀ {fields members}, FieldsAccept fields members →
        FieldsAccept (field :: fields) ((field.name, value) :: members) := by
  obtain ⟨name, type, required⟩ := field
  obtain ⟨text, value, htext, hreads, haccepts | ⟨hmissing, rfl⟩⟩ := h
  · exact ⟨text, value, htext, hreads, .value haccepts⟩
  · cases hmissing
    exact ⟨text, .null, htext, hreads, .missing⟩

section Laws

variable (hhand : hand.Spells inv spelling) (hpalette : palette.Spelled spelling)
include hhand hpalette

/-! ## Section 2: Texts, numbers and truth values -/

theorem writes_text (depth : Nat) :
    Writes inv (freeString hand.noted palette) fun _ deed =>
      Conforms depth (.string none) deed := by
  refine (writes_freeString hhand hpalette).mono ?_
  rintro _ deed ⟨body, htext, hbody⟩
  refine ⟨.string (String.ofList body), ?_, .text _⟩
  rw [htext]
  exact Json.reads_plain depth fun c hmem => isPlain_of_isStringChar (hbody c hmem)

theorem writes_choice (depth : Nat) {allowed : List String} (hsome : allowed ≠ [])
    (hplain : ∀ value ∈ allowed, Schema.needsEscaping value = false) :
    Writes inv (enumString hand.noted palette allowed) fun _ deed =>
      Conforms depth (.string (some allowed)) deed := by
  refine (writes_enumString hhand hpalette hsome).mono ?_
  rintro _ deed ⟨value, hvalue, htext⟩
  refine ⟨.string value, ?_, .choice hvalue⟩
  have hreads := Json.reads_plain depth (isPlain_of_needsEscaping (hplain value hvalue))
  rwa [String.ofList_toList, ← htext] at hreads

theorem writes_integer (depth : Nat) :
    Writes inv (number hand.noted palette false) fun _ deed => Conforms depth .integer deed := by
  refine (writes_number hhand hpalette false).mono ?_
  rintro _ deed ⟨written, hfits, htext⟩
  obtain ⟨hnone, hsign⟩ := hfits.integer rfl
  obtain ⟨value, hnumber, hlow, hhigh⟩ :=
    Json.Written.integer_number hfits.valid hnone hfits.length hsign
  exact ⟨_, htext ▸ Json.reads_number depth hfits.valid hnumber, .integer hlow hhigh⟩

theorem writes_real (depth : Nat) :
    Writes inv (number hand.noted palette true) fun _ deed => Conforms depth .number deed := by
  refine (writes_number hhand hpalette true).mono ?_
  rintro _ deed ⟨written, hfits, htext⟩
  have hlength : written.whole.length ≤ 288 := by
    have hwhole : written.whole.length ≤ written.text.length := by
      simp only [Json.Written.text, List.length_append]
      omega
    exact Nat.le_trans hwhole (Nat.le_trans hfits.length (by decide))
  obtain ⟨value, hnumber⟩ := Json.Written.number_isOk hlength
  exact ⟨_, htext ▸ Json.reads_number depth hfits.valid hnumber, .number value⟩

theorem writes_boolean (depth : Nat) :
    Writes inv (boolean hand.noted palette) fun _ deed => Conforms depth .boolean deed := by
  unfold boolean
  refine (writes_choose hhand _).bind fun chosen => ?_
  cases chosen with
  | none =>
    -- without a choice it is `false`
    refine (writes_literal hhand _).mono ?_
    rintro _ _ rfl _ ⟨rfl, -⟩
    exact ⟨_, Json.reads_false depth, .boolean false⟩
  | some token =>
    refine (writes_take hhand token).discard.mono ?_
    rintro _ _ ⟨piece, rfl, hread⟩ _ ⟨rfl, hmem⟩
    rcases Palette.mem_booleans.mp (hmem token rfl) with hyes | hno
    · have hpiece := hpalette.read palette.yes "true" (by simp [Palette.marks]) hyes hread
      subst hpiece
      exact ⟨_, Json.reads_true depth, .boolean true⟩
    · have hpiece := hpalette.read palette.no "false" (by simp [Palette.marks]) hno hread
      subst hpiece
      exact ⟨_, Json.reads_false depth, .boolean false⟩

/-! ## Section 3: Arrays -/

/-- The items of an array, with the bracket behind them. -/
theorem writes_items {depth : Nat} {type : FieldType} {item : WriterM ε (s × List Answer) Unit}
    (hitem : Writes inv item fun _ deed => Conforms depth type deed) (room : Nat) :
    Writes inv (items hand.noted palette item (room + 1)) fun _ deed =>
      ∃ values, Json.ItemsRead depth deed.text values ∧ values ≠ [] ∧ values.length ≤ room + 1
        ∧ ∀ value ∈ values, type.Accepts value := by
  -- a bracket behind the item ends the array
  have hlast : ∀ {room : Nat} {deed : Deed}, Conforms depth type deed →
      ∃ values, Json.ItemsRead depth (deed.text ++ [']']) values ∧ values ≠ []
        ∧ values.length ≤ room + 1 ∧ ∀ value ∈ values, type.Accepts value := by
    rintro room deed ⟨value, hreads, haccepts⟩
    exact ⟨[value], hreads.lastItem, List.cons_ne_nil _ _, by simp, by simpa using haccepts⟩
  induction room with
  | zero =>
    unfold items
    refine hitem.bind fun _ => writes_ite (fun _ => ?_) fun h => absurd rfl h
    refine (writes_literal hhand _).mono ?_
    rintro _ _ rfl deed hdeed
    exact hlast hdeed
  | succ room ih =>
    unfold items
    refine hitem.bind fun _ => writes_ite (fun h => absurd h (Nat.succ_ne_zero room)) fun _ => ?_
    refine (writes_choose hhand _).bind fun chosen => ?_
    cases chosen with
    | none =>
      refine (writes_literal hhand _).mono ?_
      rintro _ _ rfl _ ⟨rfl, -⟩ deed hdeed
      exact hlast hdeed
    | some token =>
      refine (writes_take hhand token).discard.bind fun _ => writes_ite (fun hcomma => ?_)
        fun hcomma => writes_pure ?_
      · -- a comma: the items that follow are written in the same way
        refine ih.mono ?_
        rintro _ deed ⟨values, hvalues, hsome, hfew, haccept⟩ _ ⟨piece, rfl, hread⟩ _ ⟨rfl, -⟩
          earlier ⟨value, hreads, haccepts⟩
        have hpiece := hpalette.read palette.comma "," (by simp [Palette.marks]) hcomma.symm hread
        subst hpiece
        refine ⟨value :: values, hreads.consItem hvalues, List.cons_ne_nil _ _, ?_, ?_⟩
        · rw [List.length_cons]
          omega
        · exact List.forall_mem_cons.mpr ⟨haccepts, haccept⟩
      · -- what is allowed and is not the comma is the bracket
        rintro _ ⟨piece, rfl, hread⟩ _ ⟨rfl, hmem⟩ earlier hearlier
        have hbracket := (Palette.mem_itemEnds.mp (hmem token rfl)).resolve_left
          fun hsame => hcomma hsame.symm
        have hpiece := hpalette.read palette.closeBracket "]" (by simp [Palette.marks]) hbracket
          hread
        subst hpiece
        exact hlast hearlier

/-! ## Section 4: Objects -/

/-- Only a null that was chosen is written. -/
theorem writes_chooseNull (type : FieldType) :
    Writes inv (chooseNull hand.noted palette type) fun isNull deed =>
      deed.text = if isNull then ['n', 'u', 'l', 'l'] else [] := by
  unfold chooseNull
  cases hnull : palette.null with
  | none => exact writes_pure rfl
  | some null =>
    refine (writes_choose hhand _).bind fun chosen => writes_ite (fun _ => ?_) fun _ => ?_
    · refine (writes_take hhand null).discard.bind fun _ => writes_pure ?_
      rintro _ ⟨piece, rfl, hread⟩ _ ⟨rfl, -⟩
      have hpiece := hpalette.read palette.null "null" (by simp [Palette.marks]) hnull hread
      subst hpiece
      rfl
    · refine writes_pure ?_
      rintro _ ⟨rfl, -⟩
      rfl

theorem writes_member {depth : Nat} {field : Field FieldType}
    (htype : Writes inv (value hand.noted palette field.type) fun _ deed =>
      Conforms depth field.type deed) :
    Writes inv (member hand.noted palette field) fun _ deed => MemberConforms depth field deed := by
  obtain ⟨name, type, required⟩ := field
  have hvalue : Writes inv (value hand.noted palette type) fun _ deed => ∀ key : Deed,
      key = { text := (Json.quote name ++ ":").toList } →
        MemberConforms depth ⟨name, type, required⟩ (key.andThen deed) := by
    refine htype.mono ?_
    rintro _ deed ⟨value, hreads, haccepts⟩ _ rfl
    refine ⟨deed.text, value, ?_, hreads, .inl haccepts⟩
    rw [Deed.andThen_text, Json.toList_quote_colon]
  unfold member
  refine (writes_literal hhand _).bind fun _ => writes_ite (fun _ => hvalue) fun hoptional => ?_
  refine (writes_chooseNull hhand hpalette type).bind fun isNull => ?_
  cases isNull with
  | true =>
    -- the null that was chosen is the value
    refine writes_pure ?_
    rintro null hnull _ rfl
    refine ⟨['n', 'u', 'l', 'l'], .null, ?_, Json.reads_null depth,
      .inr ⟨Bool.eq_false_iff.mpr hoptional, rfl⟩⟩
    rw [Deed.andThen_text, Deed.andThen_text, hnull, Json.toList_quote_colon]
    rfl
  | false =>
    -- the choice added no text, so the value stands right behind the key
    refine hvalue.mono ?_
    rintro _ deed hdeed probe hprobe key hkey
    obtain ⟨text, value, htext, hmember⟩ := hdeed key hkey
    refine ⟨text, value, ?_, hmember⟩
    rw [← htext, Deed.andThen_text, Deed.andThen_text, hprobe]
    rfl

/-- Members that follow others, with the brace behind them. -/
theorem writes_laterMembers {depth : Nat} (fields : List (Field FieldType))
    (htypes : ∀ field ∈ fields, Writes inv (value hand.noted palette field.type) fun _ deed =>
      Conforms depth field.type deed) :
    Writes inv (members hand.noted palette false fields) fun _ deed =>
      ∃ pairs, Json.TailReads depth (deed.text ++ ['}']) pairs ∧ FieldsAccept fields pairs := by
  induction fields with
  | nil =>
    unfold members
    exact writes_pure ⟨[], Json.tailReads_last depth, .nil⟩
  | cons field rest ih =>
    rw [List.forall_mem_cons] at htypes
    unfold members
    refine (writes_literal hhand _).bind fun _ => ?_
    refine (writes_member hhand hpalette htypes.1).bind fun _ => (ih htypes.2).mono ?_
    rintro _ deed ⟨pairs, hpairs, haccept⟩ earlier hmember _ rfl
    obtain ⟨text, value, htext, hreads, haccepts⟩ := hmember.accept
    refine ⟨_, ?_, haccepts haccept⟩
    have htail := (hreads.member field.name hpairs).tail
    simpa [htext] using htail

/-- All members, with the brace behind them. -/
theorem writes_members {depth : Nat} (fields : List (Field FieldType))
    (hnames : (fields.map (·.name)).Nodup)
    (htypes : ∀ field ∈ fields, Writes inv (value hand.noted palette field.type) fun _ deed =>
      Conforms depth field.type deed) :
    Writes inv (members hand.noted palette true fields) fun _ deed => ∃ pairs,
      Json.Reads (depth + 1) ('{' :: (deed.text ++ ['}'])) (.object pairs)
        ∧ FieldsAccept fields pairs := by
  cases fields with
  | nil =>
    unfold members
    exact writes_pure ⟨[], Json.reads_emptyObject depth, .nil⟩
  | cons field rest =>
    rw [List.forall_mem_cons] at htypes
    unfold members
    refine (writes_member hhand hpalette htypes.1).bind fun _ => ?_
    refine (writes_laterMembers hhand hpalette rest htypes.2).mono ?_
    rintro _ deed ⟨pairs, hpairs, haccept⟩ earlier hmember
    obtain ⟨text, value, htext, hreads, haccepts⟩ := hmember.accept
    refine ⟨_, ?_, haccepts haccept⟩
    have hobject := (hreads.member field.name hpairs).object (by
      rw [(haccepts haccept).names]
      exact hnames)
    simpa [htext] using hobject

/-! ## Section 5: Values -/

/-- **What is written conforms.**  For a type that can be written, an obedient hand writes a text
    that is read as a value of the type.  By induction on the type: the nesting of the text is that
    of the type. -/
theorem writes_value {depth : Nat} {type : FieldType} (h : type.Writable depth) :
    Writes inv (value hand.noted palette type) fun _ deed => Conforms depth type deed := by
  induction h with
  | text =>
    unfold value
    exact writes_text hhand hpalette _
  | choice hsome hplain =>
    unfold value
    exact writes_choice hhand hpalette _ hsome hplain
  | integer =>
    unfold value
    exact writes_integer hhand hpalette _
  | number =>
    unfold value
    exact writes_real hhand hpalette _
  | boolean =>
    unfold value
    exact writes_boolean hhand hpalette _
  | @object depth fields hnames _ ih =>
    unfold value
    refine (writes_literal hhand _).bind fun _ => ?_
    refine (writes_members hhand hpalette fields hnames ih).bind fun _ => ?_
    refine (writes_literal hhand _).mono ?_
    rintro _ _ rfl deed ⟨pairs, hreads, haccept⟩ _ rfl
    exact ⟨_, hreads, .object (by rwa [haccept.names]) haccept⟩
  | @array depth type _ ih =>
    unfold value
    refine (writes_literal hhand _).bind fun _ => (writes_items hhand hpalette ih 4).mono ?_
    rintro _ deed ⟨values, hvalues, hsome, hfew, haccept⟩ _ rfl
    exact ⟨_, hvalues.array, .array hsome hfew haccept⟩

end Laws

end Writer

end Parley
