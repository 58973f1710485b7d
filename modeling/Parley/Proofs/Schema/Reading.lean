import Parley.Proofs.Schema.Levels

/-! # Schemas that can be written

    A schema is not only a list of fields: the reader sees to it that the names of a level are
    distinct, that a list of allowed texts is not empty and needs no escapes, and that nothing is
    nested deeper than the text of the schema, which is the depth that the parser allows:
    `FieldType.Writable`.
-/

namespace Parley

/-! ## Section 1: Nesting -/

/-- Arrays and objects are nested at most `depth` deep in the value. -/
inductive Json.Within : (depth : Nat) → Json → Prop
  | null {depth : Nat} : Within depth .null
  | bool {depth : Nat} (value : Bool) : Within depth (.bool value)
  | number {depth : Nat} (value : Json.Number) : Within depth (.number value)
  | string {depth : Nat} (text : String) : Within depth (.string text)
  | array {depth : Nat} {items : List Json} (h : ∀ item ∈ items, Within depth item) :
    Within (depth + 1) (.array items)
  | object {depth : Nat} {members : List (String × Json)}
    (h : ∀ member ∈ members, Within depth member.2) : Within (depth + 1) (.object members)

theorem Json.Within.succ {depth : Nat} {value : Json} (h : value.Within depth) :
    value.Within (depth + 1) := by
  induction h with
  | null => exact .null
  | bool value => exact .bool value
  | number value => exact .number value
  | string text => exact .string text
  | array _ ih => exact .array ih
  | object _ ih => exact .object ih

namespace Json

theorem mem_bind {key : String} {value : Json} {member : String × Json} :
    ∀ {members : List (String × Json)}, member ∈ bind key value members →
      member.2 = value ∨ member ∈ members
  | [], h => by
    rw [bind, List.mem_singleton] at h
    exact .inl (h ▸ rfl)
  | (name, old) :: rest, h => by
    rw [bind] at h
    split at h
    · rcases List.mem_cons.mp h with rfl | hrest
      · exact .inl rfl
      · exact .inr (List.mem_cons_of_mem _ hrest)
    · rcases List.mem_cons.mp h with rfl | hrest
      · exact .inr List.mem_cons_self
      · exact (mem_bind hrest).imp_right (List.mem_cons_of_mem _)

open Step

mutual

theorem within_of_valueWithin : (form : Form) → ∀ {depth : Nat} {value : Json},
    form.valueWithin depth = .ok value → value.Within depth
  | .null, _, _, h => by
    cases h
    exact .null
  | .bool _, _, _, h => by
    cases h
    exact .bool _
  | .number numeral, _, _, h => by
    obtain ⟨number, -, rfl⟩ := except_map_eq_ok h
    exact .number number
  | .string glyphs, _, _, h => by
    obtain ⟨text, -, rfl⟩ := except_map_eq_ok h
    exact .string text
  | .array items, depth, _, h => by
    rw [Form.valueWithin] at h
    cases depth with
    | zero => contradiction
    | succ depth =>
      obtain ⟨values, hvalues, rfl⟩ := except_map_eq_ok h
      exact .array (within_of_itemsWithin items hvalues)
  | .object members, depth, _, h => by
    rw [Form.valueWithin] at h
    cases depth with
    | zero => contradiction
    | succ depth =>
      obtain ⟨pairs, hpairs, rfl⟩ := except_map_eq_ok h
      exact .object (within_of_membersWithin members hpairs fun _ h => nomatch h)

theorem within_of_itemsWithin : (items : List Form) → ∀ {depth : Nat} {values : List Json},
    Form.itemsWithin depth items = .ok values → ∀ value ∈ values, value.Within depth
  | [], _, _, h => by
    cases h
    exact fun _ h => nomatch h
  | item :: rest, _, _, h => by
    rw [Form.itemsWithin] at h
    obtain ⟨first, hfirst, h⟩ := except_bind_eq_ok h
    obtain ⟨others, hothers, h⟩ := except_bind_eq_ok h
    cases h
    exact List.forall_mem_cons.mpr
      ⟨within_of_valueWithin item hfirst, within_of_itemsWithin rest hothers⟩

theorem within_of_membersWithin : (members : List (List Glyph × Form)) →
    ∀ {depth : Nat} {before pairs : List (String × Json)},
      Form.membersWithin depth before members = .ok pairs →
        (∀ pair ∈ before, pair.2.Within depth) → ∀ pair ∈ pairs, pair.2.Within depth
  | [], _, _, _, h => by
    cases h
    exact id
  | (key, form) :: rest, _, before, _, h => by
    intro hbefore
    rw [Form.membersWithin] at h
    obtain ⟨name, -, h⟩ := except_bind_eq_ok h
    obtain ⟨value, hvalue, h⟩ := except_bind_eq_ok h
    -- a key that comes again takes the place of the earlier one, so pairs are new or stood before
    refine within_of_membersWithin rest h fun pair hpair => ?_
    rcases mem_bind hpair with hnew | hprev
    · exact hnew ▸ within_of_valueWithin form hvalue
    · exact hbefore pair hprev

end

end Json

/-! ## Section 2: What can be written -/

/-- **What can be written.**  The names of an object are distinct, a list of allowed texts is not
    empty and needs no escapes, and objects and arrays are nested at most `depth` deep. -/
inductive FieldType.Writable : (depth : Nat) → FieldType → Prop
  | text {depth : Nat} : Writable depth (.string none)
  | choice {depth : Nat} {values : List String} (hsome : values ≠ [])
    (hplain : ∀ value ∈ values, Schema.needsEscaping value = false) :
    Writable depth (.string (some values))
  | integer {depth : Nat} : Writable depth .integer
  | number {depth : Nat} : Writable depth .number
  | boolean {depth : Nat} : Writable depth .boolean
  | object {depth : Nat} {fields : List (Field FieldType)}
    (hnames : (fields.map (·.name)).Nodup)
    (htypes : ∀ field ∈ fields, field.type.Writable depth) : Writable (depth + 1) (.object fields)
  | array {depth : Nat} {type : FieldType} (h : type.Writable depth) :
    Writable (depth + 1) (.array type)

namespace Schema

open Step

theorem within_of_lookup? {depth : Nat} {key : String} {members : Members} {value : Json}
    (h : ∀ member ∈ members, member.2.Within depth)
    (hlookup : Json.lookup? key members = some value) : value.Within depth := by
  induction members with
  | nil => contradiction
  | cons member rest ih =>
    rw [List.forall_mem_cons] at h
    rw [Json.lookup?] at hlookup
    split at hlookup
    · cases hlookup
      exact h.1
    · exact ih h.2 hlookup

/-! ## Section 3: The recursion

    The types are followed down the nesting of the JSON value: a type of a level comes from a value
    that is nested one level deeper, so it is itself nested no deeper than that value. -/

mutual

theorem Entry.writable : ∀ {value : Json} {type : FieldType}, Entry value type →
    ∀ {depth : Nat}, value.Within depth → type.Writable depth
  | _, _, .text .., _, _ => .text
  | _, _, .choice _ _ hsome hplain, _, _ => by
    obtain ⟨first, hfirst⟩ := List.exists_mem_of_ne_nil _ hsome
    refine .choice (List.ne_nil_of_mem (List.mem_eraseDups.mpr hfirst)) fun value hvalue => ?_
    exact hplain value (List.mem_eraseDups.mp hvalue)
  | _, _, .integer _, _, _ => .integer
  | _, _, .number _, _, _ => .number
  | _, _, .boolean _, _, _ => .boolean
  | _, _, .object _ hlevel, _, .object hmembers => hlevel.writable hmembers
  | _, _, .texts .., _, .object _ => .array .text
  | _, _, .array _ hitems hentry, _, .object hmembers =>
    .array (hentry.writable (within_of_lookup? hmembers hitems))

theorem Level.writable : ∀ {members : Members} {fields : List (Field FieldType)},
    Level members fields → ∀ {depth : Nat}, (∀ member ∈ members, member.2.Within depth) →
      FieldType.Writable (depth + 1) (.object fields)
  | _, _, .bare _, _, _ => .object List.nodup_nil fun _ h => nomatch h
  | _, _, .fields hproperties _ _ hnames _ hentries, _, hmembers => by
    refine .object hnames.nodup fun field hfield => ?_
    obtain ⟨value, hvalue⟩ := mem_keys_iff.mp <|
      (hnames.mem_iff field.name).mp (List.mem_map_of_mem hfield)
    cases within_of_lookup? hmembers hproperties with
    | object hwithin =>
      exact (hentries field hfield value hvalue).writable (within_of_lookup? hwithin hvalue).succ

end

/-- **Schemas can be written.**  The object of a schema that was read from a text is nested no
    deeper than the parser allows. -/
theorem parse_writable {text : String} {schema : Schema} (h : parse text = .ok schema) :
    FieldType.Writable Json.maxDepth (.object schema.fields) := by
  unfold parse at h
  split at h
  · contradiction
  · rename_i value hvalue
    obtain ⟨form, -, hform⟩ := except_bind_eq_ok hvalue
    have hwithin : value.Within (126 + 1) := Json.within_of_valueWithin form hform
    obtain ⟨members, rfl, -, hlevel⟩ := ofJson_eq_ok_iff.mp h
    cases hwithin with
    | object hmembers => exact hlevel.writable hmembers

end Schema

end Parley
