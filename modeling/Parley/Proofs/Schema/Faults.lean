import Parley.Proofs.Schema.Levels

/-! # What a schema may not be

    The reader follows properties and items from the root on, and refuses a value as soon as
    something is wrong at a place that it comes to (`Faulty`).  Here this is a consequence of what is
    accepted: from a level or an entry that can be read only readable ones are reached
    (`Reached.sound`), and where something is wrong nothing can be read (`Faulty.not_sound`).

    The main statement, `ofJson_levels`, puts the two together: the reader accepts exactly the values
    that stand for a schema, with that schema as the result, and refuses those with a fault. -/

namespace Parley

namespace Schema

/-! ## Section 1: Places and faults -/

/-- The kinds that there are. -/
def kinds : List String := ["string", "integer", "number", "boolean", "object", "array"]

/-- A place in a schema: an entry, or the members of an object whose fields are read. -/
inductive Spot
  | entry (value : Json)
  | level (members : Members)

/-- The places that are reached from the root, through properties and items. -/
inductive Reached (root : Members) : Spot → Prop
  | root : Reached root (.level root)
  | property {members properties : Members} {name : String} {value : Json}
    (h : Reached root (.level members))
    (hproperties : Json.lookup? "properties" members = some (.object properties))
    (hvalue : Json.lookup? name properties = some value) : Reached root (.entry value)
  | object {members : Members} (h : Reached root (.entry (.object members)))
    (hkind : HasKind members "object") : Reached root (.level members)
  | items {members : Members} {items : Json} (h : Reached root (.entry (.object members)))
    (hkind : HasKind members "array") (hitems : Json.lookup? "items" members = some items) :
    Reached root (.entry items)

/-- **What is wrong at a place.**  The lists of names of a level are looked at only where it has
    properties that they could name. -/
inductive Faulty : Spot → Prop
  | notObject {value : Json} (h : ∀ members, value ≠ .object members) : Faulty (.entry value)
  | typeKind {members : Members} {found : Json} (h : Json.lookup? "type" members = some found)
    (htext : ∀ name, found ≠ .string name) (hlist : ∀ types, found ≠ .array types) :
    Faulty (.entry (.object members))
  | unsupported {members : Members} {kind : String} (hkind : HasKind members kind)
    (h : kind ∉ kinds) : Faulty (.entry (.object members))
  | enum {members : Members} {found : Json} (hkind : HasKind members "string")
    (h : Json.lookup? "enum" members = some found)
    (hvalues : ∀ values : List String, found = .array (values.map .string) →
      values = [] ∨ ∃ value ∈ values, needsEscaping value = true) :
    Faulty (.entry (.object members))
  | properties {members : Members} {found : Json}
    (h : Json.lookup? "properties" members = some found)
    (hkind : ∀ properties, found ≠ .object properties) : Faulty (.level members)
  | names {members properties : Members} {key : String}
    (h : Json.lookup? "properties" members = some (.object properties))
    (hkey : key = "required" ∨ key = "ordered_keys") (hnames : ∀ names, ¬ Lists members key names) :
    Faulty (.level members)
  | orderedKey {members properties : Members} {listed : List String} {name : String}
    (h : Json.lookup? "properties" members = some (.object properties))
    (hlisted : Lists members "ordered_keys" listed) (hname : name ∈ listed)
    (hmissing : Json.lookup? name properties = none) : Faulty (.level members)

/-! ## Section 2: Faults are not read over -/

theorem HasKind.unique {members : Members} {kind other : String} (h : HasKind members kind)
    (h' : HasKind members other) : kind = other := by
  obtain ⟨declared, hdeclared, rfl⟩ := h
  obtain ⟨declared', hdeclared', rfl⟩ := h'
  have hsame : declaredType members "" = .ok declared := declaredType_eq_ok_iff.mpr hdeclared
  rw [declaredType_eq_ok_iff.mpr hdeclared'] at hsame
  cases hsame
  rfl

theorem Lists.unique {members : Members} {key : String} {names others : List String}
    (h : Lists members key names) (h' : Lists members key others) : names = others := by
  have hsame : stringList members "" key = .ok names := stringList_eq_ok_iff.mpr h
  rw [stringList_eq_ok_iff.mpr h'] at hsame
  exact (Except.ok.inj hsame).symm

theorem Entry.hasKind {members : Members} {type : FieldType} (h : Entry (.object members) type) :
    ∃ kind ∈ kinds, HasKind members kind := by
  cases h <;> refine ⟨_, ?_, ‹HasKind members _›⟩ <;> decide

/-- What stands at the place can be read. -/
def Spot.Sound : Spot → Prop
  | .entry value => ∃ type, Entry value type
  | .level members => ∃ fields, Level members fields

theorem Entry.level {members : Members} {type : FieldType} (h : Entry (.object members) type)
    (hkind : HasKind members "object") : Spot.Sound (.level members) := by
  cases h with
  | object _ hfields => exact ⟨_, hfields⟩
  | _ => exact absurd (hkind.unique ‹_›) (by decide)

theorem Entry.items {members : Members} {items : Json} {type : FieldType}
    (h : Entry (.object members) type) (hkind : HasKind members "array")
    (hitems : Json.lookup? "items" members = some items) : Spot.Sound (.entry items) := by
  cases h with
  | texts _ hnone =>
    rw [hnone] at hitems
    contradiction
  | array _ hfound hentry =>
    rw [hfound] at hitems
    cases hitems
    exact ⟨_, hentry⟩
  | _ => exact absurd (hkind.unique ‹_›) (by decide)

theorem Level.property {members properties : Members} {fields : List (Field FieldType)}
    {name : String} {value : Json} (h : Level members fields)
    (hproperties : Json.lookup? "properties" members = some (.object properties))
    (hvalue : Json.lookup? name properties = some value) : Spot.Sound (.entry value) := by
  cases h with
  | bare hnone =>
    rw [hnone] at hproperties
    contradiction
  | fields hfound _ _ hnames _ hentries =>
    rw [hfound] at hproperties
    cases hproperties
    have hname : name ∈ fields.map (·.name) :=
      (hnames.mem_iff name).mpr (mem_keys_iff.mpr ⟨value, hvalue⟩)
    obtain ⟨field, hfield, rfl⟩ := List.mem_map.mp hname
    exact ⟨field.type, hentries field hfield value hvalue⟩

/-- **Along the way from the root** everything has to be readable, by induction on the way. -/
theorem Reached.sound {root : Members} {spot : Spot} (h : Reached root spot)
    (hroot : Spot.Sound (.level root)) : spot.Sound := by
  induction h with
  | root => exact hroot
  | property _ hproperties hvalue ih =>
    obtain ⟨fields, hlevel⟩ := ih
    exact hlevel.property hproperties hvalue
  | object _ hkind ih =>
    obtain ⟨type, hentry⟩ := ih
    exact hentry.level hkind
  | items _ hkind hitems ih =>
    obtain ⟨type, hentry⟩ := ih
    exact hentry.items hkind hitems

/-- **What is wrong** cannot be read. -/
theorem Faulty.not_sound {spot : Spot} (h : Faulty spot) : ¬ spot.Sound := by
  cases h with
  | notObject hvalue =>
    rintro ⟨type, hentry⟩
    cases hentry <;> exact hvalue _ rfl
  | typeKind hfound htext hlist =>
    rintro ⟨type, hentry⟩
    obtain ⟨kind, -, declared, hdeclared, -⟩ := hentry.hasKind
    cases hdeclared with
    | missing h =>
      rw [h] at hfound
      contradiction
    | single h =>
      rw [h] at hfound
      exact htext _ (Option.some.inj hfound).symm
    | first h | null h =>
      rw [h] at hfound
      exact hlist _ (Option.some.inj hfound).symm
  | unsupported hkind hunknown =>
    rintro ⟨type, hentry⟩
    obtain ⟨kind, hknown, hother⟩ := hentry.hasKind
    rw [hother.unique hkind] at hknown
    exact hunknown hknown
  | enum hkind hfound hvalues =>
    rintro ⟨type, hentry⟩
    cases hentry with
    | text _ hnone =>
      rw [hnone] at hfound
      contradiction
    | @choice _ values _ hlist hsome hplain =>
      rw [hlist] at hfound
      rcases hvalues values (Option.some.inj hfound).symm with hempty | ⟨value, hmem, hescape⟩
      · exact hsome hempty
      · rw [hplain value hmem] at hescape
        contradiction
    | _ => exact absurd (hkind.unique ‹_›) (by decide)
  | properties hfound hkind =>
    rintro ⟨fields, hlevel⟩
    cases hlevel with
    | bare hnone =>
      rw [hnone] at hfound
      contradiction
    | fields hobject =>
      rw [hobject] at hfound
      exact hkind _ (Option.some.inj hfound).symm
  | names hproperties hkey hnames =>
    rintro ⟨fields, hlevel⟩
    cases hlevel with
    | bare hnone =>
      rw [hnone] at hproperties
      contradiction
    | fields _ hrequired hlisted =>
      rcases hkey with rfl | rfl
      · exact hnames _ hrequired
      · exact hnames _ hlisted
  | orderedKey hproperties hlisted hname hmissing =>
    rintro ⟨fields, hlevel⟩
    cases hlevel with
    | bare hnone =>
      rw [hnone] at hproperties
      contradiction
    | fields hobject _ hothers hnames =>
      rw [hobject] at hproperties
      cases hproperties
      rw [hlisted.unique hothers] at hname
      -- a listed name is one of the fields, and so one of the keys
      have hfield := hnames.order ▸ List.mem_append_left _ (List.mem_eraseDups.mpr hname)
      obtain ⟨value, hvalue⟩ := mem_keys_iff.mp ((hnames.mem_iff _).mp hfield)
      rw [hmissing] at hvalue
      contradiction

/-! ## Section 3: The schema of a value -/

/-- **A schema, level by level.**  A value is accepted, and a schema read from it, exactly if it is
    an object with properties that stands for that schema; and if something is wrong at a place that
    is reached from the root, the value is refused. -/
theorem ofJson_levels (value : Json) :
    (∀ schema, ofJson value = .ok schema
      ↔ ∃ members, value = .object members ∧ Root members ∧ Level members schema.fields)
    ∧ ((∃ members spot, value = .object members ∧ Reached members spot ∧ Faulty spot) →
        ∃ error, ofJson value = .error error) := by
  refine ⟨fun _ => ofJson_eq_ok_iff, ?_⟩
  rintro ⟨members, spot, rfl, hreached, hfaulty⟩
  cases hread : ofJson (.object members) with
  | error error => exact ⟨error, rfl⟩
  | ok schema =>
    obtain ⟨_, hsame, -, hfields⟩ := ofJson_eq_ok_iff.mp hread
    cases hsame
    exact absurd (hreached.sound ⟨_, hfields⟩) hfaulty.not_sound

/-- An object without properties is accepted with any `required`. -/
theorem required_unread_without_properties :
    let bare : Members := [("type", .string "object"), ("required", .number (.integer 5))]
    let root : Members := [("properties", .object [("o", .object bare)])]
    Reached root (.level bare) ∧ (∀ names, ¬ Lists bare "required" names)
      ∧ ofJson (.object root)
        = .ok { fields := [{ name := "o", type := .object [], required := false }] } := by
  intro bare root
  have hkind : HasKind bare "object" := ⟨some "object", .single rfl, rfl⟩
  have hlookup : Json.lookup? "o" [("o", Json.object bare)] = some (.object bare) := rfl
  refine ⟨.object (.property .root rfl hlookup) hkind, ?_, ?_⟩
  · rintro names (⟨hnone, -⟩ | hlist)
    · contradiction
    · cases hlist
  · refine ofJson_eq_ok_iff.mpr ⟨root, rfl, ⟨fun _ h => (nomatch h), _, rfl⟩, ?_⟩
    refine .fields rfl (.inl ⟨rfl, rfl⟩) (.inl ⟨rfl, rfl⟩) ⟨by decide, by simp, by decide⟩ ?_ ?_
    · simp
    · intro field hfield value hvalue
      cases List.mem_singleton.mp hfield
      cases hvalue
      exact .object hkind (.bare rfl)

end Schema

end Parley
