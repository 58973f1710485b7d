import Mathlib.Data.List.Nodup
import Parley.Proofs.Step
import Parley.Schema.Reader

/-! # What a schema stands for

    A schema is read from a JSON value level by level: an object with `properties` has a field for
    each of them, and an entry of the properties is again an object with a type, which may be an
    object or an array and so lead to further levels.  What an entry and a level stand for are the
    relations `Entry` and `Level`; they say nothing of paths, of errors or of the order in which the
    parts are looked at.

    Every part of the reader is shown to return exactly what its relation says, and so is the whole:
    `ofJson_eq_ok_iff`. -/

namespace Parley

namespace Schema

open Step

/-! ## Section 1: The parts of a level -/

/-- The list of strings under `key`, which is empty where there is no such key. -/
def Lists (members : Members) (key : String) (names : List String) : Prop :=
  (Json.lookup? key members = none ∧ names = [])
    ∨ Json.lookup? key members = some (.array (names.map .string))

/-- The declared type of an entry: a string, or the first string other than `null` of a list. -/
inductive Declares (members : Members) : (declared : Option String) → Prop
  | missing (h : Json.lookup? "type" members = none) : Declares members none
  | single {name : String} (h : Json.lookup? "type" members = some (.string name)) :
    Declares members (some name)
  | first {before after : List Json} {name : String}
    (h : Json.lookup? "type" members = some (.array (before ++ .string name :: after)))
    (hbefore : ∀ text, .string text ∈ before → text = "null") (hname : name ≠ "null") :
    Declares members (some name)
  | null {types : List Json} (h : Json.lookup? "type" members = some (.array types))
    (htypes : ∀ text, .string text ∈ types → text = "null") : Declares members none

/-- The kind of an entry: its declared type, or else what its keys imply. -/
def HasKind (members : Members) (kind : String) : Prop :=
  ∃ declared, Declares members declared ∧ declared.getD (impliedType members) = kind

/-- The order of the fields of a level: each key once, first those that are listed, as they are
    listed, then the others as they are declared. -/
structure InOrder (keys listed names : List String) : Prop where
  nodup : names.Nodup
  mem_iff : ∀ name, name ∈ names ↔ name ∈ keys
  order : names = listed.eraseDups ++ (keys.removeAll listed).eraseDups

/-! ## Section 2: Entries and levels -/

mutual

/-- **The type of an entry**, by its kind. -/
inductive Entry : Json → FieldType → Prop
  | text {members : Members} (hkind : HasKind members "string")
    (h : Json.lookup? "enum" members = none) : Entry (.object members) (.string none)
  | choice {members : Members} {values : List String} (hkind : HasKind members "string")
    (h : Json.lookup? "enum" members = some (.array (values.map .string))) (hsome : values ≠ [])
    (hplain : ∀ value ∈ values, needsEscaping value = false) :
    Entry (.object members) (.string (some values.eraseDups))
  | integer {members : Members} (hkind : HasKind members "integer") :
    Entry (.object members) .integer
  | number {members : Members} (hkind : HasKind members "number") : Entry (.object members) .number
  | boolean {members : Members} (hkind : HasKind members "boolean") :
    Entry (.object members) .boolean
  | object {members : Members} {fields : List (Field FieldType)} (hkind : HasKind members "object")
    (h : Level members fields) : Entry (.object members) (.object fields)
  | texts {members : Members} (hkind : HasKind members "array")
    (h : Json.lookup? "items" members = none) : Entry (.object members) (.array (.string none))
  | array {members : Members} {items : Json} {type : FieldType} (hkind : HasKind members "array")
    (hitems : Json.lookup? "items" members = some items) (h : Entry items type) :
    Entry (.object members) (.array type)

/-- **The fields of a level**: none without `properties`, and else one for each property. -/
inductive Level : Members → List (Field FieldType) → Prop
  | bare {members : Members} (h : Json.lookup? "properties" members = none) : Level members []
  | fields {members properties : Members} {required listed : List String}
    {fields : List (Field FieldType)}
    (h : Json.lookup? "properties" members = some (.object properties))
    (hrequired : Lists members "required" required) (hlisted : Lists members "ordered_keys" listed)
    (hnames : InOrder (properties.map (·.1)) listed (fields.map (·.name)))
    (hfields : ∀ field ∈ fields, (field.required = true ↔ field.name ∈ required))
    (htypes : ∀ field ∈ fields, ∀ value, Json.lookup? field.name properties = some value →
      Entry value field.type) : Level members fields

end

/-- What can stand at the root: an object with properties whose type, if it has one, is that of an
    object. -/
def Root (members : Members) : Prop :=
  (∀ found, Json.lookup? "type" members = some found → found = .string "object")
    ∧ ∃ properties, Json.lookup? "properties" members = some (.object properties)

/-! ## Section 3: Reading the parts -/

theorem mem_keys_iff {name : String} {members : Members} :
    name ∈ members.map (·.1) ↔ ∃ value, Json.lookup? name members = some value := by
  induction members with
  | nil => simp [Json.lookup?]
  | cons member rest ih =>
    obtain ⟨key, value⟩ := member
    rw [List.map_cons, List.mem_cons, ih, Json.lookup?]
    by_cases hkey : key = name
    · simp [hkey]
    · simp [hkey, Ne.symm hkey]

theorem stringList_eq_ok_iff {members : Members} {path key : String} {names : List String} :
    stringList members path key = .ok names ↔ Lists members key names := by
  unfold stringList Lists
  cases Json.lookup? key members with
  | none => simp [eq_comm]
  | some found =>
    cases found with
    | array items =>
      show List.mapM _ items = _ ↔ _
      rw [except_mapM_eq_ok_iff (g := Json.string) (p := fun _ => True)]
      · simp
      · intro item name
        cases item <;> simp
    | _ => simp

theorem addNew_nodup (more : List String) : ∀ {names : List String}, names.Nodup →
    (addNew names more).Nodup := by
  unfold addNew
  induction more with
  | nil => exact id
  | cons name more ih =>
    intro names hnames
    rw [List.foldl_cons]
    apply ih
    split
    · exact hnames
    · rename_i hnew
      rw [List.nodup_append]
      refine ⟨hnames, List.nodup_singleton name, fun old hprev new hmem => ?_⟩
      rintro rfl
      rw [List.mem_singleton.mp hmem] at hprev
      exact hnew (List.contains_iff_mem.mpr hprev)

theorem mem_addNew {more : List String} {name : String} : ∀ {names : List String},
    name ∈ addNew names more ↔ name ∈ names ∨ name ∈ more := by
  unfold addNew
  induction more with
  | nil => simp
  | cons first more ih =>
    intro names
    rw [List.foldl_cons, ih]
    split <;> rename_i hfirst
    · have hprev : first ∈ names := List.contains_iff_mem.mp hfirst
      grind
    · grind

theorem addNew_eq (more : List String) : ∀ names : List String,
    addNew names more = names ++ (more.removeAll names).eraseDups := by
  unfold addNew List.removeAll
  induction more with
  | nil => simp
  | cons name more ih =>
    intro names
    rw [List.foldl_cons, ih]
    by_cases hname : name ∈ names
    · simp [hname]
    · -- the others are kept if they are neither in `names` nor the new name
      have hothers : more.filter (fun other => !(names ++ [name]).elem other)
          = (more.filter fun other => !names.elem other).filter (!· == name) := by
        rw [List.filter_filter]
        apply List.filter_congr
        intro other _
        by_cases hother : other = name <;> simp [hother]
      have hnew : names.elem name = false := by simpa using hname
      rw [List.contains, hnew, if_neg Bool.false_ne_true, hothers, List.filter_cons, hnew,
        Bool.not_false, if_pos rfl, List.eraseDups_cons, List.append_assoc, List.singleton_append]

theorem fieldOrder_eq_ok_iff {keys listed names : List String} {path : String} :
    fieldOrder keys listed path = .ok names ↔ InOrder keys listed names := by
  have horder : addNew (addNew [] listed) keys
      = listed.eraseDups ++ (keys.removeAll listed).eraseDups := by
    rw [addNew_eq, addNew_eq]
    simp [List.removeAll]
  unfold fieldOrder
  cases hunknown : listed.find? fun name => !keys.contains name with
  | some name =>
    -- a name that is listed is in the order, but this one is no key
    have hname := List.find?_some hunknown
    have hlisted := List.mem_of_find?_eq_some hunknown
    refine iff_of_false (by simp) fun h => ?_
    have hmem : name ∈ keys := by
      rw [← h.mem_iff, h.order]
      exact List.mem_append_left _ (List.mem_eraseDups.mpr hlisted)
    simp [hmem] at hname
  | none =>
    have hlisted : ∀ name ∈ listed, name ∈ keys := by simpa using hunknown
    simp only [Except.ok.injEq]
    constructor
    · rintro rfl
      refine ⟨addNew_nodup keys (addNew_nodup listed List.nodup_nil), fun name => ?_, horder⟩
      rw [mem_addNew, mem_addNew]
      have := hlisted name
      simp only [List.not_mem_nil, false_or]
      tauto
    · intro h
      rw [h.order, horder]

theorem enumValue_eq_ok_iff {path value : String} {item : Json} :
    enumValue path item = .ok value ↔ item = .string value ∧ needsEscaping value = false := by
  cases item with
  | string text =>
    cases hescape : needsEscaping text with
    | true =>
      simp only [enumValue, hescape, if_true, reduceCtorEq, Json.string.injEq, false_iff]
      rintro ⟨rfl, hplain⟩
      rw [hescape] at hplain
      contradiction
    | false =>
      simp only [enumValue, hescape, Bool.false_eq_true, if_false, Except.ok.injEq,
        Json.string.injEq]
      constructor
      · rintro rfl
        exact ⟨rfl, hescape⟩
      · exact And.left
  | _ => simp [enumValue]

theorem enumValues_eq_ok_iff {members : Members} {path : String} {allowed : Option (List String)} :
    enumValues members path = .ok allowed ↔
      (Json.lookup? "enum" members = none ∧ allowed = none)
        ∨ ∃ values : List String, Json.lookup? "enum" members = some (.array (values.map .string))
          ∧ values ≠ [] ∧ (∀ value ∈ values, needsEscaping value = false)
          ∧ allowed = some values.eraseDups := by
  unfold enumValues
  cases Json.lookup? "enum" members with
  | none =>
    simp
    exact eq_comm
  | some found =>
    cases found with
    | array items =>
      have hvalues (values : List String) : items.mapM (enumValue path) = .ok values
          ↔ items = values.map .string ∧ ∀ value ∈ values, needsEscaping value = false :=
        except_mapM_eq_ok_iff fun _ _ => enumValue_eq_ok_iff
      constructor
      · intro h
        dsimp only at h
        split at h
        · contradiction
        · contradiction
        · rename_i values hsome hread
          obtain ⟨rfl, hplain⟩ := (hvalues values).mp hread
          cases h
          refine .inr ⟨values, rfl, hsome, hplain, ?_⟩
          simp [addNew_eq]
      · rintro (⟨hnone, -⟩ | ⟨values, hitems, hsome, hplain, rfl⟩)
        · contradiction
        · obtain ⟨first, others, rfl⟩ := List.exists_cons_of_ne_nil hsome
          simp only [Option.some.injEq, Json.array.injEq] at hitems
          simp [(hvalues _).mpr ⟨hitems, hplain⟩, addNew_eq]
    | _ => simp

theorem declaredType_eq_ok_iff {members : Members} {path : String} {declared : Option String} :
    declaredType members path = .ok declared ↔ Declares members declared := by
  constructor
  · intro h
    unfold declaredType at h
    split at h
    · cases h
      exact .missing ‹_›
    · cases h
      exact .single ‹_›
    · rename_i types htypes
      cases h
      rw [List.find?_filterMap]
      cases hfirst : types.find? fun type => (Json.text? type).any (· ≠ "null") with
      | none =>
        refine .null htypes fun text htext => ?_
        simpa [Json.text?] using List.find?_eq_none.mp hfirst _ htext
      | some found =>
        obtain ⟨hfound, before, after, rfl, hbefore⟩ := List.find?_eq_some_iff_append.mp hfirst
        cases found with
        | string name =>
          refine .first htypes (fun text htext => ?_) (by simpa [Json.text?] using hfound)
          simpa [Json.text?] using hbefore _ htext
        | _ => simp [Json.text?] at hfound
    · contradiction
  · intro h
    unfold declaredType
    cases h with
    | missing h => rw [h]
    | single h => rw [h]
    | @first before after name h hbefore hname =>
      rw [h]
      dsimp only
      rw [List.find?_filterMap]
      have hfirst : (before ++ .string name :: after).find?
          (fun type => (Json.text? type).any (· ≠ "null")) = some (.string name) := by
        refine List.find?_eq_some_iff_append.mpr ⟨?_, before, after, rfl, fun found hfound => ?_⟩
        · simpa [Json.text?] using hname
        · cases found with
          | string text => simp [Json.text?, hbefore text hfound]
          | _ => rfl
      rw [hfirst]
      rfl
    | @null types h htypes =>
      rw [h]
      dsimp only
      rw [List.find?_filterMap]
      have hfirst : types.find? (fun type => (Json.text? type).any (· ≠ "null")) = none := by
        refine List.find?_eq_none.mpr fun found hfound => ?_
        cases found with
        | string text => simp [Json.text?, htypes text hfound]
        | _ => simp [Json.text?]
      rw [hfirst]
      rfl

/-! ## Section 4: Reading a level -/

section Reading

variable {path : String} {members : Members}

/-- What is read of an entry of a kind. -/
theorem readType_eq {kind : String} (h : HasKind members kind) :
    readType path (.object members) =
      if kind = "string" then (enumValues members path).map .string
      else if kind = "integer" then .ok .integer
      else if kind = "number" then .ok .number
      else if kind = "boolean" then .ok .boolean
      else if kind = "object" then (readFields path members).map .object
      else if kind = "array" then
        match Json.lookup? "items" members with
        | none => .ok (.array (.string none))
        | some items => (readType (path ++ "[]") items).map .array
      else .error (.unsupportedType path kind) := by
  obtain ⟨declared, hdeclared, rfl⟩ := h
  rw [readType, declaredType_eq_ok_iff.mpr hdeclared]
  show (if _ then _ else _) = _
  congr 6
  split
  · rename_i hitems
    simp only [hitems]
    rfl
  · rename_i hitems
    simp only [hitems]
    rfl

theorem readType_object {path : String} {value : Json} {type : FieldType}
    (h : readType path value = .ok type) : ∃ members, value = .object members := by
  cases value with
  | object members => exact ⟨members, rfl⟩
  | _ =>
    simp only [readType] at h
    contradiction

theorem hasKind_of_readType {type : FieldType} (h : readType path (.object members) = .ok type) :
    ∃ kind, HasKind members kind := by
  rw [readType] at h
  obtain ⟨declared, hdeclared, -⟩ := except_bind_eq_ok h
  exact ⟨_, declared, declaredType_eq_ok_iff.mp hdeclared, rfl⟩

/-- Where there are properties, a field is read for each name of the order, under that name. -/
theorem readFields_object {properties : Members} {fields : List (Field FieldType)}
    (h : Json.lookup? "properties" members = some (.object properties)) :
    readFields path members = .ok fields ↔
      ∃ required listed, Lists members "required" required ∧ Lists members "ordered_keys" listed
        ∧ InOrder (properties.map (·.1)) listed (fields.map (·.name))
        ∧ ∀ field ∈ fields, field.required = required.contains field.name
          ∧ ∃ value, Json.lookup? field.name properties = some value
            ∧ readType (path ++ "." ++ field.name) value = .ok field.type := by
  rw [readFields]
  split
  · rename_i hnone
    rw [hnone] at h
    contradiction
  · rename_i found hfound
    cases hfound.symm.trans h
    simp only [except_bind_eq_ok_iff, stringList_eq_ok_iff, fieldOrder_eq_ok_iff, exists_and_left]
    refine exists_congr fun required => and_congr_right fun _ =>
      exists_congr fun listed => and_congr_right fun _ => ?_
    refine (exists_congr fun order => and_congr_right fun _ => except_mapM_eq_ok_iff
      (g := Field.name) (p := fun field => field.required = required.contains field.name
        ∧ ∃ value, Json.lookup? field.name properties = some value
          ∧ readType (path ++ "." ++ field.name) value = .ok field.type)
      fun name field => ?_).trans ?_
    · split
      · rename_i hnone
        refine iff_of_false (fun h => by cases h) ?_
        rintro ⟨rfl, -, value, hvalue, -⟩
        rw [hnone] at hvalue
        contradiction
      · rename_i value hvalue
        rw [except_bind_eq_ok_iff]
        constructor
        · rintro ⟨type, htype, h⟩
          cases h
          exact ⟨rfl, rfl, value, hvalue, htype⟩
        · rintro ⟨rfl, hrequired, found, hfound, htype⟩
          rw [hvalue] at hfound
          cases hfound
          exact ⟨field.type, htype, hrequired ▸ rfl⟩
    · -- the order is that of the names of the fields
      constructor
      · rintro ⟨order, horder, rfl, hfields⟩
        exact ⟨horder, hfields⟩
      · rintro ⟨horder, hfields⟩
        exact ⟨_, horder, rfl, hfields⟩
  · rename_i found hother hfound
    rw [hfound] at h
    exact absurd (Option.some.inj h) (hother properties)

theorem readFields_eq_ok_iff {fields : List (Field FieldType)} :
    readFields path members = .ok fields ↔
      (Json.lookup? "properties" members = none ∧ fields = [])
        ∨ ∃ properties required listed,
          Json.lookup? "properties" members = some (.object properties)
            ∧ Lists members "required" required ∧ Lists members "ordered_keys" listed
            ∧ InOrder (properties.map (·.1)) listed (fields.map (·.name))
            ∧ ∀ field ∈ fields, field.required = required.contains field.name
              ∧ ∃ value, Json.lookup? field.name properties = some value
                ∧ readType (path ++ "." ++ field.name) value = .ok field.type := by
  by_cases hobject : ∃ properties, Json.lookup? "properties" members = some (.object properties)
  · obtain ⟨properties, hproperties⟩ := hobject
    rw [readFields_object hproperties]
    simp [hproperties]
  · rw [readFields]
    split
    · rename_i hnone
      simp [hnone, pure, Except.pure, eq_comm]
    · rename_i properties hproperties
      exact absurd ⟨properties, hproperties⟩ hobject
    · rename_i found hfound hproperties
      refine iff_of_false (fun h => by cases h) ?_
      rintro (⟨hnone, -⟩ | ⟨properties, -, -, hfound, -⟩)
      · rw [hnone] at hproperties
        contradiction
      · exact hobject ⟨properties, hfound⟩

end Reading

/-! ## Section 5: The recursion -/

/-- The fields that are read are those of the level, if the types are those of the entries. -/
theorem readFields_iff_level {path : String} {members : Members} {fields : List (Field FieldType)}
    (htypes : ∀ value, sizeOf value < sizeOf members → ∀ path type,
      readType path value = .ok type ↔ Entry value type) :
    readFields path members = .ok fields ↔ Level members fields := by
  -- an entry of the properties is smaller than the object that they are a member of
  have hsmaller {properties : Members} {name : String} {value : Json}
      (hproperties : Json.lookup? "properties" members = some (.object properties))
      (hvalue : Json.lookup? name properties = some value) : sizeOf value < sizeOf members := by
    have := sizeOf_lookup? hproperties
    have := sizeOf_lookup? hvalue
    simp at *
    omega
  rw [readFields_eq_ok_iff]
  constructor
  · rintro (⟨hnone, rfl⟩ | ⟨properties, required, listed, hproperties, hrequired, hlisted, hnames,
      hfields⟩)
    · exact .bare hnone
    · apply Level.fields hproperties hrequired hlisted hnames
      · intro field hfield
        rw [(hfields field hfield).1, List.contains_iff_mem]
      · intro field hfield value hvalue
        obtain ⟨-, found, hfound, htype⟩ := hfields field hfield
        rw [hvalue] at hfound
        cases hfound
        exact (htypes value (hsmaller hproperties hvalue) _ _).mp htype
  · intro h
    cases h with
    | bare hnone => exact .inl ⟨hnone, rfl⟩
    | @fields _ properties required listed _ hproperties hrequired hlisted hnames hfields hentries =>
      refine .inr ⟨properties, required, listed, hproperties, hrequired, hlisted, hnames, ?_⟩
      intro field hfield
      obtain ⟨value, hvalue⟩ := mem_keys_iff.mp <|
        (hnames.mem_iff field.name).mp (List.mem_map_of_mem hfield)
      refine ⟨?_, value, hvalue, ?_⟩
      · rw [Bool.eq_iff_iff, hfields field hfield, List.contains_iff_mem]
      · exact (htypes value (hsmaller hproperties hvalue) _ _).mpr
          (hentries field hfield value hvalue)

theorem readType_iff_entry (value : Json) (path : String) (type : FieldType) :
    readType path value = .ok type ↔ Entry value type := by
  cases value with
  | object members =>
    have hlevel (fields : List (Field FieldType)) :
        readFields path members = .ok fields ↔ Level members fields := by
      apply readFields_iff_level
      intro value hsize path type
      exact readType_iff_entry value path type
    constructor
    · intro h
      obtain ⟨kind, hkind⟩ := hasKind_of_readType h
      rw [readType_eq hkind] at h
      by_cases hstring : kind = "string"
      · subst hstring
        obtain ⟨allowed, hallowed, rfl⟩ := except_map_eq_ok h
        rcases enumValues_eq_ok_iff.mp hallowed with
          ⟨hnone, rfl⟩ | ⟨values, hvalues, hsome, hplain, rfl⟩
        · exact .text hkind hnone
        · exact .choice hkind hvalues hsome hplain
      rw [if_neg hstring] at h
      by_cases hinteger : kind = "integer"
      · subst hinteger
        cases h
        exact .integer hkind
      rw [if_neg hinteger] at h
      by_cases hnumber : kind = "number"
      · subst hnumber
        cases h
        exact .number hkind
      rw [if_neg hnumber] at h
      by_cases hboolean : kind = "boolean"
      · subst hboolean
        cases h
        exact .boolean hkind
      rw [if_neg hboolean] at h
      by_cases hobject : kind = "object"
      · subst hobject
        obtain ⟨fields, hfields, rfl⟩ := except_map_eq_ok h
        exact .object hkind ((hlevel fields).mp hfields)
      rw [if_neg hobject] at h
      by_cases harray : kind = "array"
      · subst harray
        rw [if_pos rfl] at h
        split at h
        · rename_i hitems
          cases h
          exact .texts hkind hitems
        · rename_i items hitems
          obtain ⟨type, htype, rfl⟩ := except_map_eq_ok h
          have := sizeOf_lookup? hitems
          exact .array hkind hitems ((readType_iff_entry items _ type).mp htype)
      · rw [if_neg harray] at h
        contradiction
    · intro h
      cases h with
      | text hkind hnone =>
        rw [readType_eq hkind, if_pos rfl, enumValues_eq_ok_iff.mpr (.inl ⟨hnone, rfl⟩)]
        rfl
      | choice hkind hvalues hsome hplain =>
        rw [readType_eq hkind, if_pos rfl,
          enumValues_eq_ok_iff.mpr (.inr ⟨_, hvalues, hsome, hplain, rfl⟩)]
        rfl
      | integer hkind => simp [readType_eq hkind]
      | number hkind => simp [readType_eq hkind]
      | boolean hkind => simp [readType_eq hkind]
      | object hkind hfields =>
        simp [readType_eq hkind, (hlevel _).mpr hfields, Except.map]
      | texts hkind hitems => simp [readType_eq hkind, hitems]
      | @array _ items type hkind hitems hentry =>
        have := sizeOf_lookup? hitems
        simp [readType_eq hkind, hitems, (readType_iff_entry items _ type).mpr hentry, Except.map]
  | _ =>
    refine iff_of_false (fun h => ?_) (fun h => nomatch h)
    obtain ⟨members, hmembers⟩ := readType_object h
    contradiction
termination_by sizeOf value
decreasing_by all_goals (simp; omega)

/-! ## Section 6: The root -/

theorem ofJson_object {members : Members} (h : Root members) :
    ofJson (.object members) = (readFields "$" members).map fun fields => { fields } := by
  obtain ⟨htype, properties, hproperties⟩ := h
  unfold ofJson
  cases hfound : Json.lookup? "type" members with
  | none => simp only [hfound, hproperties]
  | some found =>
    cases htype found hfound
    simp only [hfound, hproperties]

theorem root_of_ofJson {value : Json} {schema : Schema} (h : ofJson value = .ok schema) :
    ∃ members, value = .object members ∧ Root members := by
  unfold ofJson at h
  split at h
  · rename_i members
    refine ⟨members, rfl, ?_⟩
    split at h
    · rename_i htype
      split at h
      · exact ⟨fun found hfound => Option.some.inj (hfound.symm.trans htype), _, ‹_›⟩
      · contradiction
    · rename_i htype
      split at h
      · refine ⟨fun found hfound => ?_, _, ‹_›⟩
        rw [htype] at hfound
        contradiction
      · contradiction
    · contradiction
  · contradiction

/-- **What is read** is what the value stands for. -/
theorem ofJson_eq_ok_iff {value : Json} {schema : Schema} :
    ofJson value = .ok schema
      ↔ ∃ members, value = .object members ∧ Root members ∧ Level members schema.fields := by
  have hlevel (members : Members) (fields : List (Field FieldType)) :
      readFields "$" members = .ok fields ↔ Level members fields := by
    apply readFields_iff_level
    intro value _ path type
    exact readType_iff_entry value path type
  constructor
  · intro h
    obtain ⟨members, rfl, hroot⟩ := root_of_ofJson h
    rw [ofJson_object hroot] at h
    obtain ⟨fields, hfields, rfl⟩ := except_map_eq_ok h
    exact ⟨members, rfl, hroot, (hlevel members fields).mp hfields⟩
  · rintro ⟨members, rfl, hroot, hfields⟩
    rw [ofJson_object hroot, (hlevel members _).mpr hfields]
    rfl

end Schema

end Parley
