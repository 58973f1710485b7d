import Parley.Json.Parser
import Parley.Json.Printer
import Parley.Schema.Basic
import Parley.Text.Blank

/-! # Reading schemas

    A schema is written as a JSON object with `properties`.  Fields come in the order of
    `ordered_keys`, and those that are not named there follow as they are declared.  What stands at
    a fault is named by its path from the root `$`.
-/

namespace Parley

/-- Why a JSON value is no schema. -/
inductive SchemaError
  | invalidJson (error : Json.Error)
  | rootNotObject
  | rootType (found : Json)
  | noProperties
  | propertiesNotObject (path : String)
  | notArray (path key : String)
  | entriesNotStrings (path key : String)
  | unknownOrderedKey (path name : String)
  | propertyNotObject (path : String)
  | typeNotString (path : String) (found : Json)
  | unsupportedType (path name : String)
  | enumNotArray (path : String)
  | enumValueNotString (path : String) (found : Json)
  | enumValueNeedsEscaping (path value : String)
  | enumEmpty (path : String)
  deriving Repr

/-- The error in words. -/
def SchemaError.message : SchemaError → String
  | .invalidJson error => "invalid JSON: " ++ error.message
  | .rootNotObject => "schema root is not an object"
  | .rootType found => "schema root type must be \"object\", got " ++ found.compact
  | .noProperties => "schema has no properties object"
  | .propertiesNotObject path => path ++ ": properties must be an object"
  | .notArray path key => path ++ ": " ++ key ++ " must be an array"
  | .entriesNotStrings path key => path ++ ": " ++ key ++ " entries must be strings"
  | .unknownOrderedKey path name =>
    path ++ ": ordered key " ++ Text.quoted name ++ " is not a property"
  | .propertyNotObject path => path ++ ": property is not an object"
  | .typeNotString path found => path ++ ": type must be a string, got " ++ found.compact
  | .unsupportedType path name => path ++ ": unsupported type " ++ Text.quoted name
  | .enumNotArray path => path ++ ": enum must be an array"
  | .enumValueNotString path found =>
    path ++ ": enum values must be strings, got " ++ found.compact
  | .enumValueNeedsEscaping path value =>
    path ++ ": enum value " ++ Text.quoted value ++ " needs escaping"
  | .enumEmpty path => path ++ ": enum is empty"

namespace Schema

/-- The members of an object. -/
abbrev Members := List (String × Json)

/-! ## Parts of a level -/

/-- The strings listed under `key`; none if the key is missing. -/
def stringList (members : Members) (path key : String) : Except SchemaError (List String) :=
  match Json.lookup? key members with
  | none => .ok []
  | some (.array items) => items.mapM fun item =>
    match item with
    | .string text => .ok text
    | _ => .error (.entriesNotStrings path key)
  | some _ => .error (.notArray path key)

/-- `names` with those of `more` behind them that are not there yet. -/
def addNew (names more : List String) : List String :=
  more.foldl (fun names name => if names.contains name then names else names ++ [name]) names

/-- The order of the fields: the listed keys, then the others as declared. -/
def fieldOrder (keys listed : List String) (path : String) : Except SchemaError (List String) :=
  match listed.find? fun name => !keys.contains name with
  | some name => .error (.unknownOrderedKey path name)
  | none => .ok (addNew (addNew [] listed) keys)

/-- Whether a text cannot stand between quotes as it is. -/
def needsEscaping (text : String) : Bool :=
  text.toList.any fun c => c = '"' || c = '\\' || Text.isControl c

/-- An allowed value. -/
def enumValue (path : String) : Json → Except SchemaError String
  | .string text =>
    if needsEscaping text then .error (.enumValueNeedsEscaping path text) else .ok text
  | found => .error (.enumValueNotString path found)

/-- The allowed values, each once; `none` if they are not restricted. -/
def enumValues (members : Members) (path : String) : Except SchemaError (Option (List String)) :=
  match Json.lookup? "enum" members with
  | none => .ok none
  | some (.array items) =>
    match items.mapM (enumValue path) with
    | .error error => .error error
    | .ok [] => .error (.enumEmpty path)
    | .ok values => .ok (some (addNew [] values))
  | some _ => .error (.enumNotArray path)

/-- The declared type: of a list of types the first that is a string other than `null`. -/
def declaredType (members : Members) (path : String) : Except SchemaError (Option String) :=
  match Json.lookup? "type" members with
  | none => .ok none
  | some (.string name) => .ok (some name)
  | some (.array types) => .ok ((types.filterMap Json.text?).find? (· ≠ "null"))
  | some found => .error (.typeNotString path found)

/-- The type of a property without a declared one. -/
def impliedType (members : Members) : String :=
  if (Json.lookup? "enum" members).isSome then "string"
  else if (Json.lookup? "properties" members).isSome then "object"
  else if (Json.lookup? "items" members).isSome then "array"
  else "string"

/-! ## The recursion -/

/-- A member found under a key is smaller than the object. -/
theorem sizeOf_lookup? {key : String} {members : Members} {value : Json}
    (h : Json.lookup? key members = some value) : sizeOf value < sizeOf members := by
  induction members with
  | nil => simp [Json.lookup?] at h
  | cons member rest ih =>
    obtain ⟨name, found⟩ := member
    simp only [Json.lookup?] at h
    split at h
    · cases h
      simp
      omega
    · have := ih h
      simp
      omega

mutual

/-- The type of the property `value` at `path`. -/
def readType (path : String) (value : Json) : Except SchemaError FieldType :=
  match value with
  | .object members => do
    let kind := (← declaredType members path).getD (impliedType members)
    if kind = "string" then return .string (← enumValues members path)
    else if kind = "integer" then return .integer
    else if kind = "number" then return .number
    else if kind = "boolean" then return .boolean
    else if kind = "object" then return .object (← readFields path members)
    else if kind = "array" then
      match h : Json.lookup? "items" members with
      | none => return .array (.string none)
      | some items =>
        have := sizeOf_lookup? h
        return .array (← readType (path ++ "[]") items)
    else throw (.unsupportedType path kind)
  | _ => throw (.propertyNotObject path)
termination_by (sizeOf value, 0)
decreasing_by all_goals simp_wf; omega

/-- The fields of the object with the given members at `path`. -/
def readFields (path : String) (members : Members) :
    Except SchemaError (List (Field FieldType)) := do
  match h : Json.lookup? "properties" members with
  | none => return []
  | some (.object properties) =>
    let required ← stringList members path "required"
    let listed ← stringList members path "ordered_keys"
    let order ← fieldOrder (properties.map (·.1)) listed path
    have := sizeOf_lookup? h
    order.mapM fun name =>
      match h : Json.lookup? name properties with
      | none => throw (.unknownOrderedKey path name)
      | some value => do
        have := sizeOf_lookup? h
        let type ← readType (path ++ "." ++ name) value
        return { name, type, required := required.contains name }
  | some _ => throw (.propertiesNotObject path)
termination_by (sizeOf members, 1)
decreasing_by all_goals simp at *; omega

end

/-! ## The root -/

/-- The schema that a JSON value stands for. -/
def ofJson (value : Json) : Except SchemaError Schema :=
  match value with
  | .object members =>
    match Json.lookup? "type" members with
    | some (.string "object") | none =>
      match Json.lookup? "properties" members with
      | some (.object _) => (readFields "$" members).map fun fields => { fields }
      | _ => .error .noProperties
    | some found => .error (.rootType found)
  | _ => .error .rootNotObject

/-- The schema that a text stands for. -/
def parse (text : String) : Except SchemaError Schema :=
  match Json.parse text with
  | .error error => .error (.invalidJson error)
  | .ok value => ofJson value

end Schema

end Parley
