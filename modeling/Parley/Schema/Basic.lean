/-! # Schemas

    A schema lists the fields of an object in the order in which they are written.  Each field has a
    type, and is required or may be null.
-/

namespace Parley

/-- A field of an object, with a type of the kind `τ`. -/
structure Field (τ : Type) where
  name : String
  type : τ
  required : Bool
  deriving Repr, BEq, Inhabited

/-- What a field may hold. -/
inductive FieldType
  /-- A free text, or one of the allowed texts. -/
  | string (allowed : Option (List String))
  | integer
  | number
  | boolean
  | object (fields : List (Field FieldType))
  | array (items : FieldType)
  deriving Repr, Inhabited

/-- The fields of an object, in order. -/
structure Schema where
  fields : List (Field FieldType) := []
  deriving Repr, Inhabited

namespace FieldType

/-- The name of a type. -/
def name : FieldType → String
  | .string _ => "string"
  | .integer => "integer"
  | .number => "number"
  | .boolean => "boolean"
  | .object _ => "object"
  | .array _ => "array"

end FieldType

namespace Schema

/-- The first field with the name `name`. -/
def field? (schema : Schema) (name : String) : Option (Field FieldType) :=
  schema.fields.find? fun field => field.name = name

/-- The number of fields. -/
def size (schema : Schema) : Nat := schema.fields.length

/-- Whether there are no fields. -/
def isEmpty (schema : Schema) : Bool := schema.fields.isEmpty

end Schema

end Parley
