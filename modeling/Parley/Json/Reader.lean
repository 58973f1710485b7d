import Parley.Json.Parser
import Parley.Number.Binary

/-! # Reading JSON as a known type

    A record is written as an object of its fields or as an array of them in order.  Fields that are
    not known are ignored, whatever they hold; a known field may be given once.  A name is written
    as a string, or as an object with that one key and the value null.
-/

namespace Parley.Json.Form

/-- A text. -/
def text : Form → Except Error String
  | .string glyphs => textOf glyphs
  | _ => .error (.expected "a string")

/-- An integer of 64 bits without sign. -/
def natural : Form → Except Error Nat
  | .number numeral =>
    match numeral.integer? with
    | some (.ofNat n) => .ok n
    | _ => .error (.expected "a natural number of 64 bits")
  | _ => .error (.expected "a natural number of 64 bits")

/-- An integer of 64 bits with sign. -/
def signed64 : Form → Except Error Int
  | .number numeral =>
    match numeral.integer? with
    | some value =>
      if value < 0x8000000000000000 then .ok value else .error (.expected "an integer of 64 bits")
    | none => .error (.expected "an integer of 64 bits")
  | _ => .error (.expected "an integer of 64 bits")

/-- A number in single precision: the nearest to an integer, or to the double-precision value of any
    other number. -/
def single : Form → Except Error Float32
  | .number numeral =>
    match numeral.integer? with
    | some value => .ok (Parley.Number.singleOfInt value)
    | none => numeral.double.map Parley.Number.narrow
  | _ => .error (.expected "a number")

/-- Something that null stands for the lack of. -/
def optional {α : Type} (read : Form → Except Error α) : Form → Except Error (Option α)
  | .null => .ok none
  | form => (read form).map some

/-- The items of an array, each read with `read`. -/
def list {α : Type} (read : Form → Except Error α) : Form → Except Error (List α)
  | .array items => items.mapM read
  | _ => .error (.expected "an array")

/-- One of the values of `names`. -/
def choice {α : Type} (names : List (String × α)) (form : Form) : Except Error α := do
  let name ← match form with
    | .string glyphs => textOf glyphs
    | .object [(key, .null)] => textOf key
    | _ => .error (.expected "a name")
  match names.lookup name with
  | some value => .ok value
  | none => .error (.unknownName name)

/-- The members of an object with their keys decoded. -/
def keyed (members : List (List Glyph × Form)) : Except Error (List (String × Form)) :=
  members.mapM fun (key, value) => (textOf key).map fun name => (name, value)

/-- The forms of the fields `names` of a record, in this order. -/
def fields (names : List String) : Form → Except Error (List (Option Form))
  | .object members => do
    let members ← keyed members
    names.mapM fun name =>
      match members.filter (·.1 == name) with
      | [] => .ok none
      | [(_, value)] => .ok (some value)
      | _ => .error (.duplicateField name)
  | .array items =>
    if names.length < items.length then .error (.expected "no more items than fields")
    else .ok (items.map some ++ List.replicate (names.length - items.length) none)
  | _ => .error (.expected "a record")

/-- A field that has to be there. -/
def required {α : Type} (name : String) (read : Form → Except Error α) :
    Option Form → Except Error α
  | some form => read form
  | none => .error (.missingField name)

/-- A field that is `default` if it is not there. -/
def withDefault {α : Type} (default : α) (read : Form → Except Error α) :
    Option Form → Except Error α
  | some form => read form
  | none => .ok default

/-- An object as a list of its members, each value read with `read`; the last of several members
    with one key counts. -/
def dictionary {α : Type} (read : Form → Except Error α) :
    Form → Except Error (List (String × α))
  | .object members => do
    let members ← (← keyed members).mapM fun (key, value) =>
      (read value).map fun value => (key, value)
    return members.foldr
      (fun (key, value) rest => if (rest.lookup key).isSome then rest else (key, value) :: rest) []
  | _ => .error (.expected "an object")

end Parley.Json.Form
