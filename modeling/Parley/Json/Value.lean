/-! # JSON values

    The members of an object keep their order, and each key occurs once.  A number is an integer of
    at most 64 bits or a number in double precision.
-/

namespace Parley

/-- A number of a JSON value. -/
inductive Json.Number
  | integer (value : Int)
  | real (value : Float)
  deriving Repr, DecidableEq, Inhabited

/-- A JSON value. -/
inductive Json
  | null
  | bool (value : Bool)
  | number (value : Json.Number)
  | string (value : String)
  | array (items : List Json)
  | object (members : List (String × Json))
  deriving Repr, BEq, Inhabited

namespace Json

/-- The value of the first member with the key `key`. -/
def lookup? (key : String) : (members : List (String × Json)) → Option Json
  | [] => none
  | (name, value) :: rest => if name = key then some value else lookup? key rest

/-- `members` with `key` bound to `value`: a key that is there keeps its place. -/
def bind (key : String) (value : Json) : (members : List (String × Json)) → List (String × Json)
  | [] => [(key, value)]
  | (name, old) :: rest =>
    if name = key then (name, value) :: rest else (name, old) :: bind key value rest

/-- The members of an object. -/
def members? : Json → Option (List (String × Json))
  | .object members => some members
  | _ => none

/-- The items of an array. -/
def items? : Json → Option (List Json)
  | .array items => some items
  | _ => none

/-- The text of a string. -/
def text? : Json → Option String
  | .string text => some text
  | _ => none

end Json

end Parley
