import Parley.Number.Shortest

/-! # How numbers are written

    Messages write a number in single precision with all its places and no exponent.  JSON text
    always shows a point or an exponent, and turns to the exponent for the very large and the very
    small.
-/

namespace Parley.Number

/-- `digits · 10 ^ power` with all its places: no point for an integer. -/
def positional (digits : Nat) (power : Int) : String :=
  let text := (toString digits).toList
  if 0 ≤ power then String.ofList (text ++ List.replicate power.toNat '0')
  else
    let places := (-power).toNat
    let padded := List.replicate (places + 1 - text.length) '0' ++ text
    let whole := padded.length - places
    String.ofList (padded.take whole ++ '.' :: padded.drop whole)

/-- A minus sign in front of a negative number. -/
def signed (negative : Bool) (text : String) : String :=
  if negative then "-" ++ text else text

/-- `x` as a message shows it. -/
def plain (x : Float32) : String :=
  match partsSingle x with
  | .nan => "NaN"
  | .infinite negative => signed negative "inf"
  | .finite negative mantissa exponent =>
    if mantissa = 0 then signed negative "0"
    else
      let (digits, power) := single.shortest true mantissa exponent
      signed negative (positional digits power)

/-- Where JSON text turns to an exponent, which is written with its sign: a number is written out if
    its point comes after at most `whole` digits and before at most `zeros` leading zeros of the
    fraction. -/
structure Positional where
  whole : Int
  zeros : Int

/-- The limits for single precision. -/
def singlePositional : Positional := ⟨13, 5⟩

/-- The limits for double precision. -/
def doublePositional : Positional := ⟨16, 4⟩

/-- `digits · 10 ^ power` as JSON text. -/
def jsonText (limits : Positional) (digits : Nat) (power : Int) : String :=
  let text := toString digits
  let point : Int := text.length + power
  if 0 ≤ power && point ≤ limits.whole then positional digits power ++ ".0"
  else if -limits.zeros ≤ point && point ≤ limits.whole then positional digits power
  else
    let scientific := match text.toList with
      | [] => ""
      | [digit] => String.ofList [digit]
      | digit :: rest => String.ofList (digit :: '.' :: rest)
    let sign := if 0 < point then "+" else ""
    scientific ++ "e" ++ sign ++ toString (point - 1)

/-- The JSON text of a number taken apart; there is none for what is not finite. -/
def jsonParts (format : Format) (limits : Positional) : Parts → String
  | .nan | .infinite _ => "null"
  | .finite negative mantissa exponent =>
    if mantissa = 0 then signed negative "0.0"
    else
      let (digits, power) := format.shortest false mantissa exponent
      signed negative (jsonText limits digits power)

/-- The JSON text of a number in single precision. -/
def jsonSingle (x : Float32) : String := jsonParts single singlePositional (partsSingle x)

/-- The JSON text of a number in double precision. -/
def jsonDouble (x : Float) : String := jsonParts double doublePositional (partsDouble x)

end Parley.Number
