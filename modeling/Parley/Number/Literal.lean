import Parley.Number.Binary

/-! # Numbers in arguments

    How numbers are given as arguments of a program.  A sign may lead, blanks may not stand
    anywhere.  A number in single precision may also be infinite or no number; a decimal point needs
    a digit on one side only.
-/

namespace Parley.Number

/-- A text of digits, of which there is at least one. -/
def digits? (text : List Char) : Option Nat :=
  if text.isEmpty || !text.all Char.isDigit then none
  else some (text.foldl (fun value c => 10 * value + (c.toNat - '0'.toNat)) 0)

/-- A text without its sign, and whether that is a minus. -/
def splitSign : (text : List Char) → Bool × List Char
  | '-' :: rest => (true, rest)
  | '+' :: rest => (false, rest)
  | text => (false, text)

/-- An integer of 64 bits without sign; a plus may lead. -/
def readNatural64? (text : List Char) : Option Nat :=
  let unsigned := match text with
    | '+' :: rest => rest
    | _ => text
  (digits? unsigned).filter (· < 0x10000000000000000)

/-- The number in single precision nearest to `digits · 10 ^ power`.  Far beyond both ends of the
    format the answer is known without computing the power. -/
def nearestSingle (digits : Nat) (power : Int) : Float32 :=
  if digits = 0 then 0
  else
    -- The decimal lies between 10 ^ (magnitude - 1) and 10 ^ magnitude.
    let magnitude := (toString digits).length + power
    if 100 < magnitude then infinity
    else if magnitude < -100 then 0
    else match power with
      | .ofNat n => Float32.ofScientific digits false n
      | .negSucc n => Float32.ofScientific digits true (n + 1)

/-- An exponent behind its letter; no text is the exponent zero. -/
def exponent? : (text : List Char) → Option Int
  | [] => some 0
  | c :: rest =>
    if c = 'e' || c = 'E' then
      let (negative, digits) := splitSign rest
      (digits? digits).map fun n => if negative then -(n : Int) else n
    else none

/-- A decimal without sign, with or without a point and an exponent. -/
def readDecimal? (text : List Char) : Option Float32 :=
  let (whole, rest) := text.span Char.isDigit
  let (fraction, rest) := match rest with
    | '.' :: rest => rest.span Char.isDigit
    | _ => ([], rest)
  match digits? (whole ++ fraction), exponent? rest with
  | some digits, some exponent => some (nearestSingle digits (exponent - fraction.length))
  | _, _ => none

/-- A number in single precision. -/
def readSingle? (text : List Char) : Option Float32 :=
  let (negative, magnitude) := splitSign text
  let value :=
    match String.ofList (magnitude.map Char.toLower) with
    | "inf" | "infinity" => some infinity
    | "nan" => some notANumber
    | _ => readDecimal? magnitude
  value.map fun x => if negative then -x else x

end Parley.Number
