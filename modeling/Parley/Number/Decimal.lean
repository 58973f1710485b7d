/-! # Reading decimals

    A decimal is read in two roundings.  Its digits are collected in a significand of 64 bits, where
    what does not fit is dropped; the significand becomes a number in double precision, which is
    then multiplied or divided by a power of ten.  So the result is near the decimal, but need not
    be the nearest number.  A decimal that is too large is refused, one that is too small becomes
    zero.
-/

namespace Parley.Number

/-- The value of a digit. -/
def digitValue (c : Char) : Nat := c.toNat - '0'.toNat

/-- The integer written with `digits`. -/
def digitsValue (digits : List Char) : Nat :=
  digits.foldl (fun value c => 10 * value + digitValue c) 0

/-- What a decimal is read as: `significand · 10 ^ power`. -/
structure Decimal where
  significand : Nat
  power : Int
  deriving DecidableEq, Repr, Inhabited

namespace Decimal

/-- Appends digits to a significand as long as it fits 64 bits; returns it with the digits that are
    left. -/
def collect (significand : Nat) : (digits : List Char) → Nat × List Char
  | [] => (significand, [])
  | c :: rest =>
    let longer := 10 * significand + digitValue c
    if longer < 0x10000000000000000 then collect longer rest else (significand, c :: rest)

/-- The decimal with the digits `whole` before the point, `fraction` behind it, and an exponent.  A
    digit before the point that does not fit still counts as a place. -/
def ofDigits (whole fraction : List Char) (exponent : Int) : Decimal :=
  let (significand, dropped) := collect 0 whole
  let (significand, ignored) := collect significand fraction
  { significand, power := exponent + dropped.length - (fraction.length - ignored.length : Nat) }

/-- The largest power of ten that is a number in double precision. -/
def maxPower : Nat := 308

/-- The number in double precision nearest to `10 ^ power`, which is at most `maxPower`. -/
def powerOfTen (power : Nat) : Float := Float.ofScientific 1 false power

/-- `x / 10 ^ places`, divided in several steps if there are more than `maxPower` places. -/
def divide (x : Float) (places : Nat) : Float :=
  if places ≤ maxPower then x / powerOfTen places
  else if x == 0 then x
  else divide (x / powerOfTen maxPower) (places - maxPower)
termination_by places
decreasing_by simp_all [maxPower]; omega

/-- `x * 10 ^ places`, unless that is too large.  No significand of 64 bits becomes too large by up
    to 288 places. -/
def multiply? (x : Float) (places : Nat) : Option Float :=
  if places ≤ 288 then some (x * powerOfTen places)
  else if places ≤ maxPower then
    let y := x * powerOfTen places
    if y.isFinite then some y else none
  else if x == 0 then some x
  else none

/-- The number in double precision that a decimal is read as, unless it is too large. -/
def double? (decimal : Decimal) : Option Float :=
  let x := decimal.significand.toUInt64.toFloat
  match decimal.power with
  | .ofNat places => multiply? x places
  | .negSucc places => some (divide x (places + 1))

end Decimal

end Parley.Number
