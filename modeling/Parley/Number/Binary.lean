/-! # Binary floating-point formats

    A finite number of a binary format is `mantissa · 2 ^ exponent`.  This module takes numbers of
    the two formats apart, and moves them from one format to the other: widening is exact, narrowing
    goes to the nearest number, the even one of two equally near.
-/

namespace Parley.Number

/-- The widths of a binary format: `fraction` stored bits of the mantissa, `exponentBits` bits of
    the biased exponent, and `lowest`, the exponent of the last place of the smallest numbers. -/
structure Format where
  fraction : Nat
  exponentBits : Nat
  lowest : Int

/-- The format of `Float32`. -/
def single : Format := ⟨23, 8, -149⟩

/-- The format of `Float`. -/
def double : Format := ⟨52, 11, -1074⟩

/-- A number of a binary format, taken apart. -/
inductive Parts
  | nan
  | infinite (negative : Bool)
  | finite (negative : Bool) (mantissa : Nat) (exponent : Int)
  deriving Repr, DecidableEq

/-- The number that the bits `bits` stand for in `format`. -/
def Format.parts (format : Format) (bits : Nat) : Parts :=
  let unit := Nat.pow 2 format.fraction
  let exponents := Nat.pow 2 format.exponentBits
  let fraction := bits % unit
  let biased := bits / unit % exponents
  let negative := unit * exponents ≤ bits
  if biased = exponents - 1 then
    if fraction = 0 then .infinite negative else .nan
  else if biased = 0 then .finite negative fraction format.lowest
  else .finite negative (unit + fraction) (format.lowest + (biased - 1 : Nat))

/-- `x` taken apart. -/
def partsSingle (x : Float32) : Parts := single.parts x.toBits.toNat

/-- `x` taken apart. -/
def partsDouble (x : Float) : Parts := double.parts x.toBits.toNat

/-! ## Constants -/

/-- The positive infinity of single precision. -/
def infinity : Float32 := Float32.ofBits 0x7f800000

/-- The negative infinity of single precision. -/
def negInfinity : Float32 := Float32.ofBits 0xff800000

/-- The value that is no number. -/
def notANumber : Float32 := Float32.ofBits 0x7fc00000

/-! ## Between the formats -/

/-- The number `x` in double precision, exactly. -/
def widen (x : Float32) : Float :=
  let bits := x.toBits.toUInt64
  let sign := (bits >>> 31) <<< 63
  let biased := (bits >>> 23) &&& 0xff
  let fraction := bits &&& 0x7fffff
  if biased = 0xff then Float.ofBits (sign ||| (0x7ff0000000000000 : UInt64) ||| (fraction <<< 29))
  else if biased = 0 then
    -- The last place of the smallest numbers is 2 ^ -149.
    let magnitude := fraction.toFloat * Float.ofBits 0x36a0000000000000
    Float.ofBits (sign ||| magnitude.toBits)
  else Float.ofBits (sign ||| ((biased + 896) <<< 52) ||| (fraction <<< 29))

/-- `mantissa / 2 ^ shift`, to the nearest integer, a half to the even one. -/
def roundShift (mantissa shift : UInt64) : UInt64 :=
  let quotient := mantissa >>> shift
  let rest := mantissa &&& ((1 <<< shift) - 1)
  let half : UInt64 := 1 <<< (shift - 1)
  if half < rest || (rest = half && quotient &&& 1 = 1) then quotient + 1 else quotient

/-- The number of single precision nearest to `x`, the even one of two.  What is too large becomes
    infinite.  A carry out of the mantissa runs into the exponent, which is the next number up. -/
def narrow (x : Float) : Float32 :=
  let bits := x.toBits
  let sign := (bits >>> 63) <<< 31
  let biased := (bits >>> 52) &&& 0x7ff
  let fraction := bits &&& 0xfffffffffffff
  let magnitude : UInt64 :=
    if biased = 0x7ff then if fraction = 0 then 0x7f800000 else 0x7fc00000
    else if 1150 < biased then 0x7f800000
    else if 896 < biased then roundShift (((biased - 896) <<< 52) ||| fraction) 29
    else if 871 < biased then roundShift (((1 : UInt64) <<< 52) ||| fraction) (926 - biased)
    else 0
  Float32.ofBits (sign ||| magnitude).toUInt32

/-- The number of single precision nearest to the integer `value`, which has at most 64 bits. -/
def singleOfInt (value : Int) : Float32 :=
  match value with
  | .ofNat n => n.toUInt64.toFloat32
  | .negSucc n => -(n + 1).toUInt64.toFloat32

end Parley.Number
