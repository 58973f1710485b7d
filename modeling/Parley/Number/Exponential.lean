import Parley.Number.Binary

/-! # The exponential in single precision

    The argument is reduced to `k · ln 2 / 32 + r` with `r` small.  Then `2 ^ (k / 32)` is a power
    of two times an entry of a table, and `e ^ r` is a cubic in `r`.  All this is done in double
    precision and rounded once at the end.
-/

namespace Parley.Number

/-- Entry `j` holds the bits of `2 ^ (j / 32)`, less `j · 2 ^ 47`: adding `k · 2 ^ 47` for any `k`
    that is `j` modulo 32 then scales the entry by a power of two. -/
def exponentialTable : Array UInt64 := #[
    0x3ff0000000000000, 0x3fefd9b0d3158574, 0x3fefb5586cf9890f, 0x3fef9301d0125b51,
    0x3fef72b83c7d517b, 0x3fef54873168b9aa, 0x3fef387a6e756238, 0x3fef1e9df51fdee1,
    0x3fef06fe0a31b715, 0x3feef1a7373aa9cb, 0x3feedea64c123422, 0x3feece086061892d,
    0x3feebfdad5362a27, 0x3feeb42b569d4f82, 0x3feeab07dd485429, 0x3feea47eb03a5585,
    0x3feea09e667f3bcd, 0x3fee9f75e8ec5f74, 0x3feea11473eb0187, 0x3feea589994cce13,
    0x3feeace5422aa0db, 0x3feeb737b0cdc5e5, 0x3feec49182a3f090, 0x3feed503b23e255d,
    0x3feee89f995ad3ad, 0x3feeff76f2fb5e47, 0x3fef199bdd85529c, 0x3fef3720dcef9069,
    0x3fef5818dcfba487, 0x3fef7c97337b9b5f, 0x3fefa4afa2a490da, 0x3fefd0765b6e4540]

/-- `e ^ x` for a finite `x` whose exponential neither overflows nor vanishes.  Adding
    `1.5 · 2 ^ 52` rounds to an integer and leaves it in the low bits. -/
def expReduced (x : Float) : Float :=
  let scaled := Float.ofBits 0x40471547652b82fe * x
  let shift := Float.ofBits 0x4338000000000000
  let shifted := scaled + shift
  let k := shifted.toBits
  let r := scaled - (shifted - shift)
  let entry := exponentialTable.getD (k % 32).toNat 0
  let scale := Float.ofBits (entry + (k <<< 47))
  let upper := Float.ofBits 0x3ebc6af84b912394 * r + Float.ofBits 0x3f2ebfce50fac4f3
  let lower := Float.ofBits 0x3f962e42ff0c52d6 * r + 1
  (upper * (r * r) + lower) * scale

/-- `e ^ x` in single precision. -/
def exp (x : Float32) : Float32 :=
  if x == negInfinity then 0
  else if x.isNaN || x == infinity then x
  -- 128 · ln 2, and -150 · ln 2, beyond which the result is above and below every number.
  else if Float32.ofBits 0x42b17217 < x then infinity
  else if x < Float32.ofBits 0xc2cff1b4 then 0
  else narrow (expReduced (widen x))

/-- `e ^ x` for an `x` that is not positive: rounding takes the result neither below 0 nor
    above 1. -/
def expNonpos (x : Float32) : Float32 :=
  if x.isNaN then x
  else
    let y := exp x
    if 0 ≤ y then if y ≤ 1 then y else 1 else 0

end Parley.Number
