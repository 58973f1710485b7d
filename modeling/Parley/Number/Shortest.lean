import Parley.Number.Binary

/-! # The shortest decimal that reads back

    The numbers that round to a given binary number form an interval around it.  Its shortest
    decimal is the multiple of the largest power of ten that lies in this interval, and of several
    such multiples the one nearest to the number.
-/

namespace Parley.Number

/-- A positive number of a binary format, `mantissa · 2 ^ exponent`, with the interval of what
    rounds to it.  The gap to the number below is half the gap to the number above if `narrowBelow`.
    -/
structure Cell where
  mantissa : Nat
  exponent : Int
  narrowBelow : Bool

namespace Cell

/-- The lower end of the interval, in quarters of the last place. -/
def low (cell : Cell) : Nat := 4 * cell.mantissa - if cell.narrowBelow then 1 else 2

/-- The upper end of the interval, in quarters of the last place. -/
def high (cell : Cell) : Nat := 4 * cell.mantissa + 2

/-- A quarter of the last place in units of `10 ^ power`, as numerator and denominator. -/
def quarter (cell : Cell) (power : Int) : Nat × Nat :=
  let binary := cell.exponent - 2
  (Nat.pow 2 binary.toNat * Nat.pow 10 (-power).toNat,
    Nat.pow 2 (-binary).toNat * Nat.pow 10 power.toNat)

/-- Whether `digits · 10 ^ power` rounds to the number: it lies strictly inside the interval, or on
    an end of it if the mantissa is even. -/
def contains (cell : Cell) (power : Int) (digits : Nat) : Bool :=
  let (num, den) := cell.quarter power
  let inside := cell.low * num < digits * den && digits * den < cell.high * num
  let within := cell.low * num ≤ digits * den && digits * den ≤ cell.high * num
  inside || (cell.mantissa % 2 == 0 && within)

/-- The multiple of `10 ^ power` nearest to the number among those that round to it.  Of two equally
    near the upper one is taken if `tieUp`, else the even one. -/
def multiple? (cell : Cell) (tieUp : Bool) (power : Int) : Option Nat :=
  let (num, den) := cell.quarter power
  let floor := 4 * cell.mantissa * num / den
  let rest := 4 * cell.mantissa * num % den
  let upper := den < 2 * rest || (2 * rest == den && (tieUp || floor % 2 == 1))
  let (near, far) := if upper then (floor + 1, floor) else (floor, floor + 1)
  if cell.contains power near then some near
  else if cell.contains power far then some far
  else none

/-- The search for the largest power of ten, downwards from `power` in at most `fuel` steps. -/
def shortestFrom (cell : Cell) (tieUp : Bool) : (fuel : Nat) → (power : Int) → Nat × Int
  | 0, power => ((cell.multiple? tieUp power).getD 0, power)
  | fuel + 1, power =>
    match cell.multiple? tieUp power with
    | some digits => (digits, power)
    | none => cell.shortestFrom tieUp fuel (power - 1)

end Cell

/-- The cell of the positive number `mantissa · 2 ^ exponent` of `format`. -/
def Format.cell (format : Format) (mantissa : Nat) (exponent : Int) : Cell :=
  ⟨mantissa, exponent, mantissa == Nat.pow 2 format.fraction && exponent != format.lowest⟩

/-- The digits `d` and the power `k` of the shortest decimal `d · 10 ^ k` of a positive number. -/
def Format.shortest (format : Format) (tieUp : Bool) (mantissa : Nat) (exponent : Int) :
    Nat × Int :=
  -- No number of the format reaches `10 ^ span`, and each is above `10 ^ -(span + 16)`.
  let span := if format.exponentBits ≤ 8 then 39 else 309
  (format.cell mantissa exponent).shortestFrom tieUp (2 * span + 16) span

end Parley.Number
