/-! # Random numbers

    A generator is a 64-bit word that is never zero.  A step exclusive-ors the word with three
    shifts of itself, and a draw is the upper 24 bits of the new word as a fraction.
-/

namespace Parley

/-- The state of a generator of random numbers. -/
structure Generator where
  state : UInt64
  deriving DecidableEq, Repr, Inhabited

namespace Generator

/-- The generator with the seed `seed`; zero, from which no step leads away, counts as one. -/
def ofSeed (seed : UInt64) : Generator := ⟨if seed = 0 then 1 else seed⟩

/-- The word after the word `x`. -/
def step (x : UInt64) : UInt64 :=
  let x := x ^^^ (x <<< 13)
  let x := x ^^^ (x >>> 7)
  x ^^^ (x <<< 17)

/-- The next generator. -/
def next (generator : Generator) : Generator := ⟨step generator.state⟩

/-- The upper 24 bits of the word. -/
def upper (generator : Generator) : UInt64 := generator.state >>> 40

/-- The draw that the generator stands at: a multiple of `2 ^ -24` from 0 to below 1. -/
def value (generator : Generator) : Float32 := generator.upper.toFloat32 / 16777216

end Generator

end Parley
