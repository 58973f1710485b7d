/-! # Sets of tokens

    A token is named by an identifier of 32 bits; identifiers of a vocabulary count up from 0.  A
    set of tokens is kept as the increasing array of its identifiers, and searched by bisection.
-/

namespace Parley

/-- The name of a token. -/
abbrev TokenId := Int32

/-- A set of tokens: its identifiers in increasing order, each once. -/
structure TokenSet where
  ids : Array TokenId := #[]
  deriving DecidableEq, Repr, Inhabited

namespace TokenSet

/-- The set without members. -/
def empty : TokenSet := {}

/-- The first position from `low` on, and before `high`, that does not hold an identifier below
    `token`; `high` if there is none.  Each step halves the stretch, and `fuel` bounds their number.
    -/
def bisect (ids : Array TokenId) (token : TokenId) : (fuel low high : Nat) → Nat
  | 0, low, _ => low
  | fuel + 1, low, high =>
    if low < high then
      let middle := (low + high) / 2
      if ids.getD middle token < token then bisect ids token fuel (middle + 1) high
      else bisect ids token fuel low middle
    else low

/-- Where `token` stands in the set, or would stand. -/
def position (set : TokenSet) (token : TokenId) : Nat :=
  bisect set.ids token set.ids.size 0 set.ids.size

/-- Whether `token` is a member. -/
def contains (set : TokenSet) (token : TokenId) : Bool :=
  set.ids[set.position token]? == some token

/-- Whether the token with the number `index` is a member. -/
def containsIndex (set : TokenSet) (index : Nat) : Bool :=
  index < 0x80000000 && set.contains (Int32.ofNat index)

/-- The set with `token` as a member. -/
def insert (set : TokenSet) (token : TokenId) : TokenSet :=
  if set.contains token then set
  else { ids := set.ids.insertIdxIfInBounds (set.position token) token }

/-- The set with the given members, in any order and with any repetitions. -/
def ofList (tokens : List TokenId) : TokenSet := tokens.foldl insert empty

/-- The members in increasing order. -/
def toList (set : TokenSet) : List TokenId := set.ids.toList

/-- The members of both sets. -/
def union (set other : TokenSet) : TokenSet := other.toList.foldl insert set

/-- The members that satisfy `keep`. -/
def filter (keep : TokenId → Bool) (set : TokenSet) : TokenSet := ofList (set.toList.filter keep)

/-- The members among optional tokens. -/
def ofOptions (tokens : List (Option TokenId)) : TokenSet := ofList (tokens.filterMap id)

/-- The number of members. -/
def size (set : TokenSet) : Nat := set.ids.size

/-- Whether there is no member. -/
def isEmpty (set : TokenSet) : Bool := set.ids.isEmpty

end TokenSet

end Parley
