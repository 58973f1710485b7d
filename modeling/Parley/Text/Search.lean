/-! # Measuring and cutting text

    A text under search is a list of characters, and its size is counted in bytes of UTF-8, which is
    the unit of every limit on held text.
-/

namespace Parley.Text

/-- The number of bytes of `text` in UTF-8. -/
def byteLength : List Char → Nat
  | [] => 0
  | c :: rest => c.utf8Size + byteLength rest

/-- `text` cut at the first occurrence of `marker`: what stands before it and what follows it. -/
def splitAtFirst (marker : List Char) : (text : List Char) → Option (List Char × List Char)
  | [] => if marker.isEmpty then some ([], []) else none
  | c :: rest =>
    if marker.isPrefixOf (c :: rest) then some ([], (c :: rest).drop marker.length)
    else (splitAtFirst marker rest).map fun (before, after) => (c :: before, after)

/-- The cut for a text whose size is known: `size` is the number of bytes of the text. -/
def splitLastSized (limit : Nat) : (size : Nat) → (text : List Char) → List Char × List Char
  | _, [] => ([], [])
  | size, c :: rest =>
    if size ≤ limit then ([], c :: rest)
    else
      let (released, kept) := splitLastSized limit (size - c.utf8Size) rest
      (c :: released, kept)

/-- `text` cut before its longest end of at most `limit` bytes. -/
def splitLast (limit : Nat) (text : List Char) : List Char × List Char :=
  splitLastSized limit (byteLength text) text

/-- What remains of `text` after the beginning `start`, if it begins so. -/
def dropStart? (start text : List Char) : Option (List Char) :=
  if start.isPrefixOf text then some (text.drop start.length) else none

/-- The pieces of `text` between the occurrences of `separator`, with at most `fuel` cuts. -/
def splitOnWithin (separator : List Char) : (fuel : Nat) → (text : List Char) → List (List Char)
  | 0, text => [text]
  | fuel + 1, text =>
    match splitAtFirst separator text with
    | none => [text]
    | some (before, after) => before :: splitOnWithin separator fuel after

/-- The pieces of `text` between the occurrences of a non-empty `separator`, from left to right. -/
def splitOn (separator text : List Char) : List (List Char) :=
  splitOnWithin separator text.length text

end Parley.Text
