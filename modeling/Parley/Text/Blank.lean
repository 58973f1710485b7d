/-! # Blank and control characters

    Blank characters are those of the Unicode property White_Space; control characters are those of
    general category Cc.
-/

namespace Parley.Text

/-- Spaces, line breaks and tabs of every script. -/
def isBlank (c : Char) : Bool :=
  let code := c.toNat
  (0x09 ≤ code && code ≤ 0x0d) || code == 0x20 || code == 0x85 || code == 0xa0 || code == 0x1680
    || (0x2000 ≤ code && code ≤ 0x200a) || code == 0x2028 || code == 0x2029 || code == 0x202f
    || code == 0x205f || code == 0x3000

/-- The two blocks of control characters, with the delete character between them. -/
def isControl (c : Char) : Bool :=
  c.toNat < 0x20 || (0x7f ≤ c.toNat && c.toNat < 0xa0)

/-- `text` without the blank characters at its start. -/
def trimStart (text : List Char) : List Char := text.dropWhile isBlank

/-- `text` without the blank characters at its two ends. -/
def trim (text : List Char) : List Char := (trimStart (trimStart text).reverse).reverse

end Parley.Text
