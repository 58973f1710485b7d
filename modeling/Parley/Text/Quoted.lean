import Parley.Text.Printable

/-! # Quoted text in messages

    A message shows a text or a character between quotes, on one line.  Only the quote in use, the
    backslash and what does not show are escaped: the tab, the line breaks and the null character by
    a letter, the rest by their code in braces.
-/

namespace Parley.Text

/-- How `c` is written between two quotes of the kind `quote`. -/
def escaped (quote c : Char) : List Char :=
  if c = '\x00' then ['\\', '0']
  else if c = '\t' then ['\\', 't']
  else if c = '\r' then ['\\', 'r']
  else if c = '\n' then ['\\', 'n']
  else if c = '\\' || c = quote then ['\\', c]
  else if isPrintable c then [c]
  else ['\\', 'u', '{'] ++ Nat.toDigits 16 c.toNat ++ ['}']

/-- `text` between double quotes. -/
def quoted (text : String) : String :=
  String.ofList (['"'] ++ text.toList.flatMap (escaped '"') ++ ['"'])

/-- `c` between single quotes. -/
def quotedChar (c : Char) : String :=
  String.ofList (['\''] ++ escaped '\'' c ++ ['\''])

end Parley.Text
