import Parley.Constrained.Hand
import Parley.Constrained.Palette
import Parley.Json.Printer
import Parley.Text.Search

/-! # Writing values of a schema

    Structure is written literally: braces, keys, commas and quotes.  Values are chosen token by
    token from sets that leave no way out of the schema, so whatever the hand chooses, the text
    parses and conforms.
-/

namespace Parley

/-- A hand at work: its state, and the text written so far. -/
structure Draft (s : Type) where
  hand : s
  text : String := ""

/-- A step of writing, which may fail. -/
abbrev WriterM (ε s : Type) := EStateM ε (Draft s)

namespace Writer

variable {ε s α : Type}

/-- Runs a step of the hand. -/
def onHand (step : EStateM ε s α) : WriterM ε s α := fun draft =>
  match step draft.hand with
  | .ok value hand => .ok value { draft with hand }
  | .error error hand => .error error { draft with hand }

/-- Puts `text` behind the text of the draft. -/
def append (text : String) : WriterM ε s Unit :=
  modify fun draft => { draft with text := draft.text ++ text }

variable (hand : Hand ε s) (palette : Palette)

/-- Lets the hand choose. -/
def choose (allowed : TokenSet) : WriterM ε s (Option TokenId) := onHand (hand.choose allowed)

/-- Writes a literal text. -/
def literal (text : String) : WriterM ε s Unit := do
  onHand (hand.feed text)
  append text

/-- Writes a chosen token; returns its text. -/
def take (token : TokenId) : WriterM ε s String := do
  onHand (hand.accept token)
  let piece ← onHand (hand.piece token)
  append piece
  return piece

/-- How many choices a value can take that ends after `most` of them if each is an allowed one.  Any
    others use up the room. -/
def patience (most : Nat) : WriterM ε s Nat := return most + hand.room (← get).hand

/-! ## Strings -/

/-- The body of a free text, with at most `room` more tokens.  `written` holds the tokens written
    before, the newest first, and `nonblank` whether they have a character that is not blank.  The
    third of three equal tokens is the last. -/
def stringBody : (room : Nat) → (written : List TokenId) → (nonblank : Bool) → WriterM ε s Unit
  | 0, _, _ => return ()
  | room + 1, written, nonblank => do
    let allowed := if nonblank then palette.stringClosable else palette.stringOpen
    match ← choose hand allowed with
    | none => return ()
    | some token =>
      if some token = palette.quote then return ()
      else
        let piece ← take hand token
        if written.take 2 == [token, token] then return ()
        else
          stringBody room (token :: written) (nonblank || TokenClasses.isNonblank piece)

/-- A free text between quotes. -/
def freeString : WriterM ε s Unit := do
  literal hand "\""
  stringBody hand palette maxStringTokens [] false
  literal hand "\""

/-- The tokens of `tokens` whose text begins one of `remainders`, added to `allowed`. -/
def continuing (remainders : List (List Char)) :
    (tokens : List TokenId) → (allowed : TokenSet) → WriterM ε s TokenSet
  | [], allowed => return allowed
  | token :: rest, allowed => do
    let piece := (← onHand (hand.piece token)).toList
    let fits := !piece.isEmpty && remainders.any (piece.isPrefixOf ·)
    continuing remainders rest (if fits then allowed.insert token else allowed)

/-- What may follow where any of `remainders` may be written: tokens that begin one of them, and the
    quote if one of them is empty. -/
def continuations (remainders : List (List Char)) : WriterM ε s TokenSet :=
  let closing := if remainders.any (·.isEmpty) then [palette.quote] else []
  continuing hand remainders palette.stringBody.toList (TokenSet.ofOptions closing)

/-- A literal text, if it is not empty. -/
def literalIfAny (text : List Char) : WriterM ε s Unit :=
  if text.isEmpty then return () else literal hand (String.ofList text)

/-- The rest of one of `values` behind its beginning `generated`, with at most `fuel` choices. -/
def enumBody (values : List (List Char)) :
    (fuel : Nat) → (generated : List Char) → WriterM ε s Unit
  | 0, _ => return ()
  | fuel + 1, generated => do
    match values.filterMap (Text.dropStart? generated) with
    | [] => return ()
    | [remainder] => literalIfAny hand remainder
    | first :: second :: rest =>
      let allowed ← continuations hand palette (first :: second :: rest)
      match ← choose hand allowed with
      | none => literalIfAny hand first
      | some token =>
        if some token = palette.quote then return ()
        else
          let piece ← take hand token
          enumBody values fuel (generated ++ piece.toList)

/-- One more than the length of the longest of `values`. -/
def enumFuel (values : List (List Char)) : Nat :=
  values.foldl (fun most value => max most (value.length + 1)) 1

/-- One of `values` between quotes. -/
def enumString (values : List String) : WriterM ε s Unit := do
  let values := values.map String.toList
  literal hand "\""
  enumBody hand palette values (← patience hand (enumFuel values)) []
  literal hand "\""

/-! ## Numbers and truth values -/

/-- The rest of a number behind its beginning `text`, with at most `fuel` more tokens; returns the
    whole of it. -/
def numberBody (real : Bool) (cap : Nat) :
    (fuel : Nat) → (text : List Char) → WriterM ε s (List Char)
  | 0, text => return text
  | fuel + 1, text => do
    if cap ≤ Text.byteLength text then return text
    else
      match ← choose hand (palette.numberNext real cap text) with
      | none => return text
      | some token =>
        if palette.terminators.contains token then return text
        else
          let piece ← take hand token
          numberBody real cap fuel (text ++ piece.toList)

/-- What completes a number that ended too early. -/
def numberCompletion (real : Bool) (text : List Char) : String :=
  if text == ['-'] && !real then "1"
  else if text.isEmpty || text == ['-'] || text.getLast? == some '.' then "0"
  else ""

/-- A number; `real` says whether it may have a point. -/
def number (real : Bool) : WriterM ε s Unit := do
  let cap := if real then maxNumberChars else maxIntegerChars
  let text ← numberBody hand palette real cap (← patience hand cap) []
  literalIfAny hand (numberCompletion real text).toList

/-- A truth value. -/
def boolean : WriterM ε s Unit := do
  match ← choose hand palette.booleans with
  | some token => discard (take hand token)
  | none => literal hand "false"

/-! ## Values -/

/-- Lets the hand choose between `null` and a value of the type; only the null is written. -/
def chooseNull (type : FieldType) : WriterM ε s Bool := do
  match palette.null with
  | none => return false
  | some null =>
    if (← choose hand ((palette.opening type).insert null)) = some null then
      discard (take hand null)
      return true
    else return false

/-- Items written with `item`, at most `room` of them, and the closing bracket. -/
def items (item : WriterM ε s Unit) : (room : Nat) → WriterM ε s Unit
  | 0 => literal hand "]"
  | room + 1 => do
    item
    if room = 0 then literal hand "]"
    else
      match ← choose hand palette.itemEnds with
      | none => literal hand "]"
      | some token =>
        discard (take hand token)
        if some token = palette.comma then items item room

mutual

/-- A value of a type. -/
def value : FieldType → WriterM ε s Unit
  | .string none => freeString hand palette
  | .string (some allowed) => enumString hand palette allowed
  | .integer => number hand palette false
  | .number => number hand palette true
  | .boolean => boolean hand palette
  | .object fields => do
    literal hand "\x7b"
    members true fields
    literal hand "\x7d"
  | .array type => do
    literal hand "["
    items hand palette (value type) maxArrayItems

/-- The members of an object; `first` says whether none comes before. -/
def members (first : Bool) : List (Field FieldType) → WriterM ε s Unit
  | [] => return ()
  | field :: rest => do
    if !first then literal hand ","
    member field
    members false rest

/-- A member of an object. -/
def member : Field FieldType → WriterM ε s Unit
  | ⟨name, type, required⟩ => do
    literal hand (Json.quote name ++ ":")
    let isNull ← if required then pure false else chooseNull hand palette type
    if !isNull then value type

end

/-- An object with the fields of the schema. -/
def object (schema : Schema) : WriterM ε s Unit := value hand palette (.object schema.fields)

end Writer

end Parley
