import Parley.Text.Search

/-! # Scripts

    A script is the text that a scripted engine wants to produce behind its prompt.  Where the
    end-of-sequence piece stands in the written script the engine prefers to stop; it goes on if it
    is not allowed to.
-/

namespace Parley

/-- A text to produce, and the lengths of its beginnings after which stopping is preferred. -/
structure Script where
  text : List Char
  stops : List Nat
  deriving DecidableEq, Repr, Inhabited

namespace Script

/-- The text of the end-of-sequence piece. -/
def stopMark : List Char := ['<', '/', 's', '>']

/-- The script made of `parts`, which follow a text of `length` characters; a stop is preferred
    after each part but the last. -/
def join (length : Nat) : (parts : List (List Char)) → Script
  | [] => ⟨[], []⟩
  | [part] => ⟨part, []⟩
  | part :: rest =>
    let script := join (length + part.length) rest
    ⟨part ++ script.text, (length + part.length) :: script.stops⟩

/-- The script written as `raw`. -/
def parse (raw : String) : Script := join 0 (Text.splitOn stopMark raw.toList)

/-- What is still to come after `generated`; nothing if the script is complete or was left. -/
def remaining? (script : Script) (generated : List Char) : Option (List Char) :=
  match Text.dropStart? generated script.text with
  | some (c :: rest) => some (c :: rest)
  | _ => none

/-- Whether stopping is preferred after `generated`. -/
def prefersStop (script : Script) (generated : List Char) : Bool :=
  generated.isPrefixOf script.text && script.stops.contains generated.length

end Script

end Parley
