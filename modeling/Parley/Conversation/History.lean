import Parley.Conversation.Message

/-! # Bounded histories

    A history holds the last turns of a conversation.  A turn is a message of the user and the
    answer of the bot; turns are added and dropped whole, so a history never starts with the bot.
-/

namespace Parley

/-- The last messages of a conversation, at most `limit` of them. -/
structure History where
  limit : Nat
  entries : List Message := []
  deriving DecidableEq, Repr, Inhabited

namespace History

/-- The limit that is kept when `limit` is asked for: whole turns, and at least one. -/
def normalizeLimit (limit : Nat) : Nat := max (limit - limit % 2) 2

/-- An empty history. -/
def new (limit : Nat) : History where
  limit := normalizeLimit limit

/-- The number of turns. -/
def turns (history : History) : Nat := history.entries.length / 2

/-- `entries` without its oldest turns, as few as bring it down to `limit` entries. -/
def shrink (limit : Nat) : (entries : List Message) → List Message
  | first :: second :: rest =>
    if limit < rest.length + 2 then shrink limit rest else first :: second :: rest
  | entries => entries

/-- Adds a turn and drops the oldest ones beyond the limit. -/
def pushTurn (history : History) (user bot : String) : History :=
  { history with
    entries := shrink history.limit (history.entries ++ [⟨.user, user⟩, ⟨.bot, bot⟩]) }

/-- The history without its oldest turn, if it has one. -/
def evictOldest? (history : History) : Option History :=
  match history.entries with
  | _ :: _ :: rest => some { history with entries := rest }
  | _ => none

/-- The history without any turn. -/
def clear (history : History) : History := { history with entries := [] }

end History

end Parley
