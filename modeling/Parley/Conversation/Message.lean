import Parley.Json.Reader

/-! # Messages

    A conversation is a list of messages, each from the user or from the bot.
-/

namespace Parley

/-- Who wrote a message. -/
inductive Role
  | user
  | bot
  deriving DecidableEq, Repr, Inhabited

namespace Role

/-- The name of a role in JSON. -/
def name : Role → String
  | .user => "user"
  | .bot => "bot"

/-- The roles by their names. -/
def names : List (String × Role) := [Role.user, Role.bot].map fun role => (role.name, role)

end Role

/-- One entry of a conversation. -/
structure Message where
  role : Role
  content : String
  deriving DecidableEq, Repr, Inhabited

namespace Message

/-- The message as a JSON value. -/
def toJson (message : Message) : Json :=
  .object [("role", .string message.role.name), ("content", .string message.content)]

/-- Reads a message from its JSON form. -/
def ofForm (form : Json.Form) : Except Json.Error Message := do
  match ← form.fields ["role", "content"] with
  | [role, content] =>
    return { role := ← Json.Form.required "role" (Json.Form.choice Role.names) role
             content := ← Json.Form.required "content" Json.Form.text content }
  | _ => .error (.expected "a message")

end Message

end Parley
