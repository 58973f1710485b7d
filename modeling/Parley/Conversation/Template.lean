import Parley.Conversation.Message

/-! # Chat templates

    A template writes a conversation as the prompt of a model: each message stands between an
    opening and a closing text for its author, and the prompt ends with the opening of an answer.
    The template also knows the text that ends an answer and the markers of thinking.
-/

namespace Parley

/-- The templates that are known by name. -/
inductive TemplateKind
  | chatml
  | llama3
  | qwen3
  | plain
  deriving DecidableEq, Repr, Inhabited

namespace TemplateKind

/-- The name of a template. -/
def name : TemplateKind → String
  | .chatml => "chatml"
  | .llama3 => "llama3"
  | .qwen3 => "qwen3"
  | .plain => "plain"

/-- The templates by their names. -/
def names : List (String × TemplateKind) :=
  [TemplateKind.chatml, .llama3, .qwen3, .plain].map fun kind => (kind.name, kind)

end TemplateKind

/-- The texts before and behind a message. -/
structure Enclosure where
  opening : String
  closing : String
  deriving DecidableEq, Repr, Inhabited

/-- The message between the two texts. -/
def Enclosure.wrap (enclosure : Enclosure) (content : String) : String :=
  enclosure.opening ++ content ++ enclosure.closing

/-- How a conversation is written for a model. -/
structure Template where
  system : Enclosure
  user : Enclosure
  bot : Enclosure
  stopSequence : Option String := none
  thinkingStart : Option String := none
  thinkingEnd : Option String := none
  deriving DecidableEq, Repr, Inhabited

namespace Template

/-! ## The known templates -/

/-- The opening and closing of a role in the format of ChatML. -/
def chatmlRole (role : String) : Enclosure := ⟨"<|im_start|>" ++ role ++ "\n", "<|im_end|>\n"⟩

/-- The format of ChatML. -/
def chatml : Template where
  system := chatmlRole "system"
  user := chatmlRole "user"
  bot := chatmlRole "assistant"
  stopSequence := some "<|im_end|>"

/-- The opening and closing of a role in the instruction format of Llama 3. -/
def llama3Role (role : String) : Enclosure :=
  ⟨"<|start_header_id|>" ++ role ++ "<|end_header_id|>\n\n", "<|eot_id|>"⟩

/-- The instruction format of Llama 3. -/
def llama3 : Template where
  system := llama3Role "system"
  user := llama3Role "user"
  bot := llama3Role "assistant"
  stopSequence := some "<|eot_id|>"

/-- The format of ChatML with thinking between two markers. -/
def qwen3 : Template :=
  { chatml with thinkingStart := some "<think>", thinkingEnd := some "</think>" }

/-- A format without control tokens. -/
def plain : Template where
  system := ⟨"", "\n\n"⟩
  user := ⟨"User: ", "\n"⟩
  bot := ⟨"Assistant: ", "\n"⟩

/-- The template of a kind. -/
def ofKind : TemplateKind → Template
  | .chatml => chatml
  | .llama3 => llama3
  | .qwen3 => qwen3
  | .plain => plain

/-! ## Writing a prompt -/

/-- The texts around the messages of a role. -/
def enclosure (template : Template) : Role → Enclosure
  | .user => template.user
  | .bot => template.bot

/-- A text without the spaces at its end. -/
def trimEndSpaces (text : String) : String :=
  String.ofList (text.toList.reverse.dropWhile (· == ' ')).reverse

/-- The system prompt in its place; an empty one is left out. -/
def writeSystem (template : Template) (system : Option String) : String :=
  match system.filter fun text => !text.isEmpty with
  | some text => template.system.wrap text
  | none => ""

/-- The prompt for `input` behind the messages of `history`. -/
def format (template : Template) (system : Option String) (history : List Message)
    (input : String) : String :=
  template.writeSystem system
    ++ String.join
      (history.map fun message => (template.enclosure message.role).wrap message.content)
    ++ template.user.wrap input
    ++ trimEndSpaces template.bot.opening

end Template

end Parley
