import Parley.Conversation.Template
import Parley.Number.Literal

/-! # Arguments of the program

    The program is called with one of four commands.  Options may stand before the command and
    behind it; an option that is given on both sides counts behind it, and one that is given twice
    on the same side is an error.  The value of an option follows it as the next argument or behind
    an equals sign, and begins with a hyphen only in the latter case.  Behind a lone double hyphen
    everything is text.  The words are read from left to right, and the first that makes no sense or
    asks for help decides.
-/

namespace Parley.Command

/-- The commands by name. -/
inductive Verb
  | chat
  | complete
  | json
  | embed
  deriving DecidableEq, Repr, Inhabited

/-- The command with a name. -/
def Verb.ofName? : String → Option Verb
  | "chat" => some .chat
  | "complete" => some .complete
  | "json" => some .json
  | "embed" => some .embed
  | _ => none

/-- A command with what it works on. -/
inductive Action
  | chat
  | complete (prompt : String)
  | json (prompt schema : String)
  | embed (text : String)
  deriving DecidableEq, Repr

/-- The options. -/
structure Options where
  /-- The text that the engine is to produce. -/
  script : Option String := none
  /-- The path of a configuration. -/
  config : Option String := none
  template : Option TemplateKind := none
  seed : Option Nat := none
  temperature : Option Float32 := none
  noThinking : Bool := false
  /-- The number of tokens that the context can hold. -/
  context : Option Nat := none
  /-- A schema, or the path of one. -/
  schema : Option String := none
  deriving DecidableEq, Repr, Inhabited

/-- The options given before the command or, where there are such, behind it. -/
def Options.merge (before behind : Options) : Options where
  script := behind.script <|> before.script
  config := behind.config <|> before.config
  template := behind.template <|> before.template
  seed := behind.seed <|> before.seed
  temperature := behind.temperature <|> before.temperature
  noThinking := behind.noThinking || before.noThinking
  context := behind.context <|> before.context
  schema := behind.schema <|> before.schema

/-- What the arguments ask for. -/
inductive Request
  | run (options : Options) (action : Action)
  | help
  | version
  deriving DecidableEq, Repr

/-- Why arguments make no sense. -/
inductive UsageError
  | missingCommand
  | unknownArgument (word : String)
  | missingValue (option : String)
  | invalidValue (option value : String)
  | repeatedOption (option : String)
  | missingArgument (name : String)
  deriving DecidableEq, Repr

/-- The error in words. -/
def UsageError.message : UsageError → String
  | .missingCommand => "a command is required"
  | .unknownArgument word => "unexpected argument '" ++ word ++ "'"
  | .missingValue option => "a value is required for '--" ++ option ++ "'"
  | .invalidValue option value => "invalid value '" ++ value ++ "' for '--" ++ option ++ "'"
  | .repeatedOption option => "the argument '--" ++ option ++ "' cannot be used multiple times"
  | .missingArgument name => "the argument <" ++ name ++ "> is required"

/-! ## Single options -/

/-- An option that takes a value. -/
inductive Setting
  | script
  | config
  | template
  | seed
  | temperature
  | context
  | schema
  deriving DecidableEq, Repr, Inhabited

namespace Setting

/-- The name of a setting. -/
def name : Setting → String
  | .script => "script"
  | .config => "config"
  | .template => "template"
  | .seed => "seed"
  | .temperature => "temperature"
  | .context => "context"
  | .schema => "schema"

/-- Whether a setting may be given with a command, or before any command. -/
def isKnownTo (setting : Setting) (verb : Option Verb) : Bool :=
  setting ≠ .schema || verb = some .json

/-- The settings. -/
def all : List Setting :=
  [.script, .config, .template, .seed, .temperature, .context, .schema]

/-- The setting with a name. -/
def ofName? (verb : Option Verb) (name : String) : Option Setting :=
  all.find? fun setting => setting.name = name && setting.isKnownTo verb

end Setting

namespace Options

/-- Stores a value that was read unless one is there already. -/
def store {α : Type} (setting : Setting) (text : String) (old value : Option α) :
    Except UsageError (Option α) :=
  match old, value with
  | some _, _ => .error (.repeatedOption setting.name)
  | none, none => .error (.invalidValue setting.name text)
  | none, some value => .ok (some value)

/-- Sets an option to a value given as text. -/
def set (options : Options) (setting : Setting) (text : String) : Except UsageError Options := do
  let chars := text.toList
  match setting with
  | .script => return { options with script := ← store setting text options.script (some text) }
  | .schema => return { options with schema := ← store setting text options.schema (some text) }
  | .config =>
    let path := if text.isEmpty then none else some text
    return { options with config := ← store setting text options.config path }
  | .template =>
    let kind := TemplateKind.names.lookup text
    return { options with template := ← store setting text options.template kind }
  | .seed =>
    return { options with seed := ← store setting text options.seed (Number.readNatural64? chars) }
  | .context =>
    let size := Number.readNatural64? chars
    return { options with context := ← store setting text options.context size }
  | .temperature =>
    let value := Number.readSingle? chars
    return { options with temperature := ← store setting text options.temperature value }

/-- Switches thinking off. -/
def setNoThinking (options : Options) : Except UsageError Options :=
  if options.noThinking then .error (.repeatedOption "no-thinking")
  else .ok { options with noThinking := true }

end Options

/-! ## Single words -/

/-- What a word of the arguments is. -/
inductive Word
  | text
  | escape
  | help
  | version
  | noThinking
  | setting (setting : Setting) (value : Option String)
  | unknown
  deriving DecidableEq, Repr

namespace Word

/-- What a word is that begins with two hyphens, without these. -/
def ofLong (verb : Option Verb) (rest : List Char) : Word :=
  let (name, value) := rest.span (· ≠ '=')
  let value := match value with
    | [] => none
    | _ :: value => some (String.ofList value)
  match String.ofList name, value with
  | "help", none => .help
  | "version", none => if verb.isNone then .version else .unknown
  | "no-thinking", none => .noThinking
  | name, value =>
    match Setting.ofName? verb name with
    | some found => .setting found value
    | none => .unknown

/-- What a word is that begins with one hyphen, without it. -/
def ofShort (verb : Option Verb) : (rest : List Char) → Word
  | 'h' :: _ => .help
  | 'V' :: _ => if verb.isNone then .version else .unknown
  | 's' :: value =>
    if verb = some .json then
      .setting .schema <| match value with
        | [] => none
        | '=' :: value => some (String.ofList value)
        | value => some (String.ofList value)
    else .unknown
  | _ => .unknown

/-- What a word is behind the command `verb`, or before any command. -/
def classify (verb : Option Verb) (word : String) : Word :=
  match word.toList with
  | ['-', '-'] => .escape
  | '-' :: '-' :: rest => ofLong verb rest
  | '-' :: c :: rest => ofShort verb (c :: rest)
  | _ => .text

end Word

/-- Whether a word can be the value of the option before it. -/
def isValue (word : String) : Bool := !word.startsWith "-" || word = "-"

/-! ## All arguments -/

/-- Why reading the arguments came to an early end. -/
inductive Interruption
  | help
  | version
  | misuse (error : UsageError)
  deriving DecidableEq, Repr

/-- The options that were given on one side of the command, and the text behind it. -/
structure Given where
  options : Options := {}
  text : Option String := none
  deriving DecidableEq, Repr, Inhabited

/-- Whether a text may stand behind a command. -/
def Verb.takesText : Verb → Bool
  | .chat => false
  | .complete | .json | .embed => true

/-- Takes a text that is given with the command `verb`, or before any command.  There is room for
    one at most. -/
def Given.addText (verb : Option Verb) (given : Given) (word : String) : Except UsageError Given :=
  if verb.any Verb.takesText && given.text.isNone then .ok { given with text := some word }
  else .error (.unknownArgument word)

/-- What is left to read. -/
structure Scan where
  given : Given
  /-- The command that was found, and the words behind it. -/
  command : Option (Verb × List String) := none
  deriving DecidableEq, Repr

/-- The command that a word names before any command. -/
def verbAt? (verb : Option Verb) (word : String) : Option Verb :=
  if verb.isNone then Verb.ofName? word else none

/-- Reads the words behind the command `verb`, or those before any command. -/
def scan (verb : Option Verb) : (words : List String) → Given → Except Interruption Scan
  | [], given => .ok { given }
  | word :: rest, given =>
    match verbAt? verb word with
    | some found => .ok { given, command := some (found, rest) }
    | none =>
      match Word.classify verb word with
      | .text =>
        if verb.isNone && word = "help" then helpOn rest
        else do
          let given ← (given.addText verb word).mapError .misuse
          scan verb rest given
      | .escape => do
        let given ← (rest.foldlM (Given.addText verb) given).mapError .misuse
        return { given }
      | .help => .error .help
      | .version => .error .version
      | .unknown => .error (.misuse (.unknownArgument word))
      | .noThinking => do
        let options ← given.options.setNoThinking.mapError .misuse
        scan verb rest { given with options }
      | .setting setting (some value) => do
        let options ← (given.options.set setting value).mapError .misuse
        scan verb rest { given with options }
      | .setting setting none =>
        match rest with
        | value :: rest =>
          if isValue value then do
            let options ← (given.options.set setting value).mapError .misuse
            scan verb rest { given with options }
          else .error (.misuse (.missingValue setting.name))
        | [] => .error (.misuse (.missingValue setting.name))
where
  /-- Help is asked for, on the program or on a command. -/
  helpOn : (words : List String) → Except Interruption Scan
    | [] => .error .help
    | [word] =>
      if (Verb.ofName? word).isSome || word = "help" then .error .help
      else .error (.misuse (.unknownArgument word))
    | _ :: word :: _ => .error (.misuse (.unknownArgument word))

/-- The action of a command with what was given behind it. -/
def Verb.action (verb : Verb) (given : Given) : Except UsageError Action :=
  match verb, given.text, given.options.schema with
  | .chat, _, _ => .ok .chat
  | .complete, some prompt, _ => .ok (.complete prompt)
  | .complete, none, _ => .error (.missingArgument "PROMPT")
  | .embed, some text, _ => .ok (.embed text)
  | .embed, none, _ => .error (.missingArgument "TEXT")
  | .json, some prompt, some schema => .ok (.json prompt schema)
  | .json, none, _ => .error (.missingArgument "PROMPT")
  | .json, some _, none => .error (.missingArgument "SCHEMA")

/-- Reads all arguments as a call. -/
def readCall (words : List String) : Except Interruption (Options × Action) := do
  let before ← scan none words {}
  match before.command with
  | none => .error (.misuse .missingCommand)
  | some (verb, rest) =>
    let behind ← scan (some verb) rest {}
    let action ← (verb.action behind.given).mapError .misuse
    return (before.given.options.merge behind.given.options, action)

/-- Reads the arguments of the program. -/
def readArguments (words : List String) : Except UsageError Request :=
  match readCall words with
  | .ok (options, action) => .ok (.run options action)
  | .error .help => .ok .help
  | .error .version => .ok .version
  | .error (.misuse error) => .error error

end Parley.Command
