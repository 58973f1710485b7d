import Parley.Conversation.History
import Parley.Conversation.Template
import Parley.Sampling.Params
import Parley.Stream.Worker

/-! # Configurations

    A configuration is read from JSON, where every field may be left out, or set up in code.  The
    limits are normalized when they are set, and the sampling parameters of a configuration that was
    read are valid.
-/

namespace Parley

open Json (Form)

/-- Reads sampling parameters; what is left out keeps its default. -/
def SamplingParams.ofForm (form : Form) : Except Json.Error SamplingParams := do
  let default : SamplingParams := {}
  let names := ["seed", "top_k", "top_p", "temperature", "repeat_penalty", "repeat_last_n"]
  match ← form.fields names with
  | [seed, topK, topP, temperature, repeatPenalty, repeatLastN] =>
    return {
      seed := (← Form.withDefault default.seed.toNat Form.natural seed).toUInt64
      topK := ← Form.withDefault default.topK Form.natural topK
      topP := ← Form.withDefault default.topP Form.single topP
      temperature := ← Form.withDefault default.temperature Form.single temperature
      repeatPenalty := ← Form.withDefault default.repeatPenalty Form.single repeatPenalty
      repeatLastN := ← Form.withDefault default.repeatLastN Form.natural repeatLastN }
  | _ => .error (.expected "sampling parameters")

namespace ThinkingMode

/-- The name of a mode. -/
def name : ThinkingMode → String
  | .disabled => "none"
  | .enabled => "enabled"

/-- The modes by their names; thinking that is switched off has two. -/
def names : List (String × ThinkingMode) :=
  [("none", .disabled), ("disabled", .disabled), ("enabled", .enabled)]

end ThinkingMode

/-- What a client needs to know besides its engine. -/
structure Config where
  sampling : SamplingParams := {}
  /-- The most messages in the history. -/
  historyLimit : Nat := 6
  /-- The most tokens of one answer. -/
  maxNewTokens : Nat := 1024
  thinking : ThinkingMode := .enabled
  template : TemplateKind := .chatml
  systemPrompt : Option String := none
  deriving DecidableEq, Repr, Inhabited

/-- Why a text is no configuration. -/
inductive ConfigError
  | json (error : Json.Error)
  | sampling (error : SamplingError)
  deriving DecidableEq, Repr

namespace Config

/-- The configuration with limits that can be kept. -/
def normalize (config : Config) : Config :=
  { config with
    historyLimit := History.normalizeLimit config.historyLimit
    maxNewTokens := max config.maxNewTokens 1 }

/-- The configuration with another limit for the history. -/
def withHistoryLimit (config : Config) (limit : Nat) : Config :=
  { config with historyLimit := History.normalizeLimit limit }

/-- The configuration with another limit for answers. -/
def withMaxNewTokens (config : Config) (limit : Nat) : Config :=
  { config with maxNewTokens := max limit 1 }

/-- Refuses a configuration with which every generation would fail. -/
def validate (config : Config) : Except ConfigError Unit :=
  config.sampling.validate.mapError .sampling

/-- Reads a configuration as it is written. -/
def ofForm (form : Form) : Except Json.Error Config := do
  let default : Config := {}
  let names :=
    ["sampling", "history_limit", "max_new_tokens", "thinking", "template", "system_prompt"]
  match ← form.fields names with
  | [sampling, historyLimit, maxNewTokens, thinking, template, systemPrompt] =>
    return {
      sampling := ← Form.withDefault default.sampling SamplingParams.ofForm sampling
      historyLimit := ← Form.withDefault default.historyLimit Form.natural historyLimit
      maxNewTokens := ← Form.withDefault default.maxNewTokens Form.natural maxNewTokens
      thinking := ← Form.withDefault default.thinking (Form.choice ThinkingMode.names) thinking
      template := ← Form.withDefault default.template (Form.choice TemplateKind.names) template
      systemPrompt :=
        ← Form.withDefault default.systemPrompt (Form.optional Form.text) systemPrompt }
  | _ => .error (.expected "a configuration")

/-- Reads a configuration, normalizes its limits and validates it. -/
def parse (text : String) : Except ConfigError Config := do
  let form ← (Json.formOf text).mapError .json
  let config := (← (ofForm form).mapError .json).normalize
  config.validate
  return config

end Config

end Parley
