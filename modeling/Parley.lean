import Parley.Client.Answer
import Parley.Client.Basic
import Parley.Client.Error
import Parley.Command.Actions
import Parley.Command.Arguments
import Parley.Command.Files
import Parley.Command.Program
import Parley.Config
import Parley.Constrained.Generate
import Parley.Constrained.Hand
import Parley.Constrained.Palette
import Parley.Constrained.Writer
import Parley.Conversation.History
import Parley.Conversation.Message
import Parley.Conversation.Template
import Parley.Engine
import Parley.Engine.Observed
import Parley.Engine.Script
import Parley.Engine.Scripted
import Parley.Engine.Tabulated
import Parley.Json.Form
import Parley.Json.Parser
import Parley.Json.Printer
import Parley.Json.Reader
import Parley.Json.Value
import Parley.Main
import Parley.Number.Binary
import Parley.Number.Decimal
import Parley.Number.Exponential
import Parley.Number.Literal
import Parley.Number.Notation
import Parley.Number.Shortest
import Parley.Sampling.Filter
import Parley.Sampling.Generator
import Parley.Sampling.Params
import Parley.Sampling.Sampler
import Parley.Schema.Basic
import Parley.Schema.Reader
import Parley.Session.Basic
import Parley.Session.Embedding
import Parley.Session.Prediction
import Parley.Stream.Router
import Parley.Stream.Worker
import Parley.Telemetry
import Parley.Text.Alphanumeric
import Parley.Text.Blank
import Parley.Text.Printable
import Parley.Text.Quoted
import Parley.Text.Ranges
import Parley.Text.Search
import Parley.Token.Batch
import Parley.Token.Classes
import Parley.Token.Set
import Parley.Vocabulary
import Parley.Proofs.Stream.Router
import Parley.Proofs.Stream.Delivery
import Parley.Proofs.Session.Alignment
import Parley.Proofs.Constrained.Conformance
import Parley.Proofs.Constrained.Generate
import Parley.Proofs.Schema.Faults
import Parley.Proofs.Session.Masking
import Parley.Proofs.Client.Isolation
import Parley.Proofs.Client.Claiming
import Parley.Proofs.Constrained.Stopping
import Parley.Proofs.Inquiry
import Parley.Proofs.Client.History
import Parley.Proofs.Stream.Forcing
import Parley.Proofs.Stream.Holding
import Parley.Proofs.Stream.Moments
import Parley.Proofs.Stream.Stopping
import Parley.Proofs.Stream.Counts
import Parley.Proofs.Stream.Tally
import Parley.Proofs.Constrained.Numerals
import Parley.Proofs.Constrained.Options
import Parley.Proofs.Constrained.Context
import Parley.Proofs.Constrained.FreeTexts
import Parley.Proofs.Client.Priming
import Parley.Proofs.Session.StopSequence
import Parley.Proofs.Session.Extraction
import Parley.Proofs.Engine.Reciting
import Parley.Proofs.Session.Reciting
import Parley.Proofs.Engine.Tokenizing
import Parley.Proofs.Sampling.Greedy
import Parley.Proofs.Sampling.Cutoff
import Parley.Proofs.Conversation.History
import Parley.Proofs.Sampling.Generator
import Parley.Proofs.Sampling.Drawing
import Parley.Proofs.Token.Operations
