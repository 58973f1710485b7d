/-! # Telemetry

    A timer counts the tokens of one generation and reports its progress: when the prompt is in the
    context, after each token, and at the end.  It never influences the generation.
-/

namespace Parley

/-- What one generation did. -/
structure Metrics where
  promptTokens : Nat := 0
  thinkingTokens : Nat := 0
  responseTokens : Nat := 0
  deriving DecidableEq, Repr, Inhabited

/-- The number of tokens generated on both channels. -/
def Metrics.generatedTokens (metrics : Metrics) : Nat :=
  metrics.thinkingTokens + metrics.responseTokens

/-- A report of a timer. -/
inductive Report
  /-- The prompt is in the context. -/
  | prefilled
  /-- The token with this running number was generated. -/
  | token (index : Nat)
  /-- The generation has ended. -/
  | complete (metrics : Metrics)
  deriving DecidableEq, Repr

/-- The metrics of the last generation that ended. -/
def Report.lastMetrics? (reports : List Report) : Option Metrics :=
  reports.foldl
    (fun last report => match report with
      | .complete metrics => some metrics
      | _ => last)
    none

/-- The counts of a generation, and the reports made so far. -/
structure Timer where
  metrics : Metrics := {}
  isPrefilled : Bool := false
  reports : List Report := []
  deriving DecidableEq, Repr, Inhabited

namespace Timer

/-- The timer with one more report. -/
def report (timer : Timer) (report : Report) : Timer :=
  { timer with reports := timer.reports ++ [report] }

/-- The prompt of `promptTokens` tokens is in the context. -/
def markPrefilled (timer : Timer) (promptTokens : Nat) : Timer :=
  { timer with metrics := { timer.metrics with promptTokens }, isPrefilled := true }.report
    .prefilled

/-- One more token was generated. -/
def reportToken (timer : Timer) : Timer := timer.report (.token timer.metrics.generatedTokens)

/-- A token went to the thinking channel. -/
def markThinking (timer : Timer) : Timer :=
  { timer with
    metrics := { timer.metrics with thinkingTokens := timer.metrics.thinkingTokens + 1 }
    : Timer }.reportToken

/-- A token went to the response channel. -/
def markResponse (timer : Timer) : Timer :=
  { timer with
    metrics := { timer.metrics with responseTokens := timer.metrics.responseTokens + 1 }
    : Timer }.reportToken

/-- The generation has ended. -/
def finish (timer : Timer) : Timer := timer.report (.complete timer.metrics)

end Timer

end Parley
