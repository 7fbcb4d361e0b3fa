import UpdateRelay.Failure
import UpdateRelay.Text.Letters
import UpdateRelay.Text.Pieces

/-!
# Logging

The format of the log and the filter that says what goes into it. Logging can be installed only
once.
-/

namespace UpdateRelay

inductive LogFormat
  | compact
  | json
  deriving DecidableEq, Repr

/-- The format that a setting selects, whatever the case of its ASCII letters. -/
def LogFormat.select (setting : String) : LogFormat :=
  if Text.toAsciiLower setting ∈ ["json", "jsonl"] then .json else .compact

namespace LogFilter

/-- The levels of parts of the program that would otherwise say too much. -/
def quieter : List String := ["rskafka=warn", "h2=warn", "tokio_util=warn"]

/-- The filter of a level: a list of directives, separated by commas. -/
def ofLevel (level : String) : String := ",".intercalate (level :: quieter)

/-- The words and numbers that stand for a level. -/
def levels : List String :=
  ["off", "error", "warn", "info", "debug", "trace", "0", "1", "2", "3", "4", "5"]

/-- Whether a directive can be used: a word that stands alone can, and what follows an equals
sign has to be a level or nothing. -/
def isDirective (directive : List Char) : Bool :=
  match directive.span (· ≠ '=') with
  | (_, []) => true
  | (target, _ :: level) =>
      !target.isEmpty &&
        (level.isEmpty || Text.toAsciiLower (String.ofList level) ∈ levels)

/-- Whether every directive of a filter can be used; empty ones can. -/
def isValid (filter : String) : Bool := (Text.pieces ',' filter.toList).all isDirective

end LogFilter

/-- Installs the log of a level, unless one is installed already. -/
def installLog (isInstalled : Bool) (level : String) : Except BrokerFailure Unit :=
  let filter := LogFilter.ofLevel level
  if !LogFilter.isValid filter then
    .error (.configuration s!"invalid log filter '{filter}'")
  else if isInstalled then .error (.configuration "logging already initialized")
  else .ok ()

end UpdateRelay
