import UpdateRelay.Settings.Basic
import UpdateRelay.Text.Integer
import UpdateRelay.Text.Pieces

/-!
# Settings from the environment

Each setting is read from a variable of its own. A variable that is missing or blank leaves its
setting at the default.
-/

namespace UpdateRelay

/-- Looks up the value of a variable. -/
abbrev Environment := String → Option String

namespace Environment

/-- The value of a variable that is not blank. -/
def value? (environment : Environment) (key : String) : Option String :=
  (environment key).filter fun value => !Text.isBlankText value

/-- The number that a variable holds; `fallback` when it is missing or blank. -/
def number (environment : Environment) (key : String) (range : Text.IntegerRange)
    (fallback : Int) : Except BrokerFailure Int :=
  match environment.value? key with
  | none => .ok fallback
  | some value =>
      match Text.integer? range (Text.trim value) with
      | some number => .ok number
      | none => .error (.configuration s!"{key}: not a valid number: {value}")

/-- The entries of a list that is separated by commas, without blank ones. -/
def entries (value : String) : List String :=
  ((Text.pieces ',' value.toList).map fun piece => String.ofList (Text.trimChars piece)).filter
    fun piece => piece ≠ ""

end Environment

/-! ## The broker's settings -/

namespace BrokerSettings

def kindKey : String := "COMMUNICATION_METHOD"

def nodesKey : String := "KAFKA_BROKERS"

def topicStemKey : String := "KAFKA_TOPIC_PREFIX"

def capacityKey : String := "UPDATES_BUFFER_CAPACITY"

def connectTimeKey : String := "KAFKA_CONNECT_TIMEOUT_MS"

def partitionsKey : String := "KAFKA_PARTITIONS"

/-- The settings that the environment holds, before they are checked against each other. -/
def read (environment : Environment) : Except BrokerFailure BrokerSettings := do
  let capacity ← environment.number capacityKey .count64 default.capacity
  let timeout ← environment.number connectTimeKey .count64 5000
  let partitions ← environment.number partitionsKey .signed32 default.partitions
  return {
    kind := ((environment.value? kindKey).map BrokerKind.select).getD default.kind
    nodes := ((environment.value? nodesKey).map Environment.entries).getD default.nodes
    topicStem := ((environment.value? topicStemKey).map Text.trim).getD default.topicStem
    capacity := capacity.toNat
    connectTime := Span.ofMilliseconds timeout.toNat
    partitions := partitions }

/-- The settings that the environment holds, if they can be used. -/
def ofEnvironment (environment : Environment) : Except BrokerFailure BrokerSettings := do
  let settings ← read environment
  settings.accept
  return settings

end BrokerSettings

/-! ## The service's settings -/

namespace ServiceSettings

def listenAddressKey : String := "LISTEN_ADDR"

def logLevelKey : String := "LOG_LEVEL"

def logFormatKey : String := "LOG_FORMAT"

/-- The settings that the environment holds. -/
def ofEnvironment (environment : Environment) : ServiceSettings where
  listenAddress :=
    ((environment.value? listenAddressKey).map Text.trim).getD default.listenAddress
  logLevel := ((environment.value? logLevelKey).map Text.trim).getD default.logLevel
  logFormat := ((environment.value? logFormatKey).map Text.trim).getD default.logFormat

end ServiceSettings

end UpdateRelay
