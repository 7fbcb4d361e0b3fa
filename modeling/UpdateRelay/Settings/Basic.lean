import UpdateRelay.Failure
import UpdateRelay.Text.Blank
import UpdateRelay.Text.Letters

/-!
# Settings

What a broker and the service are set up with, their defaults, and which settings of a broker can
be used together.
-/

namespace UpdateRelay

inductive BrokerKind
  | inProcess
  | durable
  deriving DecidableEq, Repr

namespace BrokerKind

def name : BrokerKind → String
  | inProcess => "in_process"
  | durable => "durable"

/-- The kind that a setting selects: `kafka` and `durable` select the durable one, whatever their
case and the white space around them, and everything else the other. -/
def select (setting : String) : BrokerKind :=
  if Text.toAsciiLower (Text.trim setting) ∈ ["kafka", "durable"] then durable else inProcess

end BrokerKind

/-- A span of time with nanosecond precision; `nanoseconds` is less than a second. -/
structure Span where
  seconds : Nat
  nanoseconds : Nat
  deriving DecidableEq, Repr

namespace Span

def ofMilliseconds (milliseconds : Nat) : Span :=
  ⟨milliseconds / 1000, milliseconds % 1000 * 1000000⟩

/-- The span of seconds and nanoseconds that may be a second or more, unless its seconds would
need more than 64 bits. -/
def ofParts? (seconds nanoseconds : Nat) : Option Span :=
  let carried := seconds + nanoseconds / 1000000000
  if carried ≤ 0xffffffffffffffff then some ⟨carried, nanoseconds % 1000000000⟩ else none

end Span

/-- How many events a subscription's mailbox holds unless another number is set. -/
def defaultCapacity : Nat := 10

/-- What a broker is set up with. -/
structure BrokerSettings where
  kind : BrokerKind
  nodes : List String
  topicStem : String
  capacity : Nat
  connectTime : Span
  partitions : Int
  deriving DecidableEq, Repr

namespace BrokerSettings

/-- The settings that hold where nothing else is set. -/
def default : BrokerSettings where
  kind := .inProcess
  nodes := ["localhost:9092"]
  topicStem := "issue-tracker"
  capacity := defaultCapacity
  connectTime := ⟨5, 0⟩
  partitions := 1

instance : Inhabited BrokerSettings := ⟨default⟩

/-- The default settings of a durable broker over some nodes. -/
def durable (nodes : List String) : BrokerSettings :=
  { default with kind := .durable, nodes := nodes }

def topic (settings : BrokerSettings) : String := settings.topicStem ++ ".projects"

/-- Why the settings cannot be used, if they cannot. -/
def problem? (settings : BrokerSettings) : Option String :=
  if settings.capacity = 0 then some "buffer capacity must be at least 1"
  else
    match settings.kind with
    | .inProcess => none
    | .durable =>
        if settings.nodes = [] then some "durable backend needs at least one node"
        else if settings.partitions < 1 then some "partition count must be at least 1"
        else none

/-- Refuses settings that cannot be used. -/
def accept (settings : BrokerSettings) : Except BrokerFailure Unit :=
  match settings.problem? with
  | some problem => .error (.configuration problem)
  | none => .ok ()

end BrokerSettings

/-- What the service is set up with. -/
structure ServiceSettings where
  listenAddress : String
  logLevel : String
  logFormat : String
  deriving DecidableEq, Repr

/-- The service's settings where nothing else is set. -/
def ServiceSettings.default : ServiceSettings where
  listenAddress := "0.0.0.0:7070"
  logLevel := "info"
  logFormat := "compact"

instance : Inhabited ServiceSettings := ⟨ServiceSettings.default⟩

end UpdateRelay
