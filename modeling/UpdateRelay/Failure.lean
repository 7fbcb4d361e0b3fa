/-!
# Failures

Why an operation on the journal, on a broker or of a session fails. Each cause has its own
wording, and a failure that was passed on is worded inside the one that carries it.
-/

namespace UpdateRelay

/-- Why an operation on a journal fails. -/
inductive JournalFailure
  | unknownTopic (topic : String)
  | topicExists (topic : String)
  | unreachable (detail : String)
  | closed
  | transport (detail : String)
  deriving DecidableEq, Repr

/-- Why an operation on a broker fails. -/
inductive BrokerFailure
  | unreachable (nodes : List String)
  | journal (cause : JournalFailure)
  | serialization (detail : String)
  | deserialization (detail : String)
  | cancelled
  | deadlineExceeded
  | closed
  | configuration (detail : String)
  | mailboxTooLarge (capacity : Nat)
  deriving DecidableEq, Repr

/-- Why a session ends other than by its client's or its owner's wish. -/
inductive SessionFailure
  | disconnected
  | transport (detail : String)
  | codec (detail : String)
  | broker (cause : BrokerFailure)
  | io (detail : String)
  deriving DecidableEq, Repr

/-! ## Wording -/

def JournalFailure.message : JournalFailure → String
  | unknownTopic topic => s!"Unknown topic or partition: {topic}"
  | topicExists topic => s!"Topic already exists: {topic}"
  | unreachable detail => s!"Node unreachable: {detail}"
  | closed => "Log closed"
  | transport detail => s!"Transport error: {detail}"

def BrokerFailure.message : BrokerFailure → String
  | unreachable nodes => "No configured node is reachable: " ++ ",".intercalate nodes
  | journal cause => "Log transport error: " ++ cause.message
  | serialization detail => s!"Serialization error: {detail}"
  | deserialization detail => s!"Deserialization error: {detail}"
  | cancelled => "Operation cancelled"
  | deadlineExceeded => "Operation deadline exceeded"
  | closed => "Broker is closed"
  | configuration detail => s!"Invalid configuration: {detail}"
  | mailboxTooLarge capacity => s!"No mailbox can hold {capacity} events"

def SessionFailure.message : SessionFailure → String
  | disconnected => "Client disconnected"
  | transport detail => s!"Session transport error: {detail}"
  | codec detail => s!"Codec error: {detail}"
  | broker cause => "Broker error: " ++ cause.message
  | io detail => s!"IO error: {detail}"

/-- The failure of a line that has more bytes than a line may have. -/
def SessionFailure.lineTooLong : SessionFailure := .codec "max line length exceeded"

/-- The failure of a line whose bytes are not text. -/
def SessionFailure.lineNotText : SessionFailure := .io "Unable to decode input as UTF8"

/-- The failure of writing to a client that closed its side. -/
def SessionFailure.brokenPipe : SessionFailure := .io "broken pipe"

end UpdateRelay
