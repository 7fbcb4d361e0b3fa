import UpdateRelay.Settings.Basic
import UpdateRelay.Json.Record

/-!
# Settings in JSON

The forms in which settings are read from a document. Missing settings take their defaults and
unknown ones are passed over.
-/

namespace UpdateRelay

/-! ## Parts -/

/-- Reads a kind of broker: its name, or an object with its name and `null`. -/
def BrokerKind.readJson (bytes : Bytes) : Option (BrokerKind × Bytes) :=
  let named (name : String) : Option BrokerKind :=
    [inProcess, durable].find? fun kind => kind.name = name
  match Json.skipBlank bytes with
  | 0x22 :: rest =>
      match Json.readQuoted rest with
      | some (name, rest) => (named name).map fun kind => (kind, rest)
      | none => none
  | 0x7b :: rest =>
      match Json.readText rest with
      | none => none
      | some (name, rest) => do
          let kind ← named name
          let rest ← Json.dropToken [0x3a] (Json.skipBlank rest)
          let rest ← Json.dropToken [0x6e, 0x75, 0x6c, 0x6c] (Json.skipBlank rest)
          let rest ← Json.dropToken [0x7d] (Json.skipBlank rest)
          return (kind, rest)
  | _ => none

/-- What has been read of a span. -/
structure Span.Draft where
  seconds : Option Int
  nanoseconds : Option Int

def Span.shape : Json.Shape Span.Draft where
  members :=
    [Json.member "secs" Span.Draft.seconds (fun draft value => { draft with seconds := value })
        (Json.readBounded 0 0xffffffffffffffff),
      Json.member "nanos" Span.Draft.nanoseconds
        (fun draft value => { draft with nanoseconds := value })
        (Json.readBounded 0 0xffffffff)]
  isOpen := false

def Span.readJson (bytes : Bytes) : Option (Span × Bytes) :=
  match Span.shape.read ⟨none, none⟩ bytes with
  | some (⟨some seconds, some nanoseconds⟩, rest) =>
      (Span.ofParts? seconds.toNat nanoseconds.toNat).map fun span => (span, rest)
  | _ => none

/-! ## The broker's settings -/

namespace BrokerSettings

/-- What has been read of a broker's settings. -/
structure Draft where
  kind : Option BrokerKind
  nodes : Option (List String)
  topicStem : Option String
  capacity : Option Int
  connectTime : Option Span
  partitions : Option Int

def shape : Json.Shape Draft where
  members :=
    [Json.member "backend" Draft.kind (fun draft value => { draft with kind := value })
        BrokerKind.readJson,
      Json.member "nodes" Draft.nodes (fun draft value => { draft with nodes := value })
        (Json.readArray Json.readText),
      Json.member "topic_prefix" Draft.topicStem
        (fun draft value => { draft with topicStem := value }) Json.readText,
      Json.member "buffer_capacity" Draft.capacity
        (fun draft value => { draft with capacity := value })
        (Json.readBounded 0 0xffffffffffffffff),
      Json.member "connect_timeout" Draft.connectTime
        (fun draft value => { draft with connectTime := value }) Span.readJson,
      Json.member "partitions" Draft.partitions
        (fun draft value => { draft with partitions := value })
        (Json.readBounded (-0x80000000) 0x7fffffff)]
  isOpen := true

/-- The settings that a document holds, before they are checked against each other. -/
def ofJson? (bytes : Bytes) : Option BrokerSettings :=
  (shape.document? ⟨none, none, none, none, none, none⟩ bytes).map fun draft =>
    { kind := draft.kind.getD default.kind
      nodes := draft.nodes.getD default.nodes
      topicStem := draft.topicStem.getD default.topicStem
      capacity := (draft.capacity.map Int.toNat).getD default.capacity
      connectTime := draft.connectTime.getD default.connectTime
      partitions := draft.partitions.getD default.partitions }

end BrokerSettings

/-! ## The service's settings -/

namespace ServiceSettings

/-- What has been read of the service's settings. -/
structure Draft where
  listenAddress : Option String
  logLevel : Option String
  logFormat : Option String

def shape : Json.Shape Draft where
  members :=
    [Json.member "listen_addr" Draft.listenAddress
        (fun draft value => { draft with listenAddress := value }) Json.readText,
      Json.member "log_level" Draft.logLevel (fun draft value => { draft with logLevel := value })
        Json.readText,
      Json.member "log_format" Draft.logFormat
        (fun draft value => { draft with logFormat := value }) Json.readText]
  isOpen := true

/-- The settings that a document holds. -/
def ofJson? (bytes : Bytes) : Option ServiceSettings :=
  (shape.document? ⟨none, none, none⟩ bytes).map fun draft =>
    { listenAddress := draft.listenAddress.getD default.listenAddress
      logLevel := draft.logLevel.getD default.logLevel
      logFormat := draft.logFormat.getD default.logFormat }

end ServiceSettings

end UpdateRelay
