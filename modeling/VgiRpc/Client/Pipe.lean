import VgiRpc.Client.HttpSession
import VgiRpc.Shm.Pointer

/-!
# Byte-stream clients

The client's side of a pipe or a socket.  It reads the stream of a unary result and of a
header to the end, and an output stream batch by batch.  Each log is handed to the
callback when it is read; an EXCEPTION and a pointer that leads nowhere fail the call.
-/

namespace VgiRpc.Client

open Arrow Metadata

structure Settings (A : ArrowIpc) where
  json : JsonReader
  urlHost : String → Option String
  external : Option (Metadata → Except RpcError (Option (Body A.Batch × String)))

def Settings.config {A : ArrowIpc} (settings : Settings A) : ClientConfig A.Batch :=
  ⟨A.numRows, settings.json, settings.urlHost, settings.external⟩

/-- A byte-stream client, and the segment of its connection as each batch of a stream
finds it. -/
structure PipeClient (A : ArrowIpc) extends Settings A where
  plane : Shm.Plane A
  segment : Nat → Option Shm.Attached

abbrev Logged (α : Type) := List LogMessage × α

def withLogs {α : Type} (logs : List LogMessage) (rest : Logged α) : Logged α :=
  (logs ++ rest.1, rest.2)

namespace PipeClient

variable {A : ArrowIpc} (client : PipeClient A)

def kind (frame : Item A.Batch) : BatchKind := classify client.json (A.numRows frame.1) frame.2

def notPointer : RpcError := .protocolError "resolve_pointer: frame is not a pointer"

def redirectLoop : RpcError :=
  .protocolError "external payload contains another external-location pointer (redirect loop)"

def severalBatches : RpcError :=
  .protocolError "external payload contains more than one data batch"

def noBatch : RpcError := .protocolError "external payload contains no data batch"

/-- The frames of a fetched payload: its logs, and one data batch at most. -/
def unpack : Option (Item A.Batch) → List (Item A.Batch) →
    Logged (Except RpcError (Option (Item A.Batch)))
  | data, [] => ([], .ok data)
  | data, frame :: rest =>
    match client.kind frame with
    | .log message => withLogs [message] (unpack data rest)
    | .exception error => ([], .error error)
    | .pointer => ([], .error redirectLoop)
    | .data => if data.isSome then ([], .error severalBatches) else unpack (some frame) rest

def locationKeys : List String :=
  [locationKey, locationSha256Key, locationFetchMsKey, locationSourceKey]

/-- The entries of the payload over those of the pointer, and where it was fetched. -/
def resolvedMetadata (pointer inner : Metadata) (url fetchMs : String) : Metadata :=
  let merged := (locationKeys.foldl Library.OrderedMap.remove inner).entries.foldl
    (fun entries entry => entries.insert entry.1 entry.2)
    (locationKeys.foldl Library.OrderedMap.remove pointer)
  (merged.insert locationFetchMsKey fetchMs).insert locationSourceKey url

def unpacked (pointer : Metadata) (url : String) (body : Body A.Batch) (fetchMs : String) :
    Except RpcError (Option (Item A.Batch)) → Except RpcError (Item A.Batch)
  | .error error => .error error
  | .ok data =>
    match body.failure, data with
    | some error, _ => .error error
    | none, none => .error noBatch
    | none, some (batch, inner) => .ok (batch, resolvedMetadata pointer inner url fetchMs)

def resolvePointer (fetch : Metadata → Except RpcError (Option (Body A.Batch × String)))
    (pointer : Metadata) : Logged (Except RpcError (Item A.Batch)) :=
  match mdGet pointer locationKey, fetch pointer with
  | none, _ => ([], .error notPointer)
  | some _, .error error => ([], .error error)
  | some _, .ok none => ([], .error notPointer)
  | some url, .ok (some (body, fetchMs)) =>
    let (logs, data) := client.unpack none body.frames
    (logs, unpacked pointer url body fetchMs data)

def resolveWith (pointer : Metadata) : Logged (Except RpcError (Item A.Batch)) :=
  match client.external with
  | some fetch => client.resolvePointer fetch pointer
  | none => ([], .error (unresolvedPointerError client.config pointer))

variable (position : Nat)

def shmResolveInbound (frame : Item A.Batch) : Except Failure (Item A.Batch) := do
  let (batch, metadata, _) ← Shm.resolveShmBatch client.plane frame.1 frame.2
    (client.segment position)
  pure (batch, metadata)

/-- A data batch behind another is not looked at. -/
def keepFirst (inbound : Item A.Batch → Except Failure (Item A.Batch))
    (result : Option (Item A.Batch)) (frame : Item A.Batch) : Except Failure (Item A.Batch) :=
  match result with
  | some item => .ok item
  | none => inbound frame

/-- The first data batch of a stream, which is read to the end behind it.  `inbound` is
what a data batch goes through. -/
def readSubstream (inbound : Item A.Batch → Except Failure (Item A.Batch))
    (ending : Except RpcError Bool) : Option (Item A.Batch) → List (Item A.Batch) →
      Logged (Except Failure (Option (Item A.Batch)))
  | result, [] => ([], Shm.failing (ending.map fun _ => result))
  | result, frame :: rest =>
    match client.kind frame with
    | .log message => withLogs [message] (readSubstream inbound ending result rest)
    | .exception error => ([], .error (.error error))
    | .pointer =>
      match client.resolveWith frame.2 with
      | (logs, .error error) => (logs, .error (.error error))
      | (logs, .ok item) =>
        withLogs logs (readSubstream inbound ending (result.or (some item)) rest)
    | .data =>
      match keepFirst inbound result frame with
      | .error failure => ([], .error failure)
      | .ok item => readSubstream inbound ending (some item) rest

def noResult : RpcError := ⟨"TransportError", "no result batch in response"⟩

variable (frames : List (Item A.Batch))

def callUnary (ending : Except RpcError Bool) : Logged (Except Failure (Item A.Batch)) :=
  match client.readSubstream (client.shmResolveInbound 0) ending none frames with
  | (logs, .error failure) => (logs, .error failure)
  | (logs, .ok none) => (logs, .error (.error noResult))
  | (logs, .ok (some item)) => (logs, .ok item)

def readHeader (ending : Except RpcError Bool) : Logged (Except Failure (Option (Item A.Batch))) :=
  match client.readSubstream .ok ending none frames with
  | (logs, .error failure) => (logs, .error failure)
  | (logs, .ok none) => (logs, .ok none)
  | (logs, .ok (some item)) => (logs, (client.shmResolveInbound 0 item).map some)

/-- What a batch of an output stream is to the session that reads it. -/
inductive Arrival (β : Type) where
  | again
  | value (item : Item β)
  /-- The call has failed; the session is finished and reads the stream to its end. -/
  | refused (error : RpcError)
  /-- The batch is lost; the session goes on behind it. -/
  | unresolved (failure : Failure)

def receive (frame : Item A.Batch) : Logged (Arrival A.Batch) :=
  match client.kind frame with
  | .log message => ([message], .again)
  | .exception error => ([], .refused error)
  | .pointer =>
    match client.resolveWith frame.2 with
    | (logs, .error error) => (logs, .refused error)
    | (logs, .ok item) => (logs, .value item)
  | .data =>
    match client.shmResolveInbound position frame with
    | .error failure => ([], .unresolved failure)
    | .ok item => ([], .value item)

/-- The reader of an output stream: its place and the batches ahead of it. -/
structure OutputReader (A : ArrowIpc) where
  position : Nat
  frames : List (Item A.Batch)
  finished : Bool

def cutShort : RpcError :=
  ⟨"TransportError", "connection closed before the end of the stream"⟩

def atEnd : Except RpcError Bool → Except Failure (Option (Item A.Batch)) × OutputReader A
  | .error error => (.error (.error error), ⟨position, [], false⟩)
  | .ok false => (.error (.error cutShort), ⟨position, [], true⟩)
  | .ok true => (.ok none, ⟨position, [], true⟩)

def readNextData (ending : Except RpcError Bool) : Nat → List (Item A.Batch) →
    Logged (Except Failure (Option (Item A.Batch)) × OutputReader A)
  | position, [] => ([], atEnd position ending)
  | position, frame :: rest =>
    match client.receive position frame with
    | (logs, .again) => withLogs logs (readNextData ending (position + 1) rest)
    | (logs, .value item) => (logs, .ok (some item), ⟨position + 1, rest, false⟩)
    | (logs, .refused error) => (logs, .error (.error error), ⟨position + 1, [], true⟩)
    | (logs, .unresolved failure) => (logs, .error failure, ⟨position + 1, rest, false⟩)

/-- What comes to the caller of a client: a log through the callback, or a batch. -/
inductive Heard (β : Type) where
  | log (message : LogMessage)
  | data (item : Item β)

/-- Ask for a number of batches, up to the end of the stream or a failure. -/
def ticks (ending : Except RpcError Bool) :
    Nat → OutputReader A → List (Heard A.Batch) × Except Failure Unit
  | 0, _ => ([], .ok ())
  | count + 1, reader =>
    if reader.finished then ([], .ok ())
    else
      match client.readNextData ending reader.position reader.frames with
      | (logs, .error failure, _) => (logs.map .log, .error failure)
      | (logs, .ok none, _) => (logs.map .log, .ok ())
      | (logs, .ok (some item), after) =>
        (logs.map .log ++ .data item :: (ticks ending count after).1, (ticks ending count after).2)

end PipeClient
end VgiRpc.Client
