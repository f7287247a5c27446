import VgiRpc.Shm.Allocator
import VgiRpc.Wire.RoundTrip

/-!
# Batches in a shared segment

Storing a batch in a segment and resolving the pointer again.  Most batches are
written in place as a whole IPC stream and decoded by walking the frames of the
region; a schema with a dictionary column at its top level takes an older path,
which stores the messages between the schema and the end marker and stitches the
stream together again for the library's own reader.
-/

namespace VgiRpc.Shm

open Arrow Wire Library.ByteStream Library.LittleEndian Library.Memory

def alignIpcAllocation (length : Nat) : Option Nat :=
  if length + (ipcAlignment - 1) < 2 ^ 64 then
    some ((length + (ipcAlignment - 1)) / ipcAlignment * ipcAlignment)
  else none

structure IpcFrameRange where
  metadataStart : Nat
  metadataLength : Nat
  bodyStart : Nat
  bodyLength : Nat
  next : Nat
  deriving DecidableEq, Repr

section

variable (A : ArrowIpc) (bytes : Bytes)

def bodyRange (metadataStart metadataLength : Nat) (message : Message A.SchemaTable) :
    Except RpcError (Option IpcFrameRange) :=
  let metadataEnd := metadataStart + metadataLength
  let bodyLength := message.bodyLength.toNat
  if message.bodyLength < 0 then .error (.ipc "negative IPC message body length")
  else if maxIpcMessageBytes < bodyLength then
    .error (.ipc ("IPC message body length " ++ toString bodyLength ++ " exceeds limit " ++
      toString maxIpcMessageBytes))
  else if 2 ^ 64 ≤ metadataEnd + bodyLength then
    .error (.ipc "IPC message body range overflow")
  else if bytes.length < metadataEnd + bodyLength then .error (.ipc "truncated IPC message body")
  else
    .ok (some ⟨metadataStart, metadataLength, metadataEnd, bodyLength, metadataEnd + bodyLength⟩)

def metadataRange (metadataStart metadataLength maxMetadata : Nat) :
    Except RpcError (Option IpcFrameRange) :=
  if metadataLength = 0 then .ok none
  else if maxMetadata < metadataLength then
    .error (.ipc ("IPC metadata length " ++ toString metadataLength ++ " exceeds limit " ++
      toString maxMetadata))
  else if 2 ^ 64 ≤ metadataStart + metadataLength then
    .error (.ipc "IPC metadata length overflow")
  else if bytes.length < metadataStart + metadataLength then .error (.ipc "truncated IPC metadata")
  else
    match A.rootAsMessage (slice bytes metadataStart metadataLength) with
    | .error invalid => .error (.ipc ("parsing SHM IPC message: " ++ invalid.text))
    | .ok message => bodyRange A bytes metadataStart metadataLength message

/-- Parse one frame without copying it, with or without a continuation marker;
`none` is an end marker. -/
def ipcFrameRange (start maxMetadata : Nat) : Except RpcError (Option IpcFrameRange) :=
  if 2 ^ 64 ≤ start + 4 then .error (.ipc "IPC frame prefix overflow")
  else if bytes.length < start + 4 then .error (.ipc "truncated IPC frame prefix")
  else if ofLe (slice bytes start 4) = 2 ^ 32 - 1 then
    if 2 ^ 64 ≤ start + 8 then .error (.ipc "IPC metadata prefix overflow")
    else if bytes.length < start + 8 then .error (.ipc "truncated IPC metadata prefix")
    else metadataRange A bytes (start + 8) (ofLe (slice bytes (start + 4) 4)) maxMetadata
  else metadataRange A bytes (start + 4) (ofLe (slice bytes start 4)) maxMetadata

def checkSchemaFrame (frame : IpcFrameRange) : Except RpcError Unit :=
  match A.rootAsMessage (slice bytes frame.metadataStart frame.metadataLength) with
  | .error invalid => .error (.ipc ("parsing SHM schema message: " ++ invalid.text))
  | .ok message =>
    match message.header with
    | .schema _ => .ok ()
    | other => .error (.ipc ("expected SHM Schema message, got " ++ other.typeName))

variable (schema : Schema)

/-- Decode the record batch of a frame, with no dictionaries known. -/
def decodeBatchFrame (frame : IpcFrameRange) : Except RpcError A.Batch :=
  match A.rootAsMessage (slice bytes frame.metadataStart frame.metadataLength) with
  | .error invalid => .error (.ipc ("parsing SHM record-batch message: " ++ invalid.text))
  | .ok message =>
    match message.header with
    | .recordBatch none => .error (.ipc "missing SHM RecordBatch header")
    | .recordBatch (some table) => do
        validateRecordBatchBuffers table frame.bodyLength
        decodeGuard "SHM record batch"
          (A.readRecordBatch (slice bytes frame.bodyStart frame.bodyLength) table schema
            A.noDictionaries message.version)
    | other => .error (.ipc ("expected SHM RecordBatch message, got " ++ other.typeName))

def decodeSecondFrame (start : Nat) : Except RpcError A.Batch :=
  match ipcFrameRange A bytes start maxIpcMessageBytes with
  | .error error => .error error
  | .ok none => .error (.ipc "SHM IPC stream has no record batch")
  | .ok (some frame) => decodeBatchFrame A bytes schema frame

/-- The two frames a region written in place is taken for. -/
def decodeNonDictShmStream : Except RpcError A.Batch :=
  match ipcFrameRange A bytes 0 maxIpcSchemaBytes with
  | .error error => .error error
  | .ok none => .error (.ipc "empty SHM IPC stream")
  | .ok (some schemaFrame) =>
    match checkSchemaFrame A bytes schemaFrame with
    | .error error => .error error
    | .ok () => decodeSecondFrame A bytes schema schemaFrame.next

end

/-- A dictionary column at the top level; nested ones are not looked for. -/
def schemaHasDictionary (schema : Schema) : Bool :=
  schema.fields.any fun field => field.dataType.isDictionary

section

variable (A : ArrowIpc) (schema : Schema) (batch : Option A.Batch)

/-- The messages of the library's own stream writer: the schema, and the
dictionaries and data of a batch. -/
def ipcMessages : Except Failure (List EncodedData) :=
  match A.schemaToBytes schema A.newTracker with
  | none => .error .panicked
  | some (opening, tracker) =>
    match batch with
    | none => .ok [opening]
    | some batch =>
      match (A.encode batch tracker).1 with
      | .error failure => .error failure
      | .ok (dictionaries, data) => .ok (opening :: (dictionaries ++ [data]))

def framed : List EncodedData → Except Failure Bytes
  | [] => .ok []
  | encoded :: rest => do
      let first ← Arrow.writeMessage encoded
      let others ← framed rest
      pure (first ++ others)

def ipcStream : Except Failure Bytes := do
  let messages ← ipcMessages A schema batch
  let bytes ← framed messages
  pure (bytes ++ endOfStream)

def skipOneIpcMessage (buffer : Bytes) : Except RpcError Nat :=
  let start := if slice buffer 0 4 = continuationMarker then 4 else 0
  let metadataLength := ofLe (slice buffer start 4)
  if buffer.length < 8 then .error (.ipc "IPC stream too short")
  else if buffer.length < start + 4 then .error (.ipc "IPC stream truncated")
  else if metadataLength = 0 then .error (.ipc "unexpected EOS while skipping schema")
  else if buffer.length < start + 4 + metadataLength then .error (.ipc "IPC metadata truncated")
  else
    match A.rootAsMessage (slice buffer (start + 4) metadataLength) with
    | .error invalid => .error (.ipc ("parse schema message: " ++ invalid.text))
    | .ok message =>
      .ok (start + 4 + metadataLength + (message.bodyLength % 2 ^ 64).toNat)

def stripTrailingEos (buffer : Bytes) : Except RpcError Bytes :=
  if buffer.length < endOfStream.length ∨
      buffer.drop (buffer.length - endOfStream.length) ≠ endOfStream then
    .error (.ipc "stream missing trailing EOS marker")
  else .ok (buffer.take (buffer.length - endOfStream.length))

/-- An error of the framework where a panic is possible as well. -/
def failing {α : Type} (result : Except RpcError α) : Except Failure α :=
  result.mapError .error

/-- The bytes of a batch for a segment: the whole stream, or for a dictionary
schema the part between the schema message and the end marker.  Slicing behind the
end of the buffer panics. -/
def serializeForShm (batch : A.Batch) (schema : Schema) : Except Failure Bytes := do
  let buffer ← ipcStream A schema (some batch)
  if schemaHasDictionary schema then do
    let afterSchema ← failing (skipOneIpcMessage A buffer)
    if buffer.length < afterSchema then throw .panicked
    else failing (stripTrailingEos (buffer.drop afterSchema))
  else pure buffer

variable (read : Bytes → Except Failure (Option A.Batch))

/-- The first batch of a stream, or the error for a stream without one. -/
def firstBatch (bytes : Bytes) : Except Failure A.Batch :=
  match read bytes with
  | .error failure => .error failure
  | .ok none => .error (.error (.ipc "empty SHM region"))
  | .ok (some batch) => .ok batch

/-- Read a region with the library's own reader, `read`, which returns the first
batch of a stream. -/
def deserializeFromShm (region : Bytes) (schema : Schema) : Except Failure A.Batch :=
  if schemaHasDictionary schema then do
    let schemaOnly ← ipcStream A schema none
    if schemaOnly.length < endOfStream.length then
      throw (.error (.ipc "schema-only stream too short"))
    else
      firstBatch A read
        (schemaOnly.take (schemaOnly.length - endOfStream.length) ++ region ++ endOfStream)
  else firstBatch A read region

end

section

variable {A : ArrowIpc} (batch : A.Batch)

def batchStream : StreamValue A where
  schema := A.schemaOf batch
  items := [(batch, none)]
  conforms := by simp

/-- The in-place write: the stream of the batch on a cursor over `room` bytes. -/
def writeInPlace (room : Nat) : Except Failure Unit × Sink Failure :=
  writeStream (batchStream batch) ⟨[], some room, []⟩

theorem writeInPlace_length (room : Nat) : (writeInPlace batch room).2.written.length ≤ room := by
  have start : (⟨[], some room, []⟩ : Sink Failure).Within room := ⟨room, rfl, by simp⟩
  obtain ⟨left, _, total⟩ := writeStream_preserves
    (fun _ buffer => Sink.writeAll_within buffer) (batchStream batch) _ start
  exact Nat.le_trans (Nat.le_add_right _ left) total

def outOfBounds : RpcError := .valueError "shm allocator returned out-of-bounds offset"

def sizeOverflow : RpcError := .valueError "shm allocation size overflow"

/-- A write that did not fit, by the text of its error. -/
def doesNotFit (error : RpcError) : Bool :=
  error.message.contains "failed to write whole buffer" || error.message.contains "write zero"

namespace Segment

variable (segment : Segment)

def storeCopied (bytes : Bytes) : Except Failure (Option (Nat × Nat)) × Segment :=
  match alignIpcAllocation bytes.length with
  | none => (.error (.error sizeOverflow), segment)
  | some allocationSize =>
    match segment.allocate allocationSize with
    | (none, next) => (.ok none, next)
    | (some offset, next) =>
      if inside : offset + bytes.length ≤ next.size then
        (.ok (some (offset, bytes.length)), next.write offset bytes inside)
      else (.error (.error outOfBounds), (next.free offset).2)

/-- The slot asked for: twice the memory of the batch and 64 KiB, at most what the
segment has. -/
def reserveFor (memorySize : Nat) : Nat :=
  let bodyEstimate := min (2 * memorySize) (2 ^ 64 - 1)
  let maxRegion := segment.size - headerSize
  ((alignIpcAllocation (saturatingAdd bodyEstimate 65536)).filter fun size =>
    size ≤ maxRegion).getD (maxRegion / ipcAlignment * ipcAlignment)

/-- What follows the in-place write into a slot: give back its tail, or free it.
A panic unwinds past both. -/
def settle (offset : Nat) (result : Except Failure Unit) (written : Nat) :
    Except Failure (Option (Nat × Nat)) × Segment :=
  match result with
  | .error .panicked => (.error .panicked, segment)
  | .error (.error error) =>
    (if doesNotFit error then .ok none else .error (.error error), (segment.free offset).2)
  | .ok () =>
    match alignIpcAllocation written with
    | none => (.error (.error sizeOverflow), segment)
    | some allocationSize =>
      match segment.shrink offset allocationSize with
      | (.error error, next) => (.error (.error error), next)
      | (.ok (), next) => (.ok (some (offset, written)), next)

/-- Reserve a slot, write the stream of the batch into it, and settle the slot. -/
def storeInPlace (batch : A.Batch) (reserve : Nat) : Except Failure (Option (Nat × Nat)) × Segment :=
  if reserve = 0 then (.ok none, segment)
  else
    match segment.allocate reserve with
    | (none, next) => (.ok none, next)
    | (some offset, next) =>
      if inside : offset + reserve ≤ next.size then
        (next.write offset (writeInPlace batch reserve).2.written
          (Nat.le_trans (Nat.add_le_add_left (writeInPlace_length batch reserve) offset)
            inside)).settle offset (writeInPlace batch reserve).1
          (writeInPlace batch reserve).2.written.length
      else (.error (.error outOfBounds), (next.free offset).2)

/-- Store a batch: the pointer to it, or `none` when the segment cannot hold it.
`memorySize` is the library's measure of a batch in memory. -/
def allocateAndWrite (memorySize : A.Batch → Nat) (segment : Segment) (batch : A.Batch) :
    Except Failure (Option (Nat × Nat)) × Segment :=
  if schemaHasDictionary (A.schemaOf batch) then
    match serializeForShm A batch (A.schemaOf batch) with
    | .error failure => (.error failure, segment)
    | .ok bytes => segment.storeCopied bytes
  else segment.storeInPlace batch (segment.reserveFor (memorySize batch))

/-- Resolve a pointer under the schema of its batch.  The slot stays allocated: it
is released when the last array over it is dropped. -/
def readBatch (read : Bytes → Except Failure (Option A.Batch)) (segment : Segment)
    (offset length : Nat) (schema : Schema) : Except Failure A.Batch :=
  if 2 ^ 64 ≤ offset + length then .error (.error (.valueError "shm region overflow"))
  else if segment.size < offset + length then
    .error (.error (.valueError ("shm region out of bounds: " ++ toString offset ++ ".." ++
      toString (offset + length) ++ " > " ++ toString segment.size)))
  else if schemaHasDictionary schema then
    deserializeFromShm A read (slice segment.bytes offset length) schema
  else failing (decodeNonDictShmStream A (slice segment.bytes offset length) schema)

end Segment

end
end VgiRpc.Shm

