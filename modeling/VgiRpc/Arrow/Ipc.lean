import VgiRpc.Arrow.Schema
import VgiRpc.Errors
import VgiRpc.Library.ByteStream
import VgiRpc.Library.LittleEndian

/-!
# The Arrow IPC library

What the framework asks of `arrow-ipc` and `flatbuffers`: the tables of a
message, the generator that encodes batches under a dictionary tracker, and the
decoders.  The library is a parameter.  `ArrowIpc.Lawful` lists what its
documentation promises, and every result that depends on a promise takes it as
a hypothesis.
-/

namespace VgiRpc.Arrow

open Library.ByteStream Library.LittleEndian

/-- How a call into the library can fail to return a value. -/
inductive Failure where
  | error (error : RpcError)
  | panicked
  deriving DecidableEq, Repr

inductive MetadataVersion where
  | v1
  | v2
  | v3
  | v4
  | v5
  deriving DecidableEq, Repr

structure FieldNode where
  length : Int
  nullCount : Int
  deriving DecidableEq, Repr

/-- A buffer descriptor: a region of the message body. -/
structure BufferSpan where
  offset : Int
  length : Int
  deriving DecidableEq, Repr

inductive CompressionCodec where
  | lz4Frame
  | zstd
  deriving DecidableEq, Repr

structure RecordBatchTable where
  length : Int
  nodes : Option (List FieldNode)
  buffers : Option (List BufferSpan)
  compression : Option CompressionCodec
  variadicBufferCounts : Option (List Int)
  deriving DecidableEq, Repr

structure DictionaryTable where
  id : Int
  data : Option RecordBatchTable
  isDelta : Bool
  deriving DecidableEq, Repr

/-- The header union of a message; a table is absent when the union's type is set
and its value is not. -/
inductive Header (σ : Type) where
  | none
  | schema (table : Option σ)
  | dictionaryBatch (table : Option DictionaryTable)
  | recordBatch (table : Option RecordBatchTable)
  | tensor
  | sparseTensor
  | unknown (tag : Nat)
  deriving DecidableEq, Repr

/-- The header type as its `Debug` form prints it. -/
def Header.typeName {σ : Type} : Header σ → String
  | .none => "NONE"
  | .schema _ => "Schema"
  | .dictionaryBatch _ => "DictionaryBatch"
  | .recordBatch _ => "RecordBatch"
  | .tensor => "Tensor"
  | .sparseTensor => "SparseTensor"
  | .unknown tag => "<UNKNOWN " ++ toString tag ++ ">"

structure Message (σ : Type) where
  version : MetadataVersion
  header : Header σ
  bodyLength : Int
  customMetadata : Option (List (Option String × Option String))
  deriving DecidableEq, Repr

/-- Why a flatbuffer did not verify; a string that is not UTF-8 is reported with
the range of bytes it occupies. -/
inductive InvalidFlatbuffer where
  | utf8Error (start stop : Nat) (text : String)
  | other (text : String)
  deriving DecidableEq, Repr

def InvalidFlatbuffer.text : InvalidFlatbuffer → String
  | .utf8Error _ _ text => text
  | .other text => text

structure EncodedData where
  ipcMessage : Bytes
  arrowData : Bytes
  deriving DecidableEq

/-- The operations of `arrow-ipc` and `flatbuffers` the framework calls.
`finishMessage` and `schemaToBytes` are `none` where the builder panics, which it
does beyond two gibibytes. -/
structure ArrowIpc where
  Batch : Type
  Dictionaries : Type
  Tracker : Type
  SchemaTable : Type
  schemaOf : Batch → Schema
  /-- The library's comparison of schemas. -/
  sameSchema : Schema → Schema → Bool
  numRows : Batch → Nat
  numColumns : Batch → Nat
  /-- Row 0 of column 0 downcast to a large-binary array: absent when the
  downcast fails, `some none` when the row is null. -/
  largeBinaryValue : Batch → Option (Option Bytes)
  rootAsMessage : Bytes → Except InvalidFlatbuffer (Message SchemaTable)
  finishMessage : Message SchemaTable → Option Bytes
  newTracker : Tracker
  schemaToBytes : Schema → Tracker → Option (EncodedData × Tracker)
  encode : Batch → Tracker → Except Failure (List EncodedData × EncodedData) × Tracker
  hasFields : SchemaTable → Bool
  fbToSchema : SchemaTable → Except Failure Schema
  noDictionaries : Dictionaries
  readDictionary :
    Bytes → DictionaryTable → Schema → Dictionaries → MetadataVersion → Except Failure Dictionaries
  readRecordBatch :
    Bytes → RecordBatchTable → Schema → Dictionaries → MetadataVersion → Except Failure Batch

def ipcAlignment : Nat := 64

def paddingToAlignment (length alignment : Nat) : Nat :=
  (alignment - length % alignment) % alignment

def continuationMarker : Bytes := [0xFF, 0xFF, 0xFF, 0xFF]

/-- The encapsulated message format: the marker, the length of the padded
flatbuffer, the flatbuffer, and the body. -/
def encapsulate (flatbuffer body : Bytes) : Bytes :=
  let padding := paddingToAlignment (8 + flatbuffer.length) ipcAlignment
  continuationMarker ++ toLe 4 (flatbuffer.length + padding) ++ flatbuffer ++
    List.replicate padding 0 ++ body

/-- `arrow_ipc::writer::write_message`, as the bytes it writes. -/
def writeMessage (encoded : EncodedData) : Except Failure Bytes :=
  if encoded.arrowData.length % ipcAlignment = 0 then
    .ok (encapsulate encoded.ipcMessage encoded.arrowData)
  else .error (.error ⟨"ArrowError", "Memory error: Arrow data not aligned"⟩)

namespace RecordBatchTable

/-- Every buffer descriptor lies inside a body of the given length. -/
def Inside (table : RecordBatchTable) (bodyLength : Nat) : Prop :=
  ∀ buffers, table.buffers = some buffers → ∀ span ∈ buffers,
    0 ≤ span.offset ∧ 0 ≤ span.length ∧ span.offset + span.length ≤ bodyLength

end RecordBatchTable

def BufferSpan.slice (span : BufferSpan) (body : Bytes) : Bytes :=
  (body.drop span.offset.toNat).take span.length.toNat

/-- The columnar layout of a single non-null large-binary row: a validity bitmap
with its first bit set, the offsets `0` and the value's length, and the value. -/
structure LargeBinaryRow (table : RecordBatchTable) (body value : Bytes) : Prop where
  length : table.length = 1
  nodes : table.nodes = some [⟨1, 0⟩]
  compression : table.compression = none
  variadic : table.variadicBufferCounts = none
  layout : ∃ validity offsets values : BufferSpan, ∃ bitmap : UInt8,
    table.buffers = some [validity, offsets, values] ∧
      validity.slice body = [bitmap] ∧ bitmap.toNat % 2 = 1 ∧
      offsets.slice body = toLe 8 0 ++ toLe 8 value.length ∧ values.slice body = value

namespace ArrowIpc

variable (A : ArrowIpc)

structure EncodesDictionary (encoded : EncodedData) (table : DictionaryTable) : Prop where
  message : A.finishMessage ⟨.v5, .dictionaryBatch (some table), encoded.arrowData.length, none⟩ =
    some encoded.ipcMessage
  aligned : encoded.arrowData.length % ipcAlignment = 0
  inside : ∀ data, table.data = some data → data.Inside encoded.arrowData.length

/-- The message of an encoded record batch; the default write options do not
compress. -/
structure EncodesBatch (encoded : EncodedData) (table : RecordBatchTable) : Prop where
  message : A.finishMessage ⟨.v5, .recordBatch (some table), encoded.arrowData.length, none⟩ =
    some encoded.ipcMessage
  aligned : encoded.arrowData.length % ipcAlignment = 0
  inside : table.Inside encoded.arrowData.length
  nodes : table.nodes.isSome
  buffers : table.buffers.isSome
  compression : table.compression = none

/-- Decoding a run of dictionary messages, in order. -/
inductive Replays (schema : Schema) : List EncodedData → A.Dictionaries → A.Dictionaries → Prop
  | nil (known : A.Dictionaries) : Replays schema [] known known
  | cons {encoded : EncodedData} {table : DictionaryTable} {rest : List EncodedData}
      {known next final : A.Dictionaries}
      (message : A.EncodesDictionary encoded table)
      (decoded : A.readDictionary encoded.arrowData table schema known .v5 = .ok next)
      (later : Replays schema rest next final) :
      Replays schema (encoded :: rest) known final

/-- The tracker of a writer and the dictionaries of a reader that has decoded
everything the writer encoded so far. -/
inductive InStep (schema : Schema) : A.Tracker → A.Dictionaries → Prop
  | start {encoded : EncodedData} {tracker : A.Tracker}
      (opened : A.schemaToBytes schema A.newTracker = some (encoded, tracker)) :
      InStep schema tracker A.noDictionaries
  | encoded {tracker tracker' : A.Tracker} {known known' : A.Dictionaries} {batch : A.Batch}
      {dictionaries : List EncodedData} {data : EncodedData}
      (before : InStep schema tracker known) (same : A.schemaOf batch = schema)
      (encodes : A.encode batch tracker = (.ok (dictionaries, data), tracker'))
      (replays : A.Replays schema dictionaries known known') :
      InStep schema tracker' known'

/-- What the documentation of `arrow-ipc` and `flatbuffers` promises. -/
structure Lawful : Prop where
  /-- A finished buffer verifies and reads back, also behind alignment padding. -/
  root_finish : ∀ message bytes padding, A.finishMessage message = some bytes →
    A.rootAsMessage (bytes ++ List.replicate padding 0) = .ok message
  /-- A range reported as invalid UTF-8 holds a byte outside ASCII. -/
  utf8_range : ∀ bytes start stop text,
    A.rootAsMessage bytes = .error (.utf8Error start stop text) →
      ∃ byte ∈ (bytes.drop start).take (stop - start), 128 ≤ byte.toNat
  /-- A finished buffer is not empty and at most two gibibytes. -/
  finish_size : ∀ message bytes, A.finishMessage message = some bytes →
    0 < bytes.length ∧ bytes.length ≤ 2 ^ 31
  /-- The body length of a message is a 64-bit signed integer. -/
  body_length : ∀ message bytes, A.finishMessage message = some bytes → message.bodyLength < 2 ^ 63
  /-- A schema message has no body and decodes to its schema. -/
  schema_encoded : ∀ schema tracker encoded tracker',
    A.schemaToBytes schema tracker = some (encoded, tracker') → encoded.arrowData = [] ∧ ∃ table,
        A.finishMessage ⟨.v5, .schema (some table), 0, none⟩ = some encoded.ipcMessage ∧
        A.hasFields table = true ∧ A.fbToSchema table = .ok schema
  /-- What a writer encodes, a reader in step with it decodes. -/
  encode_decodes : ∀ schema tracker known batch dictionaries data tracker',
    A.InStep schema tracker known → A.schemaOf batch = schema →
    A.encode batch tracker = (.ok (dictionaries, data), tracker') →
      ∃ known' table, A.Replays schema dictionaries known known' ∧ A.EncodesBatch data table ∧
        A.readRecordBatch data.arrowData table schema known' .v5 = .ok batch
  /-- The columnar format determines a large-binary row. -/
  large_binary : ∀ schema known batch table body value,
    A.schemaOf batch = schema → A.numRows batch = 1 → A.numColumns batch = 1 →
    A.largeBinaryValue batch = some (some value) → value.length < 2 ^ 63 →
    LargeBinaryRow table body value → A.readRecordBatch body table schema known .v5 = .ok batch

end ArrowIpc
end VgiRpc.Arrow
