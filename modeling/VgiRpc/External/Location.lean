import VgiRpc.Client.Pipe
import VgiRpc.Http.CallCache

/-!
# Batches at an external location

A batch that is too large to be sent is written as a stream of its own, compressed, uploaded
and replaced by a pointer: a batch without rows whose metadata says where the payload is and
which digest it has.  The reader fetches the payload, checks the digest and puts the batch
back.  The server and the client have a resolver each.
-/

namespace VgiRpc.External

open Arrow Metadata Wire
open Client (Body Item PipeClient)
open Library (OrderedMap)
open Library.ByteStream

inductive Compression where
  | none
  | zstd (level : Int)
  deriving DecidableEq, Repr

/-- What the framework asks of the libraries below it.  A decoder is opened for a window, and
then reads chunks up to the end or to an error.  A text says which step failed. -/
structure Toolkit where
  sha256 : Bytes → Bytes
  zstdEncode : Int → Bytes → Except String Bytes
  zstdDecode : Nat → Bytes → Except String (List Bytes × Option String)
  redactUrl : String → String

structure FetchedPayload where
  bytes : Bytes
  compression : Compression

abbrev UrlValidator : Type := String → Except RpcError Unit

structure ExternalLocationConfig where
  thresholdBytes : Nat
  compression : Compression
  upload : Bytes → Compression → Except RpcError String
  /-- The payload at a URL, for a limit on its bytes, a validator and a limit on redirects. -/
  fetchWithPolicy : String → Compression → Nat → UrlValidator → Nat → Except RpcError FetchedPayload
  urlValidator : UrlValidator
  maxDecompressedBytes : Nat
  maxEncodedBytes : Nat
  maxRedirects : Nat

section

variable (tools : Toolkit)

/-- A URL is not repeated in an error; only what names its host is. -/
def validateExternalUrl (validator : UrlValidator) (raw : String) : Except RpcError Unit :=
  match validator raw with
  | .ok () => .ok ()
  | .error error => .error { error with message := error.message.replace raw (tools.redactUrl raw) }

def sha256Hex (bytes : Bytes) : String :=
  String.ofList ((tools.sha256 bytes).flatMap Http.hexByte)

/-- The smallest window that covers the limit, between 512 KiB and 2 GiB. -/
def zstdWindowLogForLimit (maxSize : Nat) : Nat :=
  min 31 (max 19 (Nat.log2 (max maxSize (2 ^ 19) - 1) + 1))

def compress (bytes : Bytes) : Compression → Except RpcError Bytes
  | .none => .ok bytes
  | .zstd level =>
    match tools.zstdEncode level bytes with
    | .ok payload => .ok payload
    | .error message => .error (.runtimeError message)

def takeChunks (maxSize : Nat) (failure : Option String) : Bytes → List Bytes → Except RpcError Bytes
  | out, [] =>
    match failure with
    | some message => .error (.runtimeError message)
    | none => .ok out
  | out, chunk :: rest =>
    if maxSize < out.length + chunk.length then
      .error (.runtimeError
        ("zstd decode: output exceeds max_decompressed_bytes=" ++ toString maxSize))
    else takeChunks maxSize failure (out ++ chunk) rest

def decompress (payload : FetchedPayload) (maxSize : Nat) : Except RpcError Bytes :=
  match payload.compression with
  | .none =>
    if maxSize < payload.bytes.length then
      .error (.runtimeError ("external payload " ++ toString payload.bytes.length ++
        " bytes exceeds max_decompressed_bytes=" ++ toString maxSize))
    else .ok payload.bytes
  | .zstd _ =>
    match tools.zstdDecode (zstdWindowLogForLimit maxSize) payload.bytes with
    | .error message => .error (.runtimeError message)
    | .ok (chunks, failure) => takeChunks maxSize failure [] chunks

/-- The digest of a pointer, if it has one, is the digest of the bytes. -/
def checkDigest (metadata : Metadata) (bytes : Bytes) : Except RpcError Unit :=
  match mdGet metadata locationSha256Key with
  | none => .ok ()
  | some expected =>
    if expected = sha256Hex tools bytes then .ok ()
    else
      .error (.runtimeError ("external location checksum: SHA-256 mismatch (expected " ++ expected ++
        ", got " ++ sha256Hex tools bytes ++ ")"))

variable (config : ExternalLocationConfig)

def fetchDecoded (url : String) : Except RpcError Bytes :=
  match config.fetchWithPolicy url config.compression config.maxEncodedBytes config.urlValidator
      config.maxRedirects with
  | .error error => .error error
  | .ok fetched => decompress tools fetched config.maxDecompressedBytes

variable (metadata : Metadata)

def fetchChecked (url : String) : Except RpcError Bytes :=
  match fetchDecoded tools config url with
  | .error error => .error error
  | .ok bytes =>
    match checkDigest tools metadata bytes with
    | .error error => .error error
    | .ok () => .ok bytes

def fetchExternalIpcBytes : Except RpcError (Option Bytes) :=
  match mdGet metadata locationKey with
  | none => .ok none
  | some url => (fetchChecked tools config metadata url).map some

end

def isLocationKey (key : String) : Bool := PipeClient.locationKeys.contains key

/-- The metadata of an application, without what only a resolver may say. -/
def withoutLocation (metadata : Metadata) : Metadata :=
  PipeClient.locationKeys.foldl OrderedMap.remove metadata

structure EncodedPayload where
  rawLen : Nat
  sha : String
  payload : Bytes

section

variable {A : ArrowIpc} (tools : Toolkit) (config : ExternalLocationConfig)

def writeOneBatchAs (batch : A.Batch) (schema : Schema) (metadata : Option Metadata) :
    Except Failure Bytes :=
  match StreamWriter.new A ⟨[], none, []⟩ schema with
  | (.error failure, _) => .error failure
  | (.ok writer, _) =>
    match (do StreamWriter.write batch metadata; StreamWriter.finish :
      Library.Program (StreamWriter A) Failure Unit) writer with
    | (.error failure, _) => .error failure
    | (.ok (), final) => .ok final.drop.written

def encodePayload (bytes : Bytes) (compression : Compression) : Except RpcError EncodedPayload :=
  match compress tools bytes compression with
  | .error error => .error error
  | .ok payload => .ok ⟨bytes.length, sha256Hex tools bytes, payload⟩

structure PreparedExternal (A : ArrowIpc) where
  encoded : EncodedPayload
  ptr : A.Batch
  md : Metadata

variable (emptyBatch : Schema → Except Failure A.Batch) (batch : A.Batch) (declared : Schema)
  (inlineMetadata : Option Metadata)

def prepareExternalizeBatchInner (force : Bool) : Except Failure (Option (PreparedExternal A)) :=
  if A.numRows batch = 0 then .ok none
  else
    let md := withoutLocation (inlineMetadata.getD .empty)
    match writeOneBatchAs batch declared (if md.isEmpty then none else some md) with
    | .error failure => .error failure
    | .ok ipcBytes =>
      if !force && ipcBytes.length < config.thresholdBytes then .ok none
      else
        match encodePayload tools ipcBytes config.compression with
        | .error error => .error (.error error)
        | .ok encoded =>
          match emptyBatch declared with
          | .error failure => .error failure
          | .ok ptr => .ok (some ⟨encoded, ptr, md⟩)

def prepareExternalizeBatch : Except Failure (Option (PreparedExternal A)) :=
  prepareExternalizeBatchInner tools config emptyBatch batch declared inlineMetadata false

def prepareExternalizeBatchForced : Except Failure (Option (PreparedExternal A)) :=
  prepareExternalizeBatchInner tools config emptyBatch batch declared inlineMetadata true

def uploadPrepared (prepared : PreparedExternal A) : Except RpcError (A.Batch × Metadata) :=
  match config.upload prepared.encoded.payload config.compression with
  | .error error => .error error
  | .ok url =>
    match validateExternalUrl tools config.urlValidator url with
    | .error error => .error error
    | .ok () =>
      .ok (prepared.ptr,
        (prepared.md.insert locationKey url).insert locationSha256Key prepared.encoded.sha)

end

section

variable {A : ArrowIpc} (tools : Toolkit) (config : ExternalLocationConfig)

def deserializeSingleBatchWithMetadata (A : ArrowIpc) (bytes : Bytes) :
    Except RpcError (Item A.Batch) :=
  match StreamReader.new A (.ofBytes bytes) with
  | (.error error, _) => .error error
  | (.ok reader, _) =>
    match reader.readNext.1 with
    | .error error => .error error
    | .ok none => .error (.runtimeError "external batch stream is empty")
    | .ok (some item) => .ok item

/-- The server's resolver; `fetchMs` is the time it took, as a text. -/
def resolveExternalLocation (fetchMs : String) (batch : A.Batch) (metadata : Metadata) :
    Except RpcError (Item A.Batch) :=
  match mdGet metadata locationKey with
  | none => .ok (batch, metadata)
  | some url =>
    match fetchChecked tools config metadata url with
    | .error error => .error error
    | .ok bytes =>
      match deserializeSingleBatchWithMetadata A bytes with
      | .error error => .error error
      | .ok (resolved, inner) =>
        .ok (resolved, PipeClient.resolvedMetadata metadata inner url fetchMs)

def readPayload (A : ArrowIpc) (relax : Bool) (bytes : Bytes) : Except RpcError (Body A.Batch) :=
  match StreamReader.new A (.ofBytes bytes) with
  | (.error error, _) => .error error
  | (.ok reader, _) =>
    let (items, ending, _) := (if relax then reader.relaxNullability else reader).readAll
    match ending with
    | .ok _ => .ok ⟨items, none⟩
    | .error error => .ok ⟨items, some error⟩

/-- What a client that is configured with a location fetches for a pointer. -/
def fetchBody (A : ArrowIpc) (relax : Bool) (fetchMs : String) (pointer : Metadata) :
    Except RpcError (Option (Body A.Batch × String)) :=
  match fetchExternalIpcBytes tools config pointer with
  | .error error => .error error
  | .ok none => .ok none
  | .ok (some bytes) => (readPayload A relax bytes).map fun body => some (body, fetchMs)

/-- The client's resolver, with the logs that it hands to the callback. -/
def resolvePointer (client : PipeClient A) (relax : Bool) (fetchMs : String) (pointer : Metadata) :
    Client.Logged (Except RpcError (Item A.Batch)) :=
  client.resolvePointer (fetchBody tools config A relax fetchMs) pointer

/-- A stream within the caps of the reader is read whole. -/
theorem readPayload_streamBytes (lawful : A.Lawful) {stream : StreamValue A} {opening : EncodedData}
    {messages : List EncodedData} (sends : StreamSends stream opening messages)
    (caps : WithinCaps stream) :
    readPayload A false (streamBytes opening messages) =
      .ok ⟨stream.items.map fun item => (item.1, item.2.getD .empty), none⟩ := by
  have bytes : (Source.ofBytes (streamBytes opening messages) : Source RpcError).bytes =
      streamBytes opening messages ++ [] := (List.append_nil _).symm
  obtain ⟨rest, run, -, -⟩ := readStream_back lawful sends caps (ofBytes_reliable _) bytes
  rcases opened : StreamReader.new A (.ofBytes (streamBytes opening messages)) with
    ⟨result, remaining⟩
  cases result with
  | error error =>
    simp only [readStream, opened] at run
    cases run
  | ok reader =>
    simp only [readStream, opened, Prod.mk.injEq, Except.ok.injEq, StreamValue.readBack,
      StreamRead.mk.injEq] at run
    simp [readPayload, opened, run.1.2.2, run.1.2.1]

end

end VgiRpc.External
