import VgiRpc.Http.Budget
import VgiRpc.Http.StreamTurns
import VgiRpc.Server.Reflection

/-!
# Requests that reach a handler

What the server does from the call of a handler to the response: the body in memory,
the cap on its length, the flag for a failure, and the outermost layer that buffers
the body.  A panic of the batch library or of external storage unwinds the dispatch;
one of the handler does not.
-/

namespace VgiRpc.Http.Dispatch

open Arrow Metadata Server

/-- External storage: a batch is prepared, measured and uploaded. -/
structure ExternalStorage (A : ArrowIpc) where
  Prepared : Type
  /-- Absent for a batch below the threshold. -/
  prepare : A.Batch → Schema → Option Metadata → Except RpcError (Option Prepared)
  prepareForced : A.Batch → Schema → Option Metadata → Except RpcError (Option Prepared)
  capBytes : Prepared → Nat
  upload : Prepared → Outcome (A.Batch × Metadata)

structure HttpServer (A : ArrowIpc) extends Engine A where
  serverId : String
  omitTracebacks : Bool
  limits : ResponseLimits
  storage : Option (ExternalStorage A)
  /-- The number of bytes of a body. -/
  bodyLength : List (Response A) → Nat

/-- A request as its envelopes name it. -/
structure Origin where
  protocol : String
  method : String
  requestId : String

def responseCapError (bytes limit : Nat) (method : String) : RpcError :=
  ⟨"ResponseTooLargeError", "max_response_bytes (" ++ toString bytes ++ " > " ++ toString limit ++
    ") for method " ++ method.quote⟩

def externalCapError (bytes limit : Nat) (method : String) : RpcError :=
  .runtimeError ("Externalised payload exceeds max_externalized_response_bytes (" ++ toString bytes ++
    " > " ++ toString limit ++ ") for method " ++ method.quote)

section

variable {A : ArrowIpc} (server : HttpServer A)

/-! ## Bodies in memory -/

/-- A batch that the writer refuses is left out. -/
def writePieces (tracker : server.Tracker) :
    List (Piece A server.render) → Option (List (Piece A server.render))
  | [] => some []
  | piece :: rest =>
    match server.writes tracker piece.item.1 piece.item.2 with
    | .ok next => (writePieces next rest).map (piece :: ·)
    | .error (.error _) => writePieces tracker rest
    | .error .panicked => none

def bodyStream (schema : Schema) (pieces : List (Piece A server.render)) :
    Option (Sheet A server.render) :=
  match server.opens schema with
  | .error _ => none
  | .ok tracker => (writePieces server tracker pieces).map (⟨schema, ·⟩)

def tracebackOrigin (protocol method : String) : Option String :=
  if server.omitTracebacks then none
  else if protocol = "" then some method
  else some (protocol ++ "/" ++ method)

variable (origin : Origin)

/-- `build_log_metadata`, on a batch without rows. -/
def logPiece (schema : Schema) (message : LogMessage) : Option (Piece A server.render) := do
  let empty ← (server.blank schema).toOption
  pure (.log empty.val (rowless empty) (.new server.serverId origin.requestId none) message)

/-- `build_error_metadata`, on a batch without rows. -/
def errorPiece (schema : Schema) (error : RpcError) : Option (Piece A server.render) := do
  let empty ← (server.blank schema).toOption
  pure (.error empty.val (rowless empty) (.new server.serverId origin.requestId
    (tracebackOrigin server origin.protocol origin.method)) error)

def logPieces (origin : Origin) (schema : Schema) :
    List LogMessage → Option (List (Piece A server.render))
  | [] => some []
  | message :: rest => do
      let piece ← logPiece server origin schema message
      let pieces ← logPieces origin schema rest
      pure (piece :: pieces)

def errorStream (schema : Schema) (error : RpcError) : Option (Sheet A server.render) := do
  let piece ← errorPiece server origin schema error
  bodyStream server schema [piece]

/-! ## External storage -/

/-- What becomes of an output batch, with the bytes that an upload was charged. -/
inductive StreamEmit (A : ArrowIpc) where
  | pointer (item : Item A) (charged : Nat)
  | inline
  | failed (error : RpcError) (charged : Nat)

/-- The cap is checked before the upload. -/
def uploadChecked (storage : ExternalStorage A) (cumulative : Nat)
    (prepared : storage.Prepared) : Option (StreamEmit A) :=
  match server.limits.maxExternalizedResponseBytes.filter
      fun limit => cumulative + storage.capBytes prepared > limit with
  | some limit =>
    some (.failed (externalCapError (cumulative + storage.capBytes prepared) limit origin.method) 0)
  | none =>
    match storage.upload prepared with
    | .panicked => none
    | .returned (.error error) => some (.failed error (storage.capBytes prepared))
    | .returned (.ok (batch, metadata)) =>
      some (.pointer (batch, some metadata) (storage.capBytes prepared))

/-- A batch goes to storage when it is above the threshold, and also when it would not fit
the response. -/
def externalize (limit : Option Nat) (cumulative : Nat) (schema : Schema)
    (batch : A.Batch) (metadata : Option Metadata) : Option (StreamEmit A) :=
  match server.storage with
  | none => some .inline
  | some storage =>
    match storage.prepare batch schema metadata with
    | .error error => some (.failed error 0)
    | .ok (some prepared) => uploadChecked server origin storage cumulative prepared
    | .ok none =>
      match limit with
      | none => some .inline
      | some limit =>
        match storage.prepareForced batch schema metadata with
        | .error error => some (.failed error 0)
        | .ok none => some .inline
        | .ok (some prepared) =>
          if storage.capBytes prepared > limit then
            uploadChecked server origin storage cumulative prepared
          else some .inline

/-! ## Answers -/

/-- How a dispatch returns: with the cap on the body and the session headers, with the cap
alone, before either, or with a failure status. -/
inductive Exit where
  | guarded
  | capped
  | early
  | refused
  deriving DecidableEq

/-- What a dispatch has made: the streams of the body and the schema of its output, the
failure the body carries, the bytes charged to external storage that are checked once
more, and the request as a cap's envelope names it. -/
structure Answer (A : ArrowIpc) (render : Rendering) where
  sheets : List (Sheet A render)
  schema : Schema
  error : Option RpcError
  externalBytes : Nat
  exit : Exit
  named : Origin

/-- The batches of a stream in the making, and the failure among them. -/
structure Written (A : ArrowIpc) (render : Rendering) where
  pieces : List (Piece A render)
  error : Option RpcError

def Written.behind {render : Rendering} (logs : List (Piece A render)) (written : Written A render) :
    Written A render :=
  { written with pieces := logs ++ written.pieces }

variable (schema : Schema)

def failing (error : RpcError) : Option (Written A server.render) := do
  let piece ← errorPiece server origin schema error
  pure ⟨[piece], some error⟩

def oneStream (named : Origin) (schema : Schema) (written : Written A server.render)
    (exit : Exit) : Option (Answer A server.render) := do
  let sheet ← bodyStream server schema written.pieces
  pure ⟨[sheet], schema, written.error, 0, exit, named⟩

/-! ## Unary calls -/

/-- The result of a method that returned none is a batch without rows. -/
def resultBatch : Option A.Batch → Option A.Batch
  | some batch => some batch
  | none => (server.emptyBatch schema).toOption

def resultPieces (limit : Option Nat) (schema : Schema)
    (result : Option A.Batch) : Option (Written A server.render × Nat) := do
  let batch ← resultBatch server schema result
  match ← externalize server origin limit 0 schema batch none with
  | .pointer item charged => pure (⟨[.data item], none⟩, charged)
  | .inline => pure (⟨[.data (batch, none)], none⟩, 0)
  | .failed error charged => pure (← failing server origin schema error, charged)

/-- A pre-published reference is written as it is; an error wins over it. -/
def unaryPieces (limit : Option Nat) (call : UnaryCall A) :
    Option (Written A server.render × Nat) :=
  match callGuard call.outcome, call.externalRef with
  | .error error, _ => (failing server origin call.resultSchema error).map (·, 0)
  | .ok _, some reference =>
    match reference.pointerBatch server.toPlane call.resultSchema with
    | .ok (batch, metadata) => some (⟨[.data (batch, some metadata)], none⟩, 0)
    | .error (.error error) => (failing server origin call.resultSchema error).map (·, 0)
    | .error .panicked => none
  | .ok result, none => resultPieces server origin limit call.resultSchema result

def unaryDispatch (limit : Option Nat) (call : UnaryCall A) : Option (Answer A server.render) := do
  let logs ← logPieces server origin call.resultSchema call.logs
  let (written, charged) ← unaryPieces server origin limit call
  let sheet ← bodyStream server call.resultSchema (logs ++ written.pieces)
  pure ⟨[sheet], call.resultSchema, written.error, charged, .guarded, origin⟩

/-! ## Streams -/

/-- What a collector holds, up to the first batch that external storage fails. -/
def producerPieces (origin : Origin) (limit : Option Nat) (schema : Schema) :
    Nat → List (Emitted A.Batch) → Option (Written A server.render)
  | _, [] => some ⟨[], none⟩
  | cumulative, .log message :: rest => do
      let piece ← logPiece server origin schema message
      let written ← producerPieces origin limit schema cumulative rest
      pure (written.behind [piece])
  | cumulative, .batch batch metadata :: rest => do
      match ← externalize server origin limit cumulative schema batch metadata with
      | .pointer item charged =>
        let written ← producerPieces origin limit schema (cumulative + charged) rest
        pure (written.behind [.data item])
      | .inline =>
        let written ← producerPieces origin limit schema cumulative rest
        pure (written.behind [.data (batch, metadata)])
      | .failed error _ => failing server origin schema error

def runProducer {σ : Type} (origin : Origin) (limit : Option Nat) (schema : Schema)
    (turn : Turn A σ) : Option (Written A server.render × Bool) := do
  let logs ← logPieces server origin schema turn.logs
  match callGuard turn.outcome with
  | .error error => pure ((← failing server origin schema error).behind logs, true)
  | .ok () =>
    let written ← producerPieces server origin limit schema 0 turn.out.items
    pure (written.behind logs, written.error.isSome || turn.out.finished ||
      !turn.out.items.any Emitted.isBatch)

/-- The tokens for a state: those of `/init`, and the cursor of a later turn. -/
structure TokenMint (σ : Type) where
  initTokens : StreamStateKind σ → Except Failure (String × String)
  cursorToken : StreamStateKind σ → Except RpcError String

/-- The tokens of a response: a cursor and, from `/init`, the call token. -/
structure Tokens where
  cursor : String
  call : Option String

def Tokens.metadata (tokens : Tokens) : Metadata :=
  EnvelopeMeta.setOrClear (Library.OrderedMap.empty.insert stateKey tokens.cursor) callStateKey
    tokens.call

theorem Tokens.metadata_absent (tokens : Tokens) {key : String} (cursor : key ≠ stateKey)
    (call : key ≠ callStateKey) : mdGet tokens.metadata key = none := by
  rw [metadata, EnvelopeMeta.mdGet_setOrClear, if_neg call, mdGet,
    Library.OrderedMap.get?_insert, if_neg cursor]
  exact Library.OrderedMap.get?_empty key

def tokenPiece {render : Rendering} (batch : A.Batch) (tokens : Tokens) : Piece A render where
  purpose := .token
  item := (batch, some tokens.metadata)
  genuine json := by
    have location := tokens.metadata_absent (show locationKey ≠ stateKey by decide) (by decide)
    have level := tokens.metadata_absent (show logLevelKey ≠ stateKey by decide) (by decide)
    simp [kindOf, classify, location, level]

/-- The tokens on a batch of their own, or the failure to mint them. -/
def tokenPieces (minted : Except RpcError Tokens) : Option (Written A server.render) :=
  match minted with
  | .ok tokens => do
      let empty ← (server.blank schema).toOption
      pure ⟨[tokenPiece empty.val tokens], none⟩
  | .error error => failing server origin schema error

/-- A panic of the library while it writes the schemas unwinds. -/
def mintedInit : Except Failure (String × String) → Option (Except RpcError Tokens)
  | .ok (cursor, callToken) => some (.ok ⟨cursor, some callToken⟩)
  | .error (.error error) => some (.error error)
  | .error .panicked => none

variable {σ : Type} (origin : Origin)

/-- A producer's turn with the cursor behind it, unless the stream is over. -/
def producerTurn (limit : Option Nat) (schema : Schema) (turn : Turn A σ)
    (minted : Option (Except RpcError Tokens)) : Option (Written A server.render) := do
  let (written, finished) ← runProducer server origin limit schema turn
  if finished then pure written
  else
    let tokens ← tokenPieces server origin schema (← minted)
    pure (tokens.behind written.pieces)

/-- The output stream of `/init` behind its logs: a producer takes its first turn. -/
def initPieces (limit : Option Nat) (mint : TokenMint σ)
    (methods : StreamState A σ) (result : StreamResult A σ) (tick : Metadata) :
    Option (Written A server.render) :=
  match result.state with
  | .producer state =>
    let turn := methods.produce state tick (.new A result.outputSchema true)
    producerTurn server origin limit result.outputSchema turn
      (mintedInit (mint.initTokens (.producer turn.state)))
  | .exchange state => do
      tokenPieces server origin result.outputSchema
        (← mintedInit (mint.initTokens (.exchange state)))

variable (result : StreamResult A σ) (logs : List LogMessage)

def headerStreams : Option (List (Sheet A server.render)) :=
  match result.header with
  | none => some []
  | some header => do
      let logs ← logPieces server origin (A.schemaOf header) logs
      let sheet ← bodyStream server (A.schemaOf header)
        (logs ++ [.data (header, result.headerMetadata)])
      pure [sheet]

/-- The logs of an init, where no header stream takes them. -/
def initLogs : Option (List (Piece A server.render)) :=
  if result.header.isNone then logPieces server origin result.outputSchema logs else some []

def streamInitDispatch (limit : Option Nat) (mint : TokenMint σ)
    (call : Server.StreamCall A σ) (tick : Metadata) : Option (Answer A server.render) :=
  match callGuard call.init with
  | .error error => do
      let sheet ← errorStream server origin .empty error
      pure ⟨[sheet], .empty, some error, 0, .early, origin⟩
  | .ok result => do
      let headers ← headerStreams server origin result call.logs
      let logs ← initLogs server origin result call.logs
      let written ← initPieces server origin limit mint call.methods result tick
      let sheet ← bodyStream server result.outputSchema (logs ++ written.pieces)
      pure ⟨headers ++ [sheet], result.outputSchema, written.error, 0, .guarded, origin⟩

/-- What an exchange's collector holds.  The cursor rides on the data batch, or follows on
a batch of its own when there is none. -/
def exchangePieces (origin : Origin) (limit : Option Nat) (schema : Schema) (cursor : String) :
    Nat → Bool → List (Emitted A.Batch) → Option (Written A server.render)
  | _, wrote, [] =>
    if wrote then some ⟨[], none⟩
    else tokenPieces server origin schema (.ok ⟨cursor, none⟩)
  | cumulative, wrote, .log message :: rest => do
      let piece ← logPiece server origin schema message
      let written ← exchangePieces origin limit schema cursor cumulative wrote rest
      pure (written.behind [piece])
  | cumulative, _, .batch batch metadata :: rest => do
      let carrying := (metadata.getD .empty).insert stateKey cursor
      match ← externalize server origin limit cumulative schema batch (some carrying) with
      | .pointer item charged =>
        let written ← exchangePieces origin limit schema cursor (cumulative + charged) true rest
        pure (written.behind [.data item])
      | .inline =>
        let written ← exchangePieces origin limit schema cursor cumulative true rest
        pure (written.behind [.data (batch, some carrying)])
      | .failed error _ => failing server origin schema error

/-- The cap of an exchange turn names no request. -/
def unnamed : Origin := ⟨"", "", ""⟩

/-- A turn of an exchange.  When its state cannot be encoded the dispatch returns at once,
with the logs it has written. -/
def exchangeTurn (limit : Option Nat) (mint : TokenMint σ) (schema : Schema)
    (turn : Turn A σ) : Option (Answer A server.render) := do
  let logs ← logPieces server origin schema turn.logs
  match callGuard turn.outcome with
  | .error error =>
    oneStream server unnamed schema ((← failing server origin schema error).behind logs) .guarded
  | .ok () =>
    match mint.cursorToken (.exchange turn.state) with
    | .error error =>
      oneStream server unnamed schema ((← failing server origin schema error).behind logs) .early
    | .ok cursor =>
      let written ← exchangePieces server origin limit schema cursor 0 false turn.out.items
      oneStream server unnamed schema (written.behind logs) .guarded

def cancelTurn (schema : Schema) (logs : List LogMessage)
    (outcome : Outcome Unit) : Option (Answer A server.render) := do
  let logs ← logPieces server origin schema logs
  match callGuard outcome with
  | .error error =>
    oneStream server origin schema ((← failing server origin schema error).behind logs) .guarded
  | .ok () => oneStream server origin schema ⟨logs, none⟩ .guarded

/-- The transport's own keys are not for the worker. -/
def stripFrameworkTickMetadata (metadata : Metadata) : Metadata :=
  [stateKey, callStateKey, cancelKey].foldl Library.OrderedMap.remove metadata

/-- A continuation request, once its tokens were opened and its state decoded. -/
def streamExchangeDispatch (limit : Option Nat) (mint : TokenMint σ)
    (methods : StreamState A σ) (resumed : Resumed σ) (batch : A.Batch) (metadata : Metadata) :
    Option (Answer A server.render) :=
  if (mdGet metadata cancelKey).isSome then
    let (logs, outcome) := methods.onCancel resumed.state .empty
    cancelTurn server origin resumed.outputSchema logs outcome
  else
    match resumed.state with
    | .producer state => do
        let turn := methods.produce state (stripFrameworkTickMetadata metadata)
          (.new A resumed.outputSchema true)
        let written ← producerTurn server origin limit resumed.outputSchema turn
          (some ((mint.cursorToken (.producer turn.state)).map (⟨·, none⟩)))
        oneStream server origin resumed.outputSchema written .guarded
    | .exchange state =>
      match castInput server.toEngine resumed.inputSchema batch with
      | .error error => do
          oneStream server origin resumed.outputSchema
            (← failing server origin resumed.outputSchema error) .early
      | .ok input =>
        exchangeTurn server origin limit mint resumed.outputSchema
          (methods.exchange state input (stripFrameworkTickMetadata metadata)
            (.new A resumed.outputSchema false))

/-! ## Reflection -/

/-- A failure that was not written is answered with a failure status. -/
def reflectionDispatch (result : ReflectionResult A) : Option (Answer A server.render) :=
  match serveReflection server.toEngine
      (.new server.serverId origin.requestId (tracebackOrigin server "" "")) result with
  | (.ok (), sheets) => some ⟨sheets, .empty, none, 0, .capped, origin⟩
  | (.error (.error error), _) => do
      let sheet ← errorStream server ⟨"", "", origin.requestId⟩ .empty error
      pure ⟨[sheet], .empty, some error, 0, .refused, origin⟩
  | (.error .panicked, _) => none

/-! ## Responses -/

inductive Request (A : ArrowIpc) (σ : Type) where
  | unary (call : UnaryCall A)
  | reflection (result : ReflectionResult A)
  | init (mint : TokenMint σ) (call : Server.StreamCall A σ) (tick : Metadata)
  | continuation (mint : TokenMint σ) (methods : StreamState A σ) (call : ResolvedCall)
      (resumed : Resumed σ) (batch : A.Batch) (metadata : Metadata)

def Request.limit (hard : Option Nat) : Request A σ → Option Nat
  | .continuation _ _ call _ _ _ => continuationLimit hard call
  | _ => hard

def dispatch (hard : Option Nat) : Request A σ → Option (Answer A server.render)
  | .unary call => unaryDispatch server origin hard call
  | .reflection result => reflectionDispatch server origin result
  | .init mint call tick => streamInitDispatch server origin hard mint call tick
  | .continuation mint methods call resumed batch metadata =>
    streamExchangeDispatch server origin (continuationLimit hard call) mint methods resumed batch
      metadata

structure HttpResponse (A : ArrowIpc) (render : Rendering) where
  status : Nat
  sheets : List (Sheet A render)
  /-- `X-VGI-RPC-Error`. -/
  rpcError : Bool
  /-- The session headers of the request's sink are on it. -/
  stamped : Bool

def lengthOf (sheets : List (Sheet A server.render)) : Nat :=
  server.bodyLength (sheets.map Sheet.response)

def capError (limit : Option Nat) (answer : Answer A server.render) : Option RpcError :=
  match limit.filter fun limit => lengthOf server answer.sheets > limit with
  | some limit => some (responseCapError (lengthOf server answer.sheets) limit origin.method)
  | none =>
    (server.limits.maxExternalizedResponseBytes.filter fun limit =>
      answer.externalBytes > limit).map fun limit =>
        externalCapError answer.externalBytes limit origin.method

/-- A body within the cap goes out as it is; one beyond it is replaced by an EXCEPTION. -/
def enforceCap (limit : Option Nat) (answer : Answer A server.render)
    (stamped : Bool) : Option (HttpResponse A server.render) :=
  match capError server origin limit answer with
  | none => some ⟨200, answer.sheets, answer.error.isSome, stamped⟩
  | some error => do
      let sheet ← errorStream server answer.named answer.schema error
      pure ⟨200, [sheet], true, stamped⟩

def conclude (limit : Option Nat) (answer : Answer A server.render) :
    Option (HttpResponse A server.render) :=
  match answer.exit with
  | .guarded => enforceCap server origin limit answer true
  | .capped => enforceCap server origin limit answer false
  | .early => some ⟨200, answer.sheets, answer.error.isSome, false⟩
  | .refused => some ⟨500, answer.sheets, false, false⟩

def bareFailure {render : Rendering} : HttpResponse A render := ⟨500, [], false, false⟩

/-- The outermost layer: a panic is a bare 500, and so is a body it cannot buffer. -/
def postprocess (ceiling : Option Nat) :
    Option (HttpResponse A server.render) → HttpResponse A server.render
  | none => bareFailure
  | some response =>
    if Within ceiling (lengthOf server response.sheets) then response else bareFailure

def respond (accepted : Option ByteBudget) (request : Request A σ) : HttpResponse A server.render :=
  postprocess server (responseBufferCeiling (hardLimit server.limits accepted)) do
    let answer ← dispatch server origin (hardLimit server.limits accepted) request
    conclude server origin (request.limit (hardLimit server.limits accepted)) answer

end

end VgiRpc.Http.Dispatch

