import VgiRpc.Http.CallCache
import VgiRpc.StreamCodec
import VgiRpc.Wire.RoundTrip

/-!
# Continuing a stream

An answer that leaves a stream open hands out a cursor with the encoded state, and
the first one also the call token.  The next request brings both back: the cursor is
opened, the call resolved, the schemas read from its bytes and the state decoded.
-/

namespace VgiRpc.Http

open Library ByteStream Arrow Wire
open Arrow.Sample (kindOf unreadable library library_lawful)

section

variable (A : ArrowIpc) (emptyBatch : Schema → Except Failure A.Batch)

def writeOneBatch {A : ArrowIpc} (batch : A.Batch) (metadata : Option Metadata) :
    Except Failure Bytes :=
  match writeStream ⟨A.schemaOf batch, [(batch, metadata)], by simp⟩ ⟨[], none, []⟩ with
  | (.ok _, final) => .ok final.written
  | (.error failure, _) => .error failure

def writeSchemaBytes (schema : Schema) : Except Failure Bytes := do
  let empty ← emptyBatch schema
  writeOneBatch empty none

def readSchemaBytes (bytes : Bytes) : Except RpcError Schema :=
  match StreamReader.new A (.ofBytes bytes) with
  | (.ok reader, _) => .ok reader.schema
  | (.error error, _) => .error error

def SchemaFits (schema : Schema) : Prop :=
  ∀ opening tracker, A.schemaToBytes schema A.newTracker = some (opening, tracker) →
    headerSize opening ≤ maxIpcSchemaBytes

variable {A emptyBatch} {bytes : Bytes}

theorem writeOneBatch_ok {batch : A.Batch} {metadata : Option Metadata}
    (run : writeOneBatch batch metadata = .ok bytes) :
    ∃ opening tracker tail, A.schemaToBytes (A.schemaOf batch) A.newTracker = some (opening, tracker) ∧
      bytes = encapsulate opening.ipcMessage opening.arrowData ++ tail := by
  unfold writeOneBatch at run
  split at run
  · rename_i final wrote
    cases run
    obtain ⟨opening, messages, ⟨tracker, opened, _⟩, written⟩ := writeStream_ok wrote
    refine ⟨opening, tracker, frames messages ++ endOfStream, opened, ?_⟩
    rw [written, streamBytes, frames_cons]
    simp
  · cases run

/-- A schema comes back from its bytes exactly when its message is under the cap. -/
theorem readSchemaBytes_iff (lawful : A.Lawful)
    (named : ∀ schema batch, emptyBatch schema = .ok batch → A.schemaOf batch = schema)
    {schema : Schema} (wrote : writeSchemaBytes A emptyBatch schema = .ok bytes) :
    bytes ≠ [] ∧ (readSchemaBytes A bytes = .ok schema ↔ SchemaFits A schema) := by
  obtain ⟨batch, empty, run⟩ := exceptBind_eq_ok wrote
  obtain ⟨opening, tracker, tail, opened, rfl⟩ := writeOneBatch_ok run
  rw [named schema batch empty] at opened
  obtain ⟨bodyless, framable, decoded⟩ := opening_decodes lawful opened
  refine ⟨by simp [encapsulate, continuationMarker], ?_⟩
  by_cases fits : headerSize opening ≤ maxIpcSchemaBytes
  · obtain ⟨state, rest, reads, same, _⟩ := new_reads bodyless framable decoded fits
      (ofBytes_reliable _) rfl
    refine iff_of_true ?_ ?_
    · rw [readSchemaBytes, reads]
      exact congrArg Except.ok same
    · intro other _ known
      rw [opened] at known
      cases known
      exact fits
  · obtain ⟨rest, refused⟩ := new_refuses (A := A)
      (Nat.lt_of_le_of_lt framable.header (by decide)) (Nat.lt_of_not_le fits) tail
    refine iff_of_false ?_ ?_
    · rw [readSchemaBytes, refused]
      simp
    · intro known
      exact fits (known opening tracker opened)

end

section

variable {σ : Type} (P : Primitives) (A : ArrowIpc)
  (emptyBatch : Schema → Except Failure A.Batch) (config : TokenConfig) (codec : StreamStateCodec σ)
  (auth : AuthContext) (state : σ)

def buildCursorToken
    (callId : CallId) (now : UInt64) (nonce : Nonce) : Except RpcError (String × Bytes) := do
  let stateBytes ← callGuard (codec.encode state)
  pure (packCursorToken P config.tokenKey (computeAad auth) stateBytes callId now nonce, stateBytes)

structure StreamCall where
  outputSchema : Schema
  inputSchema : Option Schema
  streamId : String
  responseLimitBytes : Option Limit
  preferredResponseBytes : Option Limit

def writeInputSchema : Option Schema → Except Failure Bytes
  | some schema => writeSchemaBytes A emptyBatch schema
  | none => .ok []

variable (call : StreamCall)

def StreamCall.resolved : Except Failure ResolvedCall := do
  let outputSchemaBytes ← writeSchemaBytes A emptyBatch call.outputSchema
  let inputSchemaBytes ← writeInputSchema A emptyBatch call.inputSchema
  pure ⟨outputSchemaBytes, inputSchemaBytes, call.streamId, call.responseLimitBytes,
    call.preferredResponseBytes⟩

def buildInitTokens (callId : CallId) (callAt cursorAt : UInt64) (callNonce cursorNonce : Nonce) :
    Except Failure (String × String × Bytes) := do
  let resolved ← call.resolved A emptyBatch
  let callToken := packCallToken P config.tokenKey (computeCallAad auth) callId resolved callAt
    callNonce
  let (cursor, stateBytes) ←
    (buildCursorToken P config codec auth state callId cursorAt cursorNonce).mapError .error
  pure (cursor, callToken, stateBytes)

structure Reopened (σ : Type) where
  state : σ
  call : ResolvedCall
  outputSchema : Schema
  inputSchema : Option Schema

variable (method : String)

def missingDecoder : RpcError :=
  .runtimeError ("Stream method '" ++ method ++ "' is registered without a state decoder; " ++
    "it cannot serve HTTP continuation requests")

def undecodable (error : RpcError) : RpcError :=
  .runtimeError ("Stream state could not be decoded (" ++ error.errorType ++ ")")

variable (decoder : Option (Bytes → Outcome σ))

def decodeState (stateBytes : Bytes) : Except RpcError σ :=
  match decoder with
  | none => .error (missingDecoder method)
  | some decode => (callGuard (decode stateBytes)).mapError undecodable

def readInputSchema (bytes : Bytes) : Except RpcError (Option Schema) :=
  if bytes = [] then .ok none else (readSchemaBytes A bytes).map some

/-- The part of an exchange request that turns its tokens back into a stream. -/
def reopen (request : TokenRequest) (times : Readings)
    (cache : CallStates) : Except RpcError (Reopened σ) := do
  let cursor ← unpackCursorToken P config.tokenKey (computeAad request.auth) request.cursor
    config.tokenTtlOpt times.cursor
  let call ← (resolveCall P config request.auth cursor request.callToken times cache).1
  let outputSchema ← readSchemaBytes A call.outputSchemaBytes
  let inputSchema ← readInputSchema A call.inputSchemaBytes
  let state ← decodeState method decoder cursor.stateBytes
  pure ⟨state, call, outputSchema, inputSchema⟩

end

section

variable {σ : Type} {P : Primitives} {A : ArrowIpc}
  {emptyBatch : Schema → Except Failure A.Batch} {config : TokenConfig}

/-- The decoder of a method: the codec of its state, where one was registered. -/
def registeredDecoder (registered : Bool) (codec : StreamStateCodec σ) :
    Option (Bytes → Outcome σ) :=
  if registered then some codec.decode else none

theorem decodeState_iff {codec : StreamStateCodec σ} (lawful : codec.Lawful) {state : σ}
    {stateBytes : Bytes} (encoded : callGuard (codec.encode state) = .ok stateBytes)
    (method : String) (registered : Bool) :
    decodeState method (registeredDecoder registered codec) stateBytes = .ok state ↔
      registered = true ∧ codec.Reads state stateBytes := by
  cases registered with
  | false => simp [decodeState, registeredDecoder]
  | true =>
    rw [← StreamStateCodec.decode_encode_iff lawful encoded]
    simp only [decodeState, registeredDecoder, if_true, true_and]
    cases callGuard (codec.decode stateBytes) <;> simp [Except.mapError]

/-- The schemas of a call come back from its bytes exactly when their messages fit. -/
theorem resolved_schemas (lawful : A.Lawful) (named : ∀ schema batch, emptyBatch schema = .ok batch
    → A.schemaOf batch = schema) {call : StreamCall} {resolved : ResolvedCall} (fixed :
    call.resolved A emptyBatch = .ok resolved) :
    (readSchemaBytes A resolved.outputSchemaBytes = .ok call.outputSchema ↔
      SchemaFits A call.outputSchema) ∧
    (readInputSchema A resolved.inputSchemaBytes = .ok call.inputSchema ↔
      ∀ schema, call.inputSchema = some schema → SchemaFits A schema) := by
  obtain ⟨output, wroteOutput, rest⟩ := exceptBind_eq_ok fixed
  obtain ⟨input, wroteInput, returns⟩ := exceptBind_eq_ok rest
  cases returns
  refine ⟨(readSchemaBytes_iff lawful named wroteOutput).2, ?_⟩
  cases given : call.inputSchema with
  | none =>
    rw [given] at wroteInput
    cases wroteInput
    exact iff_of_true rfl (fun schema none => by cases none)
  | some schema =>
    rw [given] at wroteInput
    obtain ⟨nonempty, reads⟩ := readSchemaBytes_iff lawful named wroteInput
    rw [readInputSchema, if_neg nonempty]
    simp only [Option.some.injEq, forall_eq', ← reads]
    cases readSchemaBytes A input <;> simp [Except.map]

/-- What a cursor needs to open again: every limit on the way back is kept. -/
structure Reopenable (P : Primitives) (A : ArrowIpc) (config : TokenConfig) (mint : Mint)
    (call : StreamCall) (codec : StreamStateCodec σ) (registered : Bool) (state : σ)
    (stateBytes : Bytes) (cursorAt : UInt64) (auth : AuthContext) (times : Readings)
    (cache : CallStates) : Prop where
  registered : registered = true
  decodes : codec.Reads state stateBytes
  cursor : CursorFits P cursorAt mint.callId stateBytes
  resolves : freshCall config auth mint.callId times.lookup cache = some mint.call ∨
    freshCall config auth mint.callId times.lookup cache = none ∧
      CallFits P mint.createdAt mint.callId mint.call
  output : SchemaFits A call.outputSchema
  input : ∀ schema, call.inputSchema = some schema → SchemaFits A schema

variable {cursor : UnpackedCursor} {times : Readings} {cache : CallStates}

/-- The call of a live call token resolves to the minted one exactly when it is kept, or
nothing is kept and the token can carry it. -/
theorem resolveCall_mint_iff (lawful : P.Lawful) {mint : Mint} {auth : AuthContext} (identity :
    computeCallAad auth = computeCallAad mint.auth) (sameId : cursor.callId = mint.callId) (alive :
    WithinLifetime config.tokenTtlOpt mint.createdAt times.token) :
    (resolveCall P config auth cursor (some (mint.token P config)) times cache).1 = .ok mint.call ↔
      freshCall config auth mint.callId times.lookup cache = some mint.call ∨
        freshCall config auth mint.callId times.lookup cache = none ∧
          CallFits P mint.createdAt mint.callId mint.call := by
  rw [resolveCall_fst, sameId]
  cases fresh : freshCall config auth mint.callId times.lookup cache with
  | some call => simp
  | none =>
    simp only [reduceCtorEq, true_and, false_or]
    constructor
    · intro opened
      have unpacked := openCall_ok opened
      rw [identity, sameId, Mint.token] at unpacked
      exact ((unpackCallToken_accepts lawful _ _ _ _ _ _ _ _).mp unpacked).1
    · intro fits
      rw [openCall_mint lawful times.token fits identity sameId, checkLifetime_ok.mpr alive]
      rfl

/-- With its tokens opened and its schemas read, a request is down to its state. -/
theorem reopen_opened (request : TokenRequest) {call : ResolvedCall} {outputSchema : Schema}
    {inputSchema : Option Schema} (unpacked : unpackCursorToken P config.tokenKey (computeAad
    request.auth) request.cursor config.tokenTtlOpt times.cursor = .ok cursor) (resolves :
    (resolveCall P config request.auth cursor request.callToken times cache).1 = .ok call) (output :
    readSchemaBytes A call.outputSchemaBytes = .ok outputSchema) (input : readInputSchema A
    call.inputSchemaBytes = .ok inputSchema) (method : String) (decoder : Option (Bytes → Outcome
    σ)) :
    reopen P A config method decoder request times cache =
      (decodeState method decoder cursor.stateBytes).map fun state =>
        ⟨state, call, outputSchema, inputSchema⟩ := by
  simp only [reopen, unpacked, bind, Except.bind, resolves, output, input]
  cases decodeState method decoder cursor.stateBytes <;> rfl

end

/-! ## A state that does not come back

A producer with a derived codec whose state is a byte vector, and one without columns
in its output. -/

namespace Sample

open Library.LittleEndian

/-- Bincode at `Vec<u8>`: a 64-bit length, then the bytes. -/
def vector : Bincode Bytes where
  serialize state :=
    if state.length < 2 ^ 64 then .ok (toLe 8 state.length ++ state) else .error "SizeLimit"
  deserialize limit bytes :=
    if limit < bytes.length then .error "SizeLimit"
    else if (bytes.drop 8).length = ofLe (bytes.take 8) then .ok (bytes.drop 8)
    else .error "Io"

def codec : StreamStateCodec Bytes := .derived vector none

theorem codec_lawful : codec.Lawful := by
  intro state bytes limit serialized
  simp only [vector] at serialized
  split_ifs at serialized with short
  cases serialized
  have back : ofLe (toLe 8 state.length) = state.length := ofLe_toLe_of_lt (by omega)
  refine ⟨?_, fun beyond => if_pos beyond⟩
  intro within
  simp only [vector, if_neg (Nat.not_lt.mpr within)]
  simp [back, Except.map]

/-- The batch without columns; its row count plays no part in a schema's bytes. -/
def emptyBatch (schema : Schema) : Except Failure Arrow.Sample.Batch :=
  match kindOf schema with
  | some .empty => .ok .row
  | _ => .error unreadable

theorem emptyBatch_named (schema : Schema) (batch : Arrow.Sample.Batch)
    (made : emptyBatch schema = .ok batch) : library.schemaOf batch = schema := by
  unfold emptyBatch at made
  split at made
  · rename_i known
    cases made
    exact (Arrow.Sample.schema_of_kindOf known).symm
  · cases made

def streamCall : StreamCall := ⟨Arrow.Sample.Kind.empty.schema, none, "stream", none, none⟩

def schemaBytes : Bytes := streamBytes ⟨[1], []⟩ [⟨[4], []⟩]

theorem writeSchemaBytes_empty :
    writeSchemaBytes library emptyBatch Arrow.Sample.Kind.empty.schema = .ok schemaBytes := by
  have aligned : Aligned ([] ++ [⟨[4], []⟩]) := aligned_of_empty (by simp)
  have row : Sends library .row none () ([] ++ [⟨[4], []⟩]) () :=
    .encoded rfl rfl rfl aligned
  have sends : StreamSends (A := library)
      ⟨library.schemaOf .row, [(.row, none)], by simp⟩ ⟨[1], []⟩ [⟨[4], []⟩] :=
    ⟨(), rfl, .cons row (SendsAll.nil (A := library) ())⟩
  have reliable : (⟨[], none, []⟩ : Sink Failure).Reliable := by
    intro error member
    cases member
  obtain ⟨final, wrote, _⟩ := writeStream_open Arrow.Sample.library_lawful sends reliable rfl
  obtain ⟨opening, messages, sent, written⟩ := writeStream_ok wrote
  obtain ⟨rfl, rfl⟩ := sent.unique sends
  have made : emptyBatch Arrow.Sample.Kind.empty.schema = .ok .row := rfl
  unfold writeSchemaBytes
  rw [made]
  change writeOneBatch (A := library) .row none = _
  unfold writeOneBatch
  rw [wrote]
  exact congrArg Except.ok written

def streamMint : Mint := ⟨auth, callId, ⟨schemaBytes, [], "stream", none, none⟩, 0, nonce⟩

theorem streamCall_resolved : streamCall.resolved library emptyBatch = .ok streamMint.call := by
  unfold StreamCall.resolved
  change (writeSchemaBytes library emptyBatch Arrow.Sample.Kind.empty.schema >>= _) = _
  rw [writeSchemaBytes_empty]
  rfl

theorem schemaFits_empty : SchemaFits library Arrow.Sample.Kind.empty.schema := by
  intro opening tracker opened
  have known : library.schemaToBytes Arrow.Sample.Kind.empty.schema
      library.newTracker = some (⟨[1], []⟩, ()) := rfl
  rw [known] at opened
  cases opened
  decide

theorem streamMint_fits : CallFits primitives streamMint.createdAt streamMint.callId
    streamMint.call :=
  ⟨payloadFits _, by decide +kernel, by decide, by decide⟩

def cursorOf (state : Bytes) : String :=
  packCursorToken primitives config.tokenKey (computeAad auth) (toLe 8 state.length ++ state) callId
    0 nonce

variable {state : Bytes}

theorem buildCursorToken_of (short : state.length < 2 ^ 64) :
    buildCursorToken primitives config codec streamMint.auth state streamMint.callId 0 nonce =
      .ok (cursorOf state, toLe 8 state.length ++ state) := by
  have encoded : callGuard (codec.encode state) = .ok (toLe 8 state.length ++ state) := by
    simp only [codec, StreamStateCodec.encode, callGuard, bincodeEncode, vector, if_pos short]
    rfl
  rw [buildCursorToken, encoded]
  rfl

theorem reopenable_of (short : 8 + state.length < 2 ^ 32)
    (small : (toLe 8 state.length ++ state).length ≤ maxStateDecodeBytes) (now : UInt64) :
    Reopenable primitives library config streamMint streamCall codec true state
      (toLe 8 state.length ++ state) 0 auth (requestAt now) OrderedMap.empty where
  registered := rfl
  decodes := small
  cursor := ⟨payloadFits _, by simpa using short⟩
  resolves := .inr ⟨rfl, streamMint_fits⟩
  output := schemaFits_empty
  input := by
    intro schema given
    cases given

end Sample

namespace Sample

open Library.LittleEndian

variable {state : Bytes}

/-- The tokens of a state open, however large it is, and name the schemas of the call. -/
theorem tokens_open (short : 8 + state.length < 2 ^ 32) :
    unpackCursorToken primitives config.tokenKey (computeAad auth) (cursorOf state)
        config.tokenTtlOpt (requestAt 0).cursor = .ok ⟨toLe 8 state.length ++ state, callId, 0⟩ ∧
      (resolveCall primitives config auth ⟨toLe 8 state.length ++ state, callId, 0⟩
        (some (streamMint.token primitives config)) (requestAt 0) OrderedMap.empty).1 =
          .ok streamMint.call ∧
      readSchemaBytes library streamMint.call.outputSchemaBytes = .ok streamCall.outputSchema ∧
      readInputSchema library streamMint.call.inputSchemaBytes = .ok streamCall.inputSchema := by
  have fits : CursorFits primitives 0 callId (toLe 8 state.length ++ state) :=
    ⟨payloadFits _, by simpa using short⟩
  have identity : computeCallAad auth = computeCallAad streamMint.auth := rfl
  have alive : WithinLifetime config.tokenTtlOpt streamMint.createdAt (requestAt 0).token :=
    checkLifetime_ok.mp (by decide)
  obtain ⟨output, input⟩ := resolved_schemas library_lawful emptyBatch_named
    streamCall_resolved
  refine ⟨?_, ?_, output.mpr schemaFits_empty, input.mpr fun schema given => by cases given⟩
  · exact (unpackCursorToken_accepts primitives_lawful _ _ _ _ _ _ _ _).mpr
      ⟨fits, checkLifetime_ok.mp (by decide)⟩
  · exact (resolveCall_mint_iff primitives_lawful identity rfl alive).mpr
      (.inr ⟨rfl, streamMint_fits⟩)

/-- A cursor is handed out for a state over the decoding limit, and refused at once. -/
theorem reopen_large (short : 8 + state.length < 2 ^ 32)
    (large : maxStateDecodeBytes < 8 + state.length) :
    reopen primitives library config "count" (registeredDecoder true codec)
        ⟨auth, cursorOf state, some (streamMint.token primitives config)⟩ (requestAt 0)
        OrderedMap.empty =
      .error (.runtimeError "Stream state could not be decoded (RuntimeError)") := by
  obtain ⟨unpacked, resolves, output, input⟩ := tokens_open short
  have serialized : vector.serialize state = .ok (toLe 8 state.length ++ state) :=
    if_pos (by omega)
  have refuses := (codec_lawful state _ maxStateDecodeBytes serialized).2 (by simpa using large)
  have beyond : callGuard (codec.decode (toLe 8 state.length ++ state)) =
      .error (.runtimeError "bincode decode: SizeLimit") := by
    simp only [codec, StreamStateCodec.decode, callGuard, bincodeDecode, refuses]
    rfl
  have refused : decodeState "count" (registeredDecoder true codec) (toLe 8 state.length ++ state) =
        .error (.runtimeError "Stream state could not be decoded (RuntimeError)") := by
    rw [registeredDecoder, if_pos rfl, decodeState, beyond]
    rfl
  rw [reopen_opened ⟨auth, cursorOf state, some (streamMint.token primitives config)⟩ unpacked
    resolves output input, refused]
  rfl

end Sample

open Sample

end VgiRpc.Http
