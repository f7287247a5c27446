import VgiRpc.External.RoundTrip
import VgiRpc.Http.Routing

/-!
# An intermediary

A proxy reads a request off the wire, and writes it out again for the server behind it.  The
writer is given the method, the parameters, the version of the protocol and the id of the
request.
-/

namespace VgiRpc.Intermediary

open List Library.OrderedMap
open Library (OrderedMap)
open Arrow Wire Metadata External Library.ByteStream
open Http.Sample (quoted hosting)

section

variable {A : ArrowIpc}

structure Request (A : ArrowIpc) where
  method : String
  protocol : String
  requestId : String
  batch : A.Batch
  metadata : Metadata

-- The text that `{:?}` prints for a string.
variable (quoted : String → String) (metadata : Metadata)

def readMethod (requireMethod : Bool) : Except RpcError String :=
  match metadata.mdGet rpcMethodKey with
  | some method => .ok method
  | none =>
    if requireMethod then
      .error (.protocolError "Missing 'vgi_rpc.method' in request batch custom_metadata.")
    else .ok ""

def checkVersion : Except RpcError Unit :=
  match metadata.mdGet requestVersionKey with
  | none => .error (.versionError
      ("Missing 'vgi_rpc.request_version' in request batch custom_metadata. Set it to " ++
        quoted requestVersion ++ "."))
  | some version =>
    if version = requestVersion then .ok ()
    else .error (.versionError ("Unsupported request version " ++ quoted version ++ ", expected " ++
      quoted requestVersion ++ "."))

variable (batch : A.Batch) (metadata : Metadata) (requireMethod : Bool)

/-- A pointer to an external batch may have any number of rows. -/
def wrongRows : Bool :=
  let externalPointer := (metadata.mdGet locationKey).isSome
  requireMethod && !(A.schemaOf batch).fields.isEmpty && A.numRows batch != 1 && !externalPointer

def Request.fromReadBatch : Except RpcError (Request A) :=
  if metadata.contains invalidUtf8MetadataKey then
    .error (.protocolError "Invalid UTF-8 in request batch custom_metadata")
  else do
    let method ← readMethod metadata requireMethod
    checkVersion quoted metadata
    if wrongRows batch metadata requireMethod then
      .error (.protocolError
        ("Expected 1 row in request batch, got " ++ toString (A.numRows batch)))
    else
      .ok ⟨method, (metadata.mdGet protocolKey).getD "", (metadata.mdGet requestIdKey).getD "",
        batch, metadata⟩

def readRequest (A : ArrowIpc) (data : Bytes) : Except RpcError (Request A) :=
  match (readStream A (.ofBytes data)).1 with
  | .error error => .error error
  | .ok ⟨_, _, .error error⟩ => .error error
  | .ok ⟨_, [], .ok _⟩ => .error (.protocolError "empty IPC stream")
  | .ok ⟨_, (batch, metadata) :: _, .ok _⟩ => Request.fromReadBatch quoted batch metadata true

def insertPresent (key : String) (value : Option String) : Metadata :=
  match value.filter (· ≠ "") with
  | some value => metadata.insert key value
  | none => metadata

variable (method : String)

def requestMetadata (protocolVersion requestId : Option String) : Metadata :=
  let md := (OrderedMap.empty.insert rpcMethodKey method).insert requestVersionKey requestVersion
  let md := insertPresent md requestIdKey requestId
  insertPresent md protocolVersionKey protocolVersion

def writeRequest (params : A.Batch) (protocolVersion requestId : Option String) :
    Except Failure Bytes :=
  writeOneBatchAs params (A.schemaOf params)
    (some (requestMetadata method protocolVersion requestId))

namespace Request

variable (request : Request A)

def forwarded : Metadata :=
  requestMetadata request.method (request.metadata.mdGet protocolVersionKey) (some request.requestId)

def forward : Except Failure Bytes :=
  writeRequest request.method request.batch (request.metadata.mdGet protocolVersionKey)
    (some request.requestId)

end Request

/-! ## What is lost -/

theorem mdGet_insertPresent {metadata : Metadata} {key : String} (other : String)
    (value : Option String) (fresh : metadata.mdGet key = none) :
    (insertPresent metadata key value).mdGet other =
      if other = key then value.filter (· ≠ "") else metadata.mdGet other := by
  unfold insertPresent mdGet
  cases value.filter (· ≠ "") with
  | none =>
    by_cases same : other = key
    · rw [if_pos same, same]
      exact fresh
    · rw [if_neg same]
  | some value => exact get?_insert ..

theorem mdGet_requestMetadata (protocolVersion requestId : Option String) (key : String) :
    (requestMetadata method protocolVersion requestId).mdGet key =
      if key = protocolVersionKey then protocolVersion.filter (· ≠ "")
      else if key = requestIdKey then requestId.filter (· ≠ "")
      else if key = requestVersionKey then some requestVersion
      else if key = rpcMethodKey then some method
      else none := by
  have named (key : String) :
      mdGet ((empty.insert rpcMethodKey method).insert requestVersionKey requestVersion)
        key = if key = requestVersionKey then some requestVersion
          else if key = rpcMethodKey then some method else none := by
    rw [mdGet, get?_insert, get?_insert, get?_empty]
  have numbered (key : String) := mdGet_insertPresent key requestId (named requestIdKey)
  rw [requestMetadata, mdGet_insertPresent key protocolVersion (numbered protocolVersionKey),
    numbered, named]

/-- What the server sees of a request is what the intermediary saw. -/
structure Preserved (request again : Request A) : Prop where
  method : again.method = request.method
  protocol : again.protocol = request.protocol
  requestId : again.requestId = request.requestId
  batch : again.batch = request.batch
  metadata : ∀ key, again.metadata.mdGet key = request.metadata.mdGet key

/-- The metadata holds the keys that the writer is given, and nothing else. -/
def OnlyForwarded (metadata : Metadata) : Prop :=
  ∀ key value, metadata.mdGet key = some value → key = rpcMethodKey ∨ key = requestVersionKey ∨
      (key = requestIdKey ∨ key = protocolVersionKey) ∧ value ≠ ""

variable {quoted} {batch : A.Batch}

theorem fromReadBatch_eq_ok_iff {metadata : Metadata} {request : Request A} :
    Request.fromReadBatch quoted batch metadata true = .ok request ↔
      metadata.mdGet invalidUtf8MetadataKey = none ∧
      metadata.mdGet rpcMethodKey = some request.method ∧
      metadata.mdGet requestVersionKey = some requestVersion ∧
      wrongRows batch metadata true = false ∧
      request = ⟨request.method, (metadata.mdGet protocolKey).getD "",
        (metadata.mdGet requestIdKey).getD "", batch, metadata⟩ := by
  have marked : metadata.contains invalidUtf8MetadataKey = false ↔
      metadata.mdGet invalidUtf8MetadataKey = none := by
    rw [← Option.not_isSome_iff_eq_none, mdGet, get?_isSome_iff]
    exact decide_eq_false_iff_not
  rw [← marked]
  unfold Request.fromReadBatch
  cases metadata.contains invalidUtf8MetadataKey with
  | true => exact iff_of_false (by rintro ⟨⟩) (by rintro ⟨⟨⟩, _⟩)
  | false =>
    rw [if_neg (by decide), readMethod, checkVersion]
    cases metadata.mdGet rpcMethodKey with
    | none => exact iff_of_false (by rintro ⟨⟩) (by rintro ⟨_, ⟨⟩, _⟩)
    | some method =>
      cases metadata.mdGet requestVersionKey with
      | none => exact iff_of_false (by rintro ⟨⟩) (by rintro ⟨_, _, ⟨⟩, _⟩)
      | some version =>
        dsimp only
        by_cases supported : version = requestVersion
        · rw [if_pos supported]
          change (if wrongRows batch metadata true then _ else _) = _ ↔ _
          cases wrongRows batch metadata true with
          | true => exact iff_of_false (by rintro ⟨⟩) (by rintro ⟨_, _, _, ⟨⟩, _⟩)
          | false =>
            rw [if_neg (by decide)]
            constructor
            · rintro ⟨⟩
              exact ⟨rfl, rfl, congrArg some supported, rfl, rfl⟩
            · rintro ⟨-, named, -, -, whole⟩
              rw [whole, Option.some.inj named]
        · rw [if_neg supported]
          exact iff_of_false (by rintro ⟨⟩) fun both => supported (Option.some.inj both.2.2.1)

/-- A request is read from what its metadata holds under each key. -/
theorem fromReadBatch_congr {metadata again : Metadata} {request : Request A}
    (same : ∀ key, again.mdGet key = metadata.mdGet key)
    (read : Request.fromReadBatch quoted batch metadata true = .ok request) :
    Request.fromReadBatch quoted batch again true = .ok { request with metadata := again } := by
  rw [fromReadBatch_eq_ok_iff] at read ⊢
  have rows : wrongRows batch again true = wrongRows batch metadata true := by
    rw [wrongRows, wrongRows, same]
  rw [rows, same, same, same, same, same]
  obtain ⟨unmarked, method, version, counted, whole⟩ := read
  exact ⟨unmarked, method, version, counted, by rw [whole]⟩

section

variable {batch : A.Batch} {metadata : Metadata} {opening : EncodedData}
  {tracker tracker' : A.Tracker} {messages : List EncodedData} {request : Request A}

/-- One batch in a stream of its own is the request. -/
theorem readRequest_sends (lawful : A.Lawful) (opened : A.schemaToBytes (A.schemaOf batch)
    A.newTracker = some (opening, tracker)) (sends : Sends A batch (some metadata) tracker messages
    tracker') (limits : WithinLimits batch (A.schemaOf batch) (some metadata)) :
    readRequest quoted A (streamBytes opening messages) =
      Request.fromReadBatch quoted batch metadata true := by
  let stream : StreamValue A :=
    ⟨A.schemaOf batch, [(batch, some metadata)], by simp⟩
  have whole : StreamSends stream opening messages :=
    ⟨tracker, opened, by simpa using SendsAll.cons sends (.nil tracker')⟩
  have caps : WithinCaps stream := by
    rintro opening messages ⟨tracker, opened, all⟩
    cases all with
    | cons head tail =>
      cases tail
      rw [append_nil]
      exact limits _ _ _ _ opened head
  obtain ⟨rest, read, -⟩ := readStream_back lawful whole caps
    (ofBytes_reliable (streamBytes opening messages)) (append_nil _).symm
  unfold readRequest
  rw [read]
  rfl

theorem forwarded_same_iff (read : Request.fromReadBatch quoted batch metadata true = .ok request) :
    (∀ key, request.forwarded.mdGet key = metadata.mdGet key) ↔ OnlyForwarded metadata := by
  obtain ⟨-, method, version, -, whole⟩ := fromReadBatch_eq_ok_iff.mp read
  have id : request.requestId = (metadata.mdGet requestIdKey).getD "" := by rw [whole]
  have kept : request.metadata = metadata := by rw [whole]
  constructor
  · intro same key value found
    rw [← same, Request.forwarded, mdGet_requestMetadata] at found
    split at found
    · next named => exact .inr (.inr ⟨.inr named, by simpa using (Option.filter_eq_some_iff.mp found).2⟩)
    split at found
    · next named => exact .inr (.inr ⟨.inl named, by simpa using (Option.filter_eq_some_iff.mp found).2⟩)
    split at found
    · next named => exact .inr (.inl named)
    split_ifs at found with named
    exact .inl named
  · intro only key
    rw [Request.forwarded, mdGet_requestMetadata, kept, id]
    cases found : metadata.mdGet key with
    | none =>
      by_cases isVersion : key = protocolVersionKey
      · subst isVersion
        rw [if_pos rfl, found]
        rfl
      rw [if_neg isVersion]
      by_cases isId : key = requestIdKey
      · subst isId
        rw [if_pos rfl, found]
        rfl
      rw [if_neg isId, if_neg, if_neg]
      · rintro rfl
        rw [method] at found
        cases found
      · rintro rfl
        rw [version] at found
        cases found
    | some value =>
      rcases only key value found with rfl | rfl | ⟨rfl | rfl, present⟩
      · rw [method] at found
        exact found
      · rw [version] at found
        exact found
      · rw [found, if_neg (by decide), if_pos rfl]
        simpa using present
      · rw [found, if_pos rfl]
        simpa using present

/-- A request comes through an intermediary as it was exactly when it carries nothing besides
its method, the version of the wire, and an id and a version of its protocol. -/
theorem forwarding_preserves_iff (lawful : A.Lawful) {data : Bytes} (read : readRequest quoted A
    data = .ok request) (encodes : ∃ opening tracker messages tracker', A.schemaToBytes (A.schemaOf
    request.batch) A.newTracker = some (opening, tracker) ∧ Sends A request.batch (some
    request.forwarded) tracker messages tracker') (limits : WithinLimits request.batch (A.schemaOf
    request.batch) (some request.forwarded)) :
    (∃ bytes again, request.forward = .ok bytes ∧ readRequest quoted A bytes = .ok again ∧
      Preserved request again) ↔ OnlyForwarded request.metadata := by
  obtain ⟨batch, metadata, parsed⟩ : ∃ batch metadata,
      Request.fromReadBatch quoted batch metadata true = .ok request := by
    unfold readRequest at read
    split at read
    · cases read
    · cases read
    · cases read
    · exact ⟨_, _, read⟩
  obtain ⟨-, -, -, -, whole⟩ := fromReadBatch_eq_ok_iff.mp parsed
  obtain ⟨opening, tracker, messages, tracker', opened, sends⟩ := encodes
  have written : request.forward = .ok (streamBytes opening messages) :=
    writeOneBatchAs_of_sends lawful opened sends
  have back : readRequest quoted A (streamBytes opening messages) = _ :=
    readRequest_sends lawful opened sends limits
  have kept : request.metadata = metadata := by rw [whole]
  rw [kept, ← forwarded_same_iff parsed]
  constructor
  · rintro ⟨bytes, again, forwards, reads, preserved⟩ key
    cases written.symm.trans forwards
    have carried := (fromReadBatch_eq_ok_iff.mp (back.symm.trans reads)).2.2.2.2
    rw [← kept, ← preserved.metadata, carried]
  · intro same
    have held : request.batch = batch := by rw [whole]
    have parsed : Request.fromReadBatch quoted request.batch metadata true = .ok request := by
      rw [held]
      exact parsed
    refine ⟨_, _, written, back.trans (fromReadBatch_congr same parsed), rfl, rfl, rfl, rfl, ?_⟩
    rw [kept]
    exact same

end

end

namespace Sample

variable (routed : Bool)

def entries : List (String × String) :=
  [("vgi_rpc.method", "count"), ("vgi_rpc.request_version", "1")] ++
    if routed then [("vgi_rpc.protocol", "Service")] else []

def table : RecordBatchTable := ⟨1, some [], some [], none, none⟩

def message (entries : Option (List (String × String))) : Message Unit :=
  ⟨.v5, .recordBatch (some table), 0,
    entries.map (List.map fun entry => (some entry.1, some entry.2))⟩

/-- The messages of a library with one batch, each named by a byte. -/
def codes : List (UInt8 × Message Unit) :=
  [(1, ⟨.v5, .schema (some ()), 0, none⟩), (2, message none), (3, message (some (entries true))),
    (4, message (some (entries false)))]

def library : ArrowIpc where
  Batch := Unit
  Dictionaries := Unit
  Tracker := Unit
  SchemaTable := Unit
  schemaOf _ := .empty
  sameSchema left right := left == right
  numRows _ := 1
  numColumns _ := 0
  largeBinaryValue _ := none
  rootAsMessage
    | [] => .error (.other "empty buffer")
    | tag :: _ =>
      match codes.find? fun code => code.1 = tag with
      | some code => .ok code.2
      | none => .error (.other "unknown message")
  finishMessage message := (codes.find? fun code => code.2 = message).map fun code => [code.1]
  newTracker := ()
  schemaToBytes
    | ⟨[], []⟩, _ => some (⟨[1], []⟩, ())
    | _, _ => none
  encode _ _ := (.ok ([], ⟨[2], []⟩), ())
  hasFields _ := true
  fbToSchema _ := .ok .empty
  noDictionaries := ()
  readDictionary _ _ _ _ _ := .ok ()
  readRecordBatch _ _ _ _ _ := .ok ()

theorem codes_distinct : ∀ code ∈ codes, code.2.bodyLength = 0 ∧
    codes.find? (fun other => other.1 = code.1) = some code := by decide

theorem finishMessage_some {message : Message Unit} {bytes : Bytes}
    (built : library.finishMessage message = some bytes) :
    ∃ code ∈ codes, code.2 = message ∧ bytes = [code.1] := by
  obtain ⟨code, found, rfl⟩ := Option.map_eq_some_iff.mp built
  exact ⟨code, mem_of_find?_eq_some found, by simpa using find?_some found, rfl⟩

theorem library_lawful : library.Lawful where
  root_finish message bytes padding built := by
    obtain ⟨code, member, rfl, rfl⟩ := finishMessage_some built
    simp [library, (codes_distinct code member).2]
  utf8_range bytes start stop text failed := by
    simp only [library] at failed
    split at failed
    · cases failed
    · split at failed <;> cases failed
  finish_size message bytes built := by
    obtain ⟨code, -, -, rfl⟩ := finishMessage_some built
    exact ⟨Nat.zero_lt_one, Nat.one_le_two_pow⟩
  body_length message bytes built := by
    obtain ⟨code, member, rfl, -⟩ := finishMessage_some built
    rw [(codes_distinct code member).1]
    decide
  schema_encoded schema tracker encoded tracker' opened := by
    obtain ⟨fields, notes⟩ := schema
    cases fields <;> cases notes <;> cases opened
    exact ⟨rfl, (), by decide, rfl, rfl⟩
  encode_decodes schema tracker known batch dictionaries data tracker' _ same encodes := by
    cases encodes
    refine ⟨known, table, .nil known, ⟨by decide, rfl, ?_, rfl, rfl, rfl⟩, rfl⟩
    rintro buffers ⟨⟩ span ⟨⟩
  large_binary schema known batch table body value same rows columns single := by cases single

def metadata : Metadata := .ofEntries (entries routed)

def request : Request library :=
  ⟨"count", if routed then "Service" else "", "", (), metadata routed⟩

def data : Bytes := streamBytes ⟨[1], []⟩ [⟨[if routed then 3 else 4], []⟩]

theorem sends : Sends library () (some (metadata routed)) ()
    [⟨[if routed then 3 else 4], []⟩] () := by
  have aligned : Aligned ([] ++ [⟨[2], []⟩]) := aligned_of_empty (by simp)
  cases routed with
  | false | true => exact .encoded rfl rfl rfl aligned

theorem limits : WithinLimits (A := library) () (library.schemaOf ()) (some (metadata routed)) := by
  intro opening tracker messages tracker' opened sent
  cases opened
  obtain ⟨rfl, -⟩ := sent.unique (sends routed)
  refine ⟨by decide, ?_⟩
  intro encoded member
  cases mem_singleton.mp member
  exact Nat.zero_le _

theorem forwarded_plain : (request routed).forwarded = metadata false := by
  cases routed <;> rfl

theorem data_read : readRequest quoted library (data routed) = .ok (request routed) := by
  refine (readRequest_sends library_lawful rfl (sends routed) (limits routed)).trans ?_
  cases routed <;> rfl

theorem forwards : (request routed).forward = .ok (data false) := by
  have sent : Sends library () (some (request routed).forwarded) () [⟨[4], []⟩] () := by
    rw [forwarded_plain]
    exact sends false
  exact writeOneBatchAs_of_sends library_lawful rfl sent

end Sample

theorem plain_request_preserved : ∃ bytes again, (Sample.request false).forward = .ok bytes ∧
    readRequest quoted Sample.library bytes = .ok again ∧
    Preserved (Sample.request false) again := by
  refine (forwarding_preserves_iff Sample.library_lawful (Sample.data_read false)
    ⟨_, _, _, _, rfl, Sample.sends false⟩ (Sample.limits false)).mpr ?_
  intro key value found
  have held : (key, value) ∈ Sample.entries false := mem_entries_iff.mpr found
  simp only [Sample.entries, Bool.false_eq_true, if_false, append_nil, mem_cons,
    Prod.mk.injEq, not_mem_nil, or_false] at held
  exact held.elim (fun named => .inl named.1) fun named => .inr (.inl named.1)

/-- The routing key is not written, so a server that answers the request refuses what the
intermediary makes of it. -/
theorem routing_key_dropped :
    readRequest quoted Sample.library (Sample.data true) = .ok (Sample.request true) ∧
    (hosting ["count"]).route quoted (Sample.request true).protocol =
      .returned (.ok (hosting ["count"]).primary) ∧
    (Sample.request true).forward = .ok (Sample.data false) ∧
    readRequest quoted Sample.library (Sample.data false) = .ok (Sample.request false) ∧
    (hosting ["count"]).route quoted (Sample.request false).protocol =
      .returned (.error (Http.protocolNotSpecified quoted
        (hosting ["count"]).hostedProtocolNames)) := by
  refine ⟨Sample.data_read true, ?_, Sample.forwards true, Sample.data_read false, rfl⟩
  have named : Http.validateProtocolName quoted "Service" true = .returned (.ok ()) := by
    rw [Http.validateProtocolName, if_neg (by decide), if_neg (by decide +kernel),
      if_neg (by decide +kernel)]
    rfl
  change Http.Hosting.route _ _ "Service" = _
  rw [Http.Hosting.route, if_neg (by decide), named]
  rfl

end VgiRpc.Intermediary
