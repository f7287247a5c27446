import VgiRpc.Wire.Reader
import VgiRpc.Wire.Writer

/-!
# Streams read back

What a stream writer sends, a stream reader delivers.  The two meet at a list of
messages: the writer sends messages of which each is an item for the message
reader, and which decode, one after another, to the batch that was written.
-/

namespace VgiRpc.Wire

open Arrow List Option StreamWriter Library.Program
open Library (Program)
open Library.ByteStream Library.LittleEndian
open Sample (library library_lawful)

/-! ## Messages as items -/

variable (encoded : EncodedData)

/-- The length of a message's header on the wire, padding included. -/
def headerSize : Nat :=
  encoded.ipcMessage.length + paddingToAlignment (8 + encoded.ipcMessage.length) ipcAlignment

def rawMessage : RawMessage :=
  { messageBytes := encoded.ipcMessage ++
      List.replicate (paddingToAlignment (8 + encoded.ipcMessage.length) ipcAlignment) 0
    body := encoded.arrowData
    hadInvalidUtf8 := false }

/-- The bytes of the message are one item under the cap. -/
def Framed (A : ArrowIpc) (cap : Nat) (encoded : EncodedData) : Prop :=
  Item A cap (encapsulate encoded.ipcMessage encoded.arrowData) (.message (rawMessage encoded))

section

variable {A : ArrowIpc} {message : Message A.SchemaTable} {encoded : EncodedData}

theorem parseHeader_valid {bytes : Bytes} (root : A.rootAsMessage bytes = .ok message) :
    parseHeader A bytes = .ok (message, bytes, false) := by
  rw [parseHeader, repairHeader, root]

theorem messageBytes_length (encoded : EncodedData) :
    (rawMessage encoded).messageBytes.length = headerSize encoded := by
  simp [rawMessage, headerSize]

theorem encapsulate_layout (encoded : EncodedData) :
    encapsulate encoded.ipcMessage encoded.arrowData =
      continuationMarker ++ toLe 4 (headerSize encoded) ++
        (rawMessage encoded).messageBytes ++ encoded.arrowData := by
  simp [encapsulate, headerSize, rawMessage]

/-- The header of a finished message is not empty, and its length fits the length
word. -/
theorem headerSize_bounds (lawful : A.Lawful)
    (built : A.finishMessage message = some encoded.ipcMessage) :
    0 < headerSize encoded ∧ headerSize encoded ≤ maxIpcMessageBytes := by
  obtain ⟨positive, bounded⟩ := lawful.finish_size _ _ built
  have padding : paddingToAlignment (8 + encoded.ipcMessage.length) ipcAlignment < ipcAlignment :=
    Nat.mod_lt _ (by decide)
  unfold headerSize maxIpcMessageBytes ipcAlignment at *
  omega

/-- A finished message whose body has the announced length is an item under every
cap that admits its two parts. -/
theorem framed_of_finish (lawful : A.Lawful) {cap : Nat} (built : A.finishMessage message = some
    encoded.ipcMessage) (announced : message.bodyLength = encoded.arrowData.length) (headerFits :
    headerSize encoded ≤ cap) (bodyFits : encoded.arrowData.length ≤ cap) :
    Framed A cap encoded := by
  obtain ⟨positive, bounded⟩ := headerSize_bounds lawful built
  have small : headerSize encoded < 256 ^ 4 := Nat.lt_of_le_of_lt bounded (by decide)
  have word : LengthWord (continuationMarker ++ toLe 4 (headerSize encoded))
      (rawMessage encoded).messageBytes.length := by
    have marked := LengthWord.marked (toLe_length 4 (headerSize encoded))
    rw [ofLe_toLe_of_lt small] at marked
    rw [messageBytes_length]
    exact marked
  have nonempty : (rawMessage encoded).messageBytes ≠ [] := by
    rw [← length_pos_iff, messageBytes_length]
    exact positive
  have parsed := parseHeader_valid (lawful.root_finish _ _
    (paddingToAlignment (8 + encoded.ipcMessage.length) ipcAlignment) built)
  rw [Framed, encapsulate_layout]
  exact .message word nonempty (messageBytes_length encoded ▸ headerFits) parsed announced bodyFits

/-- A message whose header never exceeds the cap of a message, and which is an item
under every cap that admits its header and its body. -/
structure Framable (A : ArrowIpc) (encoded : EncodedData) : Prop where
  header : headerSize encoded ≤ maxIpcMessageBytes
  framed : ∀ cap, headerSize encoded ≤ cap → encoded.arrowData.length ≤ cap → Framed A cap encoded

theorem framable_of_finish (lawful : A.Lawful)
    (built : A.finishMessage message = some encoded.ipcMessage)
    (announced : message.bodyLength = encoded.arrowData.length) : Framable A encoded where
  header := (headerSize_bounds lawful built).2
  framed _ headerFits bodyFits := framed_of_finish lawful built announced headerFits bodyFits

theorem Item.mono {small large : Nat} {item : Bytes} {frame : Frame} (le : small ≤ large)
    (whole : Item A small item frame) : Item A large item frame := by
  cases whole with
  | eos length => exact .eos length
  | message length nonempty headerFits parsed announced bodyFits =>
    exact .message length nonempty (Nat.le_trans headerFits le) parsed announced
      (Nat.le_trans bodyFits le)

end

section

variable {A : ArrowIpc} {schema : Schema} {bodyLength : Nat}

theorem validateBuffers_inside (bounded : bodyLength < 2 ^ 64) {buffers : List BufferSpan} (inside :
    ∀ span ∈ buffers, 0 ≤ span.offset ∧ 0 ≤ span.length ∧ span.offset + span.length ≤ bodyLength) :
    validateBuffers bodyLength buffers = .ok () := by
  induction buffers with
  | nil => rfl
  | cons span rest ih =>
    obtain ⟨offset, length, stop⟩ := inside span (mem_cons_self ..)
    have valid : validateBuffer bodyLength span = .ok () := by
      unfold validateBuffer
      rw [if_neg (by omega), if_neg (by omega), if_neg (by omega)]
    rw [validateBuffers, valid]
    exact ih (forall_mem_cons.mp inside).2

variable {table : RecordBatchTable} {metadata : Option Metadata}

theorem validateRecordBatchBuffers_inside (bounded : bodyLength < 2 ^ 64)
    (inside : table.Inside bodyLength) : validateRecordBatchBuffers table bodyLength = .ok () := by
  unfold validateRecordBatchBuffers
  cases buffers : table.buffers with
  | none => rfl
  | some spans => exact validateBuffers_inside bounded (inside spans buffers)

/-- The messages of one write and what a reader makes of them: dictionaries, and
then the batch with its metadata. -/
inductive Yields (A : ArrowIpc) (schema : Schema) :
    A.Dictionaries → List EncodedData → A.Batch × Metadata → A.Dictionaries → Prop
  | batch {known : A.Dictionaries} {encoded : EncodedData} {item : A.Batch × Metadata}
      (framed : Framable A encoded)
      (decoded : decodeMessage A schema schema known (rawMessage encoded) =
        .ok (.batch item.1 item.2)) :
      Yields A schema known [encoded] item known
  | dictionary {known next final : A.Dictionaries} {encoded : EncodedData}
      {rest : List EncodedData} {item : A.Batch × Metadata}
      (framed : Framable A encoded)
      (decoded : decodeMessage A schema schema known (rawMessage encoded) =
        .ok (.dictionaries next))
      (later : Yields A schema next rest item final) :
      Yields A schema known (encoded :: rest) item final

inductive YieldsAll (A : ArrowIpc) (schema : Schema) :
    A.Dictionaries → List EncodedData → List (A.Batch × Metadata) → Prop
  | nil (known : A.Dictionaries) : YieldsAll A schema known [] []
  | cons {known next : A.Dictionaries} {first rest : List EncodedData}
      {item : A.Batch × Metadata} {items : List (A.Batch × Metadata)}
      (head : Yields A schema known first item next) (tail : YieldsAll A schema next rest items) :
      YieldsAll A schema known (first ++ rest) (item :: items)

theorem decodeMessage_dictionary (lawful : A.Lawful) {encoded : EncodedData}
    {table : DictionaryTable} (message : A.EncodesDictionary encoded table) (batchSchema : Schema)
    (known : A.Dictionaries) :
    decodeMessage A schema batchSchema known (rawMessage encoded) = (decodeGuard "dictionary batch"
        (A.readDictionary encoded.arrowData table schema known .v5)).map .dictionaries := by
  have root := lawful.root_finish _ _
    (paddingToAlignment (8 + encoded.ipcMessage.length) ipcAlignment) message.message
  have bounded := lawful.body_length _ _ message.message
  simp only at bounded
  have valid : validateDictionaryBuffers table encoded.arrowData.length = .ok () := by
    unfold validateDictionaryBuffers
    cases data : table.data with
    | none => rfl
    | some inner =>
      exact validateRecordBatchBuffers_inside (by omega) (message.inside inner data)
  simp only [decodeMessage, rawMessage, root]
  rw [valid]
  cases decodeGuard "dictionary batch"
    (A.readDictionary encoded.arrowData table schema known .v5) <;> rfl

variable {bytes : Bytes}

/-- Attaching metadata to an encoded batch changes the metadata of its message
and nothing else. -/
theorem attachMetadata_eq_ok_iff (lawful : A.Lawful) {data : EncodedData}
    (encodes : A.EncodesBatch data table) :
    attachMetadata A data metadata = .ok bytes ↔
      A.finishMessage ⟨.v5, .recordBatch (some table), data.arrowData.length,
        customMetadata metadata⟩ = some bytes := by
  unfold attachMetadata
  cases kept : metadata.filter fun entries => !entries.isEmpty with
  | none =>
    rw [customMetadata, kept, Option.map_none, encodes.message]
    simp
  | some entries =>
    have root := lawful.root_finish _ _ 0 encodes.message
    rw [replicate_zero, append_nil] at root
    obtain ⟨nodes, someNodes⟩ := isSome_iff_exists.mp encodes.nodes
    obtain ⟨buffers, someBuffers⟩ := isSome_iff_exists.mp encodes.buffers
    simp only [repackRecordBatchMessageWithMetadata, root, someNodes, someBuffers]
    rw [finishMessage_eq_ok_iff, ← someNodes, ← someBuffers, ← encodes.compression, customMetadata,
      kept, Option.map_some]

theorem parseCustomMetadata_custom {σ : Type} (version : MetadataVersion) (header : Header σ)
    (bodyLength : Int) (metadata : Option Metadata) :
    parseCustomMetadata ⟨version, header, bodyLength, customMetadata metadata⟩ =
      metadata.getD .empty := by
  cases metadata with
  | none => rfl
  | some entries =>
    cases empty : entries.isEmpty with
    | true =>
      have none : entries = .empty := Library.OrderedMap.ext (isEmpty_iff.mp empty)
      rw [parseCustomMetadata, customMetadata, filter_some, empty, none]
      rfl
    | false =>
      rw [parseCustomMetadata, customMetadata, filter_some, empty]
      simp [Function.comp_def, Library.OrderedMap.ofEntries_entries]

theorem decodeMessage_batch (lawful : A.Lawful) {body : Bytes} (built : A.finishMessage ⟨.v5,
    .recordBatch (some table), body.length, customMetadata metadata⟩ = some bytes) (inside :
    table.Inside body.length) (batchSchema : Schema) (known : A.Dictionaries) :
    decodeMessage A schema batchSchema known (rawMessage ⟨bytes, body⟩) =
      (decodeGuard "record batch" (A.readRecordBatch body table batchSchema known .v5)).map
        fun batch => .batch batch (metadata.getD .empty) := by
  have root := lawful.root_finish _ _ (paddingToAlignment (8 + bytes.length) ipcAlignment) built
  have bounded := lawful.body_length _ _ built
  simp only at bounded
  simp only [decodeMessage, rawMessage, root]
  rw [validateRecordBatchBuffers_inside (by omega) inside, parseCustomMetadata_custom]
  cases decodeGuard "record batch" (A.readRecordBatch body table batchSchema known .v5) <;> rfl

/-- The body of the direct path has the layout of a large-binary row. -/
theorem largeBinaryRow_body (value : Bytes) :
    LargeBinaryRow (largeBinaryTable value.length) (largeBinaryBody value) value where
  length := rfl
  nodes := rfl
  compression := rfl
  variadic := rfl
  layout := by
    refine ⟨_, _, _, 0xff, rfl, rfl, by decide, ?_, ?_⟩
    · simp [BufferSpan.slice, largeBinaryBody, ipcAlignment, drop_append, take_append,
        take_of_length_le]
    · simp [BufferSpan.slice, largeBinaryBody, ipcAlignment, drop_append, drop_eq_nil_of_le]

theorem largeBinaryTable_inside (value : Bytes) :
    (largeBinaryTable value.length).Inside (largeBinaryBody value).length := by
  intro buffers present span member
  cases present
  rw [largeBinaryBody_length, largeBinaryBodyLength]
  simp only [mem_cons, not_mem_nil, or_false, ipcAlignment] at member ⊢
  rcases member with rfl | rfl | rfl
  · simp only; omega
  · simp only; omega
  · simp only; omega

variable {batch : A.Batch}

theorem singleLargeBinary_some {value : Bytes} (single : singleLargeBinary A batch = some value) :
    A.numRows batch = 1 ∧ A.numColumns batch = 1 ∧
      A.largeBinaryValue batch = some (some value) := by
  unfold singleLargeBinary at single
  split_ifs at single with shape
  split at single
  · cases single
  split_ifs at single
  refine ⟨by omega, by omega, ?_⟩
  exact join_eq_some_iff.mp single

variable {known : A.Dictionaries}

/-- Dictionary messages that replay, in front of messages that yield a batch. -/
theorem Yields.replay (lawful : A.Lawful) {dictionaries rest : List EncodedData} {next final :
    A.Dictionaries} {item : A.Batch × Metadata} (replays : A.Replays schema dictionaries known next)
    (later : Yields A schema next rest item final) :
    Yields A schema known (dictionaries ++ rest) item final := by
  induction replays with
  | nil => exact later
  | cons message decoded _ ih =>
    refine .dictionary (framable_of_finish lawful message.message rfl) ?_ (ih later)
    rw [decodeMessage_dictionary lawful message, decoded]
    rfl

section

variable (lawful : A.Lawful) (same : A.schemaOf batch = schema)

include lawful same

/-- The message of the direct path is the batch with its metadata. -/
theorem decodeMessage_direct {value : Bytes} (single : singleLargeBinary A batch = some value)
    (small : largeBinaryBodyLength value.length < 2 ^ 63)
    (built : A.finishMessage (largeBinaryMessage A value.length metadata) = some bytes) :
    decodeMessage A schema schema known (rawMessage ⟨bytes, largeBinaryBody value⟩) =
      .ok (.batch batch (metadata.getD .empty)) := by
  obtain ⟨rows, columns, stored⟩ := singleLargeBinary_some single
  have short : value.length < 2 ^ 63 := by unfold largeBinaryBodyLength at small; omega
  rw [largeBinaryMessage, ← largeBinaryBody_length] at built
  rw [decodeMessage_batch lawful built (largeBinaryTable_inside value),
    lawful.large_binary _ _ _ _ _ _ same rows columns stored short (largeBinaryRow_body value)]
  rfl

/-- So is the last message of the generator, behind its dictionaries. -/
theorem decodeMessage_encoded {tracker tracker' : A.Tracker} {dictionaries : List EncodedData} {data
    : EncodedData} (inStep : A.InStep schema tracker known) (encodes : A.encode batch tracker = (.ok
    (dictionaries, data), tracker')) (attached : attachMetadata A data metadata = .ok bytes) :
    ∃ known', A.Replays schema dictionaries known known' ∧ Framable A ⟨bytes, data.arrowData⟩ ∧
      decodeMessage A schema schema known' (rawMessage ⟨bytes, data.arrowData⟩) =
        .ok (.batch batch (metadata.getD .empty)) := by
  obtain ⟨known', table, replays, coded, decoded⟩ :=
    lawful.encode_decodes _ _ _ _ _ _ _ inStep same encodes
  have built := (attachMetadata_eq_ok_iff lawful coded).mp attached
  refine ⟨known', replays, framable_of_finish lawful built rfl, ?_⟩
  rw [decodeMessage_batch lawful built coded.inside, decoded]
  rfl

end

/-- What a write sends, a reader in step with the writer takes for the batch and
metadata written, and stays in step. -/
theorem Sends.yields (lawful : A.Lawful) {tracker tracker' : A.Tracker}
    {messages : List EncodedData} (inStep : A.InStep schema tracker known)
    (same : A.schemaOf batch = schema) (sends : Sends A batch metadata tracker messages tracker') :
    ∃ known', A.InStep schema tracker' known' ∧
      Yields A schema known messages (batch, metadata.getD .empty) known' := by
  cases sends with
  | @direct value bytes single small built =>
    have framed : Framable A ⟨bytes, largeBinaryBody value⟩ :=
      framable_of_finish lawful built (congrArg _ (largeBinaryBody_length value).symm)
    exact ⟨known, inStep, .batch framed (decodeMessage_direct lawful same single small built)⟩
  | @encoded _ dictionaries data message several encodes attached aligned =>
    obtain ⟨known', replays, framed, decoded⟩ :=
      decodeMessage_encoded lawful same inStep encodes attached
    exact ⟨known', .encoded inStep same encodes replays, .replay lawful replays
      (.batch framed decoded)⟩

/-- A large-binary row is sent as one message: its body has the length the message declares,
the buffers lie in it, aligned, with what the format says of such a row, and it decodes to the
same batch and metadata as the generator's message does.  Every other batch is sent by the
generator alone. -/
theorem write_direct_or_encoded (A : ArrowIpc) (batch : A.Batch) (metadata : Option Metadata) :
    (∀ state next value, A.Lawful → StreamWriter.write batch metadata state = (.ok (), next) →
      singleLargeBinary A batch = some value →
      ∃ bytes table body, next.writer.written = state.writer.written ++ encapsulate bytes body ∧
        A.finishMessage ⟨.v5, .recordBatch (some table), body.length, customMetadata metadata⟩ =
          some bytes ∧
        table.Inside body.length ∧ body.length % ipcAlignment = 0 ∧
        (∀ buffers, table.buffers = some buffers → ∀ span ∈ buffers,
          span.offset % ipcAlignment = 0) ∧
        LargeBinaryRow table body value ∧
        (∀ known, decodeMessage A (A.schemaOf batch) (A.schemaOf batch) known
          (rawMessage ⟨bytes, body⟩) = .ok (.batch batch (metadata.getD .empty))) ∧
        ∀ tracker known dictionaries data tracker' message,
          A.InStep (A.schemaOf batch) tracker known →
          A.encode batch tracker = (.ok (dictionaries, data), tracker') →
          attachMetadata A data metadata = .ok message →
          ∃ known', A.Replays (A.schemaOf batch) dictionaries known known' ∧
            decodeMessage A (A.schemaOf batch) (A.schemaOf batch) known'
              (rawMessage ⟨message, data.arrowData⟩) = .ok (.batch batch (metadata.getD .empty))) ∧
      ∀ state next, StreamWriter.write batch metadata state = (.ok (), next) →
        singleLargeBinary A batch = none →
        ∃ dictionaries data message,
          A.encode batch state.dictTracker = (.ok (dictionaries, data), next.dictTracker) ∧
          attachMetadata A data metadata = .ok message ∧
          next.writer.written = state.writer.written ++
            frames (dictionaries ++ [⟨message, data.arrowData⟩]) := by
  constructor
  · intro state next value lawful run single
    obtain ⟨-, messages, sends, written, -⟩ := StreamWriter.write_ok run
    generalize next.dictTracker = after at sends
    cases sends with
    | encoded several => cases single.symm.trans several
    | @direct _ bytes found small built =>
      cases single.symm.trans found
      rw [frames_cons, frames_nil, append_nil] at written
      have declared := built
      rw [largeBinaryMessage, ← largeBinaryBody_length] at declared
      refine ⟨bytes, _, _, written, declared, largeBinaryTable_inside value, ?_, ?_,
        largeBinaryRow_body value, fun known => decodeMessage_direct lawful rfl single small built,
        fun tracker known dictionaries data tracker' message inStep encodes attached => ?_⟩
      · rw [largeBinaryBody_length, largeBinaryBodyLength, paddingToAlignment, ipcAlignment]
        omega
      · rintro buffers ⟨⟩
        simp [ipcAlignment]
      · obtain ⟨known', replays, -, decoded⟩ :=
          decodeMessage_encoded lawful rfl inStep encodes attached
        exact ⟨known', replays, decoded⟩
  · intro state next run several
    obtain ⟨-, messages, sends, written, -⟩ := StreamWriter.write_ok run
    generalize next.dictTracker = after at sends ⊢
    cases sends with
    | direct single => cases single.symm.trans several
    | encoded _ encodes attached => exact ⟨_, _, _, encodes, attached, written⟩

end

section

variable {A : ArrowIpc} {schema : Schema}

def openReader (schema : Schema) (known : A.Dictionaries) (bytes : Bytes) : StreamReader A :=
  ⟨.ofBytes bytes, schema, known, false, false, none⟩

variable {known : A.Dictionaries} {messages : List EncodedData}

/-- The next read delivers the batch of the messages in front of it, and stops
right behind them. -/
theorem Yields.readNext {final : A.Dictionaries} {item : A.Batch × Metadata}
    (yields : Yields A schema known messages item final)
    (bodies : ∀ encoded ∈ messages, encoded.arrowData.length ≤ maxIpcMessageBytes) (tail : Bytes) :
    (openReader schema known (frames messages ++ tail)).readNext =
      (.ok (some item), openReader schema final tail) := by
  induction yields with
  | @batch known encoded item framed decoded =>
    have whole := framed.framed maxIpcMessageBytes framed.header (bodies encoded (mem_cons_self ..))
    have reads := readMessageBytes_item whole tail
    rw [StreamReader.readNext_step rfl (by
      simpa only [openReader, frames_cons, frames_nil, append_nil] using reads)]
    simp [openReader, StreamReader.batchSchema, decoded]
  | @dictionary known next final encoded rest item framed decoded later ih =>
    have whole := framed.framed maxIpcMessageBytes framed.header (bodies encoded (mem_cons_self ..))
    have reads := readMessageBytes_item whole (frames rest ++ tail)
    rw [StreamReader.readNext_step rfl (by
      simpa only [openReader, frames_cons, append_assoc] using reads)]
    simp only [openReader, StreamReader.batchSchema, getD_none, decoded]
    exact ih (forall_mem_cons.mp bodies).2

theorem endOfStream_item (cap : Nat) : Item A cap endOfStream .eos := by
  have word : LengthWord endOfStream 0 := LengthWord.marked (by rfl)
  exact .eos word

theorem readNext_endOfStream {state : StreamReader A} (unfinished : state.finished = false)
    {tail : Bytes} (positioned : state.reader = .ofBytes (endOfStream ++ tail)) :
    state.readNext =
      (.ok none, { state with reader := .ofBytes tail, finished := true, sawEos := true }) := by
  have reads := readMessageBytes_item (endOfStream_item (A := A) maxIpcMessageBytes) tail
  rw [← positioned] at reads
  exact StreamReader.readNext_step unfinished reads

/-- A reader of a complete stream delivers its batches, sees the end marker, and
leaves what follows the marker. -/
theorem YieldsAll.readAll {items : List (A.Batch × Metadata)} (yields : YieldsAll A schema known
    messages items) (bodies : ∀ encoded ∈ messages, encoded.arrowData.length ≤ maxIpcMessageBytes)
    {state : StreamReader A} (reliable : state.reader.Reliable) {tail : Bytes} (positioned :
    state.atOnce = openReader schema known (frames messages ++ (endOfStream ++ tail))) :
    ∃ final, state.readAll = (items, .ok true, final) ∧ final.reader.bytes = tail ∧
      final.reader.Reliable := by
  induction yields generalizing state with
  | nil known =>
    obtain ⟨once, stable⟩ := StreamReader.readNext_atOnce reliable
    rw [positioned, frames_nil, nil_append, readNext_endOfStream rfl rfl] at once
    obtain ⟨result, final⟩ := Prod.mk.inj once
    have marked : state.readNext.2.sawEos = true :=
      (congrArg StreamReader.sawEos final).symm
    refine ⟨state.readNext.2, ?_, ?_, stable⟩
    · rw [StreamReader.readAll_step (Prod.ext result.symm rfl)]
      simp only [marked]
    · exact (congrArg (fun reader => reader.reader.bytes) final).symm
  | @cons known next first rest item items head later ih =>
    obtain ⟨once, stable⟩ := StreamReader.readNext_atOnce reliable
    rw [positioned, frames_append, append_assoc, head.readNext (forall_mem_append.mp bodies).1] at once
    obtain ⟨result, middle⟩ := Prod.mk.inj once
    obtain ⟨final, run, remaining, stays⟩ := ih (forall_mem_append.mp bodies).2 stable middle.symm
    refine ⟨final, ?_, remaining, stays⟩
    rw [StreamReader.readAll_step (Prod.ext result.symm rfl)]
    simp only [run]

end

section

/-- The value of a stream: a schema, and batches of that schema with metadata. -/
structure StreamValue (A : ArrowIpc) where
  schema : Schema
  items : List (A.Batch × Option Metadata)
  conforms : ∀ item ∈ items, A.schemaOf item.1 = schema

variable {A : ArrowIpc}

def writeItems : List (A.Batch × Option Metadata) → Program (StreamWriter A) Failure Unit
  | [] => pure ()
  | (batch, metadata) :: rest => do
      StreamWriter.write batch metadata
      writeItems rest

variable (stream : StreamValue A)

/-- Write a stream with a writer of its own, finish the writer and drop it. -/
def writeStream : Program (Sink Failure) Failure Unit := fun sink =>
  match StreamWriter.new A sink stream.schema with
  | (.error failure, rest) => (.error failure, rest)
  | (.ok writer, _) =>
    let (result, final) := (do writeItems stream.items; StreamWriter.finish) writer
    (result, final.drop)

def writeStreams : List (StreamValue A) → Program (Sink Failure) Failure Unit
  | [] => pure ()
  | stream :: rest => do
      writeStream stream
      writeStreams rest

/-- Read streams one after another, each with a reader of its own. -/
def readStreams (A : ArrowIpc) : Nat → Reader RpcError (List (StreamRead A))
  | 0 => pure []
  | count + 1 => do
      let first ← (readStream A : Reader RpcError (StreamRead A))
      let rest ← readStreams A count
      pure (first :: rest)

/-- What a reader of the stream is to see: absent metadata reads as empty. -/
def StreamValue.readBack : StreamRead A :=
  ⟨stream.schema, stream.items.map fun item => (item.1, item.2.getD .empty), .ok true⟩

inductive SendsAll (A : ArrowIpc) :
    A.Tracker → List (A.Batch × Option Metadata) → List EncodedData → Prop
  | nil (tracker : A.Tracker) : SendsAll A tracker [] []
  | cons {tracker next : A.Tracker} {batch : A.Batch} {metadata : Option Metadata}
      {items : List (A.Batch × Option Metadata)} {first rest : List EncodedData}
      (head : Sends A batch metadata tracker first next) (tail : SendsAll A next items rest) :
      SendsAll A tracker ((batch, metadata) :: items) (first ++ rest)

variable (opening : EncodedData) (messages : List EncodedData)

def StreamSends : Prop :=
  ∃ tracker, A.schemaToBytes stream.schema A.newTracker = some (opening, tracker) ∧
    SendsAll A tracker stream.items messages

def streamBytes : Bytes :=
  frames (opening :: messages) ++ endOfStream

variable {items : List (A.Batch × Option Metadata)} {tracker : A.Tracker} {stream : StreamValue A}
  {messages : List EncodedData} {schema : Schema} {opening : EncodedData} {sink : Sink Failure}
  {parts : List Bytes} {streams : List (StreamValue A)}

theorem SendsAll.unique {one two : List EncodedData} (left : SendsAll A tracker items one)
    (right : SendsAll A tracker items two) : one = two := by
  induction left generalizing two with
  | nil tracker =>
    cases right
    rfl
  | cons head tail ih =>
    cases right with
    | cons head' tail' =>
      obtain ⟨rfl, rfl⟩ := head.unique head'
      rw [ih tail']

theorem StreamSends.unique {opening opening' : EncodedData} {messages messages' : List EncodedData}
    (left : StreamSends stream opening messages) (right : StreamSends stream opening' messages') :
    opening = opening' ∧ messages = messages' := by
  obtain ⟨tracker, opened, sends⟩ := left
  obtain ⟨tracker', opened', sends'⟩ := right
  cases opened.symm.trans opened'
  exact ⟨rfl, sends.unique sends'⟩

variable {state : StreamWriter A}

theorem writeItems_ok {next : StreamWriter A} (fresh : state.finished = false)
    (run : writeItems items state = (.ok (), next)) :
    next.finished = false ∧ ∃ messages, SendsAll A state.dictTracker items messages ∧
      next.writer.written = state.writer.written ++ frames messages := by
  induction items generalizing state with
  | nil =>
    obtain ⟨-, rfl⟩ := Prod.mk.inj run
    exact ⟨fresh, [], .nil _, by simp⟩
  | cons item rest ih =>
    obtain ⟨_, middle, first, later⟩ := bind_eq_ok run
    obtain ⟨_, sent, sends, written, _, still⟩ := write_ok first
    obtain ⟨done, messages, others, appended⟩ := ih still later
    exact ⟨done, sent ++ messages, .cons sends others, by simp [appended, written]⟩

variable {more : Nat}

theorem writeItems_roomy (fresh : state.finished = false) (sends : SendsAll A state.dictTracker
    items messages) (ready : state.Roomy ((frames messages).length + more)) :
    ∃ next, writeItems items state = (.ok (), next) ∧ next.Roomy more := by
  induction items generalizing state messages with
  | nil =>
    cases sends
    exact ⟨state, rfl, by simpa using ready⟩
  | cons item rest ih =>
    cases sends with
    | cons head tail =>
      rw [frames_append, length_append, Nat.add_assoc] at ready
      obtain ⟨middle, step, still⟩ := write_roomy fresh head ready
      obtain ⟨_, sent, sends, _, _, unfinished⟩ := write_ok step
      obtain ⟨rfl, same⟩ := sends.unique head
      obtain ⟨next, run, done⟩ := ih unfinished (same ▸ tail) still
      exact ⟨next, (bind_ok step).trans run, done⟩

theorem new_ok {sink rest : Sink Failure} {writer : StreamWriter A}
    (run : StreamWriter.new A sink schema = (.ok writer, rest)) :
    writer.finished = false ∧ ∃ opening,
      A.schemaToBytes schema A.newTracker = some (opening, writer.dictTracker) ∧
      writer.writer.written = sink.written ++ encapsulate opening.ipcMessage opening.arrowData := by
  unfold new at run
  split at run
  · cases run
  rename_i opening tracker opened
  split at run
  · rename_i state sent
    cases run
    have appended := (writeMessage_appends sent).2
    refine ⟨appended.finished, opening, ?_, appended.written⟩
    rw [appended.dictTracker]
    exact opened
  · cases run

theorem new_roomy (lawful : A.Lawful) (reliable : sink.Reliable)
    (room : sink.HasRoom ((encapsulate opening.ipcMessage opening.arrowData).length + more))
    (opened : A.schemaToBytes schema A.newTracker = some (opening, tracker)) :
    ∃ writer rest, StreamWriter.new A sink schema = (.ok writer, rest) ∧ writer.Roomy more := by
  have aligned : opening.arrowData.length % ipcAlignment = 0 := by
    rw [(lawful.schema_encoded _ _ _ _ opened).1]
    rfl
  have ready : (⟨sink, schema, tracker, false⟩ : StreamWriter A).Roomy _ := ⟨reliable, room⟩
  obtain ⟨writer, sent, done⟩ := writeMessage_roomy aligned ready
  refine ⟨writer, writer.writer, ?_, done⟩
  simp only [new, opened, sent]

/-- A stream that was written put exactly its messages and the end marker on the
transport. -/
theorem writeStream_ok {sink final : Sink Failure}
    (run : writeStream stream sink = (.ok (), final)) :
    ∃ opening messages, StreamSends stream opening messages ∧
      final.written = sink.written ++ streamBytes opening messages := by
  unfold writeStream at run
  split at run
  · cases run
  rename_i writer rest created
  obtain ⟨fresh, opening, opened, start⟩ := new_ok created
  rcases body : (do writeItems stream.items; finish :
    Program (StreamWriter A) Failure Unit) writer with ⟨result, closed⟩
  simp only [body, Prod.mk.injEq] at run
  obtain ⟨rfl, rfl⟩ := run
  obtain ⟨_, middle, items, ends⟩ := bind_eq_ok body
  obtain ⟨unfinished, messages, sends, written⟩ := writeItems_ok fresh items
  obtain ⟨marked, finished⟩ := finish_ok unfinished ends
  refine ⟨opening, messages, ⟨_, opened, sends⟩, ?_⟩
  rw [StreamWriter.drop, finish_finished finished, marked, written, start]
  simp [streamBytes]

/-- On a transport that does not fail and has room for it, a stream the library
encodes is written. -/
theorem writeStream_roomy (lawful : A.Lawful) (sends : StreamSends stream opening messages)
    (reliable : sink.Reliable) (room : sink.HasRoom (streamBytes opening messages).length) :
    ∃ final, writeStream stream sink = (.ok (), final) ∧ final.Reliable := by
  obtain ⟨tracker, opened, all⟩ := sends
  have split : (streamBytes opening messages).length =
      (encapsulate opening.ipcMessage opening.arrowData).length +
        ((frames messages).length + (endOfStream.length + 0)) := by
    simp [streamBytes]
  rw [split] at room
  obtain ⟨writer, rest, created, ready⟩ := new_roomy lawful reliable room opened
  obtain ⟨fresh, opening', opened', _⟩ := new_ok created
  cases opened.symm.trans opened'
  obtain ⟨middle, items, still⟩ := writeItems_roomy fresh all ready
  have unfinished := (writeItems_ok fresh items).1
  obtain ⟨closed, ends, done⟩ := finish_roomy unfinished still
  have finished := (finish_ok unfinished ends).2
  refine ⟨closed.writer, ?_, done.1⟩
  have body : (do writeItems stream.items; finish :
      Program (StreamWriter A) Failure Unit) writer = (.ok (), closed) :=
    (bind_ok items).trans ends
  simp only [writeStream, created, body, StreamWriter.drop, finish_finished finished]

section

variable {invariant : Sink Failure → Prop} (keeps : ∀ sink buffer, invariant sink →
    invariant (sink.writeAll writeZero (maxWriteChunk - 1) buffer).2)

include keeps

theorem new_preserves (schema : Schema) {sink : Sink Failure} (holds : invariant sink) :
    invariant (StreamWriter.new A sink schema).2 ∧
      ∀ writer, (StreamWriter.new A sink schema).1 = .ok writer → invariant writer.writer := by
  unfold new
  split
  · exact ⟨holds, fun writer same => by cases same⟩
  · rename_i opening tracker opened
    have kept := writeMessage_preserves keeps opening
      (⟨sink, schema, tracker, false⟩ : StreamWriter A) holds
    split
    · rename_i state sent
      rw [sent] at kept
      exact ⟨kept, fun writer same => by cases same; exact kept⟩
    · rename_i failure state sent
      rw [sent] at kept
      exact ⟨kept, fun writer same => by cases same⟩

theorem writeItems_preserves (items : List (A.Batch × Option Metadata)) :
    Program.Preserves (fun state : StreamWriter A => invariant state.writer) (writeItems items) := by
  induction items with
  | nil => exact preserves_pure ()
  | cons item rest ih => exact (write_preserves keeps item.1 item.2).bind fun _ => ih

/-- Writing a stream keeps what every write to the transport keeps. -/
theorem writeStream_preserves (stream : StreamValue A) :
    Program.Preserves invariant (writeStream stream) := by
  intro sink holds
  obtain ⟨left, opened⟩ := new_preserves keeps (A := A) stream.schema holds
  unfold writeStream
  split
  · rename_i failure rest created
    rw [created] at left
    exact left
  · rename_i writer rest created
    rw [created] at opened
    have body := ((writeItems_preserves keeps stream.items).bind fun _ =>
      finish_preserves keeps) writer (opened writer rfl)
    exact finish_preserves keeps _ body

end

/-- On an unbounded transport that does not fail, a stream the library encodes is
written. -/
theorem writeStream_open (lawful : A.Lawful) (sends : StreamSends stream opening messages)
    (reliable : sink.Reliable) (unbounded : sink.room = none) :
    ∃ final, writeStream stream sink = (.ok (), final) ∧ final.Reliable ∧ final.room = none := by
  have room : sink.HasRoom (streamBytes opening messages).length := by
    intro space bounded
    rw [unbounded] at bounded
    cases bounded
  obtain ⟨final, run, stays⟩ := writeStream_roomy lawful sends reliable room
  have keeps : (writeStream stream sink).2.Unbounded := writeStream_preserves
    (fun _ buffer => Sink.writeAll_unbounded buffer) stream sink unbounded
  rw [run] at keeps
  exact ⟨final, run, stays, keeps⟩

/-- The reader's caps admit the stream: its schema message is at most 16 MiB, and
no message body is longer than a 32-bit length. -/
def WithinCaps (stream : StreamValue A) : Prop :=
  ∀ opening messages, StreamSends stream opening messages → headerSize opening ≤ maxIpcSchemaBytes ∧
      ∀ encoded ∈ messages, encoded.arrowData.length ≤ maxIpcMessageBytes

theorem SendsAll.yieldsAll (lawful : A.Lawful) {known : A.Dictionaries}
    (inStep : A.InStep schema tracker known) (conforms : ∀ item ∈ items, A.schemaOf item.1 = schema)
    (sends : SendsAll A tracker items messages) :
    YieldsAll A schema known messages (items.map fun item => (item.1, item.2.getD .empty)) := by
  induction sends generalizing known with
  | nil tracker => exact .nil known
  | cons head tail ih =>
    obtain ⟨known', still, yields⟩ := head.yields lawful inStep (conforms _ (mem_cons_self ..))
    exact .cons yields (ih still (forall_mem_cons.mp conforms).2)

/-- The schema message of a stream is framed, and decodes to the schema. -/
theorem opening_decodes (lawful : A.Lawful)
    (opened : A.schemaToBytes schema A.newTracker = some (opening, tracker)) :
    opening.arrowData = [] ∧ Framable A opening ∧
      StreamReader.decodeSchema A (rawMessage opening) = .ok schema := by
  obtain ⟨empty, table, built, fields, decoded⟩ := lawful.schema_encoded _ _ _ _ opened
  have root := lawful.root_finish _ _
    (paddingToAlignment (8 + opening.ipcMessage.length) ipcAlignment) built
  refine ⟨empty, framable_of_finish lawful built (by simp [empty]), ?_⟩
  rw [StreamReader.decodeSchema, if_neg (by simp [rawMessage])]
  simp only [rawMessage, root, if_pos fields, decoded]
  rfl

variable {source : Source RpcError} {tail : Bytes}

/-- A reader opened on a schema message stands right behind it. -/
theorem new_reads (empty : opening.arrowData = []) (framed : Framable A opening)
    (decoded : StreamReader.decodeSchema A (rawMessage opening) = .ok schema)
    (fits : headerSize opening ≤ maxIpcSchemaBytes) (reliable : source.Reliable)
    (bytes : source.bytes = encapsulate opening.ipcMessage opening.arrowData ++ tail) :
    ∃ state rest, StreamReader.new A source = (.ok state, rest) ∧ state.schema = schema ∧
      state.reader.Reliable ∧ state.atOnce = openReader schema A.noDictionaries tail := by
  obtain ⟨same, stays⟩ := (readMessageBytes_free A maxIpcSchemaBytes).reliable reliable
  have whole := framed.framed maxIpcSchemaBytes fits (by simp [empty])
  rw [bytes, readMessageBytes_item whole tail] at same
  obtain ⟨result, remaining⟩ := Prod.mk.inj same
  rcases step : readMessageBytes A maxIpcSchemaBytes source with ⟨frame, rest⟩
  rw [step] at result remaining stays
  cases result
  refine ⟨⟨rest, schema, A.noDictionaries, false, false, none⟩, rest, ?_, rfl, stays, ?_⟩
  · simp only [StreamReader.new, step, decoded]
  · rw [StreamReader.atOnce, openReader, ← remaining]

/-- A stream within the caps is read back whole, up to its end marker and not one
byte further. -/
theorem readStream_back (lawful : A.Lawful) (sends : StreamSends stream opening messages)
    (caps : WithinCaps stream) (reliable : source.Reliable)
    (bytes : source.bytes = streamBytes opening messages ++ tail) :
    ∃ rest, readStream A source = (.ok stream.readBack, rest) ∧ rest.bytes = tail ∧
      rest.Reliable := by
  obtain ⟨headerFits, bodies⟩ := caps _ _ sends
  obtain ⟨tracker, opened, all⟩ := sends
  obtain ⟨empty, framed, decoded⟩ := opening_decodes lawful opened
  have layout : source.bytes = encapsulate opening.ipcMessage opening.arrowData ++
      (frames messages ++ (endOfStream ++ tail)) := by
    rw [bytes, streamBytes, frames_cons]
    simp
  obtain ⟨state, rest, created, schema, stable, positioned⟩ :=
    new_reads empty framed decoded headerFits reliable layout
  have yields := all.yieldsAll lawful (.start opened) stream.conforms
  obtain ⟨final, run, remaining, stays⟩ := yields.readAll bodies stable positioned
  refine ⟨final.reader, ?_, remaining, stays⟩
  simp only [readStream, created, run, schema]
  rfl

/-- The bytes of the streams, one string for each. -/
inductive Encodes : List (StreamValue A) → List Bytes → Prop
  | nil : Encodes [] []
  | cons {stream : StreamValue A} {streams : List (StreamValue A)} {opening : EncodedData}
      {messages : List EncodedData} {parts : List Bytes}
      (sends : StreamSends stream opening messages) (tail : Encodes streams parts) :
      Encodes (stream :: streams) (streamBytes opening messages :: parts)

theorem Encodes.length (encodes : Encodes streams parts) : parts.length = streams.length := by
  induction encodes with
  | nil => rfl
  | cons sends tail ih => simp [ih]

theorem writeStreams_ok {sink final : Sink Failure}
    (run : writeStreams streams sink = (.ok (), final)) :
    ∃ parts, Encodes streams parts ∧ final.written = sink.written ++ parts.flatten := by
  induction streams generalizing sink with
  | nil =>
    obtain ⟨-, rfl⟩ := Prod.mk.inj run
    exact ⟨[], .nil, by simp⟩
  | cons stream rest ih =>
    obtain ⟨_, middle, first, later⟩ := bind_eq_ok run
    obtain ⟨opening, messages, sends, written⟩ := writeStream_ok first
    obtain ⟨parts, encodes, appended⟩ := ih later
    exact ⟨_, .cons sends encodes, by simp [appended, written]⟩

theorem writeStreams_open (lawful : A.Lawful) (encodes : Encodes streams parts)
    (reliable : sink.Reliable) (unbounded : sink.room = none) :
    ∃ final, writeStreams streams sink = (.ok (), final) ∧
      final.written = sink.written ++ parts.flatten := by
  induction encodes generalizing sink with
  | nil => exact ⟨sink, rfl, by simp⟩
  | cons sends tail ih =>
    obtain ⟨middle, step, stays, still⟩ := writeStream_open lawful sends reliable unbounded
    obtain ⟨opening, messages, sends', written⟩ := writeStream_ok step
    obtain ⟨rfl, rfl⟩ := sends'.unique sends
    obtain ⟨final, run, appended⟩ := ih stays still
    exact ⟨final, (bind_ok step).trans run, by simp [appended, written]⟩

theorem readStreams_back (lawful : A.Lawful) (encodes : Encodes streams parts)
    (caps : ∀ stream ∈ streams, WithinCaps stream) {count : Nat} (count_le : count ≤ streams.length)
    (reliable : source.Reliable) (bytes : source.bytes = parts.flatten ++ tail) :
    ∃ rest, readStreams A count source =
        (.ok ((streams.take count).map StreamValue.readBack), rest) ∧
      rest.bytes = (parts.drop count).flatten ++ tail := by
  induction count generalizing streams parts source with
  | zero => exact ⟨source, by simp [readStreams], by simpa using bytes⟩
  | succ count ih =>
    cases encodes with
    | nil => simp at count_le
    | cons sends others =>
      rw [flatten_cons, append_assoc] at bytes
      obtain ⟨middle, step, remaining, stays⟩ := readStream_back lawful sends
        (caps _ (mem_cons_self ..)) reliable bytes
      obtain ⟨rest, run, left⟩ := ih others (forall_mem_cons.mp caps).2
        (by simpa using count_le) stays remaining
      refine ⟨rest, ?_, by simpa using left⟩
      exact (bind_ok step).trans ((bind_ok run).trans rfl)

/-- Streams written one after another are read back by successive readers over
one source: the same schemas, batches and metadata, each reader leaving exactly
the bytes of the streams behind its own, however the writes and the reads are
cut.  The reader's caps have to admit the streams. -/
theorem streams_read_back (A : ArrowIpc) (lawful : A.Lawful) (streams : List (StreamValue A))
    (caps : ∀ stream ∈ streams, WithinCaps stream) (sink final : Sink Failure)
    (written : writeStreams streams sink = (.ok (), final)) :
    ∃ parts : List Bytes, parts.length = streams.length ∧
      final.written = sink.written ++ parts.flatten ∧
      (∀ other : Sink Failure, other.Reliable → other.room = none →
        ∃ final', writeStreams streams other = (.ok (), final') ∧
          final'.written = other.written ++ parts.flatten) ∧
      ∀ (source : Source RpcError) (tail : Bytes) (count : Nat),
        source.Reliable → source.bytes = parts.flatten ++ tail → count ≤ streams.length →
        ∃ rest, readStreams A count source =
            (.ok ((streams.take count).map StreamValue.readBack), rest) ∧
          rest.bytes = (parts.drop count).flatten ++ tail := by
  obtain ⟨parts, encodes, appended⟩ := writeStreams_ok written
  refine ⟨parts, encodes.length, appended, ?_, ?_⟩
  · intro other reliable unbounded
    exact writeStreams_open lawful encodes reliable unbounded
  · intro source tail count reliable bytes count_le
    exact readStreams_back lawful encodes caps count_le reliable bytes

/-! ### Streams of the small library -/

/-- One large-binary value, on the path that does not copy it. -/
def blobStream : StreamValue library where
  schema := Sample.Kind.blob.schema
  items := [(.blob [42], none)]
  conforms := by
    intro item member
    cases List.mem_singleton.mp member
    rfl

/-- One row without columns, with metadata. -/
def rowStream : StreamValue library where
  schema := Sample.Kind.empty.schema
  items := [(.row, some (.ofEntries [("key", "value")]))]
  conforms := by
    intro item member
    cases List.mem_singleton.mp member
    rfl

theorem blobStream_sends : StreamSends blobStream ⟨[2], []⟩ [⟨[6], largeBinaryBody [42]⟩] := by
  have value : Sends library (.blob [42]) none () [⟨[6], largeBinaryBody [42]⟩] () :=
    .direct rfl (by decide) rfl
  exact ⟨(), rfl, .cons value (SendsAll.nil (A := library) ())⟩

theorem rowStream_sends : StreamSends rowStream ⟨[1], []⟩ [⟨[5], []⟩] := by
  have row : Sends library .row (some (.ofEntries [("key", "value")])) ()
      ([] ++ [⟨[5], []⟩]) () := by
    have aligned : Aligned ([] ++ [⟨[4], []⟩]) := aligned_of_empty (by simp)
    exact .encoded rfl rfl rfl aligned
  exact ⟨(), rfl, .cons row (SendsAll.nil (A := library) ())⟩

theorem sampleStreams_caps : ∀ stream ∈ [blobStream, rowStream], WithinCaps stream := by
  intro stream member opening messages sends
  simp only [mem_cons, not_mem_nil, or_false] at member
  rcases member with rfl | rfl
  · obtain ⟨rfl, rfl⟩ := sends.unique blobStream_sends
    refine ⟨by decide, ?_⟩
    intro encoded member
    cases mem_singleton.mp member
    rw [largeBinaryBody_length]
    decide
  · obtain ⟨rfl, rfl⟩ := sends.unique rowStream_sends
    refine ⟨by decide, ?_⟩
    intro encoded member
    cases mem_singleton.mp member
    decide

/-- A transport that takes the first byte alone and interrupts the second write. -/
def choppedSink : Sink Failure := ⟨[], none, [.accept 0, .interrupted]⟩

theorem choppedSink_reliable : choppedSink.Reliable := by
  intro error member
  simp [choppedSink] at member

theorem streams_read_back_sample :
    ∃ final, writeStreams [blobStream, rowStream] choppedSink = (.ok (), final) ∧
      ∃ rest, readStreams library 2 (.ofBytes final.written) =
        (.ok [blobStream.readBack, rowStream.readBack], rest) ∧ rest.bytes = [] := by
  obtain ⟨final, run, _⟩ := writeStreams_open Sample.library_lawful
    (.cons blobStream_sends (.cons rowStream_sends .nil)) choppedSink_reliable rfl
  refine ⟨final, run, ?_⟩
  obtain ⟨parts, length, written, _, reads⟩ := streams_read_back library
    library_lawful [blobStream, rowStream] sampleStreams_caps choppedSink final run
  have bytes : (Source.ofBytes final.written : Source RpcError).bytes = parts.flatten ++ [] := by
    rw [append_nil]
    exact written
  obtain ⟨rest, back, left⟩ := reads _ [] 2 (ofBytes_reliable _) bytes (by decide)
  have none : parts.drop 2 = [] := drop_eq_nil_of_le (Nat.le_of_eq length)
  refine ⟨rest, back, ?_⟩
  rw [left, none]
  rfl

/-- A stream of no batches whose schema carries a note. -/
def notedStream (length : Nat) : StreamValue library where
  schema := (Sample.Kind.noted length).schema
  items := []
  conforms := fun _ member => by cases member

def notedOpening (length : Nat) : EncodedData := ⟨9 :: List.replicate length 0x78, []⟩

variable {length : Nat}

theorem notedStream_sends (short : length < 2 ^ 31) :
    StreamSends (notedStream length) (notedOpening length) [] := by
  refine ⟨(), ?_, SendsAll.nil (A := library) ()⟩
  simp only [notedStream, library, Sample.kindOf_schema, bind_eq_bind,
    bind_some, Sample.finishMessage_noted short]
  rfl

theorem notedOpening_size (length : Nat) : length < headerSize (notedOpening length) := by
  simp only [headerSize, notedOpening, length_cons, length_replicate]
  omega

/-- A schema message over the cap is refused before its bytes are read. -/
theorem new_refuses (small : headerSize opening < 256 ^ 4)
    (large : maxIpcSchemaBytes < headerSize opening) (tail : Bytes) :
    ∃ rest, StreamReader.new A (.ofBytes
        (encapsulate opening.ipcMessage opening.arrowData ++ tail)) =
      (.error (refusesHeader (headerSize opening) maxIpcSchemaBytes), rest) := by
  have word := LengthWord.marked (toLe_length 4 (headerSize opening))
  rw [ofLe_toLe_of_lt small] at word
  have layout : encapsulate opening.ipcMessage opening.arrowData ++ tail =
      (continuationMarker ++ toLe 4 (headerSize opening)) ++
        ((rawMessage opening).messageBytes ++ opening.arrowData ++ tail) := by
    simp [encapsulate, headerSize, rawMessage]
  have refused (source : Source RpcError) :
      readSized A maxIpcSchemaBytes (headerSize opening) source =
        (.error (refusesHeader (headerSize opening) maxIpcSchemaBytes), source) := by
    rw [readSized, if_neg (by omega), if_pos large, throw_apply]
  refine ⟨.ofBytes ((rawMessage opening).messageBytes ++ opening.arrowData ++ tail), ?_⟩
  rw [StreamReader.new, layout, readMessageBytes_word word, refused]

/-- The writer produces a stream whose schema carries a long note, and the reader
refuses it. -/
theorem notedStream_refused (short : length < 2 ^ 31) (long : maxIpcSchemaBytes ≤ length) :
    ∃ final, writeStreams [notedStream length] choppedSink = (.ok (), final) ∧
      ∃ error, (readStreams library 1 (.ofBytes final.written)).1 = .error error := by
  have sends := notedStream_sends short
  obtain ⟨final, run, written⟩ := writeStreams_open Sample.library_lawful
    (.cons sends .nil) choppedSink_reliable rfl
  have large : maxIpcSchemaBytes < headerSize (notedOpening length) :=
    Nat.lt_of_le_of_lt long (notedOpening_size length)
  obtain ⟨tracker, opened, _⟩ := sends
  have framable := (opening_decodes library_lawful opened).2.1
  obtain ⟨rest, refused⟩ := new_refuses (A := library)
    (Nat.lt_of_le_of_lt framable.header (by decide)) large endOfStream
  refine ⟨final, run, refusesHeader (headerSize (notedOpening length)) maxIpcSchemaBytes, ?_⟩
  have bytes : final.written = encapsulate (notedOpening length).ipcMessage
      (notedOpening length).arrowData ++ endOfStream := by
    rw [written]
    simp [choppedSink, streamBytes]
  have failed : readStream library (.ofBytes final.written) =
      (.error (refusesHeader (headerSize (notedOpening length)) maxIpcSchemaBytes), rest) := by
    rw [readStream, bytes, refused]
  exact congrArg Prod.fst (bind_error failed)

/-- A schema with a note of 16 MiB is written and not read back, by a lawful
library. -/
theorem noted_schema_not_read_back : library.Lawful ∧
      ∃ final, writeStreams [notedStream (2 ^ 24)] choppedSink = (.ok (), final) ∧
        ∃ error, (readStreams library 1 (.ofBytes final.written)).1 = .error error :=
  ⟨library_lawful, notedStream_refused (by decide) (by decide)⟩

end

end VgiRpc.Wire
