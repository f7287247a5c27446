import VgiRpc.Wire.Framing

/-!
# Reading IPC streams

The stream reader decodes the messages between a schema and the end marker.  It
keeps the dictionaries it has decoded, surfaces the metadata of every batch, and
remembers whether the stream ended with the marker or with its input.
-/

namespace VgiRpc.Wire

open Arrow
open Library.ByteStream

/-- Run a decoder, turning a panic into an error. -/
def decodeGuard {α : Type} (what : String) (result : Except Failure α) : Except RpcError α :=
  match result with
  | .ok value => .ok value
  | .error (.error error) => .error error
  | .error .panicked => .error (.ipc ("panic decoding " ++ what ++ " (malformed frame)"))

/-- The first fault of a buffer descriptor, in the order they are checked. -/
def validateBuffer (bodyLength : Nat) (span : BufferSpan) : Except RpcError Unit :=
  if span.offset < 0 ∨ span.length < 0 then .error (.ipc "negative IPC buffer descriptor")
  else if 2 ^ 64 ≤ span.offset + span.length then .error (.ipc "IPC buffer descriptor overflows")
  else if bodyLength < span.offset + span.length then
    .error (.ipc "IPC buffer descriptor exceeds message body")
  else .ok ()

def validateBuffers (bodyLength : Nat) : List BufferSpan → Except RpcError Unit
  | [] => .ok ()
  | span :: rest =>
    match validateBuffer bodyLength span with
    | .error error => .error error
    | .ok () => validateBuffers bodyLength rest

def validateRecordBatchBuffers (table : RecordBatchTable) (bodyLength : Nat) :
    Except RpcError Unit :=
  match table.buffers with
  | none => .ok ()
  | some buffers => validateBuffers bodyLength buffers

/-- The check of a dictionary batch, which may come without data. -/
def validateDictionaryBuffers (table : DictionaryTable) (bodyLength : Nat) :
    Except RpcError Unit :=
  match table.data with
  | none => .ok ()
  | some data => validateRecordBatchBuffers data bodyLength

def parseCustomMetadata {σ : Type} (message : Message σ) : Metadata :=
  match message.customMetadata with
  | none => .empty
  | some entries => .ofEntries (entries.map fun entry => (entry.1.getD "", entry.2.getD ""))

inductive Decoded (A : ArrowIpc) where
  | batch (batch : A.Batch) (metadata : Metadata)
  | dictionaries (known : A.Dictionaries)
  | skip

/-- Decode a message of a stream under the schema for its dictionaries and the
one for its batches. -/
def decodeMessage (A : ArrowIpc) (schema batchSchema : Schema) (known : A.Dictionaries)
    (raw : RawMessage) : Except RpcError (Decoded A) :=
  match A.rootAsMessage raw.messageBytes with
  | .error invalid => .error (.ipc ("parse message: " ++ invalid.text))
  | .ok message =>
    match message.header with
    | .dictionaryBatch none => .error (.ipc "bad dictionary header")
    | .dictionaryBatch (some table) => do
        validateDictionaryBuffers table raw.body.length
        let known' ← decodeGuard "dictionary batch"
          (A.readDictionary raw.body table schema known message.version)
        pure (.dictionaries known')
    | .recordBatch none => .error (.ipc "bad record batch header")
    | .recordBatch (some table) => do
        validateRecordBatchBuffers table raw.body.length
        let batch ← decodeGuard "record batch"
          (A.readRecordBatch raw.body table batchSchema known message.version)
        let metadata := parseCustomMetadata message
        pure (.batch batch
          (if raw.hadInvalidUtf8 then
            metadata.insert Metadata.invalidUtf8MetadataKey "true" else metadata))
    | .schema _ => .error (.ipc "unexpected schema message mid-stream")
    | .none => .ok .skip
    | other => .error (.ipc ("unsupported message type " ++ other.typeName))

mutual

/-- Every nested field made nullable, through lists and structs only. -/
def relaxDataType : DataType → DataType
  | .list item => .list (relaxField item)
  | .largeList item => .largeList (relaxField item)
  | .fixedSizeList item size => .fixedSizeList (relaxField item) size
  | .struct fields => .struct (relaxFields fields)
  | other => other

def relaxField : Field → Field
  | .mk name dataType _ metadata => .mk name (relaxDataType dataType) true metadata

def relaxFields : List Field → List Field
  | [] => []
  | field :: rest => relaxField field :: relaxFields rest

end

def relaxSchemaNullability (schema : Schema) : Schema :=
  ⟨relaxFields schema.fields, schema.metadata⟩

structure StreamReader (A : ArrowIpc) where
  reader : Source RpcError
  schema : Schema
  dictionaries : A.Dictionaries
  finished : Bool
  sawEos : Bool
  relaxedSchema : Option Schema

namespace StreamReader

variable {A : ArrowIpc}

def decodeSchema (A : ArrowIpc) (raw : RawMessage) : Except RpcError Schema :=
  if raw.hadInvalidUtf8 then .error (.protocolError "Invalid UTF-8 in IPC schema metadata")
  else
    match A.rootAsMessage raw.messageBytes with
    | .error invalid => .error (.ipc ("parse schema message: " ++ invalid.text))
    | .ok message =>
      match message.header with
      | .schema none => .error (.ipc "bad schema header")
      | .schema (some table) =>
        if A.hasFields table then decodeGuard "schema message" (A.fbToSchema table)
        else .error (.ipc "schema message has no fields vector")
      | other => .error (.ipc ("expected Schema, got " ++ other.typeName))

/-- Open a stream by consuming its schema message; the source is the shared
reader, which a failure leaves where it stopped. -/
def new (A : ArrowIpc) (source : Source RpcError) :
    Except RpcError (StreamReader A) × Source RpcError :=
  match readMessageBytes A maxIpcSchemaBytes source with
  | (.error error, rest) => (.error error, rest)
  | (.ok none, rest) => (.error (.ipc "empty IPC stream (no schema)"), rest)
  | (.ok (some .eos), rest) => (.error (.ipc "empty IPC stream (no schema)"), rest)
  | (.ok (some (.message raw)), rest) =>
    match decodeSchema A raw with
    | .error error => (.error error, rest)
    | .ok schema => (.ok ⟨rest, schema, A.noDictionaries, false, false, none⟩, rest)

def batchSchema (state : StreamReader A) : Schema := state.relaxedSchema.getD state.schema

def relaxNullability (state : StreamReader A) : StreamReader A :=
  { state with relaxedSchema := some (relaxSchemaNullability state.schema) }

/-- The next batch with its metadata, or `none` at the end of the stream. -/
def readNext (state : StreamReader A) :
    Except RpcError (Option (A.Batch × Metadata)) × StreamReader A :=
  if state.finished then (.ok none, state)
  else
    match _step : readMessageBytes A maxIpcMessageBytes state.reader with
    | (.error error, rest) => (.error error, { state with reader := rest })
    | (.ok none, rest) => (.ok none, { state with reader := rest, finished := true })
    | (.ok (some .eos), rest) =>
      (.ok none, { state with reader := rest, finished := true, sawEos := true })
    | (.ok (some (.message raw)), rest) =>
      match decodeMessage A state.schema state.batchSchema state.dictionaries raw with
      | .error error => (.error error, { state with reader := rest })
      | .ok (.batch batch metadata) =>
        (.ok (some (batch, metadata)), { state with reader := rest })
      | .ok (.dictionaries known) =>
        readNext { state with reader := rest, dictionaries := known }
      | .ok .skip => readNext { state with reader := rest }
termination_by state.reader.bytes.length
decreasing_by
  all_goals exact readMessageBytes_progress ‹_›

variable {state : StreamReader A}

theorem readNext_finished (finished : state.finished = true) : readNext state = (.ok none, state) := by
  rw [readNext.eq_def, if_pos finished]

theorem readNext_step {rest : Source RpcError} {result : Except RpcError (Option Frame)}
    (unfinished : state.finished = false)
    (step : readMessageBytes A maxIpcMessageBytes state.reader = (result, rest)) :
    readNext state =
      match result with
      | .error error => (.error error, { state with reader := rest })
      | .ok none => (.ok none, { state with reader := rest, finished := true })
      | .ok (some .eos) =>
        (.ok none, { state with reader := rest, finished := true, sawEos := true })
      | .ok (some (.message raw)) =>
        match decodeMessage A state.schema state.batchSchema state.dictionaries raw with
        | .error error => (.error error, { state with reader := rest })
        | .ok (.batch batch metadata) =>
          (.ok (some (batch, metadata)), { state with reader := rest })
        | .ok (.dictionaries known) =>
          readNext { state with reader := rest, dictionaries := known }
        | .ok .skip => readNext { state with reader := rest } := by
  rw [readNext.eq_def, if_neg (by simp [unfinished])]
  split <;> rename_i found <;> rw [step] at found <;> cases found <;> rfl

/-- The same reader over the same bytes, all of them available. -/
def atOnce (state : StreamReader A) : StreamReader A :=
  { state with reader := .ofBytes state.reader.bytes }

/-- The segmentation of the source is invisible: a read fails because the source
does, or it is the read of the bytes at once. -/
theorem readNext_free (state : StreamReader A) :
    (∃ error, (readNext state).1 = .error error ∧ ¬ state.reader.Reliable) ∨
      (readNext state.atOnce = ((readNext state).1, (readNext state).2.atOnce) ∧
        (state.reader.Reliable → (readNext state).2.reader.Reliable)) := by
  induction bound : state.reader.bytes.length using Nat.strong_induction_on generalizing state with
  | _ size ih =>
    by_cases finished : state.finished = true
    · rw [readNext_finished finished]
      have done : state.atOnce.finished = true := finished
      exact .inr ⟨readNext_finished done, id⟩
    have unfinished : state.finished = false := by simpa using finished
    rcases step : readMessageBytes A maxIpcMessageBytes state.reader with ⟨result, rest⟩
    rw [readNext_step unfinished step]
    rcases readMessageBytes_free A maxIpcMessageBytes state.reader with
      ⟨error, failed, unreliable⟩ | ⟨same, stays⟩
    · rw [step] at failed
      cases failed
      exact .inl ⟨error, rfl, unreliable⟩
    rw [step] at same stays
    have once : state.atOnce.finished = false := unfinished
    rw [readNext_step once same]
    rcases result with error | none | raw | _
    · exact .inr ⟨rfl, stays⟩
    · exact .inr ⟨rfl, stays⟩
    · have shorter : rest.bytes.length < size := bound ▸ readMessageBytes_progress step
      have same : decodeMessage A state.atOnce.schema state.atOnce.batchSchema
          state.atOnce.dictionaries raw =
          decodeMessage A state.schema state.batchSchema state.dictionaries raw := rfl
      simp only [same]
      rcases decodeMessage A state.schema state.batchSchema state.dictionaries raw with
        error | ⟨batch, metadata⟩ | known | _
      · exact .inr ⟨rfl, stays⟩
      · exact .inr ⟨rfl, stays⟩
      · exact Reader.run_after stays
          (ih _ shorter { state with reader := rest, dictionaries := known } rfl)
      · exact Reader.run_after stays (ih _ shorter { state with reader := rest } rfl)
    · exact .inr ⟨rfl, stays⟩

/-- A reader whose source does not fail reads what it reads of the bytes at once. -/
theorem readNext_atOnce (reliable : state.reader.Reliable) :
    state.atOnce.readNext = (state.readNext.1, state.readNext.2.atOnce) ∧
      state.readNext.2.reader.Reliable := by
  rcases readNext_free state with ⟨_, _, unreliable⟩ | ⟨once, keeps⟩
  · exact absurd reliable unreliable
  · exact ⟨once, keeps reliable⟩

theorem readNext_progress {next : StreamReader A} {item : A.Batch × Metadata}
    (run : readNext state = (.ok (some item), next)) :
    next.reader.bytes.length < state.reader.bytes.length := by
  induction bound : state.reader.bytes.length using Nat.strong_induction_on generalizing state with
  | _ size ih =>
    by_cases finished : state.finished = true
    · cases (readNext_finished finished).symm.trans run
    have unfinished : state.finished = false := by simpa using finished
    rcases step : readMessageBytes A maxIpcMessageBytes state.reader with ⟨result, rest⟩
    rw [readNext_step unfinished step] at run
    rcases result with error | none | raw | _
    · cases run
    · cases run
    · have shorter : rest.bytes.length < size := bound ▸ readMessageBytes_progress step
      simp only at run
      generalize decodeMessage A state.schema state.batchSchema state.dictionaries raw =
        decoded at run
      rcases decoded with error | ⟨batch, metadata⟩ | known | _
      · cases run
      · cases run
        exact shorter
      · exact Nat.lt_trans (ih _ shorter run rfl) shorter
      · exact Nat.lt_trans (ih _ shorter run rfl) shorter
    · cases run

/-- Read to the end of a stream: the batches delivered, and how it ended. -/
def readAll (state : StreamReader A) :
    List (A.Batch × Metadata) × Except RpcError Bool × StreamReader A :=
  match _step : readNext state with
  | (.error error, next) => ([], .error error, next)
  | (.ok none, next) => ([], .ok next.sawEos, next)
  | (.ok (some item), next) =>
    let (items, ending, final) := readAll next
    (item :: items, ending, final)
termination_by state.reader.bytes.length
decreasing_by exact readNext_progress ‹_›

theorem readAll_step {next : StreamReader A} {result : Except RpcError (Option (A.Batch ×
    Metadata))} (step : readNext state = (result, next)) :
    readAll state =
      match result with
      | .error error => ([], .error error, next)
      | .ok none => ([], .ok next.sawEos, next)
      | .ok (some item) =>
        (item :: (readAll next).1, (readAll next).2.1, (readAll next).2.2) := by
  rw [readAll.eq_def]
  split <;> rename_i found <;> rw [step] at found <;> cases found <;> rfl

end StreamReader

/-- What a client of one stream sees: its schema, the batches delivered, and an
error or whether the end marker was seen. -/
structure StreamRead (A : ArrowIpc) where
  schema : Schema
  items : List (A.Batch × Metadata)
  ending : Except RpcError Bool

/-- Open a reader on the shared source and read its stream to the end. -/
def readStream (A : ArrowIpc) (source : Source RpcError) :
    Except RpcError (StreamRead A) × Source RpcError :=
  match StreamReader.new A source with
  | (.error error, rest) => (.error error, rest)
  | (.ok state, _) =>
    let (items, ending, final) := state.readAll
    (.ok ⟨state.schema, items, ending⟩, final.reader)

end VgiRpc.Wire
