import VgiRpc.Arrow.Ipc
import VgiRpc.Metadata

/-!
# Writing IPC streams

The stream writer of the wire layer: the schema message on construction, one
record-batch message per write, preceded by the dictionary messages it needs and
carrying the metadata of the batch, and the end marker.  A batch of one
large-binary value takes a path of its own that never copies the value.
-/

namespace VgiRpc.Wire

open Arrow List Library.Program
open Library (Program)
open Library.ByteStream Library.LittleEndian

def maxWriteChunk : Nat := 2 ^ 30

def endOfStream : Bytes := continuationMarker ++ [0, 0, 0, 0]

def writeZero : Failure := .error (.io "failed to write whole buffer")

/-- The writer owns its transport, the dictionary tracker and the finished flag. -/
structure StreamWriter (A : ArrowIpc) where
  writer : Sink Failure
  schema : Schema
  dictTracker : A.Tracker
  finished : Bool

namespace StreamWriter

variable {A : ArrowIpc}

/-- A `write_all` through the chunking writer. -/
def writeAll (buffer : Bytes) : Program (StreamWriter A) Failure Unit := fun state =>
  let (result, sink) := state.writer.writeAll writeZero (maxWriteChunk - 1) buffer
  (result, { state with writer := sink })

def writeBuffers : List Bytes → Program (StreamWriter A) Failure Unit
  | [] => pure ()
  | buffer :: rest => do
      writeAll buffer
      writeBuffers rest

def writeMessage (encoded : EncodedData) : Program (StreamWriter A) Failure Unit := do
  let bytes ← Arrow.writeMessage encoded
  writeAll bytes

def new (A : ArrowIpc) (writer : Sink Failure) (schema : Schema) :
    Except Failure (StreamWriter A) × Sink Failure :=
  match A.schemaToBytes schema A.newTracker with
  | none => (.error .panicked, writer)
  | some (encoded, tracker) =>
    match writeMessage encoded (⟨writer, schema, tracker, false⟩ : StreamWriter A) with
    | (.ok (), state) => (.ok state, state.writer)
    | (.error failure, state) => (.error failure, state.writer)

end StreamWriter

section

variable (A : ArrowIpc)

/-- The builder's result, or the panic it raises when the buffer grows too large. -/
def finishMessage (message : Message A.SchemaTable) : Except Failure Bytes :=
  match A.finishMessage message with
  | some bytes => .ok bytes
  | none => .error .panicked

theorem finishMessage_eq_ok_iff {message : Message A.SchemaTable} {bytes : Bytes} :
    finishMessage A message = .ok bytes ↔ A.finishMessage message = some bytes := by
  unfold finishMessage
  cases A.finishMessage message <;> simp

/-- The `custom_metadata` field: absent for no metadata and for an empty map. -/
def customMetadata (metadata : Option Metadata) : Option (List (Option String × Option String)) :=
  (metadata.filter fun entries => !entries.isEmpty).map fun entries =>
    entries.entries.map fun entry => (some entry.1, some entry.2)

/-- The value of a batch that is one non-null large-binary row. -/
def singleLargeBinary (batch : A.Batch) : Option Bytes :=
  if A.numRows batch ≠ 1 ∨ A.numColumns batch ≠ 1 then none
  else
    match (A.schemaOf batch).fields with
    | [] => none
    | field :: _ =>
      if field.dataType.isLargeBinary then (A.largeBinaryValue batch).join else none

variable (valueLength : Nat)

def largeBinaryTable : RecordBatchTable :=
  { length := 1
    nodes := some [⟨1, 0⟩]
    buffers := some [⟨0, 1⟩, ⟨ipcAlignment, 16⟩, ⟨2 * ipcAlignment, valueLength⟩]
    compression := none
    variadicBufferCounts := none }

def largeBinaryBodyLength : Nat :=
  2 * ipcAlignment + valueLength + paddingToAlignment valueLength ipcAlignment

def largeBinaryMessage (metadata : Option Metadata) : Message A.SchemaTable :=
  { version := .v5
    header := .recordBatch (some (largeBinaryTable valueLength))
    bodyLength := largeBinaryBodyLength valueLength
    customMetadata := customMetadata metadata }

/-- Rebuild a record-batch message with metadata; compression is not carried. -/
def repackRecordBatchMessageWithMetadata (bytes : Bytes) (metadata : Metadata) :
    Except Failure Bytes :=
  match A.rootAsMessage bytes with
  | .error invalid => .error (.error (.ipc ("parsing message: " ++ invalid.text)))
  | .ok message =>
    match message.header with
    | .recordBatch none => .error (.error (.ipc "missing RecordBatch header"))
    | .recordBatch (some table) =>
      match table.nodes, table.buffers with
      | none, _ => .error (.error (.ipc "RecordBatch missing nodes"))
      | some _, none => .error (.error (.ipc "RecordBatch missing buffers"))
      | some nodes, some buffers =>
        finishMessage A
          { version := message.version
            header := .recordBatch (some
              { length := table.length
                nodes := some nodes
                buffers := some buffers
                compression := none
                variadicBufferCounts := table.variadicBufferCounts })
            bodyLength := message.bodyLength
            customMetadata := some (metadata.entries.map fun entry =>
              (some entry.1, some entry.2)) }
    | other =>
      .error (.error (.ipc ("repack expected RecordBatch header, got " ++ other.typeName)))

/-- The flatbuffer of a record batch once its metadata is attached. -/
def attachMetadata (data : EncodedData) (metadata : Option Metadata) : Except Failure Bytes :=
  match metadata.filter fun entries => !entries.isEmpty with
  | some entries => repackRecordBatchMessageWithMetadata A data.ipcMessage entries
  | none => .ok data.ipcMessage

end

namespace StreamWriter

variable {A : ArrowIpc} (batch : A.Batch) (metadata : Option Metadata)

/-- The path of a single large-binary value; `false` when the batch is not one. -/
def writeSingleLargeBinaryDirect : Program (StreamWriter A) Failure Bool :=
  match singleLargeBinary A batch with
  | none => pure false
  | some value => do
      let valuePadding := paddingToAlignment value.length ipcAlignment
      let bodyLength := largeBinaryBodyLength value.length
      if 2 ^ 63 ≤ value.length then
        throw (.error (.valueError "large_binary value exceeds i64 offsets"))
      else if 2 ^ 64 ≤ bodyLength then
        throw (.error (.valueError "large_binary IPC body length overflow"))
      else if 2 ^ 63 ≤ bodyLength then
        throw (.error (.valueError "large_binary IPC body exceeds i64 length"))
      else do
        let bytes ← finishMessage A (largeBinaryMessage A value.length metadata)
        writeMessage ⟨bytes, []⟩
        writeBuffers
          [[0xff], List.replicate (ipcAlignment - 1) 0,
            toLe 8 0, toLe 8 value.length, List.replicate (ipcAlignment - 16) 0,
            value, List.replicate valuePadding 0]
        pure true

/-- The generator's `encode`, which advances the tracker whatever it returns. -/
def encode : Program (StreamWriter A) Failure (List EncodedData × EncodedData) := fun state =>
  let (result, tracker) := A.encode batch state.dictTracker
  (result, { state with dictTracker := tracker })

def writeMessages : List EncodedData → Program (StreamWriter A) Failure Unit
  | [] => pure ()
  | encoded :: rest => do
      writeMessage encoded
      writeMessages rest

def write : Program (StreamWriter A) Failure Unit := do
  let state ← get
  if state.finished then throw (.error (.io "writer already finished"))
  else do
    let direct ← writeSingleLargeBinaryDirect batch metadata
    if direct then pure ()
    else do
      let (dictionaries, data) ← encode batch
      writeMessages dictionaries
      let message ← attachMetadata A data metadata
      writeMessage ⟨message, data.arrowData⟩

/-- Write the end marker; a second call does nothing. -/
def finish : Program (StreamWriter A) Failure Unit := do
  let state ← get
  if state.finished then pure ()
  else do
    writeAll continuationMarker
    writeAll [0, 0, 0, 0]
    let state ← get
    set { state with finished := true }

/-- Dropping the writer finishes it and ignores the outcome. -/
def drop (state : StreamWriter A) : Sink Failure := (finish state).2.writer

end StreamWriter

/-! ## What a write sends

A write is described by the messages it sends.  Only their encapsulated bytes
reach the transport, so everything a reader sees follows from this relation. -/

def frames (messages : List EncodedData) : Bytes :=
  messages.flatMap fun encoded => encapsulate encoded.ipcMessage encoded.arrowData

@[simp]
theorem frames_nil : frames [] = [] := rfl

@[simp]
theorem frames_cons (encoded : EncodedData) (rest : List EncodedData) :
    frames (encoded :: rest) = encapsulate encoded.ipcMessage encoded.arrowData ++ frames rest :=
  rfl

@[simp]
theorem frames_append (first second : List EncodedData) :
    frames (first ++ second) = frames first ++ frames second := by
  simp [frames]

/-- The body of a large-binary row: bitmap, offsets and value, each padded. -/
def largeBinaryBody (value : Bytes) : Bytes :=
  [[0xff], List.replicate (ipcAlignment - 1) 0,
    toLe 8 0, toLe 8 value.length, List.replicate (ipcAlignment - 16) 0,
    value, List.replicate (paddingToAlignment value.length ipcAlignment) 0].flatten

theorem largeBinaryBody_length (value : Bytes) :
    (largeBinaryBody value).length = largeBinaryBodyLength value.length := by
  simp [largeBinaryBody, largeBinaryBodyLength, ipcAlignment]
  omega

section

variable (A : ArrowIpc)

def Aligned (messages : List EncodedData) : Prop :=
  ∀ encoded ∈ messages, encoded.arrowData.length % ipcAlignment = 0

theorem aligned_of_empty {messages : List EncodedData}
    (empty : ∀ encoded ∈ messages, encoded.arrowData = []) : Aligned messages := by
  intro encoded member
  rw [empty encoded member]
  rfl

/-- The messages one write sends, with the tracker before and after. -/
inductive Sends (batch : A.Batch) (metadata : Option Metadata) :
    A.Tracker → List EncodedData → A.Tracker → Prop
  | direct {tracker : A.Tracker} {value bytes : Bytes}
      (single : singleLargeBinary A batch = some value)
      (small : largeBinaryBodyLength value.length < 2 ^ 63)
      (built : A.finishMessage (largeBinaryMessage A value.length metadata) = some bytes) :
      Sends batch metadata tracker [⟨bytes, largeBinaryBody value⟩] tracker
  | encoded {tracker tracker' : A.Tracker} {dictionaries : List EncodedData} {data : EncodedData}
      {message : Bytes}
      (several : singleLargeBinary A batch = none)
      (encodes : A.encode batch tracker = (.ok (dictionaries, data), tracker'))
      (attached : attachMetadata A data metadata = .ok message)
      (aligned : Aligned (dictionaries ++ [data])) :
      Sends batch metadata tracker (dictionaries ++ [⟨message, data.arrowData⟩]) tracker'

end

namespace StreamWriter

variable {A : ArrowIpc} {state next final : StreamWriter A}

structure Appends (state : StreamWriter A) (bytes : Bytes) (next : StreamWriter A) : Prop where
  written : next.writer.written = state.writer.written ++ bytes
  schema : next.schema = state.schema
  dictTracker : next.dictTracker = state.dictTracker
  finished : next.finished = state.finished

theorem Appends.refl (state : StreamWriter A) : Appends state [] state :=
  ⟨by simp, rfl, rfl, rfl⟩

theorem Appends.trans {first second : Bytes} (one : Appends state first next)
    (two : Appends next second final) : Appends state (first ++ second) final :=
  ⟨by rw [two.written, one.written, append_assoc], two.schema.trans one.schema,
    two.dictTracker.trans one.dictTracker, two.finished.trans one.finished⟩

variable {buffer : Bytes}

theorem writeAll_appends (run : writeAll buffer state = (.ok (), next)) : Appends state buffer next := by
  rcases step : state.writer.writeAll writeZero (maxWriteChunk - 1) buffer with ⟨result, sink⟩
  simp only [writeAll, step, Prod.mk.injEq] at run
  obtain ⟨rfl, rfl⟩ := run
  exact ⟨(Sink.writeAll_ok step).1, rfl, rfl, rfl⟩

variable {buffers : List Bytes}

theorem writeBuffers_appends (run : writeBuffers buffers state = (.ok (), next)) :
    Appends state buffers.flatten next := by
  induction buffers generalizing state with
  | nil =>
    obtain ⟨-, rfl⟩ := Prod.mk.inj run
    exact .refl _
  | cons buffer rest ih =>
    obtain ⟨_, middle, first, later⟩ := bind_eq_ok run
    exact (writeAll_appends first).trans (ih later)

variable {encoded : EncodedData}

theorem writeMessage_appends (run : writeMessage encoded state = (.ok (), next)) :
    encoded.arrowData.length % ipcAlignment = 0 ∧
      Appends state (encapsulate encoded.ipcMessage encoded.arrowData) next := by
  obtain ⟨bytes, rest, framed, sent⟩ := bind_eq_ok run
  obtain ⟨made, rfl⟩ := lift_eq_ok framed
  unfold Arrow.writeMessage at made
  split_ifs at made with aligned
  cases made
  exact ⟨aligned, writeAll_appends sent⟩

variable {messages : List EncodedData}

theorem writeMessages_appends (run : writeMessages messages state = (.ok (), next)) :
    Aligned messages ∧ Appends state (frames messages) next := by
  induction messages generalizing state with
  | nil =>
    obtain ⟨-, rfl⟩ := Prod.mk.inj run
    exact ⟨fun _ member => (by cases member), .refl _⟩
  | cons encoded rest ih =>
    obtain ⟨_, middle, first, later⟩ := bind_eq_ok run
    obtain ⟨aligned, one⟩ := writeMessage_appends first
    obtain ⟨others, two⟩ := ih later
    exact ⟨forall_mem_cons.mpr ⟨aligned, others⟩, one.trans two⟩

theorem encapsulate_body (flatbuffer body : Bytes) :
    encapsulate flatbuffer [] ++ body = encapsulate flatbuffer body := by
  simp [encapsulate]

variable {batch : A.Batch} {metadata : Option Metadata}

theorem writeSingleLargeBinaryDirect_ok
    {direct : Bool} (run : writeSingleLargeBinaryDirect batch metadata state = (.ok direct, next)) :
    (direct = false ∧ singleLargeBinary A batch = none ∧ next = state) ∨
      (direct = true ∧ ∃ messages, Sends A batch metadata state.dictTracker messages
        state.dictTracker ∧ Appends state (frames messages) next) := by
  cases single : singleLargeBinary A batch with
  | none =>
    simp only [writeSingleLargeBinaryDirect, single] at run
    obtain ⟨same, rfl⟩ := Prod.mk.inj run
    exact .inl ⟨(Except.ok.inj same).symm, rfl, rfl⟩
  | some value =>
    right
    simp only [writeSingleLargeBinaryDirect, single] at run
    split at run
    · cases (Prod.mk.inj run).1
    split at run
    · cases (Prod.mk.inj run).1
    split at run
    · cases (Prod.mk.inj run).1
    obtain ⟨bytes, _, built, framed⟩ := bind_eq_ok run
    obtain ⟨_, middle, header, rest⟩ := bind_eq_ok framed
    obtain ⟨_, last, body, returns⟩ := bind_eq_ok rest
    obtain ⟨same, rfl⟩ := Prod.mk.inj returns
    obtain ⟨finishes, rfl⟩ := lift_eq_ok built
    refine ⟨(Except.ok.inj same).symm, _,
      .direct single (by omega) ((finishMessage_eq_ok_iff A).mp finishes), ?_⟩
    have sent := (writeMessage_appends header).2.trans (writeBuffers_appends body)
    simpa only [frames_cons, frames_nil, append_nil, encapsulate_body, largeBinaryBody] using sent

/-- A successful write appends the bytes of the messages it sends. -/
theorem write_ok (run : write batch metadata state = (.ok (), next)) :
    state.finished = false ∧ ∃ messages,
      Sends A batch metadata state.dictTracker messages next.dictTracker ∧
      next.writer.written = state.writer.written ++ frames messages ∧
      next.schema = state.schema ∧ next.finished = false := by
  change (if state.finished then throw _ else _ : Program (StreamWriter A) Failure Unit) state =
    _ at run
  split at run
  · cases (Prod.mk.inj run).1
  rename_i unfinished
  have fresh : state.finished = false := by simpa using unfinished
  refine ⟨fresh, ?_⟩
  obtain ⟨direct, middle, first, rest⟩ := bind_eq_ok run
  rcases writeSingleLargeBinaryDirect_ok first with
    ⟨rfl, several, rfl⟩ | ⟨rfl, messages, sends, appended⟩
  · rw [if_neg Bool.false_ne_true] at rest
    obtain ⟨⟨dictionaries, data⟩, coded, encodes, sending⟩ := bind_eq_ok rest
    obtain ⟨_, later, sent, packing⟩ := bind_eq_ok sending
    obtain ⟨message, _, packed, closing⟩ := bind_eq_ok packing
    obtain ⟨attached, rfl⟩ := lift_eq_ok packed
    obtain ⟨encoded, rfl⟩ := Prod.mk.inj encodes
    obtain ⟨aligned, one⟩ := writeMessages_appends sent
    obtain ⟨last, two⟩ := writeMessage_appends closing
    have appended := one.trans two
    refine ⟨dictionaries ++ [⟨message, data.arrowData⟩], ?_, ?_, appended.schema,
      appended.finished.trans fresh⟩
    · rw [appended.dictTracker]
      exact .encoded several (Prod.ext encoded rfl) attached
        (forall_mem_append.mpr ⟨aligned, forall_mem_singleton.mpr last⟩)
    · rw [appended.written]
      simp
  · obtain ⟨-, rfl⟩ := Prod.mk.inj rest
    refine ⟨messages, ?_, appended.written, appended.schema, appended.finished.trans fresh⟩
    rw [appended.dictTracker]
    exact sends

theorem finish_ok (unfinished : state.finished = false) (run : finish state = (.ok (), next)) :
    next.writer.written = state.writer.written ++ endOfStream ∧ next.finished = true := by
  change (if state.finished then pure () else _ : Program (StreamWriter A) Failure Unit) state =
    _ at run
  rw [if_neg (by simp [unfinished])] at run
  obtain ⟨_, middle, first, rest⟩ := bind_eq_ok run
  obtain ⟨_, last, second, closing⟩ := bind_eq_ok rest
  have appended := (writeAll_appends first).trans (writeAll_appends second)
  obtain ⟨_, _, read, sets⟩ := bind_eq_ok closing
  cases read
  cases sets
  exact ⟨appended.written, rfl⟩

/-! ## Writes that succeed

On a transport that does not fail and has room for the messages, a write succeeds
whenever the library encodes the batch. -/

/-- The transport of the writer does not fail, in whatever pieces it takes its
bytes, and has room for this many. -/
def Roomy (count : Nat) (state : StreamWriter A) : Prop :=
  state.writer.Reliable ∧ state.writer.HasRoom count

variable {more : Nat}

theorem writeAll_roomy (ready : state.Roomy (buffer.length + more)) :
    ∃ next, writeAll buffer state = (.ok (), next) ∧ next.Roomy more := by
  have room : state.writer.HasRoom buffer.length := fun space bounded =>
    Nat.le_trans (Nat.le_add_right _ _) (ready.2 space bounded)
  obtain ⟨sink, step, reliable⟩ : ∃ sink, state.writer.writeAll writeZero (maxWriteChunk - 1)
      buffer = (.ok (), sink) ∧ sink.Reliable := Sink.writeAll_reliable ready.1 room
  refine ⟨{ state with writer := sink }, by simp only [writeAll, step], reliable, ?_⟩
  intro space bounded
  rw [(Sink.writeAll_ok step).2, Option.map_eq_some_iff] at bounded
  obtain ⟨before, was, rfl⟩ := bounded
  have enough := ready.2 before was
  omega

theorem writeBuffers_roomy (ready : state.Roomy (buffers.flatten.length + more)) :
    ∃ next, writeBuffers buffers state = (.ok (), next) ∧ next.Roomy more := by
  induction buffers generalizing state with
  | nil => exact ⟨state, rfl, by simpa using ready⟩
  | cons buffer rest ih =>
    rw [flatten_cons, length_append, Nat.add_assoc] at ready
    obtain ⟨middle, step, still⟩ := writeAll_roomy ready
    obtain ⟨next, run, done⟩ := ih still
    exact ⟨next, (bind_ok step).trans run, done⟩

theorem writeMessage_roomy (aligned : encoded.arrowData.length % ipcAlignment = 0)
    (ready : state.Roomy ((encapsulate encoded.ipcMessage encoded.arrowData).length + more)) :
    ∃ next, writeMessage encoded state = (.ok (), next) ∧ next.Roomy more := by
  obtain ⟨next, run, done⟩ := writeAll_roomy ready
  refine ⟨next, ?_, done⟩
  have framed : (liftM (Arrow.writeMessage encoded) : Program (StreamWriter A) Failure Bytes)
      state = (.ok (encapsulate encoded.ipcMessage encoded.arrowData), state) := by
    rw [lift_apply, Arrow.writeMessage, if_pos aligned]
  exact (bind_ok framed).trans run

theorem writeMessages_roomy (aligned : Aligned messages)
    (ready : state.Roomy ((frames messages).length + more)) :
    ∃ next, writeMessages messages state = (.ok (), next) ∧ next.Roomy more := by
  induction messages generalizing state with
  | nil => exact ⟨state, rfl, by simpa using ready⟩
  | cons encoded rest ih =>
    rw [frames_cons, length_append, Nat.add_assoc] at ready
    obtain ⟨middle, step, still⟩ :=
      writeMessage_roomy (aligned _ (mem_cons_self ..)) ready
    obtain ⟨next, run, done⟩ := ih (forall_mem_cons.mp aligned).2 still
    exact ⟨next, (bind_ok step).trans run, done⟩

theorem writeSingleLargeBinaryDirect_roomy {value bytes : Bytes} (single : singleLargeBinary A batch
    = some value) (small : largeBinaryBodyLength value.length < 2 ^ 63) (built : A.finishMessage
    (largeBinaryMessage A value.length metadata) = some bytes) (ready : state.Roomy ((encapsulate
    bytes (largeBinaryBody value)).length + more)) :
    ∃ next, writeSingleLargeBinaryDirect batch metadata state = (.ok true, next) ∧
      next.Roomy more := by
  have short : value.length < 2 ^ 63 := by unfold largeBinaryBodyLength at small; omega
  rw [← encapsulate_body, length_append, Nat.add_assoc] at ready
  obtain ⟨middle, header, still⟩ : ∃ middle, writeMessage ⟨bytes, []⟩ state = (.ok (), middle) ∧
      middle.Roomy ((largeBinaryBody value).length + more) := writeMessage_roomy (by simp) ready
  obtain ⟨next, body, done⟩ := writeBuffers_roomy still
  refine ⟨next, ?_, done⟩
  have finishes : (liftM (finishMessage A (largeBinaryMessage A value.length metadata)) :
      Program (StreamWriter A) Failure Bytes) state = (.ok bytes, state) := by
    rw [lift_apply, finishMessage, built]
  simp only [writeSingleLargeBinaryDirect, single]
  rw [if_neg (by omega), if_neg (by omega), if_neg (by omega), bind_ok finishes,
    bind_ok header, bind_ok body, pure_apply]

theorem writeSingleLargeBinaryDirect_none (metadata : Option Metadata)
    (several : singleLargeBinary A batch = none) :
    writeSingleLargeBinaryDirect batch metadata state = (.ok false, state) := by
  simp only [writeSingleLargeBinaryDirect, several, pure_apply]

theorem write_roomy (unfinished : state.finished = false) {tracker : A.Tracker}
    (sends : Sends A batch metadata state.dictTracker messages tracker)
    (ready : state.Roomy ((frames messages).length + more)) :
    ∃ next, write batch metadata state = (.ok (), next) ∧ next.Roomy more := by
  change ∃ next, (if state.finished then throw _ else _ : Program (StreamWriter A) Failure Unit)
    state = _ ∧ _
  rw [if_neg (by simp [unfinished])]
  cases sends with
  | direct single small built =>
    rw [frames_cons, frames_nil, append_nil] at ready
    obtain ⟨next, run, done⟩ := writeSingleLargeBinaryDirect_roomy single small built ready
    exact ⟨next, bind_ok run, done⟩
  | @encoded _ dictionaries data message several encodes attached aligned =>
    have coded : encode batch state = (.ok (dictionaries, data),
        { state with dictTracker := tracker }) := by
      simp only [encode, encodes]
    rw [frames_append, length_append, Nat.add_assoc, frames_cons, frames_nil, append_nil] at ready
    have tracked : ({ state with dictTracker := tracker } : StreamWriter A).Roomy _ := ready
    obtain ⟨middle, first, still⟩ := writeMessages_roomy (forall_mem_append.mp aligned).1 tracked
    have packed : (liftM (attachMetadata A data metadata) :
        Program (StreamWriter A) Failure Bytes) middle = (.ok message, middle) := by
      rw [lift_apply, attached]
    obtain ⟨next, last, done⟩ : ∃ next, writeMessage ⟨message, data.arrowData⟩ middle =
        (.ok (), next) ∧ next.Roomy more :=
      writeMessage_roomy (aligned data (by simp)) still
    refine ⟨next, ?_, done⟩
    rw [bind_ok (writeSingleLargeBinaryDirect_none metadata several),
      if_neg Bool.false_ne_true, bind_ok coded]
    exact (bind_ok first).trans ((bind_ok packed).trans last)

theorem finish_roomy (unfinished : state.finished = false)
    (ready : state.Roomy (endOfStream.length + more)) :
    ∃ next, finish state = (.ok (), next) ∧ next.Roomy more := by
  rw [endOfStream, length_append, Nat.add_assoc] at ready
  obtain ⟨middle, first, still⟩ := writeAll_roomy ready
  obtain ⟨last, second, done⟩ := writeAll_roomy still
  refine ⟨{ last with finished := true }, ?_, done⟩
  change (if state.finished then pure () else _ : Program (StreamWriter A) Failure Unit) state = _
  rw [if_neg (by simp [unfinished]), bind_ok first, bind_ok second]
  rfl

/-- Finishing is idempotent, so dropping a finished writer writes nothing more. -/
theorem finish_finished (finished : state.finished = true) : finish state = (.ok (), state) := by
  change (if state.finished then pure () else _ : Program (StreamWriter A) Failure Unit) state = _
  rw [if_pos finished, pure_apply]

/-! ## Invariants of the transport

A writer touches its transport only by writing to it, so what every write keeps,
every operation of the writer keeps, whether it succeeds or fails. -/

section

variable {invariant : Sink Failure → Prop} (keeps : ∀ sink buffer, invariant sink →
    invariant (sink.writeAll writeZero (maxWriteChunk - 1) buffer).2)

include keeps

theorem writeAll_preserves (buffer : Bytes) :
    Program.Preserves (fun state : StreamWriter A => invariant state.writer) (writeAll buffer) :=
  fun state holds => keeps state.writer buffer holds

theorem writeBuffers_preserves (buffers : List Bytes) :
    Program.Preserves (fun state : StreamWriter A => invariant state.writer)
      (writeBuffers buffers) := by
  induction buffers with
  | nil => exact preserves_pure ()
  | cons buffer rest ih => exact (writeAll_preserves keeps buffer).bind fun _ => ih

theorem writeMessage_preserves (encoded : EncodedData) :
    Program.Preserves (fun state : StreamWriter A => invariant state.writer)
      (writeMessage encoded) :=
  (preserves_lift _).bind fun bytes => writeAll_preserves keeps bytes

theorem writeMessages_preserves (messages : List EncodedData) :
    Program.Preserves (fun state : StreamWriter A => invariant state.writer)
      (writeMessages messages) := by
  induction messages with
  | nil => exact preserves_pure ()
  | cons encoded rest ih => exact (writeMessage_preserves keeps encoded).bind fun _ => ih

variable (batch : A.Batch) (metadata : Option Metadata)

theorem writeSingleLargeBinaryDirect_preserves :
    Program.Preserves (fun state : StreamWriter A => invariant state.writer)
      (writeSingleLargeBinaryDirect batch metadata) := by
  unfold writeSingleLargeBinaryDirect
  split
  · exact preserves_pure _
  · refine .ite (preserves_throw _) (.ite (preserves_throw _) (.ite (preserves_throw _) ?_))
    refine (preserves_lift _).bind fun bytes => ?_
    refine (writeMessage_preserves keeps _).bind fun _ => ?_
    exact (writeBuffers_preserves keeps _).bind fun _ => preserves_pure _

theorem write_preserves : Program.Preserves (fun state : StreamWriter A => invariant state.writer)
      (write batch metadata) := by
  refine preserves_get.bind fun state => .ite (preserves_throw _) ?_
  refine (writeSingleLargeBinaryDirect_preserves keeps batch metadata).bind fun direct =>
    .ite (preserves_pure _) ?_
  refine Program.Preserves.bind (fun _ holds => holds) fun coded => ?_
  refine (writeMessages_preserves keeps _).bind fun _ => ?_
  exact (preserves_lift _).bind fun message => writeMessage_preserves keeps _

theorem finish_preserves :
    Program.Preserves (fun state : StreamWriter A => invariant state.writer) finish := by
  refine preserves_get.bind fun state => .ite (preserves_pure _) ?_
  refine (writeAll_preserves keeps _).bind fun _ => ?_
  exact (writeAll_preserves keeps _).bind fun _ _ holds => holds

end

end StreamWriter

theorem Sends.unique {A : ArrowIpc} {batch : A.Batch} {metadata : Option Metadata} {tracker first
    second : A.Tracker} {one two : List EncodedData} (left : Sends A batch metadata tracker one
    first) (right : Sends A batch metadata tracker two second) : one = two ∧ first = second := by
  cases left with
  | direct single small built =>
    cases right with
    | direct single' small' built' =>
      cases single.symm.trans single'
      cases built.symm.trans built'
      exact ⟨rfl, rfl⟩
    | encoded several encodes attached aligned =>
      rw [single] at several
      cases several
  | encoded several encodes attached aligned =>
    cases right with
    | direct single small built =>
      rw [single] at several
      cases several
    | encoded several' encodes' attached' aligned' =>
      cases encodes.symm.trans encodes'
      cases attached.symm.trans attached'
      exact ⟨rfl, rfl⟩

end VgiRpc.Wire
