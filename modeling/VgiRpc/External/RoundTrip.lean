import VgiRpc.External.Agreement
import VgiRpc.Library.Framed

/-!
# Externalized and inline

A batch that is sent through an external location arrives as if it had been sent in the stream.
Both ways send the same dictionaries and the same columns, and only the metadata of the message
differs, so a reader makes the same batch of them.  A payload with other bytes behind a digest is
refused.
-/

namespace VgiRpc.External

open Arrow List Library.OrderedMap Metadata Wire
open Client (Item PipeClient)
open Library (OrderedMap)
open Library.ByteStream
open StreamReader (readNext_atOnce readAll_step)

/-- What the library promises of a batch of whatever schema: it is encoded in messages, a message
that has room for some metadata has room for less, and a batch has as many rows as its message
announces. -/
structure EncodesAll (A : ArrowIpc) : Prop where
  messages : ∀ batch tracker dictionaries data tracker',
    A.encode batch tracker = (.ok (dictionaries, data), tracker') →
      (∀ encoded ∈ dictionaries, ∃ table, A.EncodesDictionary encoded table) ∧
        ∃ table, A.EncodesBatch data table ∧ table.length = A.numRows batch
  trims : ∀ (message : Message A.SchemaTable) entries kept bytes,
    message.customMetadata = some entries → kept.Sublist entries →
    A.finishMessage message = some bytes → ∃ fewer, A.finishMessage
        { message with customMetadata := if kept.isEmpty then none else some kept } = some fewer
  rows : ∀ table bodyLength metadata bytes body schema known batch,
    A.finishMessage ⟨.v5, .recordBatch (some table), bodyLength, metadata⟩ = some bytes →
    A.readRecordBatch body table schema known .v5 = .ok batch → A.numRows batch = table.length

section

variable {A : ArrowIpc} {batch : A.Batch} {declared : Schema} {metadata : Option Metadata}

theorem writeOneBatchAs_ok {bytes : Bytes}
    (run : writeOneBatchAs batch declared metadata = .ok bytes) :
    ∃ opening tracker messages tracker',
      A.schemaToBytes declared A.newTracker = some (opening, tracker) ∧
      Sends A batch metadata tracker messages tracker' ∧ bytes = streamBytes opening messages := by
  unfold writeOneBatchAs at run
  split at run
  · cases run
  rename_i writer rest created
  obtain ⟨fresh, opening, opened, start⟩ := new_ok created
  split at run
  · cases run
  rename_i final body
  obtain ⟨_, middle, wrote, ends⟩ := Library.Program.bind_eq_ok body
  obtain ⟨-, messages, sends, written, -, unfinished⟩ := StreamWriter.write_ok wrote
  obtain ⟨marked, finished⟩ := StreamWriter.finish_ok unfinished ends
  refine ⟨opening, _, messages, _, opened, sends, ?_⟩
  cases run
  rw [StreamWriter.drop, StreamWriter.finish_finished finished, marked, written, start]
  simp [streamBytes]

theorem writeOneBatchAs_of_sends (lawful : A.Lawful) {opening : EncodedData} {tracker tracker' :
    A.Tracker} {messages : List EncodedData} (opened : A.schemaToBytes declared A.newTracker = some
    (opening, tracker)) (sends : Sends A batch metadata tracker messages tracker') :
    writeOneBatchAs batch declared metadata = .ok (streamBytes opening messages) := by
  have reliable : (⟨[], none, []⟩ : Sink Failure).Reliable := by
    rintro error ⟨⟩
  have room : (⟨[], none, []⟩ : Sink Failure).HasRoom
      ((encapsulate opening.ipcMessage opening.arrowData).length +
        ((frames messages).length + (endOfStream.length + 0))) := by
    rintro space ⟨⟩
  obtain ⟨writer, rest, created, ready⟩ := new_roomy lawful reliable room opened
  obtain ⟨fresh, opening', opened', -⟩ := new_ok created
  cases opened.symm.trans opened'
  obtain ⟨middle, wrote, still⟩ := StreamWriter.write_roomy fresh sends ready
  obtain ⟨-, -, -, -, -, unfinished⟩ := StreamWriter.write_ok wrote
  obtain ⟨final, ends, -⟩ := StreamWriter.finish_roomy unfinished still
  have body : (do StreamWriter.write batch metadata; StreamWriter.finish :
      Library.Program (StreamWriter A) Failure Unit) writer = (.ok (), final) :=
    (Library.Program.bind_ok wrote).trans ends
  have run : writeOneBatchAs batch declared metadata = .ok final.drop.written := by
    simp only [writeOneBatchAs, created, body]
  obtain ⟨opening', tracker'', messages', _, opened'', sends', same⟩ := writeOneBatchAs_ok run
  cases opened.symm.trans opened''
  obtain ⟨rfl, -⟩ := sends.unique sends'
  rw [run, same]

/-- The first batch of a stream, for a reader that may relax nullability. -/
def readFirst (A : ArrowIpc) (relax : Bool) (bytes : Bytes) :
    Except RpcError (Option (Item A.Batch)) :=
  match StreamReader.new A (.ofBytes bytes) with
  | (.error error, _) => .error error
  | (.ok reader, _) => (if relax then reader.relaxNullability else reader).readNext.1

end

section

variable {A : ArrowIpc}

theorem withoutLocation_sublist (metadata : Metadata) :
    (withoutLocation metadata).entries.Sublist metadata.entries := by
  unfold withoutLocation
  induction PipeClient.locationKeys generalizing metadata with
  | nil => exact List.Sublist.refl _
  | cons key rest ih =>
    rw [foldl_cons]
    exact (ih _).trans filter_sublist

variable (metadata : Option Metadata)

def carried : Option Metadata :=
  let md := withoutLocation (metadata.getD .empty)
  if md.isEmpty then none else some md

theorem carried_getD : (carried metadata).getD .empty = withoutLocation (metadata.getD .empty) := by
  unfold carried
  dsimp only
  split
  · next empty => exact (OrderedMap.ext (isEmpty_iff.mp empty)).symm
  · rfl

/-- The entries of a message, which has none where there is no entry. -/
def entriesOf (metadata : Metadata) : List (Option String × Option String) :=
  metadata.entries.map fun entry => (some entry.1, some entry.2)

theorem customMetadata_eq : customMetadata metadata =
      if (entriesOf (metadata.getD .empty)).isEmpty then none
      else some (entriesOf (metadata.getD .empty)) := by
  cases metadata with
  | none => rfl
  | some entries =>
    unfold customMetadata entriesOf
    rw [Option.filter_some, isEmpty_map]
    cases empty : entries.isEmpty with
    | true =>
      have none : entries.entries.isEmpty = true := empty
      simp [none]
    | false =>
      have some : entries.entries.isEmpty = false := empty
      simp [some]

variable {metadata : Option Metadata} {bytes : Bytes}

theorem finishMessage_carried (encodes : EncodesAll A) (message : Message A.SchemaTable) (built :
    A.finishMessage { message with customMetadata := customMetadata metadata } = some bytes) :
    ∃ fewer, A.finishMessage { message with customMetadata := customMetadata (carried metadata) } =
      some fewer := by
  have sublist : (entriesOf (withoutLocation (metadata.getD .empty))).Sublist
      (entriesOf (metadata.getD .empty)) := (withoutLocation_sublist _).map _
  rw [customMetadata_eq, carried_getD]
  rw [customMetadata_eq] at built
  by_cases empty : (entriesOf (metadata.getD .empty)).isEmpty = true
  · rw [List.isEmpty_iff] at empty
    rw [empty, sublist_nil] at sublist
    rw [empty] at built
    rw [sublist]
    exact ⟨bytes, built⟩
  · rw [if_neg empty] at built
    exact encodes.trims { message with customMetadata := some (entriesOf (metadata.getD .empty)) }
      _ _ bytes rfl sublist built

/-- A batch that can be written with its metadata can be written without the location in it. -/
theorem sends_carried (lawful : A.Lawful) (encodes : EncodesAll A) {batch : A.Batch}
    {tracker tracker' : A.Tracker} {messages : List EncodedData}
    (sends : Sends A batch metadata tracker messages tracker') :
    ∃ fewer, Sends A batch (carried metadata) tracker fewer tracker' := by
  cases sends with
  | @direct value bytes single small built =>
    obtain ⟨fewer, finished⟩ := finishMessage_carried encodes
      (largeBinaryMessage A value.length none) built
    exact ⟨_, .direct single small finished⟩
  | @encoded _ dictionaries data message several coded attached aligned =>
    obtain ⟨-, table, wellFormed, -⟩ := encodes.messages _ _ _ _ _ coded
    obtain ⟨fewer, finished⟩ := finishMessage_carried encodes
      ⟨.v5, .recordBatch (some table), data.arrowData.length, none⟩
      ((attachMetadata_eq_ok_iff lawful wellFormed).mp attached)
    exact ⟨_, .encoded several coded
      ((attachMetadata_eq_ok_iff lawful wellFormed).mpr finished) aligned⟩

end

section

variable {A : ArrowIpc}

/-- A reader inside a stream, which may decode its batches under another schema. -/
def readerOver (schema : Schema) (relaxed : Option Schema) (known : A.Dictionaries)
    (bytes : Bytes) : StreamReader A :=
  ⟨.ofBytes bytes, schema, known, false, false, relaxed⟩

/-- A batch and the dictionaries in front of it, decoded one after another. -/
def decodeParts (A : ArrowIpc) (schema batchSchema : Schema) (body : Bytes)
    (table : RecordBatchTable) :
    A.Dictionaries → List (Bytes × DictionaryTable) → Except RpcError (A.Batch × A.Dictionaries)
  | known, [] =>
    (decodeGuard "record batch" (A.readRecordBatch body table batchSchema known .v5)).map
      fun batch => (batch, known)
  | known, (data, values) :: rest =>
    match decodeGuard "dictionary batch" (A.readDictionary data values schema known .v5) with
    | .error error => .error error
    | .ok next => decodeParts A schema batchSchema body table next rest

/-- The messages of dictionaries, as their bodies and tables. -/
inductive EncodesParts (A : ArrowIpc) : List EncodedData → List (Bytes × DictionaryTable) → Prop
  | nil : EncodesParts A [] []
  | cons {encoded : EncodedData} {table : DictionaryTable} {rest : List EncodedData}
      {parts : List (Bytes × DictionaryTable)} (message : A.EncodesDictionary encoded table)
      (later : EncodesParts A rest parts) :
      EncodesParts A (encoded :: rest) ((encoded.arrowData, table) :: parts)

variable {dictionaries : List EncodedData}

theorem EncodesParts.of_tables
    (tables : ∀ encoded ∈ dictionaries, ∃ table, A.EncodesDictionary encoded table) :
    ∃ parts, EncodesParts A dictionaries parts := by
  induction dictionaries with
  | nil => exact ⟨[], .nil⟩
  | cons encoded rest ih =>
    obtain ⟨parts, later⟩ := ih (forall_mem_cons.mp tables).2
    obtain ⟨table, message⟩ := tables encoded (mem_cons_self ..)
    exact ⟨_, .cons message later⟩

variable (schema : Schema) (relaxed : Option Schema)

theorem readNext_message {encoded : EncodedData} (framable : Framable A encoded)
    (fits : encoded.arrowData.length ≤ maxIpcMessageBytes) (known : A.Dictionaries) (tail : Bytes) :
    (readerOver schema relaxed known (encapsulate encoded.ipcMessage encoded.arrowData ++ tail) :
      StreamReader A).readNext =
      match decodeMessage A schema (relaxed.getD schema) known (rawMessage encoded) with
      | .error error => (.error error, readerOver schema relaxed known tail)
      | .ok (.batch batch metadata) =>
        (.ok (some (batch, metadata)), readerOver schema relaxed known tail)
      | .ok (.dictionaries next) => (readerOver schema relaxed next tail : StreamReader A).readNext
      | .ok .skip => (readerOver schema relaxed known tail : StreamReader A).readNext := by
  have whole := framable.framed maxIpcMessageBytes framable.header fits
  have step : readMessageBytes A maxIpcMessageBytes
      (readerOver schema relaxed known (encapsulate encoded.ipcMessage encoded.arrowData ++ tail) :
        StreamReader A).reader = _ := readMessageBytes_item whole tail
  exact StreamReader.readNext_step rfl step

variable {parts : List (Bytes × DictionaryTable)} {table : RecordBatchTable}
  {metadata : Option Metadata}

/-- What is read from a batch behind its dictionaries is what the parts decode to, whatever the
metadata is. -/
theorem readNext_parts (lawful : A.Lawful) (encoded : EncodesParts A dictionaries parts) {bytes body
    : Bytes} (built : A.finishMessage ⟨.v5, .recordBatch (some table), body.length, customMetadata
    metadata⟩ = some bytes) (inside : table.Inside body.length) (fits : ∀ message ∈ dictionaries ++
    [⟨bytes, body⟩], message.arrowData.length ≤ maxIpcMessageBytes) (known : A.Dictionaries) (tail :
    Bytes) :
    ∃ next, (readerOver schema relaxed known (frames (dictionaries ++ [⟨bytes, body⟩]) ++ tail) :
        StreamReader A).readNext =
          ((decodeParts A schema (relaxed.getD schema) body table known parts).map fun read =>
            some (read.1, metadata.getD .empty), next) ∧
      ∀ read, decodeParts A schema (relaxed.getD schema) body table known parts = .ok read →
        next = readerOver schema relaxed read.2 tail := by
  induction encoded generalizing known with
  | nil =>
    have framable : Framable A ⟨bytes, body⟩ := framable_of_finish lawful built rfl
    have reads := readNext_message schema relaxed framable
      (fits _ (mem_singleton_self _)) known tail
    rw [decodeMessage_batch lawful built inside] at reads
    simp only [nil_append, frames_cons, frames_nil, append_nil, decodeParts]
    rw [reads]
    cases decodeGuard "record batch"
        (A.readRecordBatch body table (relaxed.getD schema) known .v5) with
    | error error => exact ⟨_, rfl, by rintro read ⟨⟩⟩
    | ok batch =>
      refine ⟨_, rfl, ?_⟩
      rintro read ⟨⟩
      rfl
  | @cons encoded values rest parts message later ih =>
    have framable : Framable A encoded := framable_of_finish lawful message.message rfl
    have reads := readNext_message schema relaxed framable
      (fits _ (mem_cons_self ..)) known (frames (rest ++ [⟨bytes, body⟩]) ++ tail)
    rw [decodeMessage_dictionary lawful message] at reads
    simp only [cons_append, frames_cons, append_assoc, decodeParts]
    rw [reads]
    cases decodeGuard "dictionary batch"
        (A.readDictionary encoded.arrowData values schema known .v5) with
    | error error => exact ⟨_, rfl, by rintro read ⟨⟩⟩
    | ok next => exact ih (forall_mem_cons.mp fits).2 next

variable {tracker : A.Tracker}

/-- The messages of a batch differ only in the metadata of the last. -/
theorem sends_parts (lawful : A.Lawful) (encodes : EncodesAll A) {batch : A.Batch}
    {tracker' : A.Tracker} {messages : List EncodedData}
    (sends : Sends A batch metadata tracker messages tracker') :
    ∃ dictionaries parts body, ∃ table : RecordBatchTable, EncodesParts A dictionaries parts ∧
      table.Inside body.length ∧ table.length = A.numRows batch ∧
      ∀ given sent next, Sends A batch given tracker sent next →
        ∃ bytes, sent = dictionaries ++ [⟨bytes, body⟩] ∧
          A.finishMessage ⟨.v5, .recordBatch (some table), body.length, customMetadata given⟩ =
            some bytes := by
  cases sends with
  | @direct value bytes single small built =>
    refine ⟨[], [], largeBinaryBody value, largeBinaryTable value.length, .nil,
      largeBinaryTable_inside value, ?_, ?_⟩
    · rw [(singleLargeBinary_some single).1]
      rfl
    · intro given sent next other
      cases other with
      | direct single' small' built' =>
        cases single.symm.trans single'
        rw [largeBinaryMessage, ← largeBinaryBody_length] at built'
        exact ⟨_, rfl, built'⟩
      | encoded several encoded attached aligned =>
        rw [single] at several
        cases several
  | @encoded _ dictionaries data message several encoded attached aligned =>
    obtain ⟨tables, table, coded, rows⟩ := encodes.messages _ _ _ _ _ encoded
    obtain ⟨parts, wellFormed⟩ := EncodesParts.of_tables tables
    refine ⟨dictionaries, parts, data.arrowData, table, wellFormed, coded.inside, rows, ?_⟩
    intro given sent next other
    cases other with
    | direct single' small' built' =>
      rw [several] at single'
      cases single'
    | encoded several' encoded' attached' aligned' =>
      cases encoded.symm.trans encoded'
      exact ⟨_, rfl, (attachMetadata_eq_ok_iff lawful coded).mp attached'⟩

variable {known : A.Dictionaries}

theorem decodeParts_rows (encodes : EncodesAll A) {bytes body : Bytes} {metadata : Option (List
    (Option String × Option String))} (built : A.finishMessage ⟨.v5, .recordBatch (some table),
    body.length, metadata⟩ = some bytes) {batchSchema : Schema} {read : A.Batch × A.Dictionaries}
    (decoded : decodeParts A schema batchSchema body table known parts = .ok read) :
    A.numRows read.1 = table.length := by
  induction parts generalizing known with
  | nil =>
    rw [decodeParts] at decoded
    cases result : A.readRecordBatch body table batchSchema known .v5 with
    | ok batch =>
      rw [result] at decoded
      cases decoded
      exact encodes.rows _ _ _ _ _ _ _ _ built result
    | error failure =>
      rw [result] at decoded
      cases failure <;> cases decoded
  | cons part rest ih =>
    rw [decodeParts] at decoded
    split at decoded
    · cases decoded
    · exact ih decoded

/-- The schema that batches are decoded under, where it is another than the stream's. -/
def relaxedBy (relax : Bool) (schema : Schema) : Option Schema :=
  if relax then some (relaxSchemaNullability schema) else none

/-- A reader that was opened on a stream, and may have been told to relax nullability. -/
theorem new_streamBytes (lawful : A.Lawful) (relax : Bool) {opening : EncodedData}
    (opened : A.schemaToBytes schema A.newTracker = some (opening, tracker))
    (fits : headerSize opening ≤ maxIpcSchemaBytes) (messages : List EncodedData) :
    ∃ reader rest, StreamReader.new A (.ofBytes (streamBytes opening messages)) =
        (.ok reader, rest) ∧ (if relax then reader.relaxNullability else reader).reader.Reliable ∧
      (if relax then reader.relaxNullability else reader).atOnce =
        readerOver schema (relaxedBy relax schema) A.noDictionaries
          (frames messages ++ (endOfStream ++ [])) := by
  obtain ⟨empty, framable, decoded⟩ := opening_decodes lawful opened
  have bytes : (Source.ofBytes (streamBytes opening messages) : Source RpcError).bytes =
      encapsulate opening.ipcMessage opening.arrowData ++
        (frames messages ++ (endOfStream ++ [])) := by
    simp [streamBytes, Source.ofBytes]
  obtain ⟨reader, rest, created, same, reliable, positioned⟩ :=
    new_reads empty framable decoded fits (ofBytes_reliable _) bytes
  refine ⟨reader, rest, created, ?_⟩
  cases relax with
  | false => exact ⟨reliable, positioned⟩
  | true =>
    refine ⟨reliable, ?_⟩
    change reader.atOnce.relaxNullability = _
    rw [positioned]
    rfl

variable {state : StreamReader A}

/-- A reader with one batch and the end of its stream in front of it. -/
theorem readAll_single (reliable : state.reader.Reliable) {item : Item A.Batch}
    (first : state.atOnce.readNext =
      (.ok (some item), readerOver schema relaxed known (endOfStream ++ []))) :
    state.readAll.1 = [item] ∧ ∃ marked, state.readAll.2.1 = .ok marked := by
  obtain ⟨once, stays⟩ := readNext_atOnce reliable
  rw [first, Prod.mk.injEq] at once
  obtain ⟨second, -⟩ := readNext_atOnce stays
  rw [← once.2, readNext_endOfStream rfl rfl, Prod.mk.injEq] at second
  rw [readAll_step (Prod.ext once.1.symm rfl), readAll_step (Prod.ext second.1.symm rfl)]
  exact ⟨rfl, _, rfl⟩

end

section

variable {A : ArrowIpc} {batch : A.Batch} {declared : Schema} {metadata : Option Metadata}

/-- The messages of the batch in its own stream are within the caps of a reader. -/
def WithinLimits (batch : A.Batch) (declared : Schema) (metadata : Option Metadata) : Prop :=
  ∀ opening tracker messages tracker',
    A.schemaToBytes declared A.newTracker = some (opening, tracker) →
    Sends A batch metadata tracker messages tracker' → headerSize opening ≤ maxIpcSchemaBytes ∧
        ∀ encoded ∈ messages, encoded.arrowData.length ≤ maxIpcMessageBytes

variable {inlineBytes : Bytes}

/-- The payload holds the batch that the inline stream delivers, and its metadata without a
location. -/
theorem payload_delivers (lawful : A.Lawful) (encodes : EncodesAll A) (inlined : writeOneBatchAs
    batch declared metadata = .ok inlineBytes) (limits : WithinLimits batch declared metadata) :
    ∃ payload, writeOneBatchAs batch declared (carried metadata) = .ok payload ∧
      ∀ relax delivered, readFirst A relax inlineBytes = .ok (some delivered) →
        delivered.2 = metadata.getD .empty ∧ A.numRows delivered.1 = A.numRows batch ∧
        readPayload A relax payload =
          .ok ⟨[(delivered.1, withoutLocation (metadata.getD .empty))], none⟩ := by
  obtain ⟨opening, tracker, messages, tracker', opened, sends, rfl⟩ := writeOneBatchAs_ok inlined
  obtain ⟨fits, bodies⟩ := limits _ _ _ _ opened sends
  obtain ⟨fewer, trimmed⟩ := sends_carried lawful encodes sends
  refine ⟨_, writeOneBatchAs_of_sends lawful opened trimmed, ?_⟩
  intro relax delivered read
  obtain ⟨dictionaries, parts, body, table, wellFormed, inside, rows, sent⟩ :=
    sends_parts lawful encodes sends
  obtain ⟨bytes, rfl, built⟩ := sent _ _ _ sends
  obtain ⟨bytes', rfl, built'⟩ := sent _ _ _ trimmed
  have bodies' : ∀ message ∈ dictionaries ++ [⟨bytes', body⟩],
      message.arrowData.length ≤ maxIpcMessageBytes := by
    simpa only [forall_mem_append, forall_mem_singleton] using bodies
  -- The inline stream.
  obtain ⟨reader, rest, created, reliable, positioned⟩ :=
    new_streamBytes declared lawful relax opened fits (dictionaries ++ [⟨bytes, body⟩])
  obtain ⟨next, step, -⟩ := readNext_parts declared (relaxedBy relax declared) lawful wellFormed
    built inside bodies A.noDictionaries (endOfStream ++ [])
  have once := (readNext_atOnce reliable).1
  rw [positioned, step, Prod.mk.injEq] at once
  simp only [readFirst, created] at read
  rw [← once.1] at read
  cases decoded : decodeParts A declared ((relaxedBy relax declared).getD declared) body table
      A.noDictionaries parts with
  | error error =>
    rw [decoded] at read
    cases read
  | ok outcome =>
    rw [decoded] at read
    cases read
    have counted := (decodeParts_rows declared encodes built decoded).trans rows
    refine ⟨rfl, Int.ofNat_inj.mp counted, ?_⟩
    -- The stream of the payload.
    obtain ⟨reader', rest', created', reliable', positioned'⟩ :=
      new_streamBytes declared lawful relax opened fits (dictionaries ++ [⟨bytes', body⟩])
    obtain ⟨next', step', ended⟩ := readNext_parts declared (relaxedBy relax declared) lawful
      wellFormed built' inside bodies' A.noDictionaries (endOfStream ++ [])
    rw [decoded] at step'
    rw [ended _ decoded, ← positioned', carried_getD] at step'
    obtain ⟨items, marked, ending⟩ := readAll_single declared _ reliable' step'
    simp only [readPayload, created', items, ending]

/-- A batch of the declared schema is read as it was written, at whatever place of a stream. -/
theorem sends_read (lawful : A.Lawful) (same : A.schemaOf batch = declared) {tracker tracker' :
    A.Tracker} {known : A.Dictionaries} {messages : List EncodedData} (inStep : A.InStep declared
    tracker known) (sends : Sends A batch metadata tracker messages tracker') (fits : ∀ encoded ∈
    messages, encoded.arrowData.length ≤ maxIpcMessageBytes) (tail : Bytes) :
    (openReader declared known (frames messages ++ tail) : StreamReader A).readNext.1 =
      .ok (some (batch, metadata.getD .empty)) := by
  obtain ⟨known', -, yields⟩ := sends.yields lawful inStep same
  rw [yields.readNext fits]

theorem readFirst_conforming (lawful : A.Lawful) (same : A.schemaOf batch = declared)
    (inlined : writeOneBatchAs batch declared metadata = .ok inlineBytes)
    (limits : WithinLimits batch declared metadata) :
    readFirst A false inlineBytes = .ok (some (batch, metadata.getD .empty)) := by
  obtain ⟨opening, tracker, messages, tracker', opened, sends, rfl⟩ := writeOneBatchAs_ok inlined
  obtain ⟨fits, bodies⟩ := limits _ _ _ _ opened sends
  obtain ⟨reader, rest, created, reliable, positioned⟩ :=
    new_streamBytes declared lawful false opened fits messages
  have once := (readNext_atOnce reliable).1
  rw [positioned] at once
  have read := sends_read lawful same (.start opened) sends bodies (endOfStream ++ [])
  simp only [readFirst, created]
  exact (congrArg Prod.fst once).symm.trans read

end

section

variable {tools : Toolkit} {config : ExternalLocationConfig}

/-- Zstandard decodes what it encoded, in chunks, when the window covers the output. -/
def Inverts (tools : Toolkit) : Prop :=
  ∀ level bytes, ∃ payload, tools.zstdEncode level bytes = .ok payload ∧
    ∀ maxSize, bytes.length ≤ maxSize → ∃ chunks,
      tools.zstdDecode (zstdWindowLogForLimit maxSize) payload = .ok (chunks, none) ∧
        chunks.flatten = bytes

variable {maxSize : Nat}

theorem takeChunks_flatten (chunks : List Bytes) (out : Bytes)
    (fits : out.length + chunks.flatten.length ≤ maxSize) :
    takeChunks maxSize none out chunks = .ok (out ++ chunks.flatten) := by
  induction chunks generalizing out with
  | nil => simp [takeChunks]
  | cons chunk rest ih =>
    rw [flatten_cons, length_append] at fits
    rw [takeChunks, if_neg (by omega), ih (out ++ chunk) (by rw [length_append]; omega),
      flatten_cons, append_assoc]

theorem decompress_compress (inverts : Inverts tools) (compression : Compression) {bytes : Bytes}
    (fits : bytes.length ≤ maxSize) :
    ∃ payload, compress tools bytes compression = .ok payload ∧
      decompress tools ⟨payload, compression⟩ maxSize = .ok bytes := by
  cases compression with
  | none => exact ⟨bytes, rfl, if_neg (by simp only; omega)⟩
  | zstd level =>
    obtain ⟨payload, encoded, decodes⟩ := inverts level bytes
    obtain ⟨chunks, decoded, rfl⟩ := decodes maxSize fits
    refine ⟨payload, by simp only [compress, encoded], ?_⟩
    simp only [decompress, decoded]
    rw [takeChunks_flatten chunks [] (by rw [length_nil, Nat.zero_add]; exact fits), nil_append]

/-- The store takes a payload, at a URL that the validator accepts, and gives it back. -/
structure Keeps (config : ExternalLocationConfig) (payload : Bytes) (url : String) : Prop where
  uploaded : config.upload payload config.compression = .ok url
  accepted : config.urlValidator url = .ok ()
  fetched : config.fetchWithPolicy url config.compression config.maxEncodedBytes
    config.urlValidator config.maxRedirects = .ok ⟨payload, config.compression⟩

def Stores (config : ExternalLocationConfig) : Prop :=
  ∀ payload, payload.length ≤ config.maxEncodedBytes → ∃ url, Keeps config payload url

theorem sha256Hex_ne {first second : Bytes} (differ : tools.sha256 first ≠ tools.sha256 second) :
    sha256Hex tools first ≠ sha256Hex tools second := by
  intro same
  have digits := congrArg String.toList same
  simp only [sha256Hex, String.toList_ofList] at digits
  refine differ (Library.Framed.flatMap_inj (by simp [Http.hexByte]) ?_ digits)
  intro one _ two _ restOne restTwo begins
  obtain ⟨heads, tails⟩ := append_inj begins rfl
  exact ⟨Http.hexByte_injective heads, tails⟩

end

section

variable {A : ArrowIpc} (tools : Toolkit) (config : ExternalLocationConfig)

/-- The conditions for a batch to be sent through the store: it has rows, is large enough or is
forced to, and respects the limits of whoever reads it. -/
structure Sendable (batch : A.Batch) (declared : Schema) (metadata : Option Metadata)
    (force : Bool) : Prop where
  rows : A.numRows batch ≠ 0
  limits : WithinLimits batch declared metadata
  large : force = false → ∀ bytes, writeOneBatchAs batch declared (carried metadata) = .ok bytes →
    config.thresholdBytes ≤ bytes.length
  decoded : ∀ bytes, writeOneBatchAs batch declared (carried metadata) = .ok bytes →
    bytes.length ≤ config.maxDecompressedBytes
  encoded : ∀ bytes payload, writeOneBatchAs batch declared (carried metadata) = .ok bytes →
    compress tools bytes config.compression = .ok payload → payload.length ≤ config.maxEncodedBytes

/-- The metadata of an inline batch, with the provenance in place of what it says of locations. -/
def Restored (url fetchMs : String) (inlined resolved : Metadata) : Prop :=
  ∀ key, resolved.get? key = if key = locationSourceKey then some url
    else if key = locationFetchMsKey then some fetchMs
    else if key ∈ PipeClient.locationKeys then none
    else inlined.get? key

/-- Both resolvers give the batch that a reader of the inline stream gets. -/
structure Arrives (inlineBytes : Bytes) (ptr : A.Batch) (pointer : Metadata) (url : String) :
    Prop where
  server : ∀ fetchMs delivered, readFirst A false inlineBytes = .ok (some delivered) →
    ∃ resolved, resolveExternalLocation tools config fetchMs ptr pointer =
        .ok (delivered.1, resolved) ∧ Restored url fetchMs delivered.2 resolved
  client : ∀ (client : PipeClient A) relax fetchMs delivered,
    readFirst A relax inlineBytes = .ok (some delivered) →
      ∃ resolved, resolvePointer tools config client relax fetchMs pointer =
        ([], .ok (delivered.1, resolved)) ∧ Restored url fetchMs delivered.2 resolved

/-- No resolver takes bytes that the digest of the original does not vouch for, whatever store it
asks. -/
def Guards (original : Bytes) (ptr : A.Batch) (pointer : Metadata) (url : String) : Prop :=
  ∀ (later : ExternalLocationConfig) (client : PipeClient A) relax fetchMs,
    (∀ bytes, fetchDecoded tools later url = .ok bytes →
      bytes ≠ original ∧ (tools.sha256 bytes = tools.sha256 original → bytes = original)) →
    (∃ error, resolveExternalLocation tools later fetchMs ptr pointer = .error error) ∧
      ∃ error, (resolvePointer tools later client relax fetchMs pointer).2 = .error error

variable {tools config}

/-- The metadata of a pointer batch. -/
abbrev pointerTo (metadata : Metadata) (url sha : String) : Metadata :=
  (metadata.insert locationKey url).insert locationSha256Key sha

theorem restored_of_pointer (metadata : Metadata) (url sha fetchMs : String) :
    Restored url fetchMs metadata (PipeClient.resolvedMetadata
      (pointerTo (withoutLocation metadata) url sha) (withoutLocation metadata) url fetchMs) := by
  intro key
  rw [get?_resolvedMetadata]
  by_cases location : key ∈ PipeClient.locationKeys
  · simp [location]
  · have apart : key ≠ locationKey ∧ key ≠ locationSha256Key := by
      constructor
      · rintro rfl
        exact location (by decide)
      · rintro rfl
        exact location (by decide)
    have kept : (withoutLocation metadata).get? key = metadata.get? key := by
      rw [withoutLocation, get?_foldl_remove, if_neg location]
    rw [get?_insert, get?_insert, if_neg apart.2, if_neg apart.1, kept, Option.or_self]

variable {original : Bytes} {pointer : Metadata}

theorem guards_of_digest {ptr : A.Batch} {url : String} (located : mdGet pointer locationKey = some
    url) (digest : mdGet pointer locationSha256Key = some (sha256Hex tools original)) :
    Guards tools original ptr pointer url := by
  intro later client relax fetchMs changed
  have refused : ∃ error, fetchChecked tools later pointer url = .error error := by
    unfold fetchChecked
    cases decoded : fetchDecoded tools later url with
    | error error => exact ⟨error, rfl⟩
    | ok bytes =>
      obtain ⟨different, collisionFree⟩ := changed bytes decoded
      have mismatch : sha256Hex tools original ≠ sha256Hex tools bytes :=
        (sha256Hex_ne fun same => different (collisionFree same)).symm
      simp only [checkDigest, digest, if_neg mismatch]
      exact ⟨_, rfl⟩
  obtain ⟨error, failed⟩ := refused
  refine ⟨⟨error, ?_⟩, error, ?_⟩
  · simp only [resolveExternalLocation, located, failed]
  · simp only [resolvePointer, PipeClient.resolvePointer, located, fetchBody, fetchExternalIpcBytes,
      failed]
    rfl

theorem mdGet_pointer (metadata : Metadata) (url sha : String) :
    mdGet (pointerTo metadata url sha) locationKey = some url := by
  rw [mdGet, get?_insert, if_neg (by decide), get?_insert_self]

theorem arrives_of_payload {inlineBytes : Bytes} {batch ptr : A.Batch} {metadata : Metadata} {url
    sha : String} (rows : A.numRows batch ≠ 0) (pointed : pointer = pointerTo (withoutLocation
    metadata) url sha) (checked : fetchChecked tools config pointer url = .ok original) (delivers :
    ∀ relax delivered, readFirst A relax inlineBytes = .ok (some delivered) → delivered.2 = metadata
    ∧ A.numRows delivered.1 = A.numRows batch ∧ readPayload A relax original = .ok ⟨[(delivered.1,
    withoutLocation metadata)], none⟩) :
    Arrives tools config inlineBytes ptr pointer url := by
  have located : mdGet pointer locationKey = some url := by
    rw [pointed, mdGet_pointer]
  have restored : ∀ fetchMs, Restored url fetchMs metadata
      (PipeClient.resolvedMetadata pointer (withoutLocation metadata) url fetchMs) := by
    intro fetchMs
    rw [pointed]
    exact restored_of_pointer metadata url sha fetchMs
  constructor
  · intro fetchMs delivered read
    obtain ⟨same, -, payload⟩ := delivers false delivered read
    rw [same]
    refine ⟨_, ?_, restored fetchMs⟩
    simp only [resolveExternalLocation, located, checked, (deserialize_of_body payload).2 _ _ rfl]
  · intro client relax fetchMs delivered read
    obtain ⟨same, counted, payload⟩ := delivers relax delivered read
    rw [same]
    refine ⟨_, ?_, restored fetchMs⟩
    have unlocated : mdGet (withoutLocation metadata) locationKey = none := by
      rw [mdGet, withoutLocation, get?_foldl_remove, if_pos (by decide)]
    have data : client.kind (delivered.1, withoutLocation metadata) = .data := by
      simp [PipeClient.kind, classify, unlocated, counted, rows]
    have fetched : fetchBody tools config A relax fetchMs pointer =
        .ok (some (⟨[(delivered.1, withoutLocation metadata)], none⟩, fetchMs)) := by
      simp only [fetchBody, fetchExternalIpcBytes, located, checked, Except.map, payload]
    have unpacked : client.unpack none [(delivered.1, withoutLocation metadata)] =
        ([], .ok (some (delivered.1, withoutLocation metadata))) := by
      rw [unpack_leading data]
      rfl
    simp only [resolvePointer, PipeClient.resolvePointer, located, fetched, unpacked,
      PipeClient.unpacked]

/-- Everything that can be sent inline arrives through the store as it would arrive inline, and
no other bytes than the ones stored pass for it. -/
theorem externalized_as_inline (lawful : A.Lawful) (encodes : EncodesAll A) (inverts : Inverts
    tools) (stores : Stores config) {emptyBatch : Schema → Except Failure A.Batch} (pointers : ∀
    schema, ∃ ptr, emptyBatch schema = .ok ptr) {batch : A.Batch} {declared : Schema} {metadata :
    Option Metadata} {force : Bool} {inlineBytes : Bytes} (inlined : writeOneBatchAs batch declared
    metadata = .ok inlineBytes) (sendable : Sendable tools config batch declared metadata force) :
    ∃ original prepared ptr pointer url,
      writeOneBatchAs batch declared (carried metadata) = .ok original ∧
      prepareExternalizeBatchInner tools config emptyBatch batch declared metadata force =
        .ok (some prepared) ∧
      uploadPrepared tools config prepared = .ok (ptr, pointer) ∧
      mdGet pointer locationKey = some url ∧
      Arrives tools config inlineBytes ptr pointer url ∧
      (A.schemaOf batch = declared →
        readFirst A false inlineBytes = .ok (some (batch, metadata.getD .empty)) ∧
        ∀ tracker known messages tracker' tail, A.InStep declared tracker known →
          Sends A batch metadata tracker messages tracker' →
          (∀ encoded ∈ messages, encoded.arrowData.length ≤ maxIpcMessageBytes) →
          (openReader declared known (frames messages ++ tail) : StreamReader A).readNext.1 =
            .ok (some (batch, metadata.getD .empty))) ∧
      Guards tools original ptr pointer url := by
  obtain ⟨original, written, delivers⟩ := payload_delivers lawful encodes inlined sendable.limits
  obtain ⟨payload, compressed, decompressed⟩ :=
    decompress_compress inverts config.compression (sendable.decoded original written)
  obtain ⟨url, kept⟩ := stores payload (sendable.encoded original payload written compressed)
  obtain ⟨ptr, pointed⟩ := pointers declared
  have large : (!force && decide (original.length < config.thresholdBytes)) = false := by
    cases force with
    | true => rfl
    | false =>
      have threshold := sendable.large rfl original written
      simpa using threshold
  have prepared : prepareExternalizeBatchInner tools config emptyBatch batch declared metadata force =
      .ok (some ⟨⟨original.length, sha256Hex tools original, payload⟩, ptr,
        withoutLocation (metadata.getD .empty)⟩) := by
    unfold carried at written
    simp [prepareExternalizeBatchInner, if_neg sendable.rows, written, large, encodePayload,
      compressed, pointed]
  have uploaded : uploadPrepared tools config ⟨⟨original.length, sha256Hex tools original, payload⟩,
      ptr, withoutLocation (metadata.getD .empty)⟩ =
        .ok (ptr, pointerTo (withoutLocation (metadata.getD .empty)) url
          (sha256Hex tools original)) := by
    simp only [uploadPrepared, kept.uploaded, validateExternalUrl, kept.accepted]
  have located := mdGet_pointer (withoutLocation (metadata.getD .empty)) url
    (sha256Hex tools original)
  have digest : mdGet (pointerTo (withoutLocation (metadata.getD .empty)) url
      (sha256Hex tools original)) locationSha256Key = some (sha256Hex tools original) := by
    rw [mdGet, get?_insert_self]
  have checked : fetchChecked tools config (pointerTo (withoutLocation (metadata.getD .empty)) url
      (sha256Hex tools original)) url = .ok original := by
    simp [fetchChecked, fetchDecoded, kept.fetched, decompressed, checkDigest, digest]
  refine ⟨original, _, ptr, _, url, written, prepared, uploaded, located,
    arrives_of_payload sendable.rows rfl checked delivers, ?_, guards_of_digest located digest⟩
  intro same
  refine ⟨readFirst_conforming lawful same inlined sendable.limits, ?_⟩
  intro tracker known messages tracker' tail inStep sends fits
  exact sends_read lawful same inStep sends fits tail

end

namespace Sample

open Arrow.Sample (library rowTable nestedTable valuesTable finishMessage_some codes library_lawful)

theorem library_encodes : EncodesAll library where
  messages batch tracker dictionaries data tracker' encoded := by
    cases batch with
    | row =>
      cases encoded
      refine ⟨by rintro _ ⟨⟩, rowTable, ⟨rfl, rfl, ?_, rfl, rfl, rfl⟩, rfl⟩
      rintro buffers ⟨⟩ span ⟨⟩
    | blob value => cases encoded
    | nested =>
      cases encoded
      refine ⟨?_, nestedTable, ⟨rfl, rfl, ?_, rfl, rfl, rfl⟩, rfl⟩
      · intro encoded member
        cases mem_singleton.mp member
        refine ⟨valuesTable, rfl, rfl, ?_⟩
        rintro data ⟨⟩ buffers ⟨⟩ span ⟨⟩
      · rintro buffers ⟨⟩ span ⟨⟩
  trims message entries kept bytes given sublist built := by
    rcases finishMessage_some built with ⟨code, member, rfl, -⟩ | ⟨_, _, rfl, -⟩
    · simp only [codes, mem_cons, not_mem_nil, or_false] at member
      rcases member with rfl | rfl | rfl | rfl | rfl | rfl | rfl | rfl
      all_goals cases given
      rcases sublist_singleton.mp sublist with rfl | rfl
      · exact ⟨[4], rfl⟩
      · exact ⟨[5], rfl⟩
    · cases given
  rows table bodyLength metadata bytes body schema known batch built read := by
    rcases finishMessage_some built with ⟨code, member, same, -⟩ | ⟨_, _, same, -⟩
    · simp only [codes, mem_cons, not_mem_nil, or_false] at member
      rcases member with rfl | rfl | rfl | rfl | rfl | rfl | rfl | rfl
      all_goals cases same
      all_goals rfl
    · cases same

def noted : Metadata := .ofEntries [("key", "value")]

def schema : Schema := Arrow.Sample.Kind.empty.schema

section

variable (metadata : Option Metadata) (code : UInt8)
  (attached : attachMetadata library ⟨[4], []⟩ metadata = .ok [code])

include attached

theorem row_sends : Sends library row metadata () [⟨[code], []⟩] () := by
  have aligned : Aligned ([] ++ [⟨[4], []⟩]) := aligned_of_empty (by simp)
  exact .encoded rfl rfl attached aligned

theorem row_written :
    writeOneBatchAs row schema metadata = .ok (streamBytes ⟨[1], []⟩ [⟨[code], []⟩]) :=
  writeOneBatchAs_of_sends library_lawful rfl (row_sends metadata code attached)

theorem row_limits : WithinLimits row schema metadata := by
  intro opening tracker messages tracker' opened sends
  cases opened
  obtain ⟨rfl, -⟩ := sends.unique (row_sends metadata code attached)
  refine ⟨by decide, ?_⟩
  intro encoded member
  cases mem_singleton.mp member
  exact Nat.zero_le _

end

/-- A codec that puts a byte behind its input, and does not look at it again. -/
def padded : Toolkit where
  sha256 bytes := bytes
  zstdEncode _ bytes := .ok (bytes ++ [0])
  zstdDecode _ payload := .ok ([payload.dropLast], none)
  redactUrl url := url

theorem padded_inverts : Inverts padded := by
  intro level bytes
  refine ⟨bytes ++ [0], rfl, ?_⟩
  intro maxSize fits
  exact ⟨[bytes], by simp [padded], by simp⟩

def store : ExternalLocationConfig where
  thresholdBytes := 0
  compression := .zstd 3
  upload payload _ := .ok (Http.Sample.primitives.base64Encode payload)
  fetchWithPolicy url _ _ _ _ :=
    match Http.Sample.primitives.base64Decode url with
    | some payload => .ok ⟨payload, .zstd 3⟩
    | none => .error (.runtimeError "no such object")
  urlValidator _ := .ok ()
  maxDecompressedBytes := 1024
  maxEncodedBytes := 1024
  maxRedirects := 0

theorem store_stores : Stores store := by
  intro payload fits
  refine ⟨_, rfl, rfl, ?_⟩
  simp only [store, Http.Sample.primitives_lawful.base64_decode]

def emptyBatch : Schema → Except Failure library.Batch := fun _ => .ok row

theorem row_sendable : Sendable padded store row schema (some noted) false where
  rows := by decide
  limits := row_limits (some noted) 5 rfl
  large := by
    intro _ bytes _
    exact Nat.zero_le _
  decoded := by
    intro bytes written
    cases (row_written (carried (some noted)) 5 rfl).symm.trans written
    decide +kernel
  encoded := by
    intro bytes payload written compressed
    cases (row_written (carried (some noted)) 5 rfl).symm.trans written
    cases compressed
    decide +kernel

def bare : Bytes := streamBytes ⟨[1], []⟩ [⟨[4], []⟩]

/-- The store after the last byte of every payload has been changed. -/
def recoded : ExternalLocationConfig :=
  { store with fetchWithPolicy := fun _ _ _ _ _ => .ok ⟨bare ++ [1], .zstd 3⟩ }

def bareUrl : String := Http.Sample.primitives.base64Encode (bare ++ [0])

def barePointer : Metadata :=
  ((withoutLocation .empty).insert locationKey bareUrl).insert locationSha256Key
    (sha256Hex padded bare)

theorem bare_prepared : prepareExternalizeBatchForced padded store emptyBatch row schema none =
      .ok (some ⟨⟨bare.length, sha256Hex padded bare, bare ++ [0]⟩, row, withoutLocation .empty⟩) := by
  have written : writeOneBatchAs row schema none = .ok bare := row_written none 4 rfl
  have plain : (withoutLocation .empty).isEmpty = true := rfl
  have rows : ¬ library.numRows row = 0 := by decide
  simp [prepareExternalizeBatchForced, prepareExternalizeBatchInner, if_neg rows, plain, written,
    encodePayload, compress, padded, store, emptyBatch]

theorem recoded_checked : fetchChecked padded recoded barePointer bareUrl = .ok bare := by
  have short : ¬ 1024 < bare.length := by decide +kernel
  have digest : mdGet barePointer locationSha256Key = some (sha256Hex padded bare) := by
    rw [barePointer, mdGet, get?_insert_self]
  have decoded : fetchDecoded padded recoded bareUrl = .ok bare := by
    simp [fetchDecoded, recoded, store, decompress, padded, takeChunks, short]
  simp [fetchChecked, decoded, checkDigest, digest]

end Sample

open Sample

theorem row_externalized_as_inline : ∃ original prepared ptr pointer url,
      writeOneBatchAs row schema (carried (some noted)) = .ok original ∧
      prepareExternalizeBatchInner padded store emptyBatch row
        schema (some noted) false = .ok (some prepared) ∧
      uploadPrepared padded store prepared = .ok (ptr, pointer) ∧
      mdGet pointer locationKey = some url ∧
      Arrives padded store (streamBytes ⟨[1], []⟩ [⟨[5], []⟩]) ptr pointer url ∧
      Guards padded original ptr pointer url := by
  obtain ⟨original, prepared, ptr, pointer, url, written, sent, uploaded, located, arrives, -,
    guards⟩ := externalized_as_inline library_lawful library_encodes
      padded_inverts store_stores (fun _ => ⟨row, rfl⟩)
      (row_written (some noted) 5 rfl) row_sendable
  exact ⟨original, prepared, ptr, pointer, url, written, sent, uploaded, located, arrives, guards⟩

/-- Another encoding of the bytes that the digest is of: nobody notices that the payload was
changed. -/
theorem recoded_payload_is_accepted : ∃ prepared ptr pointer resolved seen,
      prepareExternalizeBatchForced padded store emptyBatch row schema none = .ok (some prepared) ∧
      uploadPrepared padded store prepared = .ok (ptr, pointer) ∧
      (mdGet pointer locationSha256Key).isSome ∧
      (∀ url, recoded.fetchWithPolicy url recoded.compression
        recoded.maxEncodedBytes recoded.urlValidator recoded.maxRedirects ≠
          .ok ⟨prepared.encoded.payload, .zstd 3⟩) ∧
      resolveExternalLocation padded recoded "0.00" ptr pointer = .ok (row, resolved) ∧
      resolvePointer padded recoded client false "0.00" pointer = ([], .ok (row, seen)) := by
  have written : writeOneBatchAs row schema none = .ok bare :=
    row_written none 4 rfl
  have limits : WithinLimits row schema none := row_limits none 4 rfl
  obtain ⟨payload, again, delivers⟩ :=
    payload_delivers library_lawful library_encodes written limits
  cases again.symm.trans written
  have read := readFirst_conforming library_lawful rfl written limits
  have arrives : Arrives padded recoded bare row barePointer bareUrl :=
    arrives_of_payload (by decide) rfl recoded_checked delivers
  obtain ⟨resolved, served, -⟩ := arrives.server "0.00" _ read
  obtain ⟨seen, answered, -⟩ := arrives.client client false "0.00" _ read
  have uploaded : uploadPrepared padded store
      ⟨⟨bare.length, sha256Hex padded bare, bare ++ [0]⟩, row,
        withoutLocation .empty⟩ = .ok (row, barePointer) := by
    simp only [uploadPrepared, store, validateExternalUrl, barePointer, bareUrl]
  have digest : (mdGet barePointer locationSha256Key).isSome := by
    rw [barePointer, mdGet, get?_insert_self]
    rfl
  refine ⟨_, _, _, resolved, seen, bare_prepared, uploaded, digest, ?_, served, answered⟩
  intro url same
  simp only [recoded, Except.ok.injEq, FetchedPayload.mk.injEq, append_cancel_left_eq] at same
  exact absurd same.1 (by decide)

end VgiRpc.External

