import VgiRpc.Shm.Segment

/-!
# Pointers read back

When resolving the pointer of a stored batch gives the batch.  A region written in
place is walked as two frames, so it reads back exactly when the writer put no
dictionary message between the schema and the batch and the two frames are within
the reader's limits; the copying path reads back always.
-/

namespace VgiRpc.Shm

open Arrow List Segment Wire Library.ByteStream Library.LittleEndian Library.Memory

/-- What the results about stored batches assume of the library beyond its codec:
a batch has one column for each field of its schema, a writer that has sent only
the schema encodes one dictionary message for each dictionary at any depth, and
the library's own reader `read` returns the first batch of a stream its writer
wrote. -/
structure StreamLaws (A : ArrowIpc) (read : Bytes → Except Failure (Option A.Batch)) : Prop where
  columns : ∀ batch, A.numColumns batch = (A.schemaOf batch).fields.length
  dictionaries : ∀ batch opening tracker dictionaries data tracker',
    A.schemaToBytes (A.schemaOf batch) A.newTracker = some (opening, tracker) →
    A.encode batch tracker = (.ok (dictionaries, data), tracker') →
      dictionaries.length = (A.schemaOf batch).dictionaryCount
  reads : ∀ batch opening tracker dictionaries data tracker',
    A.schemaToBytes (A.schemaOf batch) A.newTracker = some (opening, tracker) →
    A.encode batch tracker = (.ok (dictionaries, data), tracker') →
      read (streamBytes opening (dictionaries ++ [data])) = .ok (some batch)

section

variable {A : ArrowIpc}

/-- The frame of a message that starts at an index of a buffer. -/
def frameAt (start : Nat) (encoded : EncodedData) : IpcFrameRange :=
  let metadataEnd := start + 8 + Wire.headerSize encoded
  ⟨start + 8, Wire.headerSize encoded, metadataEnd, encoded.arrowData.length,
    metadataEnd + encoded.arrowData.length⟩

/-- A buffer with a message in it, behind `before`. -/
def Holds (bytes before : Bytes) (encoded : EncodedData) : Prop :=
  ∃ after, bytes = before ++ encapsulate encoded.ipcMessage encoded.arrowData ++ after

namespace Holds

variable {bytes before : Bytes} {encoded : EncodedData} (holds : Holds bytes before encoded)

include holds

theorem parts : slice bytes before.length 4 = continuationMarker ∧
      slice bytes (before.length + 4) 4 = toLe 4 (Wire.headerSize encoded) ∧
      slice bytes (before.length + 8) (Wire.headerSize encoded) =
        (rawMessage encoded).messageBytes ∧
      slice bytes (frameAt before.length encoded).bodyStart encoded.arrowData.length =
        encoded.arrowData ∧
      (frameAt before.length encoded).next ≤ bytes.length := by
  obtain ⟨after, layout⟩ := holds
  simp only [encapsulate_layout, append_assoc] at layout
  obtain ⟨marker, layout, starts⟩ := slice_part layout rfl rfl
  obtain ⟨word, layout, starts⟩ := slice_part layout starts (toLe_length ..)
  obtain ⟨header, layout, starts⟩ := slice_part layout starts (messageBytes_length encoded)
  obtain ⟨body, layout, starts⟩ := slice_part layout starts rfl
  refine ⟨marker, word, header, body, ?_⟩
  rw [layout, length_append, starts]
  exact Nat.le_add_right ..

variable (lawful : A.Lawful) {message : Message A.SchemaTable}
  (built : A.finishMessage message = some encoded.ipcMessage) {maxMetadata : Nat}

include lawful built

theorem root : A.rootAsMessage (slice bytes (frameAt before.length encoded).metadataStart
      (frameAt before.length encoded).metadataLength) = .ok message := by
  obtain ⟨_, _, header, _, _⟩ := holds.parts
  simp only [frameAt]
  rw [header]
  exact lawful.root_finish _ _
    (paddingToAlignment (8 + encoded.ipcMessage.length) ipcAlignment) built

/-- Behind the marker and the length word stands the header. -/
theorem ipcFrameRange_metadata (addressable : bytes.length < 2 ^ 63) (maxMetadata : Nat) :
    ipcFrameRange A bytes before.length maxMetadata =
      metadataRange A bytes (before.length + 8) (Wire.headerSize encoded) maxMetadata := by
  obtain ⟨marker, word, _, _, inside⟩ := holds.parts
  have bounded := (headerSize_bounds lawful built).2
  simp only [frameAt] at inside
  unfold ipcFrameRange
  rw [if_neg (by omega), if_neg (by omega), marker, if_pos (by decide), if_neg (by omega),
    if_neg (by omega), word, ofLe_toLe_of_lt (Nat.lt_of_le_of_lt bounded (by decide))]

theorem metadataRange_body (addressable : bytes.length < 2 ^ 63)
    (fits : Wire.headerSize encoded ≤ maxMetadata) :
    metadataRange A bytes (before.length + 8) (Wire.headerSize encoded) maxMetadata =
      bodyRange A bytes (before.length + 8) (Wire.headerSize encoded) message := by
  obtain ⟨_, _, _, _, inside⟩ := holds.parts
  have positive := (headerSize_bounds lawful built).1
  have root := holds.root lawful built
  simp only [frameAt] at inside root
  unfold metadataRange
  rw [if_neg (by omega), if_neg (by omega), if_neg (by omega), if_neg (by omega), root]

theorem ipcFrameRange_ok (announced : message.bodyLength = encoded.arrowData.length)
    (addressable : bytes.length < 2 ^ 63) (fits : Wire.headerSize encoded ≤ maxMetadata)
    (bodyFits : encoded.arrowData.length ≤ maxIpcMessageBytes) :
    ipcFrameRange A bytes before.length maxMetadata =
      .ok (some (frameAt before.length encoded)) := by
  obtain ⟨_, _, _, _, inside⟩ := holds.parts
  simp only [frameAt] at inside
  rw [holds.ipcFrameRange_metadata lawful built addressable,
    holds.metadataRange_body lawful built addressable fits]
  simp only [bodyRange, announced, Int.toNat_natCast]
  rw [if_neg (by omega), if_neg (by omega), if_neg (by omega), if_neg (by omega)]
  rfl

theorem ipcFrameRange_error (announced : message.bodyLength = encoded.arrowData.length) (addressable
    : bytes.length < 2 ^ 63) (beyond : maxMetadata < Wire.headerSize encoded ∨ maxIpcMessageBytes <
    encoded.arrowData.length) :
    ∃ error, ipcFrameRange A bytes before.length maxMetadata = .error error := by
  have positive := (headerSize_bounds lawful built).1
  rw [holds.ipcFrameRange_metadata lawful built addressable]
  by_cases fits : Wire.headerSize encoded ≤ maxMetadata
  · have long : maxIpcMessageBytes < encoded.arrowData.length := by omega
    rw [holds.metadataRange_body lawful built addressable fits]
    simp only [bodyRange, announced, Int.toNat_natCast]
    rw [if_neg (by omega), if_pos long]
    exact ⟨_, rfl⟩
  · unfold metadataRange
    rw [if_neg (by omega), if_pos (by omega)]
    exact ⟨_, rfl⟩

end Holds

/-! ## A region written in place -/

variable {schema : Schema} {opening first : EncodedData} {rest : List EncodedData}
  {tracker : A.Tracker}

theorem holds_opening (opening : EncodedData) (messages : List EncodedData) :
    Holds (streamBytes opening messages) [] opening :=
  ⟨frames messages ++ endOfStream, by simp [streamBytes]⟩

theorem holds_first (opening first : EncodedData) (rest : List EncodedData) :
    Holds (streamBytes opening (first :: rest))
      (encapsulate opening.ipcMessage opening.arrowData) first :=
  ⟨frames rest ++ endOfStream, by simp [streamBytes]⟩

theorem frameAt_opening (empty : opening.arrowData = []) :
    (frameAt 0 opening).next = (encapsulate opening.ipcMessage opening.arrowData).length := by
  rw [encapsulate_layout]
  simp only [frameAt, empty, length_append, toLe_length, messageBytes_length]
  rw [show continuationMarker.length = 4 from rfl]

variable (lawful : A.Lawful)
  (opened : A.schemaToBytes schema A.newTracker = some (opening, tracker))
  (small : (streamBytes opening (first :: rest)).length < 2 ^ 63)

include lawful small

/-- A record batch right behind the schema message is decoded. -/
theorem decodeSecondFrame_batch {table : RecordBatchTable} {custom : Option (List (Option String ×
    Option String))} {batch : A.Batch} (built : A.finishMessage ⟨.v5, .recordBatch (some table),
    first.arrowData.length, custom⟩ = some first.ipcMessage) (inside : table.Inside
    first.arrowData.length) (decoded : A.readRecordBatch first.arrowData table schema
    A.noDictionaries .v5 = .ok batch) (fits : first.arrowData.length ≤ maxIpcMessageBytes) :
    decodeSecondFrame A (streamBytes opening (first :: rest)) schema
      (encapsulate opening.ipcMessage opening.arrowData).length = .ok batch := by
  have holds := holds_first opening first rest
  have found := holds.ipcFrameRange_ok lawful built rfl small
    (headerSize_bounds lawful built).2 fits
  have root := holds.root lawful built
  obtain ⟨_, _, _, body, _⟩ := holds.parts
  have bounded : first.arrowData.length < 2 ^ 64 :=
    Nat.lt_of_le_of_lt fits (by decide)
  rw [decodeSecondFrame, found]
  simp only [decodeBatchFrame, root]
  have length : (frameAt (encapsulate opening.ipcMessage opening.arrowData).length
      first).bodyLength = first.arrowData.length := rfl
  rw [length, validateRecordBatchBuffers_inside bounded inside, body, decoded]
  rfl

theorem decodeSecondFrame_beyond {message : Message A.SchemaTable} (built : A.finishMessage message
    = some first.ipcMessage) (announced : message.bodyLength = first.arrowData.length) (beyond :
    maxIpcMessageBytes < first.arrowData.length) (target : Schema) :
    ∃ error, decodeSecondFrame A (streamBytes opening (first :: rest)) target
      (encapsulate opening.ipcMessage opening.arrowData).length = .error error := by
  obtain ⟨error, refused⟩ := (holds_first opening first rest).ipcFrameRange_error lawful
    built announced small (.inr beyond)
  exact ⟨error, by rw [decodeSecondFrame, refused]⟩

/-- A dictionary message where the record batch should be is refused. -/
theorem decodeSecondFrame_dictionary {table : DictionaryTable} (dictionary : A.EncodesDictionary
    first table) (fits : first.arrowData.length ≤ maxIpcMessageBytes) (target : Schema) :
    decodeSecondFrame A (streamBytes opening (first :: rest)) target
        (encapsulate opening.ipcMessage opening.arrowData).length =
      .error (.ipc "expected SHM RecordBatch message, got DictionaryBatch") := by
  have holds := holds_first opening first rest
  have found := holds.ipcFrameRange_ok lawful dictionary.message rfl small
    (headerSize_bounds lawful dictionary.message).2 fits
  have root := holds.root lawful dictionary.message
  rw [decodeSecondFrame, found]
  simp only [decodeBatchFrame, root]
  rfl

include opened

/-- Past a schema message within the limits, the region is decoded from its second
frame. -/
theorem decodeNonDictShmStream_opened
    (fits : Wire.headerSize opening ≤ maxIpcSchemaBytes) (target : Schema) :
    decodeNonDictShmStream A (streamBytes opening (first :: rest)) target =
      decodeSecondFrame A (streamBytes opening (first :: rest)) target
        (encapsulate opening.ipcMessage opening.arrowData).length := by
  obtain ⟨empty, table, built, _, _⟩ := lawful.schema_encoded _ _ _ _ opened
  have holds := holds_opening opening (first :: rest)
  have found := holds.ipcFrameRange_ok lawful built (by simp [empty]) small fits (by simp [empty])
  have root := holds.root lawful built
  rw [length_nil] at found root
  unfold decodeNonDictShmStream
  rw [found, ← frameAt_opening empty]
  simp only [checkSchemaFrame, root]

theorem decodeNonDictShmStream_eq_ok_iff {target : Schema} {batch : A.Batch} :
    decodeNonDictShmStream A (streamBytes opening (first :: rest)) target = .ok batch ↔
      Wire.headerSize opening ≤ maxIpcSchemaBytes ∧
        decodeSecondFrame A (streamBytes opening (first :: rest)) target
          (encapsulate opening.ipcMessage opening.arrowData).length = .ok batch := by
  by_cases fits : Wire.headerSize opening ≤ maxIpcSchemaBytes
  · simp [decodeNonDictShmStream_opened lawful opened small fits, fits]
  · obtain ⟨empty, table, built, _, _⟩ := lawful.schema_encoded _ _ _ _ opened
    obtain ⟨error, refused⟩ := (holds_opening opening (first :: rest)).ipcFrameRange_error
      lawful built (by simp [empty]) small (.inl (Nat.lt_of_not_le fits))
    rw [length_nil] at refused
    simp [decodeNonDictShmStream, refused, fits]

end

section

variable {A : ArrowIpc}

/-- The region of a pointer lies in the segment and holds the bytes. -/
structure Stored (segment : Segment) (pointer : Nat × Nat) (bytes : Bytes) : Prop where
  length : pointer.2 = bytes.length
  inside : pointer.1 + pointer.2 ≤ segment.size
  content : slice segment.bytes pointer.1 pointer.2 = bytes

variable {segment : Segment} {offset : Nat}

theorem Stored.written {chunk : Bytes} (inside : offset + chunk.length ≤ segment.size) :
    Stored (segment.write offset chunk inside) (offset, chunk.length) chunk where
  length := rfl
  inside := by rw [write_size]; exact inside
  content := slice_overwrite_same inside

variable {pointer : Nat × Nat} {bytes : Bytes}

theorem Stored.sameData {next : Segment} (stored : Stored segment pointer bytes)
    (behind : headerSize ≤ pointer.1) (same : Segment.SameData segment next) :
    Stored next pointer bytes where
  length := stored.length
  inside := by rw [same.size]; exact stored.inside
  content := (same.data _ _ behind).trans stored.content

variable {after : Segment}

theorem storeCopied_stored (run : segment.storeCopied bytes = (.ok (some pointer), after)) :
    Stored after pointer bytes := by
  unfold storeCopied at run
  split at run
  · cases run
  split at run
  · cases run
  split at run
  · cases run
    exact .written _
  · cases run

/-- A slot that settles with a pointer was written completely. -/
theorem settle_stored {written : Nat} {result : Except Failure Unit}
    (run : segment.settle offset result written = (.ok (some pointer), after)) :
    result = .ok () ∧ pointer = (offset, written) ∧ Segment.SameData segment after := by
  unfold settle at run
  split at run
  · cases run
  · split at run
    · cases run
    · cases run
  · split at run
    · cases run
    split at run
    · cases run
    rename_i next shrunk
    cases run
    refine ⟨rfl, rfl, ?_⟩
    have same := segment.shrink_sameData offset ‹_›
    rw [shrunk] at same
    exact same

theorem storeInPlace_stored {batch : A.Batch} {reserve : Nat}
    (run : segment.storeInPlace batch reserve = (.ok (some pointer), after)) :
    ∃ opening messages, StreamSends (batchStream batch) opening messages ∧
      Stored after pointer (streamBytes opening messages) := by
  unfold storeInPlace at run
  split at run
  · cases run
  split at run
  · cases run
  rename_i offset next allocated
  split at run
  · rename_i inside
    obtain ⟨wrote, rfl, same⟩ := settle_stored run
    have finished : writeStream (batchStream batch) ⟨[], some reserve, []⟩ =
        (.ok (), (writeInPlace batch reserve).2) := Prod.ext wrote rfl
    obtain ⟨opening, messages, sends, bytes⟩ := writeStream_ok finished
    rw [nil_append] at bytes
    refine ⟨opening, messages, sends, ?_⟩
    rw [← bytes]
    exact (Stored.written _).sameData (allocate_some allocated).1 same
  · cases run

end

section

variable {A : ArrowIpc} {bytes : Bytes}

theorem framed_ok {messages : List EncodedData} (run : framed messages = .ok bytes) :
    bytes = frames messages := by
  induction messages generalizing bytes with
  | nil =>
    cases run
    rfl
  | cons encoded rest ih =>
    obtain ⟨first, wrote, later⟩ := Library.exceptBind_eq_ok run
    obtain ⟨others, more, same⟩ := Library.exceptBind_eq_ok later
    cases same
    unfold Arrow.writeMessage at wrote
    split_ifs at wrote
    cases wrote
    rw [ih more, frames_cons]

variable {schema : Schema} {opening : EncodedData} {tracker : A.Tracker} {batch : A.Batch}

/-- The stream of the library's writer: the schema, the dictionaries and the data. -/
theorem ipcStream_ok {buffer : Bytes} (run : ipcStream A schema (some batch) = .ok buffer) :
    ∃ opening tracker dictionaries data tracker',
      A.schemaToBytes schema A.newTracker = some (opening, tracker) ∧
      A.encode batch tracker = (.ok (dictionaries, data), tracker') ∧
      buffer = streamBytes opening (dictionaries ++ [data]) := by
  obtain ⟨messages, listed, rest⟩ := Library.exceptBind_eq_ok run
  obtain ⟨bytes, wrote, same⟩ := Library.exceptBind_eq_ok rest
  cases same
  unfold ipcMessages at listed
  split at listed
  · cases listed
  rename_i opening tracker opened
  simp only at listed
  split at listed
  · cases listed
  rename_i dictionaries data encodes
  cases listed
  refine ⟨opening, tracker, dictionaries, data, _, opened, Prod.ext encodes rfl, ?_⟩
  rw [framed_ok wrote]
  rfl

/-- The schema-only stream, which the region is stitched into. -/
theorem ipcStream_opening (lawful : A.Lawful)
    (opened : A.schemaToBytes schema A.newTracker = some (opening, tracker)) :
    ipcStream A schema none =
      .ok (encapsulate opening.ipcMessage opening.arrowData ++ endOfStream) := by
  have empty := (lawful.schema_encoded _ _ _ _ opened).1
  have wrote : Arrow.writeMessage opening =
      .ok (encapsulate opening.ipcMessage opening.arrowData) := by
    rw [Arrow.writeMessage, if_pos (by simp [empty])]
  have alone : framed [opening] = .ok (encapsulate opening.ipcMessage opening.arrowData) := by
    rw [framed, wrote]
    exact congrArg Except.ok (append_nil _)
  simp only [ipcStream, ipcMessages, opened]
  change (framed [opening] >>= _) = _
  rw [alone]
  rfl

theorem skipOneIpcMessage_opening (lawful : A.Lawful) (messages : List EncodedData)
    (opened : A.schemaToBytes schema A.newTracker = some (opening, tracker)) :
    skipOneIpcMessage A (streamBytes opening messages) =
      .ok (encapsulate opening.ipcMessage opening.arrowData).length := by
  obtain ⟨empty, table, built, _, _⟩ := lawful.schema_encoded _ _ _ _ opened
  obtain ⟨positive, bounded⟩ := headerSize_bounds lawful built
  have holds := holds_opening opening messages
  obtain ⟨marker, word, _, _, inside⟩ := holds.parts
  have root := holds.root lawful built
  simp only [length_nil, frameAt, Nat.zero_add] at marker word inside root
  rw [← frameAt_opening empty]
  simp only [skipOneIpcMessage, marker, if_true, word,
    ofLe_toLe_of_lt (Nat.lt_of_le_of_lt bounded (show maxIpcMessageBytes < 256 ^ 4 by decide))]
  rw [if_neg (by omega), if_neg (by omega), if_neg (by omega), if_neg (by omega), root]
  simp [frameAt, empty]

theorem stripTrailingEos_append (bytes : Bytes) :
    stripTrailingEos (bytes ++ endOfStream) = .ok bytes := by
  unfold stripTrailingEos
  rw [length_append, Nat.add_sub_cancel, drop_left, take_left]
  rw [if_neg (by simp)]

theorem serializeForShm_ok (lawful : A.Lawful) (dictionary : schemaHasDictionary schema = true)
    (run : serializeForShm A batch schema = .ok bytes) :
    ∃ opening tracker dictionaries data tracker',
      A.schemaToBytes schema A.newTracker = some (opening, tracker) ∧
      A.encode batch tracker = (.ok (dictionaries, data), tracker') ∧
      bytes = frames (dictionaries ++ [data]) := by
  obtain ⟨buffer, wrote, rest⟩ := Library.exceptBind_eq_ok run
  obtain ⟨opening, tracker, dictionaries, data, tracker', opened, encodes, rfl⟩ :=
    ipcStream_ok wrote
  refine ⟨opening, tracker, dictionaries, data, tracker', opened, encodes, ?_⟩
  rw [if_pos dictionary, skipOneIpcMessage_opening lawful _ opened] at rest
  have layout : streamBytes opening (dictionaries ++ [data]) =
      encapsulate opening.ipcMessage opening.arrowData ++
        (frames (dictionaries ++ [data]) ++ endOfStream) := by
    simp [streamBytes]
  rw [layout] at rest
  change (if _ < _ then throw _ else _) = Except.ok bytes at rest
  rw [if_neg (by simp), drop_left, stripTrailingEos_append] at rest
  exact (Except.ok.inj rest).symm

/-- The region of a dictionary batch, stitched together again, is the stream the
library's writer wrote. -/
theorem deserializeFromShm_stitched (lawful : A.Lawful) (read : Bytes → Except Failure (Option
    A.Batch)) (dictionary : schemaHasDictionary schema = true) (opened : A.schemaToBytes schema
    A.newTracker = some (opening, tracker)) (messages : List EncodedData) :
    deserializeFromShm A read (frames messages) schema =
      firstBatch A read (streamBytes opening messages) := by
  rw [deserializeFromShm, if_pos dictionary, ipcStream_opening lawful opened]
  dsimp only [bind, Except.bind]
  rw [if_neg (by simp), length_append, Nat.add_sub_cancel, take_left]
  simp [streamBytes]

end

section

variable {A : ArrowIpc} {segment : Segment}

theorem readBatch_stored (read : Bytes → Except Failure (Option A.Batch)) {pointer : Nat × Nat}
    {bytes : Bytes} (stored : Stored segment pointer bytes) (schema : Schema) :
    segment.readBatch read pointer.1 pointer.2 schema =
      if schemaHasDictionary schema then deserializeFromShm A read bytes schema
      else failing (decodeNonDictShmStream A bytes schema) := by
  have inside := stored.inside
  have addressable : segment.size < 2 ^ 63 := segment.addressable
  unfold readBatch
  rw [if_neg (by omega), if_neg (by omega), stored.content]

theorem failing_eq_ok {α : Type} {result : Except RpcError α} {value : α} :
    failing result = .ok value ↔ result = .ok value := by
  cases result <;> simp [failing, Except.mapError]

variable {batch : A.Batch} {messages : List EncodedData} {opening : EncodedData} {schema : Schema}
  {tracker : A.Tracker}

/-- A region of a schema message and one record batch reads back exactly when both
are within the limits. -/
theorem decodeNonDictShmStream_single (lawful : A.Lawful) {opening first : EncodedData} (opened :
    A.schemaToBytes schema A.newTracker = some (opening, tracker)) (small : (streamBytes opening
    [first]).length < 2 ^ 63) {table : RecordBatchTable} {custom : Option (List (Option String ×
    Option String))} (built : A.finishMessage ⟨.v5, .recordBatch (some table),
    first.arrowData.length, custom⟩ = some first.ipcMessage) (inside : table.Inside
    first.arrowData.length) (decoded : A.readRecordBatch first.arrowData table schema
    A.noDictionaries .v5 = .ok batch) :
    decodeNonDictShmStream A (streamBytes opening [first]) schema = .ok batch ↔
      Wire.headerSize opening ≤ maxIpcSchemaBytes ∧
        first.arrowData.length ≤ maxIpcMessageBytes := by
  rw [decodeNonDictShmStream_eq_ok_iff lawful opened small]
  refine and_congr_right fun _ => ?_
  by_cases fits : first.arrowData.length ≤ maxIpcMessageBytes
  · exact iff_of_true (decodeSecondFrame_batch lawful small built inside decoded fits) fits
  · obtain ⟨error, refused⟩ := decodeSecondFrame_beyond lawful small built rfl (by omega) schema
    exact iff_of_false (by simp [refused]) fits

/-- A region with a dictionary message behind the schema never reads back. -/
theorem decodeNonDictShmStream_dictionary (lawful : A.Lawful) {opening first : EncodedData} {rest :
    List EncodedData} (opened : A.schemaToBytes schema A.newTracker = some (opening, tracker))
    (small : (streamBytes opening (first :: rest)).length < 2 ^ 63) {table : DictionaryTable}
    (dictionary : A.EncodesDictionary first table) (batch : A.Batch) :
    decodeNonDictShmStream A (streamBytes opening (first :: rest)) schema ≠ .ok batch := by
  rw [Ne, decodeNonDictShmStream_eq_ok_iff lawful opened small]
  rintro ⟨-, decoded⟩
  by_cases fits : first.arrowData.length ≤ maxIpcMessageBytes
  · rw [decodeSecondFrame_dictionary lawful small dictionary fits] at decoded
    cases decoded
  · obtain ⟨error, refused⟩ :=
      decodeSecondFrame_beyond lawful small dictionary.message rfl (by omega) schema
    rw [refused] at decoded
    cases decoded

variable {read : Bytes → Except Failure (Option A.Batch)}

/-- A batch the direct path takes has no dictionaries. -/
theorem singleLargeBinary_dictionaryCount (laws : StreamLaws A read) {value : Bytes}
    (single : singleLargeBinary A batch = some value) : (A.schemaOf batch).dictionaryCount = 0 := by
  have columns := laws.columns batch
  rw [(singleLargeBinary_some single).2.1] at columns
  unfold singleLargeBinary at single
  split_ifs at single
  split at single
  · cases single
  rename_i field rest fields
  split_ifs at single with large
  rw [fields, length_cons] at columns
  have last : rest = [] := eq_nil_of_length_eq_zero (by omega)
  obtain ⟨name, dataType, nullable, metadata⟩ := field
  have zero : dataType.dictionaryCount = 0 := DataType.dictionaryCount_largeBinary large
  rw [Schema.dictionaryCount, fields, last, fieldsDictionaryCount, fieldsDictionaryCount,
    Field.dictionaryCount, zero]

/-- A region written in place reads back exactly when the schema has no dictionary
at any depth and the stream is within the limits. -/
theorem decodeNonDictShmStream_iff (lawful : A.Lawful) (laws : StreamLaws A read)
    (sends : StreamSends (batchStream batch) opening messages)
    (small : (streamBytes opening messages).length < 2 ^ 63) :
    decodeNonDictShmStream A (streamBytes opening messages) (A.schemaOf batch) = .ok batch ↔
      (A.schemaOf batch).dictionaryCount = 0 ∧ Wire.headerSize opening ≤ maxIpcSchemaBytes ∧
        ∀ encoded ∈ messages, encoded.arrowData.length ≤ maxIpcMessageBytes := by
  obtain ⟨tracker, opened, all⟩ := sends
  change A.schemaToBytes (A.schemaOf batch) A.newTracker = _ at opened
  obtain _ | ⟨head, none⟩ := all
  cases none
  rw [append_nil] at small ⊢
  cases head with
  | @direct value bytes single short built =>
    obtain ⟨rows, columns, held⟩ := singleLargeBinary_some single
    rw [largeBinaryMessage, ← largeBinaryBody_length] at built
    have decoded := lawful.large_binary _ A.noDictionaries _ _ _ _ rfl rows columns held
      (by unfold largeBinaryBodyLength at short; omega) (largeBinaryRow_body value)
    rw [decodeNonDictShmStream_single lawful opened small built (largeBinaryTable_inside value)
      decoded]
    simp [singleLargeBinary_dictionaryCount laws single]
  | @encoded _ dictionaries data message several encodes attached aligned =>
    have count := laws.dictionaries _ _ _ _ _ _ opened encodes
    obtain ⟨known, table, replays, coded, decoded⟩ :=
      lawful.encode_decodes _ _ _ _ _ _ _ (.start opened) rfl encodes
    cases replays with
    | nil =>
      rw [nil_append] at small ⊢
      have built := (attachMetadata_eq_ok_iff lawful coded).mp attached
      rw [decodeNonDictShmStream_single lawful opened small built coded.inside decoded]
      simp [← count]
    | cons dictionary _ _ =>
      refine iff_of_false
        (decodeNonDictShmStream_dictionary lawful opened small dictionary batch) ?_
      rintro ⟨zero, _⟩
      rw [← count] at zero
      cases zero

theorem withinCaps_iff {stream : StreamValue A} (sends : StreamSends stream opening messages) :
    WithinCaps stream ↔ Wire.headerSize opening ≤ maxIpcSchemaBytes ∧
      ∀ encoded ∈ messages, encoded.arrowData.length ≤ maxIpcMessageBytes := by
  constructor
  · intro caps
    exact caps opening messages sends
  · rintro fits opening' messages' sends'
    obtain ⟨rfl, rfl⟩ := sends.unique sends'
    exact fits

/-- In a segment without allocations, a batch whose stream fits the slot with room
for its alignment is stored. -/
theorem storeInPlace_empty (lawful : A.Lawful) (empty : segment.readAllocs = []) (sends :
    StreamSends (batchStream batch) opening messages) {reserve : Nat} (gap : headerSize + reserve ≤
    segment.size) (room : (streamBytes opening messages).length + 63 ≤ reserve) :
    ∃ pointer after, segment.storeInPlace batch reserve = (.ok (some pointer), after) := by
  obtain ⟨next, allocated, table⟩ := allocate_empty empty (by omega) gap
  have same := (allocate_some allocated).2.2.1
  obtain ⟨final, wrote, _⟩ : ∃ final, writeInPlace batch reserve = (.ok (), final) ∧
      final.Reliable := writeStream_roomy lawful sends (fun _ member => by cases member) (by
    rintro space ⟨⟩
    omega)
  have length : final.written.length = (streamBytes opening messages).length := by
    obtain ⟨opening', messages', sends', written⟩ := writeStream_ok wrote
    obtain ⟨rfl, rfl⟩ := sends.unique sends'
    rw [written]
    rfl
  have inside : headerSize + reserve ≤ next.size := by rw [same.size]; exact gap
  have fits : next.size < 2 ^ 63 := next.addressable
  have aligned : alignIpcAllocation final.written.length =
      some ((final.written.length + 63) / 64 * 64) := by
    rw [alignIpcAllocation, ipcAlignment, if_pos (by omega)]
  have written : headerSize + final.written.length ≤ next.size := by omega
  obtain ⟨after, shrunk⟩ : ∃ after, (next.write headerSize final.written written).shrink
      headerSize ((final.written.length + 63) / 64 * 64) = (.ok (), after) :=
    shrink_single ((write_readAllocs written (Nat.le_refl _)).trans table)
      (by omega)
  refine ⟨(headerSize, final.written.length), after, ?_⟩
  unfold storeInPlace
  rw [if_neg (by omega), allocated]
  simp only
  rw [dif_pos inside]
  simp only [wrote, settle, aligned, shrunk]

/-- A batch whose pointer reads back: one with a dictionary column at the top
level, or one without dictionaries at any depth whose stream is within the limits
of the reader. -/
def Resolvable (batch : A.Batch) : Prop :=
  schemaHasDictionary (A.schemaOf batch) = true ∨
    ((A.schemaOf batch).dictionaryCount = 0 ∧ WithinCaps (batchStream batch))

/-- Whatever the segment holds, a pointer that was stored resolves to the batch it
was stored for exactly when the batch is resolvable. -/
theorem stored_pointer_resolves_iff (lawful : A.Lawful) {read : Bytes → Except Failure (Option
    A.Batch)} (laws : StreamLaws A read) (memorySize : A.Batch → Nat) (segment : Segment) (batch :
    A.Batch) {pointer : Nat × Nat} {after : Segment} (stores : segment.allocateAndWrite memorySize
    batch = (.ok (some pointer), after)) :
    after.readBatch read pointer.1 pointer.2 (A.schemaOf batch) = .ok batch ↔ Resolvable batch := by
  unfold allocateAndWrite at stores
  split at stores
  · rename_i dictionary
    refine iff_of_true ?_ (.inl dictionary)
    split at stores
    · cases stores
    rename_i bytes serialized
    obtain ⟨opening, tracker, dictionaries, data, _, opened, encodes, rfl⟩ :=
      serializeForShm_ok lawful dictionary serialized
    rw [readBatch_stored read (storeCopied_stored stores), if_pos dictionary,
      deserializeFromShm_stitched lawful read dictionary opened, firstBatch,
      laws.reads _ _ _ _ _ _ opened encodes]
  · rename_i dictionary
    obtain ⟨opening, messages, sends, stored⟩ := storeInPlace_stored stores
    have small : (streamBytes opening messages).length < 2 ^ 63 := by
      have inside := stored.inside
      have addressable : after.size < 2 ^ 63 := after.addressable
      have length := stored.length
      omega
    rw [readBatch_stored read stored, if_neg dictionary, failing_eq_ok,
      decodeNonDictShmStream_iff lawful laws sends small, Resolvable, withinCaps_iff sends]
    simp [dictionary]

end

namespace Sample

open Arrow.Sample (library library_lawful)

def rowBytes : Bytes := streamBytes ⟨[1], []⟩ [⟨[4], []⟩]

def nestedBytes : Bytes := streamBytes ⟨[3], []⟩ [⟨[7], []⟩, ⟨[8], []⟩]

/-- The reader of the sample library, on the two streams its writer can write. -/
def read (bytes : Bytes) : Except Failure (Option library.Batch) :=
  if bytes = rowBytes then .ok (some Arrow.Sample.Batch.row)
  else if bytes = nestedBytes then .ok (some Arrow.Sample.Batch.nested)
  else .error Arrow.Sample.unreadable

theorem streamLaws : StreamLaws library read where
  columns _ := rfl
  dictionaries batch opening tracker dictionaries data tracker' opened encodes := by
    cases batch with
    | row => cases encodes; rfl
    | blob value => cases encodes
    | nested => cases encodes; rfl
  reads batch opening tracker dictionaries data tracker' opened encodes := by
    cases batch with
    | row =>
      cases encodes
      cases opened
      exact if_pos rfl
    | blob value => cases encodes
    | nested =>
      cases encodes
      cases opened
      exact (if_neg (by decide)).trans (if_pos rfl)

def zeroed (size : Nat) (header : headerSize ≤ size) (addressable : size < 2 ^ 63) : Segment where
  bytes := List.replicate size 0
  header := by rw [List.length_replicate]; exact header
  addressable := by rw [List.length_replicate]; exact addressable

theorem zeroed_initialized {size : Nat} (header : headerSize < size) (addressable : size < 2 ^ 63) :
    ∃ fresh, (zeroed size (Nat.le_of_lt header) addressable).initializeHeader = .ok fresh ∧
      fresh.size = size ∧ fresh.readAllocs = [] := by
  have same : (zeroed size (Nat.le_of_lt header) addressable).size = size :=
    length_replicate ..
  rcases run : (zeroed size (Nat.le_of_lt header) addressable).initializeHeader with error | fresh
  · unfold initializeHeader at run
    rw [if_neg (by omega)] at run
    cases run
  · obtain ⟨kept, empty⟩ := initializeHeader_empty run
    exact ⟨fresh, rfl, kept.trans same, empty⟩

/-- A segment of 128 KiB, half of it header. -/
def blank : Segment := zeroed 131072 (by decide) (by decide +kernel)

/-- A fresh segment of that size stores what fits its data region. -/
theorem fresh_stores {batch : library.Batch} (plain : schemaHasDictionary (library.schemaOf batch) =
    false) {opening : EncodedData} {messages : List EncodedData} (sends : StreamSends (batchStream
    batch) opening messages) (room : (streamBytes opening messages).length + 63 ≤ 65536) :
    ∃ fresh pointer after, blank.initializeHeader = .ok fresh ∧
      fresh.allocateAndWrite (fun _ => 0) batch = (.ok (some pointer), after) ∧
      Stored after pointer (streamBytes opening messages) := by
  have room' : headerSize < 131072 := by decide
  obtain ⟨fresh, run, size, empty⟩ := zeroed_initialized room' (by decide +kernel)
  have reserve : fresh.reserveFor 0 = 65536 := by
    unfold reserveFor
    rw [size]
    decide +kernel
  obtain ⟨pointer, after, inPlace⟩ := storeInPlace_empty library_lawful empty sends
    (by rw [size]; decide +kernel) room
  refine ⟨fresh, pointer, after, run, ?_, ?_⟩
  · unfold allocateAndWrite
    rw [plain, if_neg Bool.false_ne_true, reserve]
    exact inPlace
  · obtain ⟨opening', messages', sends', stored⟩ := storeInPlace_stored inPlace
    obtain ⟨rfl, rfl⟩ := sends.unique sends'
    exact stored

theorem row_sends : StreamSends (A := library) (batchStream .row) ⟨[1], []⟩ [⟨[4], []⟩] := by
  have aligned : Aligned ([] ++ [⟨[4], []⟩]) := aligned_of_empty (by simp)
  have row : Sends library .row none () ([] ++ [⟨[4], []⟩]) () := .encoded rfl rfl rfl aligned
  exact ⟨(), rfl, .cons row (SendsAll.nil (A := library) ())⟩

theorem nested_sends :
    StreamSends (A := library) (batchStream .nested) ⟨[3], []⟩ [⟨[7], []⟩, ⟨[8], []⟩] := by
  have aligned : Aligned ([⟨[7], []⟩] ++ [⟨[8], []⟩]) := aligned_of_empty (by simp)
  have nested : Sends library .nested none () ([⟨[7], []⟩] ++ [⟨[8], []⟩]) () :=
    .encoded rfl rfl rfl aligned
  exact ⟨(), rfl, .cons nested (SendsAll.nil (A := library) ())⟩

end Sample

open Sample

open Arrow.Sample (library library_lawful)

theorem stored_row_resolves : ∃ fresh pointer after, blank.initializeHeader = .ok fresh ∧
      fresh.allocateAndWrite (A := library) (fun _ => 0) .row = (.ok (some pointer), after) ∧
      after.readBatch (A := library) read pointer.1 pointer.2 (library.schemaOf .row) =
        .ok .row := by
  obtain ⟨fresh, pointer, after, run, stores, _⟩ :=
    fresh_stores rfl row_sends (by decide +kernel)
  refine ⟨fresh, pointer, after, run, stores, ?_⟩
  refine (stored_pointer_resolves_iff library_lawful streamLaws _ fresh _ stores).mpr
    (.inr ⟨rfl, (withinCaps_iff row_sends).mpr ⟨by decide, ?_⟩⟩)
  intro encoded member
  cases mem_singleton.mp member
  decide

/-- A list of dictionary-encoded strings is stored in place, and its pointer never
resolves: the reader meets the dictionary message where it expects the batch. -/
theorem nested_dictionary_unreadable : ∃ fresh pointer after, blank.initializeHeader = .ok fresh ∧
      fresh.allocateAndWrite (A := library) (fun _ => 0) .nested = (.ok (some pointer), after) ∧
      after.readBatch (A := library) read pointer.1 pointer.2 (library.schemaOf .nested) =
        .error (.error (.ipc "expected SHM RecordBatch message, got DictionaryBatch")) := by
  obtain ⟨fresh, pointer, after, run, stores, stored⟩ :=
    fresh_stores rfl nested_sends (by decide +kernel)
  refine ⟨fresh, pointer, after, run, stores, ?_⟩
  have dictionary : library.EncodesDictionary ⟨[7], []⟩ Arrow.Sample.valuesTable :=
    ⟨rfl, rfl, by rintro table ⟨⟩ buffers ⟨⟩ span ⟨⟩⟩
  have opened : library.schemaToBytes (library.schemaOf Arrow.Sample.Batch.nested)
      library.newTracker = some (⟨[3], []⟩, ()) := rfl
  rw [readBatch_stored read stored, if_neg (by decide),
    decodeNonDictShmStream_opened library_lawful opened (by decide +kernel) (by decide),
    decodeSecondFrame_dictionary library_lawful (by decide +kernel) dictionary (by decide)]
  rfl

end VgiRpc.Shm
