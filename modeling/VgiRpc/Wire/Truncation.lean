import VgiRpc.Wire.RoundTrip

/-!
# Streams cut short

What a reader makes of a stream whose bytes end too early.  A cut may fall at any
byte: inside a length, a header, its padding, a body or the end marker.  One fact
about the message reader covers them all: on the beginning of an item it either
has the whole item before it, or it reports an error or the end of its input.
-/

namespace VgiRpc.Wire

open Arrow List StreamReader Library.ByteStream

variable {A : ArrowIpc} {schema : Schema} {more tail : Bytes}

/-- Reading the beginning of an item and what follows it, under any cap. -/
theorem readMessageBytes_cut (cap : Nat) {large : Nat} {item part : Bytes} {frame : Frame}
    (whole : Item A large item frame) (split : part ++ more = item ++ tail) :
    (∃ rest, part = item ++ rest ∧ rest ++ more = tail ∧
        readMessageBytes A cap (.ofBytes part) = (.ok (some frame), .ofBytes rest)) ∨
      (∃ source, readMessageBytes A cap (.ofBytes part) = (.ok none, source)) ∨
      ∃ error source, readMessageBytes A cap (.ofBytes part) = (.error error, source) := by
  rcases run : readMessageBytes A cap (.ofBytes part) with ⟨error | result, source⟩
  · exact .inr (.inr ⟨error, source, rfl⟩)
  rcases readMessageBytes_ok run with ⟨rfl, _⟩ | ⟨found, item', rest, rfl, whole', rfl, rfl⟩
  · exact .inr (.inl ⟨source, rfl⟩)
  -- Under a cap that admits both, the two readings of one input agree.
  have expected := readMessageBytes_item (whole.mono (Nat.le_max_left large cap)) tail
  have actual := readMessageBytes_item (whole'.mono (Nat.le_max_right large cap)) (rest ++ more)
  rw [← append_assoc, split, expected] at actual
  cases actual
  rw [append_assoc] at split
  cases append_cancel_right split
  exact .inl ⟨rest, rfl, rfl, rfl⟩

/-- How a read of a cut stream can go wrong: an error, or an end without the
marker. -/
def StopsShort (run : Except RpcError (Option (A.Batch × Metadata)) × StreamReader A) : Prop :=
  (∃ error, run.1 = .error error) ∨ (run.1 = .ok none ∧ run.2.sawEos = false)

variable {known : A.Dictionaries} {messages : List EncodedData} {item : A.Batch × Metadata}

/-- A read in front of the messages of a batch delivers the batch if all of them
are there, and stops short otherwise. -/
theorem Yields.readNext_cut {final : A.Dictionaries} (yields : Yields A schema known messages item
    final) {part : Bytes} (split : part ++ more = frames messages ++ tail) :
    (∃ rest, rest ++ more = tail ∧ (openReader schema known part).readNext =
        (.ok (some item), openReader schema final rest)) ∨
      StopsShort (openReader schema known part).readNext := by
  induction yields generalizing part with
  | @batch known encoded item framed decoded =>
    have whole := framed.framed (headerSize encoded + encoded.arrowData.length)
      (Nat.le_add_right ..) (Nat.le_add_left ..)
    rw [frames_cons, frames_nil, append_nil] at split
    rcases readMessageBytes_cut maxIpcMessageBytes whole split with
      ⟨rest, _, remaining, step⟩ | ⟨source, step⟩ | ⟨error, source, step⟩
    · left
      refine ⟨rest, remaining, ?_⟩
      rw [readNext_step rfl step]
      simp [openReader, batchSchema, decoded]
    · right
      rw [readNext_step rfl step]
      exact .inr ⟨rfl, rfl⟩
    · right
      rw [readNext_step rfl step]
      exact .inl ⟨error, rfl⟩
  | @dictionary known next final encoded rest item framed decoded later ih =>
    have whole := framed.framed (headerSize encoded + encoded.arrowData.length)
      (Nat.le_add_right ..) (Nat.le_add_left ..)
    rw [frames_cons, append_assoc] at split
    rcases readMessageBytes_cut maxIpcMessageBytes whole split with
      ⟨part', _, remaining, step⟩ | ⟨source, step⟩ | ⟨error, source, step⟩
    · have resumes : (openReader schema known part).readNext =
          (openReader schema next part').readNext := by
        rw [readNext_step rfl step]
        simp [openReader, batchSchema, decoded]
      rw [resumes]
      exact ih remaining
    · right
      rw [readNext_step rfl step]
      exact .inr ⟨rfl, rfl⟩
    · right
      rw [readNext_step rfl step]
      exact .inl ⟨error, rfl⟩

theorem readNext_endOfStream_cut (known : A.Dictionaries) {part : Bytes} (proper : more ≠ [])
    (split : part ++ more = endOfStream) : StopsShort (openReader schema known part).readNext := by
  have split' : part ++ more = endOfStream ++ [] := by rw [split, append_nil]
  rcases readMessageBytes_cut maxIpcMessageBytes (endOfStream_item (A := A) 0) split' with
    ⟨rest, _, remaining, _⟩ | ⟨source, step⟩ | ⟨error, source, step⟩
  · exact absurd (append_eq_nil_iff.mp remaining).2 proper
  · rw [readNext_step rfl step]
    exact .inr ⟨rfl, rfl⟩
  · rw [readNext_step rfl step]
    exact .inl ⟨error, rfl⟩

/-- What reading a stream to its end delivered, and how it ended, is a cut of the
stream: some first batches, and then no end marker. -/
def CutShort (items : List (A.Batch × Metadata))
    (run : List (A.Batch × Metadata) × Except RpcError Bool × StreamReader A) : Prop :=
  run.1 <+: items ∧ ((∃ error, run.2.1 = .error error) ∨ run.2.1 = .ok false)

variable {state : StreamReader A}

theorem CutShort.stop (items : List (A.Batch × Metadata)) (short : StopsShort state.readNext) :
    CutShort items state.readAll := by
  rcases step : state.readNext with ⟨result, next⟩
  rw [step] at short
  rw [readAll_step step]
  rcases short with ⟨error, rfl⟩ | ⟨rfl, unmarked⟩
  · exact ⟨List.nil_prefix, .inl ⟨error, rfl⟩⟩
  · exact ⟨List.nil_prefix, .inr (congrArg Except.ok unmarked)⟩

variable {items : List (A.Batch × Metadata)}

theorem CutShort.step {next : StreamReader A} (step : state.readNext = (.ok (some item), next))
    (later : CutShort items next.readAll) : CutShort (item :: items) state.readAll := by
  rw [readAll_step step]
  exact ⟨cons_prefix_cons.mpr ⟨rfl, later.1⟩, later.2⟩

/-- A reader whose source may be cut into pieces and may fail stops short where
the reader of the same bytes at once does. -/
theorem StopsShort.of_atOnce (short : StopsShort state.atOnce.readNext) : StopsShort state.readNext := by
  rcases readNext_free state with ⟨error, failed, _⟩ | ⟨once, _⟩
  · exact .inl ⟨error, failed⟩
  · rw [once] at short
    exact short

/-- Reading a stream that was cut, over any source, delivers first batches of it
and does not see the end marker. -/
theorem YieldsAll.readAll_cut (yields : YieldsAll A schema known messages items) {part : Bytes}
    (proper : more ≠ []) (split : part ++ more = frames messages ++ endOfStream)
    (positioned : state.atOnce = openReader schema known part) : CutShort items state.readAll := by
  induction yields generalizing state part with
  | nil known =>
    apply CutShort.stop
    apply StopsShort.of_atOnce
    rw [positioned]
    exact readNext_endOfStream_cut known proper split
  | @cons known next first rest item items head later ih =>
    rw [frames_append, append_assoc] at split
    rcases head.readNext_cut split with ⟨part', remaining, delivers⟩ | short
    · rcases readNext_free state with ⟨error, failed, _⟩ | ⟨once, _⟩
      · exact CutShort.stop _ (.inl ⟨error, failed⟩)
      · rw [positioned, delivers] at once
        obtain ⟨result, middle⟩ := Prod.mk.inj once
        exact CutShort.step (Prod.ext result.symm rfl) (ih remaining middle.symm)
    · apply CutShort.stop
      apply StopsShort.of_atOnce
      rw [positioned]
      exact short

/-- Opening a stream on a cut of it fails, or leaves the reader behind the schema
message with the rest of the cut. -/
theorem new_cut {opening : EncodedData} (framed : Framable A opening) (decoded :
    StreamReader.decodeSchema A (rawMessage opening) = .ok schema) {source : Source RpcError} (split
    : source.bytes ++ more = encapsulate opening.ipcMessage opening.arrowData ++ tail) :
    (∃ error rest, StreamReader.new A source = (.error error, rest)) ∨
      ∃ state rest part, StreamReader.new A source = (.ok state, rest) ∧
        state.schema = schema ∧ part ++ more = tail ∧
        state.atOnce = openReader schema A.noDictionaries part := by
  rcases step : readMessageBytes A maxIpcSchemaBytes source with ⟨result, rest⟩
  rcases readMessageBytes_free A maxIpcSchemaBytes source with ⟨error, failed, _⟩ | ⟨once, _⟩
  · rw [step] at failed
    cases failed
    exact .inl ⟨error, rest, by simp only [new, step]⟩
  rw [step] at once
  have whole := framed.framed (headerSize opening + opening.arrowData.length)
    (Nat.le_add_right ..) (Nat.le_add_left ..)
  rcases readMessageBytes_cut maxIpcSchemaBytes whole split with
    ⟨part, _, remaining, reads⟩ | ⟨_, reads⟩ | ⟨error, _, reads⟩
  · right
    rw [reads] at once
    obtain ⟨found, left⟩ := Prod.mk.inj once
    cases found
    refine ⟨⟨rest, schema, A.noDictionaries, false, false, none⟩, rest, part, ?_, rfl, remaining, ?_⟩
    · simp only [new, step, decoded]
    · rw [atOnce, openReader, ← left]
  · left
    rw [reads] at once
    cases (Prod.mk.inj once).1
    exact ⟨.ipc "empty IPC stream (no schema)", rest, by simp only [new, step]⟩
  · left
    rw [reads] at once
    cases (Prod.mk.inj once).1
    exact ⟨error, rest, by simp only [new, step]⟩

/-- Truncation never alters a delivered batch, never invents one and never looks
like a completed stream: over any source that holds a proper beginning of a
written stream, reading fails at once, or delivers some first batches of the
stream unchanged and then an error or an end without the marker. -/
theorem truncated_stream_safe (A : ArrowIpc) (lawful : A.Lawful) (stream : StreamValue A)
    (sink final : Sink Failure) (written : writeStream stream sink = (.ok (), final))
    (source : Source RpcError) (more : Bytes) (proper : more ≠ [])
    (cut : final.written = sink.written ++ (source.bytes ++ more)) :
    (∃ error, (readStream A source).1 = .error error) ∨
      ∃ read, (readStream A source).1 = .ok read ∧ read.schema = stream.schema ∧
        read.items <+: stream.readBack.items ∧
        ((∃ error, read.ending = .error error) ∨ read.ending = .ok false) := by
  obtain ⟨opening, messages, ⟨tracker, opened, sends⟩, appended⟩ := writeStream_ok written
  obtain ⟨_, framed, decoded⟩ := opening_decodes lawful opened
  have split : source.bytes ++ more = encapsulate opening.ipcMessage opening.arrowData ++
      (frames messages ++ endOfStream) := by
    rw [appended] at cut
    have same := append_cancel_left cut
    rw [← same, streamBytes, frames_cons, append_assoc]
  rcases new_cut framed decoded split with
    ⟨error, rest, failed⟩ | ⟨state, rest, part, created, schema, remaining, positioned⟩
  · exact .inl ⟨error, by simp only [readStream, failed]⟩
  · right
    have yields := sends.yieldsAll lawful (.start opened) stream.conforms
    obtain ⟨first, ending⟩ := yields.readAll_cut proper remaining positioned
    exact ⟨⟨state.schema, state.readAll.1, state.readAll.2.1⟩, by simp only [readStream, created],
      schema, first, ending⟩

/-- The first stream of the small library without the last byte of its marker,
over a source that fails at its second read. -/
theorem truncated_stream_safe_sample :
    ∃ final bytes, writeStream blobStream choppedSink = (.ok (), final) ∧
      final.written = bytes ++ [0] ∧
      ((∃ error, (readStream Sample.library
          ⟨bytes, [.chunk 3, .fail (.io "connection reset")]⟩).1 = .error error) ∨
        ∃ read, (readStream Sample.library
            ⟨bytes, [.chunk 3, .fail (.io "connection reset")]⟩).1 = .ok read ∧
          read.schema = blobStream.schema ∧ read.items <+: blobStream.readBack.items ∧
          ((∃ error, read.ending = .error error) ∨ read.ending = .ok false)) := by
  obtain ⟨final, run, _⟩ := writeStream_open Sample.library_lawful blobStream_sends
    choppedSink_reliable rfl
  obtain ⟨opening, messages, _, written⟩ := writeStream_ok run
  have cut : final.written = choppedSink.written ++
      ((frames (opening :: messages) ++ (continuationMarker ++ [0, 0, 0])) ++ [0]) := by
    rw [written, streamBytes, endOfStream]
    simp
  refine ⟨final, _, run, cut, ?_⟩
  exact truncated_stream_safe Sample.library Sample.library_lawful blobStream choppedSink final run
    ⟨_, [.chunk 3, .fail (.io "connection reset")]⟩ [0] (by decide) cut

end VgiRpc.Wire
