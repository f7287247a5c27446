import VgiRpc.Server.Completion

/-!
# Responses on the wire

A server whose responses go through the stream writer.  Every stream of a served call
is then a stream the writer sends, so what the client reads of it is what the call
wrote.
-/

namespace VgiRpc.Server

open Arrow Wire
open Library (Program)
open Library.ByteStream

def memory : Sink Failure := ⟨[], none, []⟩

variable {A : ArrowIpc} {σ : Type}

/-- The same server with its responses encoded by the stream writer. -/
def Engine.onWire (engine : Engine A) : Engine A :=
  { engine with
    Tracker := A.Tracker
    opens := fun schema =>
      match (StreamWriter.new A memory schema).1 with
      | .error failure => .error failure
      | .ok writer => .ok writer.dictTracker
    writes := fun tracker batch metadata =>
      match StreamWriter.write batch metadata ⟨memory, A.schemaOf batch, tracker, false⟩ with
      | (.error failure, _) => .error failure
      | (.ok (), writer) => .ok writer.dictTracker }

variable {engine : Engine A} {tracker : A.Tracker}

theorem onWire_opens {schema : Schema} (opened : engine.onWire.opens schema = .ok tracker) :
    ∃ opening, A.schemaToBytes schema A.newTracker = some (opening, tracker) := by
  simp only [Engine.onWire] at opened
  split at opened
  · cases opened
  rename_i writer created
  cases opened
  obtain ⟨-, opening, encoded, -⟩ := new_ok (Prod.ext created rfl)
  exact ⟨opening, encoded⟩

variable (start : A.Tracker)

/-- What is on the stream is sent by the writer, and so is whatever the writer sends
next. -/
def Sending (state : Responding engine.onWire) : Prop :=
  ∃ messages, ∀ more rest, SendsAll A state.tracker more rest →
    SendsAll A start (state.sent ++ more) (messages ++ rest)

theorem sending_start (envelope : EnvelopeMeta) (tracker : A.Tracker) :
    Sending tracker (⟨envelope, tracker, []⟩ : Responding engine.onWire) :=
  ⟨[], fun _ _ sends => sends⟩

theorem write_sending (batch : A.Batch) (metadata : Option Metadata) :
    Program.Preserves (Sending start)
      (write batch metadata : Program (Responding engine.onWire) Failure Unit) := by
  rintro state ⟨messages, sends⟩
  unfold write
  split
  · exact ⟨messages, sends⟩
  · rename_i next written
    simp only [Engine.onWire] at written
    split at written
    · cases written
    rename_i writer run
    cases written
    obtain ⟨-, first, sent, -⟩ := StreamWriter.write_ok run
    refine ⟨messages ++ first, fun more rest later => ?_⟩
    have whole := sends _ _ (.cons sent later)
    simpa only [List.append_assoc, List.singleton_append] using whole

def Streamed (stream : Response A) : Prop :=
  ∃ opening tracker messages, A.schemaToBytes stream.schema A.newTracker = some (opening, tracker) ∧
    SendsAll A tracker stream.items messages

def AllStreamed (state : Serving A) : Prop := ∀ stream ∈ state.streams, Streamed stream

theorem responseStream_streamed {α : Type} (schema : Schema) {body : Program (Responding
    engine.onWire) Failure α} (sends : ∀ start, Program.Preserves (Sending start) body) :
    Program.Preserves AllStreamed (responseStream engine.onWire schema body) := by
  intro state before
  unfold responseStream
  split
  · exact before
  · rename_i tracker opened
    obtain ⟨opening, encoded⟩ := onWire_opens opened
    obtain ⟨messages, sent⟩ := sends tracker _ (sending_start state.envelope tracker)
    intro stream member
    rcases List.mem_append.mp member with earlier | last
    · exact before stream earlier
    · obtain rfl := List.mem_singleton.mp last
      refine ⟨opening, tracker, messages, encoded, ?_⟩
      simpa only [List.append_nil] using sent [] [] (.nil _)

variable (target : Target A) (said : List (Reply A))

theorem replyAll_sending : Program.Preserves (Sending start)
      (replyAll target said : Program (Responding engine.onWire) Failure Unit) :=
  replyAll_preserves (write_sending start) (fun _ _ sends => sends) target said

theorem repliesStream_streamed (ending : Ending) :
    Program.Preserves AllStreamed (responseStream engine.onWire target.schema
      (replyAll target said >>= fun _ => pure ending)) :=
  responseStream_streamed _ fun start =>
    (replyAll_sending start target said).bind fun _ => Program.preserves_pure _

variable (shm : Option Channel)

theorem outputStream_streamed (methods : StreamState A σ) (result : StreamResult A σ)
    (logs : List LogMessage) (input : Except RpcError (StreamRead A)) :
    Program.Preserves AllStreamed (outputStream engine.onWire shm methods result logs input) :=
  responseStream_streamed _ fun start =>
    outputBody_preserves (write_sending start) (fun _ _ sends => sends) logs input

theorem serveCall_streamed (call : Call A σ) :
    Program.Preserves AllStreamed (serveCall engine.onWire shm call) := by
  cases call with
  | refused schema error => exact repliesStream_streamed (plainTarget _ schema) _ _
  | unary call =>
    change Program.Preserves AllStreamed (serveUnary engine.onWire shm call)
    unfold serveUnary
    split
    · exact repliesStream_streamed (resultTarget _ shm call.resultSchema) _ _
    · exact repliesStream_streamed (plainTarget _ call.resultSchema) _ _
  | stream call input =>
    change Program.Preserves AllStreamed (serveStream engine.onWire shm call input)
    unfold serveStream
    split
    · exact repliesStream_streamed (plainTarget _ call.resultSchema) _ _
    · split
      · refine Program.Preserves.bind ?_ fun _ => outputStream_streamed _ _ _ _ _
        exact responseStream_streamed _ fun start => replyAll_sending start _ _
      · exact outputStream_streamed _ _ _ _ _

namespace Sample

open Arrow.Sample

/-- A server on the batch library that reads back what it writes. -/
def wired : Engine library :=
  ⟨⟨fun _ => .error .panicked, by rintro _ _ ⟨⟩, fun _ => 0, fun _ => .ok none, 0⟩, Unit,
    fun _ => .ok (), fun _ _ _ => .ok (), fun batch _ => .ok batch, fun _ _ _ => .ok none, render⟩

def blob : library.Batch := .blob [42]

def blobCall : Call library Unit :=
  .unary ⟨Kind.blob.schema, [], none, .returned (.ok (some blob))⟩

theorem blob_served : (served wired.onWire none envelope blobCall).streams =
    [⟨Kind.blob.schema, [(blob, none)]⟩] := by
  have ready : memory.Reliable ∧ ∀ count, memory.HasRoom count :=
    ⟨by rintro error ⟨⟩, by rintro count room ⟨⟩⟩
  have opened : wired.onWire.opens Kind.blob.schema = .ok () := by
    obtain ⟨writer, rest, created, -⟩ := new_roomy library_lawful ready.1 (ready.2 (_ + 0))
      (rfl : library.schemaToBytes Kind.blob.schema () = some (⟨[2], []⟩, ()))
    simp only [Engine.onWire, created]
    rfl
  have written : wired.onWire.writes () blob none = .ok () := by
    obtain ⟨next, run, -⟩ : ∃ next, StreamWriter.write blob none
        ⟨memory, library.schemaOf blob, (), false⟩ = (.ok (), next) ∧ next.Roomy 0 :=
      StreamWriter.write_roomy rfl (.direct rfl (by decide) rfl) ⟨ready.1, ready.2 _⟩
    simp only [Engine.onWire, run]
    rfl
  have body : write blob none (⟨envelope, (), []⟩ : Responding wired.onWire) =
      (.ok (), ⟨envelope, (), [(blob, none)]⟩) := by
    simp only [write, written]
    rfl
  have replied : (replyAll (resultTarget wired.onWire none Kind.blob.schema) [.batch blob none] >>=
      fun _ => pure Ending.resultWritten) (⟨envelope, (), []⟩ : Responding wired.onWire) =
        (.ok .resultWritten, _) := Program.bind_ok (Program.bind_ok body)
  exact congrArg (fun result => (concluded result).streams)
    (@responseStream_opened _ _ _ _ _ ⟨envelope, []⟩ _ _ _ opened replied)

end Sample

end VgiRpc.Server
