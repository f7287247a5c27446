import VgiRpc.Server.Response

/-!
# Serving a call

The serve functions of a byte-stream connection, from the outcome of the handler's
first call to the end of the response.  A stream call reads its input in lockstep
with its output.  The input is the stream a reader delivers: its batches, and how it
ended.
-/

namespace VgiRpc.Server

open Arrow Metadata Wire
open Library (Program)

/-- How the serving of a call came to its end. -/
inductive Ending where
  | resultWritten
  | finished
  | inputEnded
  | cancelled
  | raised (error : RpcError)
  /-- The input stopped without its end marker. -/
  | inputCut
  | inputFailed (error : RpcError)
  /-- The call was left by an early return or a panic of the library. -/
  | failed (failure : Failure)

/-- The segment of a connection, as each turn of a call finds it when it resolves its
input and when it stores its output. -/
structure Channel where
  name : String
  resolving : Nat → Shm.Segment
  storing : Nat → Shm.Segment

variable (channel : Channel) (turn : Nat)

def Channel.atResolving : Shm.Attached :=
  ⟨channel.name, channel.resolving turn⟩

def Channel.atStoring : Shm.Attached :=
  ⟨channel.name, channel.storing turn⟩

structure UnaryCall (A : ArrowIpc) where
  resultSchema : Schema
  logs : List LogMessage
  externalRef : Option ExternalRef
  outcome : Outcome (Option A.Batch)

/-- A stream method after its init, with the methods of its state. -/
structure StreamCall (A : ArrowIpc) (σ : Type) where
  resultSchema : Schema
  logs : List LogMessage
  init : Outcome (StreamResult A σ)
  methods : StreamState A σ

/-- A response in the making: the envelope builder, and the streams that have ended. -/
structure Serving (A : ArrowIpc) where
  envelope : EnvelopeMeta
  streams : List (Response A)

inductive Next (σ : Type) where
  | continue (state : StreamStateKind σ)
  | stop (ending : Ending)

section

variable {A : ArrowIpc} {σ : Type} (engine : Engine A)

/-- Open a stream and write to it.  It ends when the writer is finished or dropped, so
it ends whatever the body comes to. -/
def responseStream {α : Type} (schema : Schema) (body : Program (Responding engine) Failure α) :
    Program (Serving A) Failure α := fun state =>
  match engine.opens schema with
  | .error failure => (.error failure, state)
  | .ok tracker =>
    match body ⟨state.envelope, tracker, []⟩ with
    | (result, after) =>
      (result, ⟨after.envelope, state.streams ++ [⟨schema, after.sent⟩]⟩)

section

variable {engine} {α : Type} {schema : Schema} {body : Program (Responding engine) Failure α}
  {state : Serving A}

theorem responseStream_unopened {failure : Failure}
    (unopened : engine.opens schema = .error failure) :
    responseStream engine schema body state = (.error failure, state) := by
  rw [responseStream, unopened]

theorem responseStream_opened {tracker : engine.Tracker} {result : Except Failure α}
    {after : Responding engine} (opened : engine.opens schema = .ok tracker)
    (run : body ⟨state.envelope, tracker, []⟩ = (result, after)) :
    responseStream engine schema body state =
      (result, ⟨after.envelope, state.streams ++ [⟨schema, after.sent⟩]⟩) := by
  rw [responseStream, opened]
  dsimp only
  rw [run]

end

/-- A stream that carries no batch of the method. -/
def plainTarget (schema : Schema) : Target A := ⟨schema, engine.emptyBatch schema, none⟩

def errorStream (schema : Schema) (logs : List LogMessage) (error : RpcError) :
    Program (Serving A) Failure Ending :=
  responseStream engine schema do
    replyAll (plainTarget engine schema) (logs.map .log ++ [.error error])
    pure (.raised error)

def resultReply (externalRef : Option ExternalRef) (result : Option A.Batch) : Reply A :=
  match externalRef, result with
  | some reference, _ => .reference reference
  | none, some batch => .batch batch none
  | none, none => .nothing

variable (shm : Option Channel)

def resultTarget (schema : Schema) : Target A :=
  ⟨schema, engine.emptyBatch schema, shm.map (·.atStoring 0)⟩

def serveUnary (call : UnaryCall A) : Program (Serving A) Failure Ending :=
  match callGuard call.outcome with
  | .ok result =>
    responseStream engine call.resultSchema do
      replyAll (resultTarget engine shm call.resultSchema)
        (call.logs.map .log ++ [resultReply call.externalRef result])
      pure .resultWritten
  | .error error => errorStream engine call.resultSchema call.logs error

def columnCountMismatch (expected found : Nat) : RpcError :=
  .typeError ("Input schema mismatch: expected " ++ toString expected ++ " fields, got " ++
    toString found)

def columnNameMismatch (expected found : String) : RpcError :=
  .typeError ("Input schema mismatch: expected field " ++ expected.quote ++ ", got " ++ found.quote)

def castBatch (batch : A.Batch) (target : Schema) : Except RpcError A.Batch :=
  if A.numColumns batch ≠ target.fields.length then
    .error (columnCountMismatch target.fields.length (A.numColumns batch))
  else
    match (target.fields.zip (A.schemaOf batch).fields).find? fun pair =>
        pair.1.name != pair.2.name with
    | some (expected, found) => .error (columnNameMismatch expected.name found.name)
    | none => engine.castColumns batch target

/-- Cast an input to the schema the method expects, when it has another. -/
def castInput (expected : Option Schema) (batch : A.Batch) : Except RpcError A.Batch :=
  match expected with
  | none => .ok batch
  | some schema =>
    if A.sameSchema (A.schemaOf batch) schema then .ok batch else castBatch engine batch schema

def Emitted.reply : Emitted A.Batch → Reply A
  | .batch batch metadata => .batch batch metadata
  | .log message => .log message

/-- The logs of the context go first, then what the collector holds; nothing of the
collector is sent when the turn failed. -/
def turnReplies (turn : Turn A (StreamStateKind σ)) : List (Reply A) × Next σ :=
  match callGuard turn.outcome with
  | .error error => (turn.logs.map .log ++ [.error error], .stop (.raised error))
  | .ok () =>
    (turn.logs.map .log ++ turn.out.items.map Emitted.reply,
      if turn.out.finished then .stop .finished else .continue turn.state)

def cancelReplies (logs : List LogMessage) (outcome : Outcome Unit) : List (Reply A) × Next σ :=
  match callGuard outcome with
  | .error error => (logs.map .log ++ [.error error], .stop .cancelled)
  | .ok () => (logs.map .log, .stop .cancelled)

def iterate (methods : StreamState A σ) (result : StreamResult A σ) (state : StreamStateKind σ)
    (batch : A.Batch) (tick : Metadata) : List (Reply A) × Next σ :=
  if (mdGet tick cancelKey).isSome then
    cancelReplies (methods.onCancel state tick).1 (methods.onCancel state tick).2
  else
    match castInput engine result.inputSchema batch with
    | .error error => ([.error error], .stop (.raised error))
    | .ok input =>
      turnReplies (methods.advance state input tick
        (.new A result.outputSchema result.inputSchema.isNone))

def inputEnding : Except RpcError Bool → Ending
  | .error error => .inputFailed error
  | .ok true => .inputEnded
  | .ok false => .inputCut

variable (shm : Option Channel) (methods : StreamState A σ) (result : StreamResult A σ)

def outputTarget (empty : A.Batch) (turn : Nat) : Target A :=
  ⟨result.outputSchema, .ok empty, shm.map (·.atStoring turn)⟩

/-- The lockstep loop: a turn for every input batch. -/
def lockstep (empty : A.Batch) (ending : Except RpcError Bool) :
    Nat → StreamStateKind σ → List (A.Batch × Metadata) → Program (Responding engine) Failure Ending
  | _, _, [] => pure (inputEnding ending)
  | turn, state, (batch, metadata) :: rest => do
      let (resolved, tick, _) ← Shm.resolveShmBatch engine.toPlane batch metadata
        (shm.map (·.atResolving turn))
      replyAll (outputTarget shm result empty turn)
        (iterate engine methods result state resolved tick).1
      match (iterate engine methods result state resolved tick).2 with
      | .stop ending => pure ending
      | .continue next => lockstep empty ending (turn + 1) next rest

section

variable {engine shm methods result} {empty : A.Batch} {ending : Except RpcError Bool}
  {turn : Nat} {state : StreamStateKind σ} {batch resolved : A.Batch} {metadata tick : Metadata}
  {released : Option Nat} {rest : List (A.Batch × Metadata)} {writer after : Responding engine}

theorem lockstep_unresolved {failure : Failure} (step : Shm.resolveShmBatch engine.toPlane batch
    metadata (shm.map (·.atResolving turn)) = .error failure) :
    lockstep engine shm methods result empty ending turn state ((batch, metadata) :: rest)
      writer = (.error failure, writer) := by
  rw [lockstep, step]
  rfl

theorem lockstep_resolved (step : Shm.resolveShmBatch engine.toPlane batch metadata (shm.map
    (·.atResolving turn)) = .ok (resolved, tick, released)) :
    lockstep engine shm methods result empty ending turn state ((batch, metadata) :: rest) writer =
      (replyAll (outputTarget shm result empty turn)
          (iterate engine methods result state resolved tick).1 >>= fun _ =>
        match (iterate engine methods result state resolved tick).2 with
        | .stop ending => pure ending
        | .continue next => lockstep engine shm methods result empty ending (turn + 1) next rest)
        writer := by
  rw [lockstep, step]
  rfl

end

variable (header : A.Batch) (logs : List LogMessage)

def headerReplies : List (Reply A) :=
  logs.map .log ++ [.verbatim header result.headerMetadata]

/-- The header goes into a stream of its own, with the logs of the init. -/
def headerStream : Program (Serving A) Failure Unit :=
  responseStream engine (A.schemaOf header)
    (replyAll (plainTarget engine (A.schemaOf header)) (headerReplies result header logs))

variable (logs : List LogMessage) (input : Except RpcError (StreamRead A))

/-- What happens on the open output stream, from the opening of the input on. -/
def outputBody : Program (Responding engine) Failure Ending := do
  let read ← Shm.failing input
  let empty ← engine.emptyBatch result.outputSchema
  replyAll (outputTarget shm result empty 0) (logs.map .log)
  lockstep engine shm methods result empty read.ending 0 result.state read.items

/-- The output stream is opened before the input is. -/
def outputStream : Program (Serving A) Failure Ending :=
  responseStream engine result.outputSchema (outputBody engine shm methods result logs input)

def serveStream (call : StreamCall A σ) (input : Except RpcError (StreamRead A)) :
    Program (Serving A) Failure Ending :=
  match callGuard call.init with
  | .error error => errorStream engine call.resultSchema call.logs error
  | .ok result =>
    match result.header with
    | some header => do
        headerStream engine result header call.logs
        outputStream engine shm call.methods result [] input
    | none => outputStream engine shm call.methods result call.logs input

end

section

variable {A : ArrowIpc} {σ : Type} {engine : Engine A} {shm : Option Channel}
  {methods : StreamState A σ} {result : StreamResult A σ} {invariant : Responding engine → Prop}
  (writes : ∀ batch metadata, Program.Preserves invariant (write batch metadata))
  (fills : ∀ state envelope, invariant state → invariant { state with envelope := envelope })

include writes fills

theorem lockstep_preserves (empty : A.Batch) (ending : Except RpcError Bool)
    (items : List (A.Batch × Metadata)) (turn : Nat) (state : StreamStateKind σ) :
    Program.Preserves invariant
      (lockstep engine shm methods result empty ending turn state items) := by
  induction items generalizing turn state with
  | nil => exact Program.preserves_pure _
  | cons item rest ih =>
    refine (Program.preserves_lift _).bind fun resolution => ?_
    refine (replyAll_preserves writes fills _ _).bind fun _ => ?_
    split
    · exact Program.preserves_pure _
    · exact ih _ _

theorem outputBody_preserves (logs : List LogMessage) (input : Except RpcError (StreamRead A)) :
    Program.Preserves invariant (outputBody engine shm methods result logs input) :=
  (Program.preserves_lift _).bind fun _ => (Program.preserves_lift _).bind fun _ =>
    (replyAll_preserves writes fills _ _).bind fun _ =>
      lockstep_preserves writes fills _ _ _ _ _

end
end VgiRpc.Server
