import VgiRpc.Arrow.Ipc
import VgiRpc.Envelope
import VgiRpc.StreamCodec

/-!
# Stream methods

What a streaming method returns when it starts, and what one call of its state
does: it logs, emits at most one batch, may mark the stream as finished, and
returns, fails or panics.
-/

namespace VgiRpc

open Arrow

inductive Emitted (β : Type) where
  | batch (batch : β) (metadata : Option Metadata)
  | log (message : LogMessage)

def Emitted.isBatch {β : Type} : Emitted β → Bool
  | .batch _ _ => true
  | .log _ => false

/-- What one streaming iteration has emitted.  Its slot for a data batch is used at most
once, for a batch of the stream's schema. -/
structure OutputCollector (A : ArrowIpc) where
  schema : Schema
  items : List (Emitted A.Batch)
  dataEmitted : Bool
  finished : Bool
  isProducer : Bool
  tracked : items.countP Emitted.isBatch = dataEmitted.toNat
  typed : ∀ batch metadata, Emitted.batch batch metadata ∈ items →
    A.sameSchema (A.schemaOf batch) schema = true

namespace OutputCollector

variable {A : ArrowIpc}

def new (A : ArrowIpc) (schema : Schema) (isProducer : Bool) : OutputCollector A where
  schema := schema
  items := []
  dataEmitted := false
  finished := false
  isProducer := isProducer
  tracked := rfl
  typed := by simp

def slotTaken : RpcError :=
  .protocolError "only one data batch may be emitted per stream turn"

variable (debug : List Field → String) (operation : String)

def mismatch (expected found : Schema) : RpcError :=
  .runtimeError (operation ++ "(): schema mismatch — expected " ++ debug expected.fields ++ ", got " ++
    debug found.fields)

/-- Use the slot for a data batch; `operation` names the method in a refusal. -/
def push (out : OutputCollector A) (batch : A.Batch)
    (metadata : Option Metadata) : Except RpcError (OutputCollector A) :=
  if free : out.dataEmitted = false then
    if same : A.sameSchema (A.schemaOf batch) out.schema = true then
      .ok { out with
        items := out.items ++ [.batch batch metadata]
        dataEmitted := true
        tracked := by rw [List.countP_append, out.tracked, free]; rfl
        typed := by
          intro other entries member
          rw [List.mem_append, List.mem_singleton] at member
          rcases member with earlier | last
          · exact out.typed other entries earlier
          · injection last with batches
            rw [batches, same] }
    else .error (mismatch debug operation out.schema (A.schemaOf batch))
  else .error slotTaken

variable (out : OutputCollector A) (batch : A.Batch)

def emit : Except RpcError (OutputCollector A) :=
  push debug "emit" out batch none

def emitWithMetadata (metadata : Metadata) : Except RpcError (OutputCollector A) :=
  push debug "emit_with_metadata" out batch (some metadata)

def clientLog (message : LogMessage) : OutputCollector A :=
  { out with
    items := out.items ++ [.log message]
    tracked := by rw [List.countP_append, out.tracked]; rfl
    typed := by
      intro batch metadata member
      rw [List.mem_append, List.mem_singleton] at member
      rcases member with earlier | last
      · exact out.typed batch metadata earlier
      · cases last }

def finish : OutputCollector A :=
  { out with finished := true }

end OutputCollector

/-- One call into a stream's state: the logs left in the call's context, the collector,
the state afterwards, and how the call ended. -/
structure Turn (A : ArrowIpc) (σ : Type) where
  logs : List LogMessage
  out : OutputCollector A
  state : σ
  outcome : Outcome Unit

inductive StreamStateKind (σ : Type) where
  | producer (state : σ)
  | exchange (state : σ)

/-- The methods of the two state traits; each sees the metadata of the tick that
called it. -/
structure StreamState (A : ArrowIpc) (σ : Type) where
  produce : σ → Metadata → OutputCollector A → Turn A σ
  exchange : σ → A.Batch → Metadata → OutputCollector A → Turn A σ
  /-- A cancel hook logs, and returns or panics. -/
  onCancel : StreamStateKind σ → Metadata → List LogMessage × Outcome Unit

namespace StreamState

variable {A : ArrowIpc} {σ : Type}

/-- The state after a turn keeps the kind it had. -/
def advance (methods : StreamState A σ) (state : StreamStateKind σ) (input : A.Batch)
    (tick : Metadata) (out : OutputCollector A) : Turn A (StreamStateKind σ) :=
  match state with
  | .producer state =>
    let turn := methods.produce state tick out
    ⟨turn.logs, turn.out, .producer turn.state, turn.outcome⟩
  | .exchange state =>
    let turn := methods.exchange state input tick out
    ⟨turn.logs, turn.out, .exchange turn.state, turn.outcome⟩

end StreamState

structure StreamResult (A : ArrowIpc) (σ : Type) where
  outputSchema : Schema
  /-- Absent for a producer. -/
  inputSchema : Option Schema
  state : StreamStateKind σ
  header : Option A.Batch
  headerMetadata : Option Metadata

namespace StreamResult

variable {A : ArrowIpc} {σ : Type}

def producer (schema : Schema) (state : σ) : StreamResult A σ :=
  ⟨schema, none, .producer state, none, none⟩

def exchange (outputSchema inputSchema : Schema) (state : σ) : StreamResult A σ :=
  ⟨outputSchema, some inputSchema, .exchange state, none, none⟩

def withHeader (result : StreamResult A σ) (header : A.Batch) : StreamResult A σ :=
  { result with header := some header }

end StreamResult
end VgiRpc
