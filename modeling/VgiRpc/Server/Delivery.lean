import VgiRpc.Server.Call

/-!
# What a stream delivers

The replies a stream makes to a sequence of client turns, as the serve loop of a
byte-stream connection makes them.  Without shared memory the loop writes exactly
these replies, one turn after another.
-/

namespace VgiRpc.Server

open Arrow Metadata Wire

/-- A stream method as a transition function: it sees its state and its input, and not
the metadata of the tick. -/
structure StreamMethod (A : ArrowIpc) (σ : Type) where
  produce : σ → OutputCollector A → Turn A σ
  exchange : σ → A.Batch → OutputCollector A → Turn A σ
  onCancel : StreamStateKind σ → List LogMessage × Outcome Unit

/-- A turn of the client: an input batch, or its cancellation of the stream. -/
structure Input (A : ArrowIpc) where
  batch : A.Batch
  cancel : Bool

/-- The replies in order, and whether the stream is over.  It ended in an error if its
last reply is one. -/
structure Delivery (A : ArrowIpc) where
  replies : List (Reply A)
  ended : Bool

section

variable {A : ArrowIpc} {σ : Type}

def StreamMethod.state (method : StreamMethod A σ) : StreamState A σ where
  produce state _ := method.produce state
  exchange state input _ := method.exchange state input
  onCancel state _ := method.onCancel state

variable (input : Input A)

def Input.metadata : Metadata :=
  if input.cancel then Library.OrderedMap.empty.insert cancelKey "1" else .empty

theorem Input.metadata_cancel : (mdGet input.metadata cancelKey).isSome = input.cancel := by
  unfold Input.metadata
  cases input.cancel
  · rfl
  · rw [if_pos rfl, mdGet, Library.OrderedMap.get?_insert_self]
    rfl

def Input.frame : A.Batch × Metadata := (input.batch, input.metadata)

def Delivery.behind (replies : List (Reply A)) (delivery : Delivery A) : Delivery A :=
  ⟨replies ++ delivery.replies, delivery.ended⟩

def openingReplies (result : StreamResult A σ) (logs : List LogMessage) : List (Reply A) :=
  logs.map .log ++ result.header.toList.map fun header => .verbatim header result.headerMetadata

variable (engine : Engine A)

/-- The turns of the serve loop, with the state kept in memory: the replies, and how the
loop stopped if it did. -/
def loopRun (method : StreamMethod A σ) (result : StreamResult A σ) :
    StreamStateKind σ → List (Input A) → List (Reply A) × Option Ending
  | _, [] => ([], none)
  | state, input :: rest =>
    match iterate engine method.state result state input.batch input.metadata with
    | (replies, .stop ending) => (replies, some ending)
    | (replies, .continue next) =>
      (replies ++ (loopRun method result next rest).1, (loopRun method result next rest).2)

def pipeTurns (method : StreamMethod A σ) (result : StreamResult A σ)
    (state : StreamStateKind σ) (inputs : List (Input A)) : Delivery A :=
  ⟨(loopRun engine method result state inputs).1,
    (loopRun engine method result state inputs).2.isSome⟩

def pipeStream (method : StreamMethod A σ) (logs : List LogMessage)
    (init : Outcome (StreamResult A σ)) (inputs : List (Input A)) : Delivery A :=
  match callGuard init with
  | .error error => ⟨logs.map .log ++ [.error error], true⟩
  | .ok result =>
    (pipeTurns engine method result result.state inputs).behind (openingReplies result logs)

variable {engine}

end
end VgiRpc.Server
