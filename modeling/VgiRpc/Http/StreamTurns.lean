import VgiRpc.Server.Delivery

/-!
# Stream turns over HTTP

Over HTTP a turn is a request, and the state travels in a cursor between the
requests.  The first turn of a producer folds into `/init`; every response that goes
on hands over the next cursor, on the data batch of an exchange or on a batch of its
own.
-/

namespace VgiRpc.Http

open Arrow Server

structure Resumed (σ : Type) where
  state : StreamStateKind σ
  outputSchema : Schema
  inputSchema : Option Schema

/-- Sealing a state into a cursor and opening it again.  Each request has its own clock,
nonce and cache, so both depend on the number of the request. -/
structure Cursors (τ σ : Type) where
  mint : Nat → σ → Except RpcError τ
  reopen : Nat → τ → Except RpcError (Resumed σ)

inductive StreamFrame (A : ArrowIpc) (τ : Type) where
  | reply (said : Reply A)
  /-- A data batch with the cursor in its metadata. -/
  | carrying (batch : A.Batch) (metadata : Option Metadata) (cursor : τ)
  /-- A batch without rows that is there for the cursor alone. -/
  | cursor (cursor : τ)

namespace StreamFrame

variable {A : ArrowIpc} {τ : Type}

def said : StreamFrame A τ → Option (Reply A)
  | .reply said => some said
  | .carrying batch metadata _ => some (.batch batch metadata)
  | .cursor _ => none

def token : StreamFrame A τ → Option τ
  | .reply _ => none
  | .carrying _ _ token => some token
  | .cursor token => some token

end StreamFrame

section

variable {A : ArrowIpc} {σ τ : Type} (frames : List (StreamFrame A τ))

def delivered : List (Reply A) :=
  frames.filterMap StreamFrame.said

def lastCursor : Option τ :=
  (frames.filterMap StreamFrame.token).getLast?

/-- A refusal by external storage: a cap, or an upload that failed. -/
abbrev Refusal (A : ArrowIpc) := A.Batch → Option Metadata → Option RpcError

variable (refuse : Refusal A) (cursors : Cursors τ σ)

/-- What a producer's collector holds, up to the first refusal. -/
def pushItems : List (Emitted A.Batch) → List (Reply A) × Option RpcError
  | [] => ([], none)
  | .log message :: rest => (.log message :: (pushItems rest).1, (pushItems rest).2)
  | .batch batch metadata :: rest =>
    match refuse batch metadata with
    | some error => ([.error error], some error)
    | none => (.batch batch metadata :: (pushItems rest).1, (pushItems rest).2)

/-- The replies of a producer's turn, and whether the stream is over.  A turn that emits
no data is the last one. -/
def runProducer (turn : Turn A σ) : List (Reply A) × Bool :=
  match callGuard turn.outcome with
  | .error error => (turn.logs.map .log ++ [.error error], true)
  | .ok () =>
    match pushItems refuse turn.out.items with
    | (replies, some _) => (turn.logs.map .log ++ replies, true)
    | (replies, none) =>
      (turn.logs.map .log ++ replies, turn.out.finished || !turn.out.items.any Emitted.isBatch)

def cursorFrame : Except RpcError τ → StreamFrame A τ
  | .ok cursor => .cursor cursor
  | .error error => .reply (.error error)

variable (request : Nat) (turn : Turn A σ)

def producerFrames : List (StreamFrame A τ) :=
  match runProducer refuse turn with
  | (replies, true) => replies.map .reply
  | (replies, false) => replies.map .reply ++ [cursorFrame (cursors.mint request turn.state)]

/-- What an exchange's collector holds.  The cursor rides on the data batch, or follows
on a batch of its own when there is none. -/
def carryItems (cursor : τ) : Bool → List (Emitted A.Batch) → List (StreamFrame A τ)
  | wrote, [] => if wrote then [] else [.cursor cursor]
  | wrote, .log message :: rest => .reply (.log message) :: carryItems cursor wrote rest
  | _, .batch batch metadata :: rest =>
    match refuse batch metadata with
    | some error => [.reply (.error error)]
    | none => .carrying batch metadata cursor :: carryItems cursor true rest

/-- A turn of an exchange; that its state called `finish` makes no difference. -/
def exchangeFrames : List (StreamFrame A τ) :=
  turn.logs.map (fun message => .reply (.log message)) ++ match callGuard turn.outcome with
    | .error error => [.reply (.error error)]
    | .ok () =>
      match cursors.mint request turn.state with
      | .error error => [.reply (.error error)]
      | .ok cursor => carryItems refuse cursor false turn.out.items

variable (engine : Engine A) (method : StreamMethod A σ)

/-- A response body: a header stream, and the output stream behind it. -/
structure StreamResponse (A : ArrowIpc) (τ : Type) where
  header : List (Reply A)
  frames : List (StreamFrame A τ)

/-- What `/init` does with a stream that has started: a producer takes its first turn. -/
def initFrames (result : StreamResult A σ) : List (StreamFrame A τ) :=
  match result.state with
  | .producer state =>
    producerFrames refuse cursors 0 (method.produce state (.new A result.outputSchema true))
  | .exchange state => [cursorFrame (cursors.mint 0 state)]

variable (logs : List LogMessage) (init : Outcome (StreamResult A σ))

/-- The first request.  A failing init says nothing of its logs. -/
def streamInit : StreamResponse A τ :=
  match callGuard init with
  | .error error => ⟨[], [.reply (.error error)]⟩
  | .ok result =>
    match result.header with
    | some header => ⟨headerReplies result header logs, initFrames refuse cursors method result⟩
    | none =>
      ⟨[], logs.map (fun message => .reply (.log message)) ++
        initFrames refuse cursors method result⟩

def streamExchange (request : Nat) (cursor : τ) (input : Input A) : List (StreamFrame A τ) :=
  match cursors.reopen request cursor with
  | .error error => [.reply (.error error)]
  | .ok resumed =>
    if input.cancel then
      (cancelReplies (method.onCancel resumed.state).1
        (method.onCancel resumed.state).2 : List (Reply A) × Next σ).1.map .reply
    else
      match resumed.state with
      | .producer state =>
        producerFrames refuse cursors request
          (method.produce state (.new A resumed.outputSchema true))
      | .exchange state =>
        match castInput engine resumed.inputSchema input.batch with
        | .error error => [.reply (.error error)]
        | .ok batch =>
          exchangeFrames refuse cursors request
            (method.exchange state batch (.new A resumed.outputSchema false))

/-- The turns of a client that presents the cursor it was left with. -/
def httpTurns : Nat → Option τ → List (Input A) → Delivery A
  | _, none, _ => ⟨[], true⟩
  | _, some _, [] => ⟨[], false⟩
  | request, some cursor, input :: rest =>
    (httpTurns (request + 1)
        (lastCursor (streamExchange refuse cursors engine method request cursor input)) rest).behind
      (delivered (streamExchange refuse cursors engine method request cursor input))

variable (inputs : List (Input A))

def turnsAfterInit : List (Input A) :=
  match callGuard init with
  | .ok ⟨_, _, .producer _, _, _⟩ => inputs.tail
  | _ => inputs

def httpStream : Delivery A :=
  (httpTurns refuse cursors engine method 1
      (lastCursor (streamInit refuse cursors method logs init).frames)
      (turnsAfterInit init inputs)).behind
    ((streamInit refuse cursors method logs init).header ++
      delivered (streamInit refuse cursors method logs init).frames)

end
end VgiRpc.Http
