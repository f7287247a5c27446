import VgiRpc.Http.StreamTurns
import VgiRpc.Server.Sample

/-!
# The same stream over both transports

A stream that is served over HTTP delivers what the pipe serve loop delivers for the
same method, up to two rules of the HTTP transport: a turn of a producer that emits no
data is its last, and an exchange cannot finish its stream.
-/

namespace VgiRpc.Http

open Arrow Server
open Server.Sample (engine)

def replaceState {σ : Type} : StreamStateKind σ → σ → StreamStateKind σ
  | .producer _, state => .producer state
  | .exchange _, state => .exchange state

variable {A : ArrowIpc}

/-- A stream result as the two constructors build it: a producer has no input schema, an
exchange has one. -/
def Shaped {σ : Type} (result : StreamResult A σ) : Prop :=
  match result.state with
  | .producer _ => result.inputSchema = none
  | .exchange _ => result.inputSchema.isSome = true

variable {σ τ : Type} (cursors : Cursors τ σ) (result : StreamResult A σ) (request : Nat)

/-- A cursor that a request opens to this state of the stream. -/
def Opens (cursor : τ) (state : σ) : Prop :=
  cursors.reopen request cursor =
    .ok ⟨replaceState result.state state, result.outputSchema, result.inputSchema⟩

/-- Every state can be sealed into a cursor at this request, and the next request opens
it. -/
def Faithful : Prop :=
  ∀ state, ∃ cursor, cursors.mint request state = .ok cursor ∧
    Opens cursors result (request + 1) cursor state

/-- Nothing is refused: no cap is hit and no upload fails. -/
def Admitting (refuse : Refusal A) : Prop :=
  ∀ batch metadata, refuse batch metadata = none

def overHttp {σ : Type} (method : StreamMethod A σ) : StreamMethod A σ where
  produce state out :=
    let turn := method.produce state out
    { turn with
      out := { turn.out with
        finished := turn.out.finished || !turn.out.items.any Emitted.isBatch } }
  exchange state input out :=
    let turn := method.exchange state input out
    { turn with out := { turn.out with finished := false } }
  onCancel := method.onCancel

section

variable {A : ArrowIpc} {σ τ : Type} (first second : List (StreamFrame A τ))

theorem delivered_append : delivered (first ++ second) = delivered first ++ delivered second :=
  List.filterMap_append ..

variable (replies : List (Reply A))

theorem delivered_replies :
    delivered (replies.map (.reply : Reply A → StreamFrame A τ)) = replies := by
  rw [delivered, List.filterMap_map]
  exact List.filterMap_some

theorem lastCursor_append :
    lastCursor (first ++ second) = (lastCursor second).or (lastCursor first) := by
  rw [lastCursor, List.filterMap_append, List.getLast?_append]
  rfl

theorem lastCursor_cons (frame : StreamFrame A τ) (rest : List (StreamFrame A τ)) :
    lastCursor (frame :: rest) = (lastCursor rest).or frame.token := by
  rw [← List.singleton_append, lastCursor_append]
  cases frame <;> rfl

theorem lastCursor_replies :
    lastCursor (replies.map (.reply : Reply A → StreamFrame A τ)) = none := by
  induction replies with
  | nil => rfl
  | cons said rest ih =>
    rw [List.map_cons, lastCursor_cons, ih]
    rfl

theorem map_reply_log (logs : List LogMessage) :
    (logs.map fun message => (.reply (.log message) : StreamFrame A τ)) =
      (logs.map Reply.log).map .reply := by
  rw [List.map_map]
  rfl

variable {refuse : Refusal A} (admits : Admitting refuse)

include admits

theorem pushItems_admitting (items : List (Emitted A.Batch)) :
    pushItems refuse items = (items.map Emitted.reply, none) := by
  induction items with
  | nil => rfl
  | cons item rest ih =>
    cases item with
    | log message => simp [pushItems, ih, Emitted.reply]
    | batch batch metadata => simp [pushItems, ih, Emitted.reply, admits batch metadata]

variable (cursor : τ) (wrote : Bool) (items : List (Emitted A.Batch))

theorem carryItems_delivered :
    delivered (carryItems refuse cursor wrote items) = items.map Emitted.reply := by
  induction items generalizing wrote with
  | nil => cases wrote <;> rfl
  | cons item rest ih =>
    cases item with
    | log message =>
      rw [carryItems, ← List.singleton_append, delivered_append, ih]
      rfl
    | batch batch metadata =>
      simp only [carryItems, admits batch metadata]
      rw [← List.singleton_append, delivered_append, ih]
      rfl

/-- The cursor gets out: on the data batch, or behind everything unless it was on an
earlier one. -/
theorem carryItems_cursor : lastCursor (carryItems refuse cursor wrote items) = some cursor ∨
      wrote = true ∧ lastCursor (carryItems refuse cursor wrote items) = none := by
  induction items generalizing wrote with
  | nil => cases wrote <;> simp [carryItems, lastCursor, StreamFrame.token]
  | cons item rest ih =>
    cases item with
    | log message =>
      rw [carryItems, lastCursor_cons]
      simpa [StreamFrame.token] using ih wrote
    | batch batch metadata =>
      simp only [carryItems, admits batch metadata, lastCursor_cons]
      left
      rcases ih true with found | ⟨-, none⟩
      · rw [found]
        rfl
      · rw [none]
        rfl

end

section

variable {A : ArrowIpc} {σ τ : Type} {refuse : Refusal A} {cursors : Cursors τ σ}
  {result : StreamResult A σ} {request : Nat}

/-- The response delivers the replies of a turn of the loop, and hands over a cursor for
the state the loop goes on with, or none if it stops. -/
structure Answers (cursors : Cursors τ σ) (result : StreamResult A σ) (request : Nat)
    (frames : List (StreamFrame A τ)) (said : List (Reply A) × Next σ) : Prop where
  replies : delivered frames = said.1
  next : match said.2 with
    | .stop _ => lastCursor frames = none
    | .continue kind => ∃ cursor state, lastCursor frames = some cursor ∧
        kind = replaceState result.state state ∧
        Opens cursors result (request + 1) cursor state

theorem answers_stop (replies : List (Reply A)) (ending : Ending) :
    Answers cursors result request (replies.map .reply) (replies, .stop ending) :=
  ⟨delivered_replies replies, lastCursor_replies replies⟩

theorem cancelReplies_answers (logs : List LogMessage) (outcome : Outcome Unit) :
    Answers cursors result request
      ((cancelReplies logs outcome : List (Reply A) × Next σ).1.map .reply)
      (cancelReplies logs outcome) := by
  unfold cancelReplies
  split <;> exact answers_stop _ _

section

variable {initial : σ} (admits : Admitting refuse) (faithful : Faithful cursors result request)

include admits faithful

theorem producerFrames_answers (producer : result.state = .producer initial) (turn : Turn A σ) :
    Answers cursors result request (producerFrames refuse cursors request turn)
      (turnReplies ⟨turn.logs, { turn.out with
        finished := turn.out.finished || !turn.out.items.any Emitted.isBatch },
        .producer turn.state, turn.outcome⟩) := by
  unfold producerFrames runProducer turnReplies
  cases callGuard turn.outcome with
  | error error => exact answers_stop _ _
  | ok done =>
    rw [pushItems_admitting admits]
    dsimp only
    cases turn.out.finished || !turn.out.items.any Emitted.isBatch with
    | true => exact answers_stop _ _
    | false =>
      obtain ⟨cursor, minted, opens⟩ := faithful turn.state
      rw [minted]
      constructor
      · rw [delivered_append, delivered_replies]
        exact List.append_nil _
      · refine ⟨cursor, turn.state, ?_, ?_, opens⟩
        · rw [lastCursor_append]
          rfl
        · rw [producer]
          rfl

theorem exchangeFrames_answers (exchange : result.state = .exchange initial) (turn : Turn A σ) :
    Answers cursors result request (exchangeFrames refuse cursors request turn)
      (turnReplies ⟨turn.logs, { turn.out with finished := false }, .exchange turn.state,
        turn.outcome⟩) := by
  unfold exchangeFrames turnReplies
  rw [map_reply_log]
  cases callGuard turn.outcome with
  | error error =>
    have replies : Answers cursors result request
        ((turn.logs.map Reply.log ++ [Reply.error error]).map .reply)
        (turn.logs.map Reply.log ++ [Reply.error error], .stop (.raised error)) :=
      answers_stop _ _
    rwa [List.map_append] at replies
  | ok done =>
    obtain ⟨cursor, minted, opens⟩ := faithful turn.state
    rw [minted]
    constructor
    · rw [delivered_append, delivered_replies, carryItems_delivered admits]
    · refine ⟨cursor, turn.state, ?_, ?_, opens⟩
      · rw [lastCursor_append]
        rcases carryItems_cursor admits cursor false turn.out.items with found | ⟨⟨⟩, -⟩
        rw [found]
        rfl
      · rw [exchange]
        rfl

variable {engine : Engine A} {method : StreamMethod A σ} (shaped : Shaped result)

include shaped

/-- A continuation request answers as a turn of the loop over the adjusted method. -/
theorem streamExchange_answers {cursor : τ} {state : σ}
    (opens : Opens cursors result request cursor state) (input : Input A) :
    Answers cursors result request
      (streamExchange refuse cursors engine method request cursor input)
      (iterate engine (overHttp method).state result (replaceState result.state state) input.batch
        input.metadata) := by
  unfold streamExchange iterate
  rw [opens, Input.metadata_cancel]
  dsimp only
  split
  · exact cancelReplies_answers _ _
  · unfold Shaped at shaped
    cases kind : result.state with
    | producer initial =>
      rw [kind] at shaped
      rw [shaped]
      exact producerFrames_answers admits faithful kind _
    | exchange initial =>
      rw [kind] at shaped
      simp only [replaceState]
      cases castInput engine result.inputSchema input.batch with
      | error error => exact answers_stop [.error error] _
      | ok batch =>
        have flag : result.inputSchema.isNone = false := by
          rw [← Option.not_isSome, shaped]
          rfl
        rw [flag]
        exact exchangeFrames_answers admits faithful kind _

end

variable {engine : Engine A} {method : StreamMethod A σ} {input : Input A}

theorem answers_run {frames : List (StreamFrame A τ)} {kind : StreamStateKind σ} {rest : List (Input
    A)} (answers : Answers cursors result request frames (iterate engine (overHttp method).state
    result kind input.batch input.metadata)) (later : ∀ cursor state, Opens cursors result (request
    + 1) cursor state → httpTurns refuse cursors engine method (request + 1) (some cursor) rest =
    pipeTurns engine (overHttp method) result (replaceState result.state state) rest) :
    (httpTurns refuse cursors engine method (request + 1) (lastCursor frames) rest).behind
        (delivered frames) =
      pipeTurns engine (overHttp method) result kind (input :: rest) := by
  simp only [pipeTurns, loopRun]
  generalize iterate engine (overHttp method).state result kind input.batch input.metadata = turn
    at answers ⊢
  obtain ⟨said, kind | ending⟩ := turn <;> obtain ⟨replies, next⟩ := answers <;> rw [replies]
  · obtain ⟨cursor, state, found, rfl, opens⟩ := next
    rw [found, later cursor state opens]
    rfl
  · rw [show lastCursor frames = none from next, httpTurns]
    simp [Delivery.behind]

theorem httpTurns_eq (admits : Admitting refuse) (shaped : Shaped result) (inputs : List (Input A))
    (faithful : ∀ turn < inputs.length, Faithful cursors result (request + turn)) (cursor : τ)
    (state : σ) (opens : Opens cursors result request cursor state) :
    httpTurns refuse cursors engine method request (some cursor) inputs =
      pipeTurns engine (overHttp method) result (replaceState result.state state) inputs := by
  induction inputs generalizing request cursor state with
  | nil => rfl
  | cons input rest ih =>
    rw [httpTurns]
    refine answers_run (streamExchange_answers admits (faithful 0 (Nat.succ_pos _)) shaped opens
      input) (ih fun turn bound => ?_)
    rw [Nat.add_assoc, Nat.add_comm 1 turn]
    exact faithful (turn + 1) (Nat.succ_lt_succ bound)

/-- `/init` answers a producer as its first turn; an exchange gets a cursor for the state
it starts with. -/
theorem initFrames_exchange {initial : σ} (faithful : Faithful cursors result 0)
    (exchange : result.state = .exchange initial) :
    delivered (initFrames refuse cursors method result) = [] ∧ ∃ cursor,
      lastCursor (initFrames refuse cursors method result) = some cursor ∧
        Opens cursors result 1 cursor initial := by
  obtain ⟨cursor, minted, opens⟩ := faithful initial
  rw [initFrames, exchange]
  dsimp only
  rw [minted]
  exact ⟨rfl, cursor, rfl, opens⟩

theorem initFrames_producer {initial : σ} (admits : Admitting refuse)
    (faithful : Faithful cursors result 0) (shaped : Shaped result)
    (producer : result.state = .producer initial) (ticks : input.cancel = false) :
    Answers cursors result 0 (initFrames refuse cursors method result)
      (iterate engine (overHttp method).state result result.state input.batch input.metadata) := by
  unfold Shaped at shaped
  rw [producer] at shaped
  unfold iterate initFrames
  rw [Input.metadata_cancel, ticks, if_neg Bool.false_ne_true, shaped, producer]
  exact producerFrames_answers admits faithful producer _

theorem httpStream_started (logs : List LogMessage) {init : Outcome (StreamResult A σ)}
    (started : callGuard init = .ok result) (inputs : List (Input A)) :
    httpStream refuse cursors engine method logs init inputs =
      ((httpTurns refuse cursors engine method 1
          (lastCursor (initFrames refuse cursors method result))
          (turnsAfterInit init inputs)).behind
        (delivered (initFrames refuse cursors method result))).behind
          (openingReplies result logs) := by
  unfold httpStream streamInit openingReplies
  rw [started]
  dsimp only
  cases result.header with
  | none =>
    dsimp only
    rw [map_reply_log, lastCursor_append, delivered_append, lastCursor_replies, delivered_replies]
    simp [Delivery.behind]
  | some header => simp [Delivery.behind, headerReplies]

end

section

variable {A : ArrowIpc} {σ τ : Type}

/-- A stream over HTTP delivers what the pipe loop delivers for the adjusted method: for
every sequence of turns, of which a producer's first is a tick, unless an init that fails
has logged. -/
theorem http_delivers_pipe (engine : Engine A) (method : StreamMethod A σ) (cursors : Cursors τ σ)
    (refuse : Refusal A) (admits : Admitting refuse) (logs : List LogMessage) (init : Outcome
    (StreamResult A σ)) (inputs : List (Input A)) (silent : ∀ error, callGuard init = .error error →
    logs = []) (shaped : ∀ result, callGuard init = .ok result → Shaped result) (faithful : ∀
    result, callGuard init = .ok result → ∀ request ≤ inputs.length, Faithful cursors result
    request) (ticks : ∀ result initial, callGuard init = .ok result → result.state = .producer
    initial → ∃ first rest, inputs = first :: rest ∧ first.cancel = false) :
    httpStream refuse cursors engine method logs init inputs =
      pipeStream engine (overHttp method) logs init inputs := by
  cases started : callGuard init with
  | error error =>
    rw [silent error started]
    have ended : lastCursor [(.reply (.error error) : StreamFrame A τ)] = none := rfl
    simp only [httpStream, pipeStream, streamInit, started, ended, httpTurns]
    rfl
  | ok result =>
    rw [httpStream_started logs started, pipeStream, started]
    refine congrArg (Delivery.behind (openingReplies result logs)) ?_
    have sound := faithful result started
    have form := shaped result started
    obtain ⟨output, input, state, header, metadata⟩ := result
    cases state with
    | producer initial =>
      obtain ⟨first, rest, rfl, tick⟩ := ticks _ initial started rfl
      rw [turnsAfterInit, started]
      refine answers_run (initFrames_producer admits (sound 0 (Nat.zero_le _)) form rfl tick)
        (httpTurns_eq admits form rest fun turn bound => ?_)
      exact sound _ (by rw [List.length_cons]; omega)
    | exchange initial =>
      obtain ⟨nothing, cursor, found, opens⟩ := initFrames_exchange (sound 0 (Nat.zero_le _)) rfl
      rw [turnsAfterInit, started, found, nothing,
        httpTurns_eq admits form inputs (fun turn bound => sound _ (by omega)) cursor initial opens]
      rfl

end

namespace Sample

open Server.Sample

/-- A method whose producer emits a row each turn, logs first, and fails at its third
turn; its exchange finishes at once. -/
def rowsMethod : StreamMethod tables Nat where
  produce count out :=
    match out.emit (fun _ => "fields") (out.schema, 1) with
    | .ok emitted =>
      ⟨[⟨.info, "row", []⟩], emitted, count + 1,
        .returned (if count = 2 then .error (.valueError "exhausted") else .ok ())⟩
    | .error error => ⟨[], out, count, .returned (.error error)⟩
  exchange count _ out := ⟨[], out.finish, count + 1, .returned (.ok ())⟩
  onCancel _ := ([], .returned (.ok ()))

def idleMethod : StreamMethod tables Nat where
  produce count out := ⟨[], out, count + 1, .returned (.ok ())⟩
  exchange count _ out := ⟨[], out, count + 1, .returned (.ok ())⟩
  onCancel _ := ([], .returned (.ok ()))

def plainCursors (kind : Nat → StreamStateKind Nat) (inputSchema : Option Schema) :
    Cursors Nat Nat where
  mint _ state := .ok state
  reopen _ cursor := .ok ⟨kind cursor, .empty, inputSchema⟩

def tick : Input tables := ⟨(.empty, 0), false⟩

end Sample

open Sample

/-- A producer that emits nothing goes on over a pipe and has ended over HTTP. -/
theorem idle_producer_ends_over_http :
    httpStream (fun _ _ => none) (plainCursors .producer none) engine
        idleMethod [] (.returned (.ok (.producer .empty 0))) [tick] ≠
      pipeStream engine idleMethod [] (.returned (.ok (.producer .empty 0))) [tick] := by
  intro same
  exact Bool.noConfusion (congrArg Delivery.ended same)

theorem http_delivers_pipe_rows : httpStream (fun _ _ => none) (plainCursors .producer none) engine
        rowsMethod [⟨.info, "start", []⟩] (.returned (.ok (.producer .empty 0)))
        [tick, tick, tick, tick] =
      pipeStream engine (overHttp rowsMethod) [⟨.info, "start", []⟩]
        (.returned (.ok (.producer .empty 0)))
        [tick, tick, tick, tick] := by
  refine http_delivers_pipe _ _ _ _ (fun _ _ => rfl) _ _ _ ?_ ?_ ?_ ?_
  · rintro error ⟨⟩
  · rintro result ⟨⟩
    rfl
  · rintro result ⟨⟩ request - state
    exact ⟨state, rfl, rfl⟩
  · rintro result initial ⟨⟩ -
    exact ⟨_, _, rfl, rfl⟩

end VgiRpc.Http
