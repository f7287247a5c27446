import VgiRpc.Http.ResponseCap
import VgiRpc.Server.Report

/-!
# The bodies of responses

What the handler of a request says goes into the streams of its response piece by piece,
up to the first failure.
-/

namespace VgiRpc.Logging

open Arrow List Option Metadata Server

inductive HttpReader where
  | result
  | header
  | opening (exchange : Bool)
  | turn (exchange : Bool)
  /-- The response to a cancellation. -/
  | cancelled
  deriving DecidableEq

def emittedPurpose {β : Type} : Emitted β → Purpose
  | .batch _ _ => .data
  | .log message => .log message

section

open Http
open Http.Dispatch (HttpServer Request stripFrameworkTickMetadata)

variable {A : ArrowIpc} {σ : Type} (turn : Turn A σ)

def turnSaid : List Purpose :=
  turn.logs.map .log ++ turn.out.items.map emittedPurpose

/-- A producer goes on while it has data. -/
def producerSaid : List Purpose :=
  turnSaid turn ++ if turn.out.finished || !turn.out.items.any Emitted.isBatch then [] else [.token]

/-- An exchange without data answers with a cursor alone. -/
def exchangeSaid : List Purpose :=
  turnSaid turn ++ if turn.out.items.any Emitted.isBatch then [] else [.token]

def isExchange : StreamStateKind σ → Bool
  | .producer _ => false
  | .exchange _ => true

variable (methods : StreamState A σ) (result : StreamResult A σ)

/-- What `/init` says behind the logs of the init. -/
def openingSaid (tick : Metadata) : List Purpose :=
  match result.state with
  | .producer state => producerSaid (methods.produce state tick (.new A result.outputSchema true))
  | .exchange _ => [.token]

def initSaid (logs : List LogMessage) (tick : Metadata) : List (HttpReader × List Purpose) :=
  match result.header with
  | some _ =>
    [(.header, logs.map .log ++ [.data]),
      (.opening (isExchange result.state), openingSaid methods result tick)]
  | none =>
    [(.opening (isExchange result.state), logs.map .log ++ openingSaid methods result tick)]

variable (server : HttpServer A)

def continuationSaid (methods : StreamState A σ) (resumed : Resumed σ) (batch : A.Batch)
    (metadata : Metadata) : List (HttpReader × List Purpose) :=
  if (mdGet metadata cancelKey).isSome then
    [(.cancelled, (methods.onCancel resumed.state .empty).1.map .log)]
  else
    match resumed.state with
    | .producer state =>
      [(.turn false, producerSaid (methods.produce state (stripFrameworkTickMetadata metadata)
        (.new A resumed.outputSchema true)))]
    | .exchange state =>
      match castInput server.toEngine resumed.inputSchema batch with
      | .error _ => []
      | .ok input =>
        [(.turn true, exchangeSaid (methods.exchange state input
          (stripFrameworkTickMetadata metadata) (.new A resumed.outputSchema false)))]

/-- What a handler says on each stream of its response, with how the client reads it; a
client declares a header when there is one. -/
def httpSaid : Request A σ → List (HttpReader × List Purpose)
  | .unary call => [(.result, call.logs.map .log ++ [.data])]
  | .reflection _ => []
  | .init _ call tick =>
    match callGuard call.init with
    | .error _ => []
    | .ok result => initSaid call.methods result call.logs tick
  | .continuation _ methods _ resumed batch metadata =>
    continuationSaid server methods resumed batch metadata

def Handled : Request A σ → Prop
  | .reflection _ => False
  | .unary _ | .init _ _ _ | .continuation _ _ _ _ _ _ => True

end

end VgiRpc.Logging

namespace VgiRpc.Http.Dispatch

open Arrow List Option Metadata Server Logging

section

variable {A : ArrowIpc} {σ : Type} {server : HttpServer A} {piece : Piece A server.render}
  {error : RpcError} {schema : Schema} {origin : Origin} {logs : List LogMessage}
  {limit : Option Nat} {sheet : Sheet A server.render} {answer : Answer A server.render}
  {mint : TokenMint σ} {result : StreamResult A σ} {written : Written A server.render}
  {said more : List Purpose} {pieces : List (Piece A server.render)}
  {items : List (Emitted A.Batch)} {message : LogMessage}

theorem logPiece_silent (made : logPiece server origin schema message = some piece) :
    piece.purpose = .log message := by
  obtain ⟨empty, -, made⟩ := bind_eq_some_iff.mp made
  cases made
  rfl

variable (server) in
/-- How a body is put together, and for which purposes; what would have come behind a
failure is left open. -/
inductive Composed : Written A server.render → List Purpose → Prop
  | nil : Composed ⟨[], none⟩ []
  | failing {origin : Origin} {schema : Schema} {error : RpcError}
      {written : Written A server.render} {said : List Purpose}
      (made : failing server origin schema error = some written) :
      Composed written said
  | token {empty : A.Batch} (rows : A.numRows empty = 0) (tokens : Tokens) :
      Composed ⟨[tokenPiece empty tokens], none⟩ [.token]
  | behind {piece : Piece A server.render} {written : Written A server.render}
      {said : List Purpose} (silent : piece.purpose.isError = false)
      (spoken : piece.purpose ≠ .token) (rest : Composed written said) :
      Composed (written.behind [piece]) (piece.purpose :: said)

section

variable (composed : Composed server written said)
include composed

theorem Composed.behindLog (made : logPiece server origin schema message = some piece) :
    Composed server (written.behind [piece]) (.log message :: said) := by
  rw [← logPiece_silent made]
  refine .behind ?_ ?_ composed
  · rw [logPiece_silent made]
    rfl
  · rw [logPiece_silent made]
    rintro ⟨⟩

theorem Composed.behindData (item : Item A) :
    Composed server (written.behind [.data item]) (.data :: said) :=
  have silent : (Piece.data item : Piece A server.render).purpose.isError = false := rfl
  .behind silent (by rintro ⟨⟩) composed

theorem Composed.behindLogs (logged : logPieces server origin schema logs = some pieces) :
    Composed server (written.behind pieces) (logs.map .log ++ said) := by
  induction logs generalizing pieces with
  | nil => cases logged; exact composed
  | cons message rest ih =>
    obtain ⟨piece, one, logged⟩ := bind_eq_some_iff.mp logged
    obtain ⟨more, others, logged⟩ := bind_eq_some_iff.mp logged
    cases logged
    exact (ih others).behindLog one

/-- A body that failed leaves open what else was to be said. -/
theorem Composed.extend (failed : written.error ≠ none)
    (more : List Purpose) : Composed server written (said ++ more) := by
  induction composed with
  | nil => exact absurd rfl failed
  | failing made => exact .failing made
  | token rows tokens => exact absurd rfl failed
  | behind silent spoken rest ih => exact .behind silent spoken (ih failed)

end

theorem Composed.after {first : Written A server.render} (composed : Composed server first said)
    (sound : first.error = none) (tokenless : Purpose.token ∉ said)
    (second : Composed server written more) :
    Composed server (written.behind first.pieces) (said ++ more) := by
  induction composed with
  | nil => exact second
  | failing made =>
    obtain ⟨piece, -, made⟩ := bind_eq_some_iff.mp made
    cases made
    cases sound
  | token rows tokens => exact absurd mem_cons_self tokenless
  | behind silent spoken rest ih =>
    exact .behind silent spoken (ih sound fun member => tokenless (mem_cons_of_mem _ member))

variable {cumulative : Nat}

theorem producerPieces_composed
    (made : producerPieces server origin limit schema cumulative items = some written) :
    Composed server written (items.map emittedPurpose) := by
  induction items generalizing cumulative written with
  | nil => cases made; exact .nil
  | cons item rest ih =>
    cases item with
    | log message =>
      obtain ⟨piece, one, made⟩ := bind_eq_some_iff.mp made
      obtain ⟨more, others, made⟩ := bind_eq_some_iff.mp made
      cases made
      exact (ih others).behindLog one
    | batch batch metadata =>
      obtain ⟨emit, -, made⟩ := bind_eq_some_iff.mp made
      cases emit with
      | pointer item charged | inline =>
        obtain ⟨more, others, made⟩ := bind_eq_some_iff.mp made
        cases made
        exact (ih others).behindData _
      | failed error charged => exact .failing made

theorem tokenPieces_composed {minted : Except RpcError Tokens}
    (made : tokenPieces server origin schema minted = some written) :
    Composed server written [.token] := by
  cases minted with
  | error error => exact .failing made
  | ok tokens =>
    obtain ⟨empty, -, made⟩ := bind_eq_some_iff.mp made
    cases made
    exact .token empty.property tokens

theorem exchangePieces_composed {cursor : String} {wrote : Bool} (made : exchangePieces server
    origin limit schema cursor cumulative wrote items = some written) :
    Composed server written (items.map emittedPurpose ++
      if wrote || items.any Emitted.isBatch then [] else [.token]) := by
  induction items generalizing cumulative wrote written with
  | nil =>
    unfold exchangePieces at made
    cases wrote with
    | true => cases made; exact .nil
    | false =>
      rw [if_neg Bool.false_ne_true] at made
      exact tokenPieces_composed made
  | cons item rest ih =>
    cases item with
    | log message =>
      obtain ⟨piece, one, made⟩ := bind_eq_some_iff.mp made
      obtain ⟨more, others, made⟩ := bind_eq_some_iff.mp made
      cases made
      exact (ih others).behindLog one
    | batch batch metadata =>
      have written : (wrote || (Emitted.batch batch metadata :: rest).any Emitted.isBatch) =
          true := Bool.or_true _
      rw [written]
      obtain ⟨emit, -, made⟩ := bind_eq_some_iff.mp made
      cases emit with
      | pointer item charged | inline =>
        obtain ⟨more, others, made⟩ := bind_eq_some_iff.mp made
        cases made
        exact (ih others).behindData _
      | failed error charged => exact .failing made

theorem token_notMem_logs (logs : List LogMessage) : Purpose.token ∉ logs.map Purpose.log := by
  intro member
  obtain ⟨message, -, same⟩ := mem_map.mp member
  cases same

theorem turnSaid_tokenless (turn : Turn A σ) : Purpose.token ∉ turnSaid turn := by
  intro member
  rcases mem_append.mp member with logged | emitted
  · exact token_notMem_logs turn.logs logged
  · obtain ⟨item, -, same⟩ := mem_map.mp emitted
    cases item <;> cases same

variable {turn : Turn A σ}

theorem producerTurn_composed {minted : Option (Except RpcError Tokens)}
    (made : producerTurn server origin limit schema turn minted = some written) :
    Composed server written (producerSaid turn) := by
  obtain ⟨⟨first, finished⟩, ran, made⟩ := bind_eq_some_iff.mp made
  obtain ⟨logs, logged, ran⟩ := bind_eq_some_iff.mp ran
  unfold producerSaid
  split at ran
  · obtain ⟨failed, failure, ran⟩ := bind_eq_some_iff.mp ran
    cases ran
    cases made
    rw [turnSaid, append_assoc]
    exact (Composed.failing failure).behindLogs logged
  · obtain ⟨body, collected, ran⟩ := bind_eq_some_iff.mp ran
    cases ran
    have turned : Composed server (body.behind logs) (turnSaid turn) :=
      (producerPieces_composed collected).behindLogs logged
    dsimp only at made
    split at made
    · next ended =>
      cases made
      by_cases sound : body.error = none
      · rw [sound, isSome_none, Bool.false_or] at ended
        rw [if_pos ended, append_nil]
        exact turned
      · exact turned.extend sound _
    · next going =>
      obtain ⟨tokens, -, made⟩ := bind_eq_some_iff.mp made
      obtain ⟨carried, behind, made⟩ := bind_eq_some_iff.mp made
      cases made
      rw [Bool.or_assoc, Bool.or_eq_true, not_or] at going
      rw [if_neg going.2]
      have sound : body.error = none := by simpa using going.1
      exact turned.after sound (turnSaid_tokenless turn) (tokenPieces_composed behind)

variable {methods : StreamState A σ} {tick : Metadata}

theorem initPieces_composed
    (made : initPieces server origin limit mint methods result tick = some written) :
    Composed server written (openingSaid methods result tick) := by
  unfold initPieces at made
  unfold openingSaid
  cases kind : result.state with
  | producer state =>
    rw [kind] at made
    exact producerTurn_composed made
  | exchange state =>
    rw [kind] at made
    obtain ⟨minted, -, made⟩ := bind_eq_some_iff.mp made
    exact tokenPieces_composed made

variable {charged : Nat}

theorem resultPieces_composed {result : Option A.Batch}
    (made : resultPieces server origin limit schema result = some (written, charged)) :
    Composed server written [.data] := by
  obtain ⟨batch, -, made⟩ := bind_eq_some_iff.mp made
  obtain ⟨emit, -, made⟩ := bind_eq_some_iff.mp made
  cases emit with
  | pointer item charged | inline => cases made; exact Composed.nil.behindData _
  | failed error charged =>
    obtain ⟨failed, failure, made⟩ := bind_eq_some_iff.mp made
    cases made
    exact .failing failure

theorem unaryPieces_composed {call : UnaryCall A}
    (made : unaryPieces server origin limit call = some (written, charged)) :
    Composed server written [.data] := by
  unfold unaryPieces at made
  split at made
  · obtain ⟨failed, failure, made⟩ := map_eq_some_iff.mp made
    cases made
    exact .failing failure
  · split at made
    · cases made
      exact Composed.nil.behindData _
    · obtain ⟨failed, failure, made⟩ := map_eq_some_iff.mp made
      cases made
      exact .failing failure
    · cases made
  · exact resultPieces_composed made

/-! ## Answers -/

variable (server) in
/-- The streams of an answer with their readers; a failure is on the last of them. -/
inductive Carries : List (Sheet A server.render) → Option RpcError →
    List (HttpReader × List Purpose) → Prop
  | last {written : Written A server.render} {said : List Purpose} {schema : Schema}
      {sheet : Sheet A server.render} (composed : Composed server written said)
      (body : bodyStream server schema written.pieces = some sheet) (reader : HttpReader) :
      Carries [sheet] written.error [(reader, said)]
  | header {written : Written A server.render} {said : List Purpose} {schema : Schema}
      {sheet : Sheet A server.render} {sheets : List (Sheet A server.render)}
      {error : Option RpcError} {others : List (HttpReader × List Purpose)}
      (composed : Composed server written said) (sound : written.error = none)
      (body : bodyStream server schema written.pieces = some sheet) (reader : HttpReader)
      (rest : Carries sheets error others) :
      Carries (sheet :: sheets) error ((reader, said) :: others)

def Answer.Carries (answer : Answer A server.render) (said : List (HttpReader × List Purpose)) :
    Prop :=
  ∃ spoken, Dispatch.Carries server answer.sheets answer.error spoken ∧
    (answer.error = none → spoken = said)

theorem oneStream_carries {named : Origin} {exit : Exit} (composed : Composed server written said)
    (made : oneStream server named schema written exit = some answer) (reader : HttpReader) :
    answer.Carries [(reader, said)] := by
  obtain ⟨sheet, body, rfl⟩ := oneStream_eq_some made
  exact ⟨_, .last composed body reader, fun _ => rfl⟩

theorem streamInitDispatch_carries {call : Server.StreamCall A σ}
    (made : streamInitDispatch server origin limit mint call tick = some answer) :
    answer.Carries (httpSaid server (.init mint call tick)) := by
  unfold streamInitDispatch at made
  simp only [httpSaid]
  cases started : callGuard call.init with
  | error error =>
    rw [started] at made
    obtain ⟨sheet, body, made⟩ := bind_eq_some_iff.mp made
    obtain ⟨piece, built, body⟩ := bind_eq_some_iff.mp body
    cases made
    have failed : failing server origin .empty error = some ⟨[piece], some error⟩ := by
      rw [failing, built]
      rfl
    refine ⟨_, .last (.failing failed : Composed server _ []) body .result, ?_⟩
    rintro ⟨⟩
  | ok result =>
    rw [started] at made
    obtain ⟨headers, header, made⟩ := bind_eq_some_iff.mp made
    obtain ⟨logs, logged, made⟩ := bind_eq_some_iff.mp made
    obtain ⟨written, wrote, made⟩ := bind_eq_some_iff.mp made
    obtain ⟨sheet, body, made⟩ := bind_eq_some_iff.mp made
    cases made
    have opening := initPieces_composed wrote
    simp only [initSaid]
    unfold initLogs at logged
    cases headed : result.header with
    | none =>
      rw [headerStreams, headed] at header
      rw [headed] at logged
      cases header
      exact ⟨_, .last (opening.behindLogs logged) body _, fun _ => rfl⟩
    | some batch =>
      rw [headerStreams, headed] at header
      rw [headed] at logged
      cases logged
      obtain ⟨pieces, before, header⟩ := bind_eq_some_iff.mp header
      obtain ⟨first, top, header⟩ := bind_eq_some_iff.mp header
      cases header
      exact ⟨_, .header ((Composed.nil.behindData _).behindLogs before) rfl top .header
        (.last opening body _), fun _ => rfl⟩

theorem exchangeTurn_carries
    (made : exchangeTurn server origin limit mint schema turn = some answer) :
    answer.Carries [(.turn true, exchangeSaid turn)] := by
  obtain ⟨logs, logged, made⟩ := bind_eq_some_iff.mp made
  rw [exchangeSaid, turnSaid, append_assoc]
  split at made
  · obtain ⟨written, wrote, made⟩ := bind_eq_some_iff.mp made
    exact oneStream_carries ((Composed.failing wrote).behindLogs logged) made _
  · split at made
    · obtain ⟨written, wrote, made⟩ := bind_eq_some_iff.mp made
      exact oneStream_carries ((Composed.failing wrote).behindLogs logged) made _
    · obtain ⟨written, wrote, made⟩ := bind_eq_some_iff.mp made
      exact oneStream_carries ((exchangePieces_composed wrote).behindLogs logged) made _

theorem cancelTurn_carries {outcome : Outcome Unit}
    (made : cancelTurn server origin schema logs outcome = some answer) :
    answer.Carries [(.cancelled, logs.map .log)] := by
  obtain ⟨pieces, logged, made⟩ := bind_eq_some_iff.mp made
  rw [← append_nil (logs.map Purpose.log)]
  split at made
  · obtain ⟨written, wrote, made⟩ := bind_eq_some_iff.mp made
    exact oneStream_carries ((Composed.failing wrote).behindLogs logged) made _
  · have composed := Composed.nil.behindLogs logged
    rw [Written.behind, append_nil] at composed
    exact oneStream_carries composed made _

theorem streamExchangeDispatch_carries {resumed : Resumed σ} {batch : A.Batch} {metadata : Metadata}
    (made : streamExchangeDispatch server origin limit mint methods resumed batch metadata = some
    answer) : answer.Carries (continuationSaid server methods resumed batch metadata) := by
  unfold streamExchangeDispatch at made
  unfold continuationSaid
  split at made
  · next cancelled =>
    rw [if_pos cancelled]
    exact cancelTurn_carries made
  · next going =>
    rw [if_neg going]
    cases kept : resumed.state with
    | producer state =>
      rw [kept] at made
      obtain ⟨written, wrote, made⟩ := bind_eq_some_iff.mp made
      exact oneStream_carries (producerTurn_composed wrote) made _
    | exchange state =>
      rw [kept] at made
      dsimp only at made ⊢
      cases cast : castInput server.toEngine resumed.inputSchema batch with
      | error error =>
        rw [cast] at made
        obtain ⟨written, wrote, made⟩ := bind_eq_some_iff.mp made
        obtain ⟨spoken, carries, -⟩ :=
          oneStream_carries (.failing wrote : Composed server _ []) made .result
        refine ⟨spoken, carries, fun sound => ?_⟩
        obtain ⟨piece, -, wrote⟩ := bind_eq_some_iff.mp wrote
        obtain ⟨sheet, -, rfl⟩ := oneStream_eq_some made
        cases wrote
        cases sound
      | ok input =>
        rw [cast] at made
        exact exchangeTurn_carries made

/-- The body of an answer holds what the handler said, or its failure. -/
theorem dispatch_carries {hard : Option Nat} {request : Request A σ} (handled : Handled request)
    (made : dispatch server origin hard request = some answer) :
    answer.Carries (httpSaid server request) := by
  cases request with
  | reflection result => cases handled
  | unary call =>
    obtain ⟨logs, logged, made⟩ := bind_eq_some_iff.mp made
    obtain ⟨⟨written, charged⟩, wrote, made⟩ := bind_eq_some_iff.mp made
    obtain ⟨sheet, body, made⟩ := bind_eq_some_iff.mp made
    cases made
    exact ⟨_, .last ((unaryPieces_composed wrote).behindLogs logged) body .result, fun _ => rfl⟩
  | init mint call tick => exact streamInitDispatch_carries made
  | continuation mint methods call resumed batch metadata =>
    exact streamExchangeDispatch_carries made

end

end VgiRpc.Http.Dispatch
