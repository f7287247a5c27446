import VgiRpc.Client.Pipe
import VgiRpc.Server.Report

/-!
# Logs on a byte stream

What a handler logs goes out as envelopes between its data, and the client tells the two
apart by the metadata of a batch.  A log at the level EXCEPTION is an error to the
client.  Every other log arrives as it was sent, provided the client reads up to it.
-/

namespace VgiRpc

open List Client.PipeClient

variable (json : JsonReader)

/-- A log as the client hands it on: its extras have been through JSON. -/
def LogMessage.heard (render : Rendering) (message : LogMessage) : LogMessage :=
  ⟨message.level, message.message, logExtras json (message.values render).extra⟩

theorem parseLevel_asStr (level : LogLevel) : parseLevel level.asStr = level := by
  cases level <;> decide

variable {message : LogMessage} (render : Rendering)

/-- The client reads a log as it was sent, except at the level of errors. -/
theorem LogMessage.kind_values (quiet : message.level ≠ .exception) :
    (message.values render).kind json = .log (message.heard json render) := by
  have level : (message.values render).level = message.level.asStr := rfl
  rw [EnvelopeValues.kind, level, if_neg (mt LogLevel.asStr_eq_exception.mp quiet),
    parseLevel_asStr]
  rfl

theorem LogMessage.kind_exception (loud : message.level = .exception) :
    ∃ error, (message.values render).kind json = .exception error := by
  have level : (message.values render).level = message.level.asStr := rfl
  rw [EnvelopeValues.kind, level, if_pos (LogLevel.asStr_eq_exception.mpr loud)]
  exact ⟨_, rfl⟩

namespace Logging

open Arrow Server
open Client (PipeClient withLogs)
open Client.PipeClient (Heard)

/-- A stream of a byte-stream connection as the client reads it: the result of a unary
call, a header, or an output stream that it asks for a number of batches. -/
inductive Reader where
  | result
  | header
  | output (count : Nat)

section

variable {A : ArrowIpc} {render : Rendering}

def frame (item : Item A) : Client.Item A.Batch := (item.1, item.2.getD .empty)

def framesOf (sheet : Sheet A render) : List (Client.Item A.Batch) :=
  sheet.pieces.map fun piece => frame piece.item

variable (client : PipeClient A) (reader : Reader)

def Reader.read (frames : List (Client.Item A.Batch)) : List (Heard A.Batch) × Except Failure Unit :=
  match reader with
  | .result =>
    match client.callUnary frames (.ok true) with
    | (logs, .error failure) => (logs.map .log, .error failure)
    | (logs, .ok item) => (logs.map .log ++ [.data item], .ok ())
  | .header =>
    match client.readHeader frames (.ok true) with
    | (logs, .error failure) => (logs.map .log, .error failure)
    | (logs, .ok item) => (logs.map .log ++ item.toList.map .data, .ok ())
  | .output count => client.ticks (.ok true) count ⟨0, frames, false⟩

/-- The client makes this batch of a data batch, and hands on no log for it. -/
def Takes (inbound : Client.Item A.Batch → Except Failure (Client.Item A.Batch))
    (frame value : Client.Item A.Batch) : Prop :=
  (client.kind frame = .data ∧ inbound frame = .ok value) ∨
    client.kind frame = .pointer ∧ client.resolveWith frame.2 = ([], .ok value)

def Reader.Takes (position : Nat) (frame value : Client.Item A.Batch) : Prop :=
  match reader with
  | .result => Logging.Takes client (client.shmResolveInbound 0) frame value
  | .header =>
    ∃ item, Logging.Takes client .ok frame item ∧ client.shmResolveInbound 0 item = .ok value
  | .output _ => Logging.Takes client (client.shmResolveInbound position) frame value

/-- The caller hears of a batch what it was written for. -/
def Reader.Hears (spoken : Piece A render × Nat) : Heard A.Batch → Prop
  | .log message => ∃ logged, spoken.1.purpose = .log logged ∧
      message = logged.heard client.json render
  | .data value => spoken.1.purpose = .data ∧
      reader.Takes client spoken.2 (frame spoken.1.item) value

variable (sheet : Sheet A render)

/-- Everything on a stream comes to the caller, once and in order, and the call does not
fail. -/
def Delivered : Prop :=
  ∃ events, reader.read client (framesOf sheet) = (events, .ok ()) ∧
    List.Forall₂ (reader.Hears client) sheet.pieces.zipIdx events

def Readable : Prop :=
  ∀ spoken ∈ sheet.pieces.zipIdx, spoken.1.purpose = .data →
    ∃ value, reader.Takes client spoken.2 (frame spoken.1.item) value

end

def Quiet (said : List Purpose) : Prop :=
  ∀ message, Purpose.log message ∈ said → message.level ≠ .exception

def unread : Nat → List Purpose → List Purpose
  | 0, said => said
  | _ + 1, [] => []
  | count + 1, .data :: rest => unread count rest
  | count + 1, _ :: rest => unread (count + 1) rest

/-- The client reads up to the last batch. -/
def Reader.Reaches (reader : Reader) (said : List Purpose) : Prop :=
  match reader with
  | .result | .header => True
  | .output count => unread count said = []

def isPlain : Purpose → Bool
  | .log _ | .data => true
  | .error _ | .token => false

theorem quiet_cons {purpose : Purpose} {rest : List Purpose} : Quiet (purpose :: rest) ↔
      (∀ message, purpose = .log message → message.level ≠ .exception) ∧ Quiet rest := by
  constructor
  · intro quiet
    exact ⟨fun message said => quiet message (said ▸ mem_cons_self),
      fun message member => quiet message (mem_cons_of_mem _ member)⟩
  · rintro ⟨first, later⟩ message member
    rcases mem_cons.mp member with said | member
    · exact first message said.symm
    · exact later message member

theorem exists_related {α β : Type} {related : α → β → Prop} {firsts : List α} {seconds : List β}
    (all : List.Forall₂ related firsts seconds) : ∀ first ∈ firsts, ∃ second, related first second := by
  induction all with
  | nil => exact nofun
  | cons one _ ih => exact forall_mem_cons.mpr ⟨⟨_, one⟩, ih⟩

section

variable {A : ArrowIpc} {render : Rendering} {client : PipeClient A} {piece : Piece A render}
  {message : LogMessage}

/-- A log that is no error is read as it was sent. -/
theorem kind_log (said : piece.purpose = .log message) (quiet : message.level ≠ .exception) :
    client.kind (frame piece.item) = .log (message.heard client.json render) := by
  have genuine := piece.genuine
  rw [said] at genuine
  exact (genuine client.json).trans (message.kind_values client.json render quiet)

variable (client) in
theorem kind_loud (said : piece.purpose = .log message) (loud : message.level = .exception) :
    ∃ error, client.kind (frame piece.item) = .exception error := by
  have genuine := piece.genuine
  rw [said] at genuine
  obtain ⟨error, read⟩ := message.kind_exception client.json render loud
  exact ⟨error, (genuine client.json).trans read⟩

section

variable {count position : Nat} {first : Client.Item A.Batch} {rest : List (Client.Item A.Batch)}
  {value : Client.Item A.Batch}

theorem receive_takes : Takes client (client.shmResolveInbound position) first value ↔
      client.receive position first = ([], .value value) := by
  unfold Takes receive
  cases client.kind first with
  | log message => simp
  | exception error => simp
  | pointer =>
    rcases client.resolveWith first.2 with ⟨logs, error | item⟩ <;> simp
  | data =>
    cases client.shmResolveInbound position first <;> simp

theorem ticks_log {message : LogMessage} (read : client.kind first = .log message) :
    client.ticks (.ok true) (count + 1) ⟨position, first :: rest, false⟩ =
      (.log message :: (client.ticks (.ok true) (count + 1) ⟨position + 1, rest, false⟩).1,
        (client.ticks (.ok true) (count + 1) ⟨position + 1, rest, false⟩).2) := by
  have received : client.receive position first = ([message], .again) := by
    rw [receive, read]
  simp only [ticks, readNextData, received]
  rcases client.readNextData (.ok true) (position + 1) rest with
    ⟨logs, failure | none | item, after⟩ <;> simp [withLogs]

theorem ticks_value (received : client.receive position first = ([], .value value)) :
    client.ticks (.ok true) (count + 1) ⟨position, first :: rest, false⟩ =
      (.data value :: (client.ticks (.ok true) count ⟨position + 1, rest, false⟩).1,
        (client.ticks (.ok true) count ⟨position + 1, rest, false⟩).2) := by
  simp [ticks, readNextData, received]

theorem ticks_end : client.ticks (.ok true) count ⟨position, [], false⟩ = ([], .ok ()) := by
  cases count <;> rfl

variable {events : List (Heard A.Batch)}

/-- Whoever hears of every batch has taken the data. -/
theorem readable_of_heard {reader : Reader} {spoken : List (Piece A render × Nat)}
    (heard : List.Forall₂ (reader.Hears client) spoken events) :
    ∀ entry ∈ spoken, entry.1.purpose = .data →
      ∃ value, reader.Takes client entry.2 (frame entry.1.item) value := by
  intro entry member data
  obtain ⟨message | value, hears⟩ := exists_related heard entry member
  · obtain ⟨logged, said, -⟩ := hears
    cases data.symm.trans said
  · exact ⟨value, hears.2⟩

variable {total : Nat} {pieces : List (Piece A render)}

theorem heard_cons {α : Type} {related : α → Heard A.Batch → Prop} {first : α} {others : List α}
    {event : Heard A.Batch} {later : List (Heard A.Batch) × Except Failure Unit} :
    (∃ events, (event :: later.1, later.2) = (events, .ok ()) ∧
        List.Forall₂ related (first :: others) events) ↔
      related first event ∧ ∃ events, later = (events, .ok ()) ∧
        List.Forall₂ related others events := by
  constructor
  · rintro ⟨_, read, _ | ⟨one, rest⟩⟩
    obtain ⟨same, ended⟩ := Prod.mk.inj read
    obtain ⟨rfl, rfl⟩ := List.cons.inj same
    exact ⟨one, _, Prod.ext rfl ended, rest⟩
  · rintro ⟨one, events, rfl, rest⟩
    exact ⟨_, rfl, .cons one rest⟩

/-- A client that reads up to the last batch hears of them all, if no log is an error. -/
theorem ticks_delivered_iff (plain : ∀ piece ∈ pieces, isPlain piece.purpose = true) :
    (∃ events, client.ticks (.ok true) count
        ⟨position, pieces.map fun piece => frame piece.item, false⟩ = (events, .ok ()) ∧
      List.Forall₂ ((Reader.output total).Hears client) (pieces.zipIdx position) events) ↔
      (Quiet (pieces.map Piece.purpose) ∧ unread count (pieces.map Piece.purpose) = []) ∧
        ∀ entry ∈ pieces.zipIdx position, entry.1.purpose = .data →
          ∃ value, (Reader.output total).Takes client entry.2 (frame entry.1.item) value := by
  induction pieces generalizing count position with
  | nil => exact iff_of_true ⟨[], ticks_end, .nil⟩ ⟨⟨nofun, by cases count <;> rfl⟩, nofun⟩
  | cons piece rest ih =>
    obtain ⟨ordinary, others⟩ := forall_mem_cons.mp plain
    cases count with
    | zero => exact iff_of_false (by rintro ⟨_, ⟨⟩, ⟨⟩⟩) (by rintro ⟨⟨_, ⟨⟩⟩, _⟩)
    | succ count =>
      rw [zipIdx_cons, map_cons, map_cons, quiet_cons, forall_mem_cons]
      cases said : piece.purpose with
      | error error | token => rw [said] at ordinary; cases ordinary
      | log message =>
        by_cases loud : message.level = .exception
        · obtain ⟨error, exception⟩ := kind_loud client said loud
          have received : client.receive position (frame piece.item) = ([], .refused error) := by
            rw [receive, exception]
          refine iff_of_false (fun ⟨_, read, _⟩ => ?_) fun quiet => quiet.1.1.1 message rfl loud
          simp [ticks, readNextData, received] at read
        · rw [ticks_log (kind_log said loud), heard_cons, ih others]
          simp [unread, loud, said, Reader.Hears]
      | data =>
        by_cases taken : ∃ value,
            (Reader.output total).Takes client position (frame piece.item) value
        · obtain ⟨value, takes⟩ := taken
          rw [ticks_value (receive_takes.mp takes), heard_cons, ih others]
          have some : ∃ value, _ := ⟨value, takes⟩
          simp [unread, said, Reader.Hears, takes, some]
        · exact iff_of_false
            (fun ⟨_, _, heard⟩ => taken (readable_of_heard heard _ mem_cons_self said))
            fun all => taken (all.2.1 rfl)

end

section

variable {inbound : Client.Item A.Batch → Except Failure (Client.Item A.Batch)}
  {pieces : List (Piece A render)}

/-- A stream that was read without a failure holds no log that is an error. -/
theorem readSubstream_quiet {result final : Option (Client.Item A.Batch)} (read :
    (client.readSubstream inbound (.ok true) result (pieces.map fun piece => frame piece.item)).2 =
    .ok final) :
    Quiet (pieces.map Piece.purpose) := by
  induction pieces generalizing result with
  | nil => exact nofun
  | cons piece rest ih =>
    rw [map_cons, readSubstream] at read
    rw [map_cons, quiet_cons]
    refine ⟨fun message said loud => ?_, ?_⟩
    · obtain ⟨error, exception⟩ := kind_loud client said loud
      rw [exception] at read
      cases read
    · split at read
      · exact ih read
      · cases read
      · split at read
        · cases read
        · exact ih read
      · split at read
        · cases read
        · exact ih read

variable {logs : List LogMessage}

/-- Logs are handed on as they are read. -/
theorem readSubstream_logs {ending : Except RpcError Bool} (said : pieces.map Piece.purpose =
    logs.map .log) (quiet : ∀ message ∈ logs, message.level ≠ .exception) (result : Option
    (Client.Item A.Batch)) (rest : List (Client.Item A.Batch)) :
    client.readSubstream inbound ending result
        ((pieces.map fun piece => frame piece.item) ++ rest) =
      withLogs (logs.map (·.heard client.json render))
        (client.readSubstream inbound ending result rest) := by
  induction logs generalizing pieces with
  | nil =>
    rw [map_eq_nil_iff.mp said]
    rfl
  | cons message logs ih =>
    obtain ⟨piece, others, rfl, one, said⟩ := map_eq_cons_iff.mp said
    obtain ⟨low, silent⟩ := forall_mem_cons.mp quiet
    rw [map_cons, cons_append, readSubstream, kind_log one low]
    dsimp only
    rw [ih said silent]
    rfl

theorem readSubstream_takes {first value : Client.Item A.Batch}
    (takes : Takes client inbound first value) :
    client.readSubstream inbound (.ok true) none [first] = ([], .ok (some value)) := by
  rw [readSubstream]
  rcases takes with ⟨data, taken⟩ | ⟨pointer, resolved⟩
  · rw [data, keepFirst, taken]
    rfl
  · rw [pointer, resolved]
    rfl

variable {reader : Reader}

theorem logs_heard {start : Nat} (said : pieces.map Piece.purpose = logs.map .log) :
    List.Forall₂ (reader.Hears client) (pieces.zipIdx start)
      ((logs.map (·.heard client.json render)).map .log) := by
  induction logs generalizing pieces start with
  | nil =>
    rw [map_eq_nil_iff.mp said]
    exact .nil
  | cons message logs ih =>
    obtain ⟨piece, others, rfl, one, said⟩ := map_eq_cons_iff.mp said
    exact .cons ⟨message, one, rfl⟩ (ih said)

variable (inbound) in
/-- A stream of logs and one data batch behind them comes to the caller, if no log is an
error and the client takes the batch. -/
theorem delivered_iff_of_last {sheet : Sheet A render} (reached : reader.Reaches (sheet.pieces.map
    Piece.purpose)) (reads : ∀ {frames : List (Client.Item A.Batch)} {events : List (Heard
    A.Batch)}, reader.read client frames = (events, .ok ()) → ∃ final, (client.readSubstream inbound
    (.ok true) none frames).2 = .ok final) (hands : ∀ {frames : List (Client.Item A.Batch)} {first
    value : Client.Item A.Batch} {logs : List LogMessage} {position : Nat}, reader.Takes client
    position first value → (∀ {item}, Takes client inbound first item → client.readSubstream inbound
    (.ok true) none frames = (logs, .ok (some item))) → reader.read client frames = (logs.map .log
    ++ [.data value], .ok ())) (said : sheet.pieces.map Piece.purpose = logs.map .log ++ [.data]) :
    Delivered client reader sheet ↔ (Quiet (sheet.pieces.map Piece.purpose) ∧
        reader.Reaches (sheet.pieces.map Piece.purpose)) ∧ Readable client reader sheet := by
  constructor
  · rintro ⟨events, read, heard⟩
    obtain ⟨final, whole⟩ := reads read
    exact ⟨⟨readSubstream_quiet whole, reached⟩, readable_of_heard heard⟩
  · rintro ⟨⟨quiet, -⟩, readable⟩
    obtain ⟨front, back, pieces, logged, last⟩ := map_eq_append_iff.mp said
    obtain ⟨piece, none, rfl, data, nothing⟩ := map_eq_cons_iff.mp last
    obtain rfl := map_eq_nil_iff.mp nothing
    have silent : ∀ message ∈ logs, message.level ≠ .exception := by
      intro message member
      refine quiet message ?_
      rw [said]
      exact mem_append_left _ (mem_map_of_mem member)
    unfold Delivered framesOf
    rw [Readable, pieces, zipIdx_append, zipIdx_singleton] at readable
    rw [pieces, zipIdx_append, zipIdx_singleton, map_append]
    obtain ⟨value, takes⟩ := readable _ (mem_append_right _ mem_cons_self) data
    refine ⟨_, hands takes fun taken => ?_, rel_append (logs_heard logged) (.cons ⟨data, takes⟩ .nil)⟩
    rw [readSubstream_logs logged silent, map_singleton, readSubstream_takes taken]
    exact congrArg (·, _) (append_nil _)

end

end

/-! ## Calls that succeed -/

/-- What the readers expect of a stream: logs with one batch behind them, or any logs and
data. -/
def Reader.Shaped (reader : Reader) (said : List Purpose) : Prop :=
  match reader with
  | .result | .header => ∃ logs : List LogMessage, said = logs.map .log ++ [.data]
  | .output _ => ∀ purpose ∈ said, isPlain purpose = true

theorem delivered_iff {A : ArrowIpc} {render : Rendering} (client : PipeClient A) {reader : Reader}
    {sheet : Sheet A render} (shaped : reader.Shaped (sheet.pieces.map Piece.purpose)) :
    Delivered client reader sheet ↔ (Quiet (sheet.pieces.map Piece.purpose) ∧
        reader.Reaches (sheet.pieces.map Piece.purpose)) ∧ Readable client reader sheet := by
  cases reader with
  | result =>
    obtain ⟨logs, said⟩ := shaped
    refine delivered_iff_of_last (client.shmResolveInbound 0) trivial (fun read => ?_)
      (fun takes whole => ?_) said
    · rw [Reader.read, callUnary] at read
      rcases whole : client.readSubstream (client.shmResolveInbound 0) (.ok true) none _ with
        ⟨heard, failure | final⟩
      · rw [whole] at read
        cases read
      · exact ⟨final, rfl⟩
    · simp only [Reader.read, callUnary, whole takes]
  | header =>
    obtain ⟨logs, said⟩ := shaped
    refine delivered_iff_of_last .ok trivial (fun read => ?_) (fun takes whole => ?_) said
    · rw [Reader.read, readHeader] at read
      rcases whole : client.readSubstream .ok (.ok true) none _ with ⟨heard, failure | final⟩
      · rw [whole] at read
        cases read
      · exact ⟨final, rfl⟩
    · obtain ⟨item, taken, resolved⟩ := takes
      simp only [Reader.read, readHeader, whole taken, resolved]
      rfl
  | output count => exact ticks_delivered_iff fun piece member => shaped _ (mem_map_of_mem member)

section

variable {A : ArrowIpc} {σ : Type} (engine : Engine A) (shm : Option Channel)

/-- The handler of a call did not fail, nor did a cast before it. -/
def Succeeds : Call A σ → Prop
  | .refused _ _ => False
  | .unary call => raised (callGuard call.outcome) = none
  | .stream call input => (streamMishaps engine shm call input).told = none

/-- What a call says on each of its streams, with how the client reads it: it declares a
header when there is one, and asks the output for a number of batches. -/
def saidOn (count : Nat) : Call A σ → List (Reader × List Purpose)
  | .refused _ _ => []
  | .unary call => [(.result, (unarySaid call).map Reply.purpose)]
  | .stream call input =>
    match callGuard call.init with
    | .error _ => []
    | .ok result =>
      match result.header with
      | some header =>
        [(.header, (headerReplies result header call.logs).map Reply.purpose), (.output count,
            (outputSaid engine shm call.methods result [] input).map Reply.purpose)]
      | none =>
        [(.output count,
          (outputSaid engine shm call.methods result call.logs input).map Reply.purpose)]

variable {engine shm}

theorem logs_purposes (logs : List LogMessage) :
    (logs.map Reply.log : List (Reply A)).map Reply.purpose = logs.map .log := by
  rw [map_map]
  rfl

theorem plain_of_errs {said : List (Reply A)} (errs : Errs (said.map Reply.purpose) none) :
    ∀ purpose ∈ said.map Reply.purpose, isPlain purpose = true := by
  intro purpose member
  obtain ⟨reply, there, rfl⟩ := mem_map.mp member
  cases reply with
  | error error => cases (errs error).mp (mem_map.mpr ⟨_, there, rfl⟩)
  | _ => rfl

variable {call : Call A σ} {after : Serving A} {envelope : EnvelopeMeta}

/-- The streams of a call that succeeds have the shape that their readers expect. -/
theorem saidOn_shaped (count : Nat) (succeeds : Succeeds engine shm call) :
    ∀ stream ∈ saidOn engine shm count call, stream.1.Shaped stream.2 := by
  cases call with
  | refused schema error => cases succeeds
  | unary call =>
    refine forall_mem_singleton.mpr ?_
    have returned : raised (callGuard call.outcome) = none := succeeds
    unfold unarySaid
    cases outcome : callGuard call.outcome with
    | error error => rw [outcome] at returned; cases returned
    | ok result =>
      refine ⟨call.logs, ?_⟩
      rw [map_append, logs_purposes]
      unfold resultReply
      split <;> rfl
  | stream call input =>
    have silent : (streamMishaps engine shm call input).told = none := succeeds
    unfold streamMishaps at silent
    unfold saidOn
    dsimp only
    cases started : callGuard call.init with
    | error error => exact nofun
    | ok result =>
      rw [started] at silent
      dsimp only at silent ⊢
      cases result.header with
      | none =>
        exact forall_mem_singleton.mpr
          (plain_of_errs (silent ▸ outputSaid_errs call.methods result call.logs input))
      | some header =>
        refine forall_mem_cons.mpr ⟨⟨call.logs, ?_⟩, forall_mem_singleton.mpr
          (plain_of_errs (silent ▸ outputSaid_errs call.methods result [] input))⟩
        rw [headerReplies, map_append, logs_purposes]
        rfl

variable {α : Type} {schema : Schema} {body : Library.Program (Responding engine) Failure α}
  {value : α}

/-- A stream whose body came to an end holds all that the body says. -/
theorem responseStream_sheet {said : List Purpose} (speaks : Speaks said body)
    {state after : Serving A} (run : responseStream engine schema body state = (.ok value, after)) :
    ∃ sheet : Sheet A engine.render, after.streams = state.streams ++ [sheet.response] ∧
      sheet.pieces.map Piece.purpose = said := by
  cases opened : engine.opens schema with
  | error failure =>
    rw [responseStream_unopened opened] at run
    cases run
  | ok tracker =>
    obtain ⟨pieces, sent, voiced⟩ := speaks ⟨state.envelope, tracker, []⟩
    rcases wrote : body ⟨state.envelope, tracker, []⟩ with ⟨result, final⟩
    rw [responseStream_opened opened wrote] at run
    rw [wrote] at sent voiced
    cases run
    exact ⟨⟨schema, pieces⟩, congrArg (fun items => state.streams ++ [⟨schema, items⟩]) sent,
      voiced⟩

abbrev Hearing (A : ArrowIpc) (render : Rendering) := Reader × Sheet A render

def Hearing.said {render : Rendering} (hearing : Hearing A render) : Reader × List Purpose :=
  (hearing.1, hearing.2.pieces.map Piece.purpose)

theorem hearing_of_responseStream {said : List Purpose} (reader : Reader) (speaks : Speaks said
    body) (run : responseStream engine schema body ⟨envelope, []⟩ = (.ok value, after)) :
    ∃ hearings : List (Hearing A engine.render),
      after.streams = hearings.map (fun hearing => hearing.2.response) ∧
        hearings.map Hearing.said = [(reader, said)] := by
  obtain ⟨sheet, streams, purposes⟩ := responseStream_sheet speaks run
  exact ⟨[(reader, sheet)], streams, by rw [map_singleton, Hearing.said, purposes]⟩

variable {ending : Ending}

/-- The streams of a call that was served hold all that the call says. -/
theorem serveCall_heard (succeeds : Succeeds engine shm call) (count : Nat)
    (run : serveCall engine shm call ⟨envelope, []⟩ = (.ok ending, after)) :
    ∃ hearings : List (Hearing A engine.render),
      after.streams = hearings.map (fun hearing => hearing.2.response) ∧
        hearings.map Hearing.said = saidOn engine shm count call := by
  cases call with
  | refused schema error => cases succeeds
  | unary call =>
    change serveUnary engine shm call ⟨envelope, []⟩ = (.ok ending, after) at run
    have returned : raised (callGuard call.outcome) = none := succeeds
    unfold serveUnary at run
    simp only [saidOn, unarySaid]
    cases outcome : callGuard call.outcome with
    | error error => rw [outcome] at returned; cases returned
    | ok result =>
      rw [outcome] at run
      exact hearing_of_responseStream .result ((replyAll_speaks
        (fun batch built => engine.emptyBatch_rows call.resultSchema batch built) _
        (resultReply_endsIn call result).dropLast).andPure _) run
  | stream call input =>
    change serveStream engine shm call input ⟨envelope, []⟩ = (.ok ending, after) at run
    have silent : (streamMishaps engine shm call input).told = none := succeeds
    unfold streamMishaps at silent
    unfold serveStream at run
    unfold saidOn
    dsimp only
    cases started : callGuard call.init with
    | error error => rw [started] at silent; cases silent
    | ok result =>
      rw [started] at run
      dsimp only at run ⊢
      cases headed : result.header with
      | none =>
        rw [headed] at run
        exact hearing_of_responseStream (.output count)
          (outputBody_speaks call.methods result call.logs input) run
      | some header =>
        rw [headed] at run
        obtain ⟨done, middle, first, second⟩ := Library.Program.bind_eq_ok run
        obtain ⟨opening, streams, purposes⟩ := responseStream_sheet (replyAll_speaks
          (plainTarget_blank _) _ (headerReplies_endsIn result header call.logs).dropLast)
          first
        obtain ⟨output, more, others⟩ := responseStream_sheet
          (outputBody_speaks call.methods result [] input) second
        refine ⟨[(.header, opening), (.output count, output)], ?_, ?_⟩
        · rw [more, streams]
          rfl
        · simp [Hearing.said, purposes, others]

variable (engine shm) in
/-- A call comes to the caller with all its logs, exactly when no log is at the level
EXCEPTION, the client reads up to the last batch, and it can take the data. -/
def ArrivesOnPipe (client : PipeClient A) (count : Nat) (call : Call A σ)
    (streams : List (Response A)) : Prop :=
  ∃ hearings : List (Hearing A engine.render),
    streams = hearings.map (fun hearing => hearing.2.response) ∧
    hearings.map Hearing.said = saidOn engine shm count call ∧
    ((∀ hearing ∈ hearings, Delivered client hearing.1 hearing.2) ↔
      (∀ stream ∈ saidOn engine shm count call, Quiet stream.2 ∧ stream.1.Reaches stream.2) ∧
        ∀ hearing ∈ hearings, Readable client hearing.1 hearing.2)

theorem serveCall_arrives (client : PipeClient A) (succeeds : Succeeds engine shm call)
    (count : Nat) (run : serveCall engine shm call ⟨envelope, []⟩ = (.ok ending, after)) :
    ArrivesOnPipe engine shm client count call after.streams := by
  obtain ⟨hearings, streams, said⟩ := serveCall_heard succeeds count run
  have shaped := saidOn_shaped count succeeds
  refine ⟨hearings, streams, said, ?_⟩
  rw [← said, forall_mem_map] at shaped
  rw [← said, forall_mem_map, ← forall₂_and]
  exact forall₂_congr fun hearing member => delivered_iff client (shaped hearing member)

end

end Logging
end VgiRpc
