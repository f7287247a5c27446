import VgiRpc.Http.Reports
import VgiRpc.Logging.Pipe

/-!
# Logs over HTTP

A response over HTTP is read whole: its logs are handed on, and then its one batch.  The
response to a cancellation is not read at all.
-/

namespace VgiRpc.Logging

open Arrow List Metadata Server
open Library (Program)
open Client (PipeClient Settings Parsing ParsedStream processFrame parseResponse collectData)

def HttpReader.asData : HttpReader → Bool
  | .result | .header => true
  | .opening exchange | .turn exchange => exchange
  | .cancelled => false

section

variable {A : ArrowIpc} {render : Rendering} (settings : Settings A) (reader : HttpReader)

/-- The logs that are handed on, and the batches or the failure of the call. -/
def HttpReader.read (frames : List (Client.Item A.Batch)) :
    Client.Logged (Except RpcError (List (Client.Item A.Batch))) :=
  match reader with
  | .cancelled => ([], .ok [])
  | .result =>
    match Client.readUnary settings.config ⟨frames, none⟩ with
    | (.error error, logs) => (logs, .error error)
    | (.ok item, logs) => (logs, .ok [item])
  | .header | .opening _ | .turn _ =>
    match parseResponse settings.config reader.asData ⟨frames, none⟩ with
    | (.error error, logs) => (logs, .error error)
    | (.ok parsed, logs) => (logs, .ok parsed.batches)

/-- The client makes this batch of a data batch, and hands on no log for it. -/
def HttpTakes (asData : Bool) (frame value : Client.Item A.Batch) : Prop :=
  ∀ parsing, parsing.out.batches = [] → ∃ token callToken,
    processFrame settings.config asData frame parsing =
      (.ok (), ⟨{ parsing.out with batches := [value], token := token, callToken := callToken },
        parsing.logs⟩)

def logged : Purpose → Option LogMessage
  | .log message => some message
  | .error _ | .data | .token => none

def isData : Purpose → Bool
  | .data => true
  | .log _ | .error _ | .token => false

variable (sheet : Sheet A render)

def dataOf : List (Client.Item A.Batch) :=
  (sheet.pieces.filter fun piece => isData piece.purpose).map fun piece => frame piece.item

/-- The logs of a stream come to the caller, once and in order, and then its data. -/
def HttpDelivered : Prop :=
  ∃ batches, reader.read settings (framesOf sheet) =
      (((sheet.pieces.map Piece.purpose).filterMap logged).map (·.heard settings.json render),
        .ok batches) ∧
    (dataOf sheet ≠ [] → List.Forall₂ (HttpTakes settings reader.asData) (dataOf sheet) batches)

def HttpReadable : Prop :=
  ∀ frame ∈ dataOf sheet, ∃ value, HttpTakes settings reader.asData frame value

end

def HttpReader.Reaches (reader : HttpReader) (said : List Purpose) : Prop :=
  reader = .cancelled → said = []

section

variable {A : ArrowIpc} {render : Rendering} {settings : Settings A} {asData : Bool}
  {parsing : Parsing A.Batch} {item : Item A} {pieces : List (Piece A render)}

/-- What becomes of a frame that is not a pointer. -/
theorem processFrame_kind {kind : BatchKind} (read : kindOf settings.json item = kind) :
    processFrame settings.config asData (frame item) parsing = match kind with
      | .log message => (.ok (), { parsing with logs := parsing.logs ++ [message] })
      | .exception error => (.error error, parsing)
      | .data => (.ok (),
        { parsing with out := collectData settings.config asData (frame item) parsing.out })
      | .pointer => processFrame settings.config asData (frame item) parsing := by
  unfold kindOf at read
  cases kind with
  | pointer => rfl
  | log | exception | data =>
    simp only [processFrame, Client.processFrameWith, Settings.config, frame, read]
    rfl

/-- A response that was parsed without a failure holds no log that is an error. -/
theorem forM_quiet {final : Parsing A.Batch}
    (run : (pieces.map fun piece => frame piece.item).forM (processFrame settings.config asData)
      parsing = (.ok (), final)) : Quiet (pieces.map Piece.purpose) := by
  induction pieces generalizing parsing with
  | nil => exact nofun
  | cons piece rest ih =>
    obtain ⟨done, middle, first, later⟩ := Program.bind_eq_ok run
    rw [map_cons, quiet_cons]
    refine ⟨fun message said loud => ?_, ih later⟩
    have genuine := piece.genuine
    rw [said] at genuine
    obtain ⟨error, read⟩ := message.kind_exception settings.json render loud
    rw [processFrame_kind ((genuine settings.json).trans read)] at first
    cases first

theorem forM_logs {logs : List LogMessage} (said : pieces.map Piece.purpose = logs.map .log)
    (quiet : ∀ message ∈ logs, message.level ≠ .exception) (rest : List (Client.Item A.Batch)) :
    ((pieces.map fun piece => frame piece.item) ++ rest).forM
        (processFrame settings.config asData) parsing =
      rest.forM (processFrame settings.config asData)
        { parsing with logs := parsing.logs ++ logs.map (·.heard settings.json render) } := by
  induction logs generalizing pieces parsing with
  | nil =>
    rw [map_eq_nil_iff.mp said, map_nil, nil_append, map_nil, append_nil]
  | cons message logs ih =>
    obtain ⟨piece, others, rfl, one, said⟩ := map_eq_cons_iff.mp said
    obtain ⟨low, silent⟩ := forall_mem_cons.mp quiet
    have genuine := piece.genuine
    rw [one] at genuine
    have read := (genuine settings.json).trans (message.kind_values settings.json render low)
    refine (Program.bind_ok (processFrame_kind read)).trans ((ih said silent).trans ?_)
    rw [map_cons, append_assoc]
    rfl

/-- A batch of tokens has no rows and carries a cursor. -/
def Stamped (piece : Piece A render) : Prop :=
  A.numRows piece.item.1 = 0 ∧ (mdGet (frame piece.item).2 stateKey).isSome = true

/-- Logs, a data batch among them or none, and tokens behind them or none. -/
def speech (first : List LogMessage) (data : Bool) (second : List LogMessage) (token : Bool) :
    List Purpose :=
  first.map .log ++ (if data then [.data] else []) ++ second.map .log ++
    if token then [.token] else []

variable (settings asData parsing) in
/-- The tokens behind a response leave its logs and its data as they are; they are no data
behind a data batch. -/
theorem forM_tokens {token : Bool} (said : pieces.map Piece.purpose = if token then [.token] else
    []) (stamped : ∀ piece ∈ pieces, piece.purpose = .token → Stamped piece) :
    ∃ out, (pieces.map fun piece => frame piece.item).forM
        (processFrame settings.config asData) parsing = (.ok (), { parsing with out := out }) ∧
      (parsing.out.batches ≠ [] → out.batches = parsing.out.batches) ∧
      (parsing.out.batches = [] → out.batches.length ≤ 1) := by
  cases token with
  | false =>
    rw [map_eq_nil_iff.mp said]
    exact ⟨parsing.out, rfl, fun _ => rfl, fun none => by rw [none]; exact Nat.zero_le 1⟩
  | true =>
    obtain ⟨piece, none, rfl, one, nothing⟩ := map_eq_cons_iff.mp said
    obtain rfl := map_eq_nil_iff.mp nothing
    obtain ⟨rows, cursor⟩ := stamped piece mem_cons_self one
    have genuine := piece.genuine
    rw [one] at genuine
    refine ⟨_, Program.bind_ok (processFrame_kind (genuine settings.json)), fun some => ?_,
      fun none => ?_⟩
    · have filled : parsing.out.batches.isEmpty = false := by simpa using some
      have blank : settings.config.numRows (frame piece.item).1 = 0 := rows
      have carried : (mdGet (frame piece.item).2 stateKey).isNone = false := by
        rw [← Option.not_isSome, cursor]
        rfl
      simp [collectData, filled, blank, carried]
    · unfold collectData
      dsimp only
      rw [none]
      split
      · exact Nat.le_refl 1
      · exact Nat.zero_le 1

theorem filter_eq_nil {said : List Purpose}
    (purposes : pieces.map Piece.purpose = said) (none : ∀ purpose ∈ said, isData purpose = false) :
    (pieces.filter fun piece => isData piece.purpose) = [] := by
  rw [filter_eq_nil_iff]
  intro piece member
  rw [none _ (purposes ▸ mem_map_of_mem member)]
  exact Bool.false_ne_true

theorem isData_logs (logs : List LogMessage) :
    ∀ purpose ∈ logs.map Purpose.log, isData purpose = false := by
  intro purpose member
  obtain ⟨message, -, rfl⟩ := mem_map.mp member
  rfl

theorem isData_tokens (token : Bool) :
    ∀ purpose ∈ (if token then [Purpose.token] else []), isData purpose = false := by
  cases token
  · exact nofun
  · exact forall_mem_singleton.mpr rfl

theorem isData_speech (first second : List LogMessage) (token : Bool) :
    ∀ purpose ∈ speech first false second token, isData purpose = false := by
  simp only [speech, forall_mem_append]
  exact ⟨⟨⟨isData_logs first, nofun⟩, isData_logs second⟩, isData_tokens token⟩

variable {sheet : Sheet A render}

/-- A response without errors among its logs, and with data that the client takes, is
parsed to its logs and its data. -/
theorem parseResponse_speech {first second : List LogMessage} {data token : Bool}
    (said : sheet.pieces.map Piece.purpose = speech first data second token)
    (stamped : ∀ piece ∈ sheet.pieces, piece.purpose = .token → Stamped piece)
    (quiet : Quiet (sheet.pieces.map Piece.purpose))
    (readable : ∀ frame ∈ dataOf sheet, ∃ value, HttpTakes settings asData frame value) :
    ∃ parsed, parseResponse settings.config asData ⟨framesOf sheet, none⟩ =
        (.ok parsed, (first ++ second).map (·.heard settings.json render)) ∧
      (data = true → List.Forall₂ (HttpTakes settings asData) (dataOf sheet) parsed.batches) := by
  have silent : (∀ message ∈ first, message.level ≠ .exception) ∧
      ∀ message ∈ second, message.level ≠ .exception := by
    rw [said] at quiet
    refine ⟨fun message member => quiet message ?_, fun message member => quiet message ?_⟩
    · simp [speech, member]
    · simp [speech, member]
  suffices ∃ out, (framesOf sheet).forM (processFrame settings.config asData)
        ⟨⟨[], none, none, true⟩, []⟩ =
          (.ok (), ⟨out, (first ++ second).map (·.heard settings.json render)⟩) ∧
      out.batches.length ≤ 1 ∧
      (data = true → List.Forall₂ (HttpTakes settings asData) (dataOf sheet) out.batches) by
    obtain ⟨out, run, few, taken⟩ := this
    refine ⟨{ out with finished := out.token.isNone }, ?_, taken⟩
    have framed : Client.processFrames (processFrame settings.config asData)
        ⟨framesOf sheet, none⟩ ⟨⟨[], none, none, true⟩, []⟩ = _ := Program.bind_ok run
    rw [parseResponse, framed]
    exact if_neg (Nat.not_lt.mpr few)
  obtain ⟨front, tokens, pieces, said, tokened⟩ := map_eq_append_iff.mp said
  obtain ⟨front, behind, rfl, said, logged⟩ := map_eq_append_iff.mp said
  obtain ⟨ahead, middle, rfl, opened, said⟩ := map_eq_append_iff.mp said
  rw [pieces] at stamped
  have known := (forall_mem_append.mp stamped).2
  have only : dataOf sheet = (middle.filter fun piece => isData piece.purpose).map
      fun piece => frame piece.item := by
    rw [dataOf, pieces, filter_append, filter_append, filter_append,
      filter_eq_nil opened (isData_logs first), filter_eq_nil logged (isData_logs second),
      filter_eq_nil tokened (isData_tokens token), nil_append, append_nil, append_nil]
  rw [only] at readable ⊢
  rw [framesOf, pieces]
  simp only [map_append, append_assoc]
  rw [forM_logs opened silent.1]
  cases data with
  | false =>
    rw [map_eq_nil_iff.mp said, map_nil, nil_append, forM_logs logged silent.2]
    obtain ⟨out, run, -, few⟩ := forM_tokens settings asData _ tokened known
    exact ⟨out, run, few rfl, nofun⟩
  | true =>
    obtain ⟨piece, none, rfl, one, nothing⟩ := map_eq_cons_iff.mp said
    obtain rfl := map_eq_nil_iff.mp nothing
    have found : [piece].filter (fun piece => isData piece.purpose) = [piece] := by
      rw [filter_singleton, one]
      rfl
    rw [found] at readable ⊢
    obtain ⟨value, takes⟩ := readable _ mem_cons_self
    obtain ⟨cursor, callToken, collected⟩ :=
      takes ⟨⟨[], none, none, true⟩, first.map (·.heard settings.json render)⟩ rfl
    rw [map_singleton, singleton_append]
    have stepped (rest : List (Client.Item A.Batch)) : (frame piece.item :: rest).forM
        (processFrame settings.config asData) _ = _ := Program.bind_ok collected
    rw [nil_append, stepped, forM_logs logged silent.2]
    obtain ⟨out, run, kept, -⟩ :=
      forM_tokens settings asData ⟨⟨[value], cursor, callToken, true⟩, _⟩ tokened known
    have same : out.batches = [value] := kept (cons_ne_nil _ _)
    exact ⟨out, run, same ▸ Nat.le_refl 1, fun _ => same ▸ .cons takes .nil⟩

end
/-! ## Responses -/

theorem speech_logged (first : List LogMessage) (data : Bool) (second : List LogMessage)
    (token : Bool) : (speech first data second token).filterMap logged = first ++ second := by
  have logs (messages : List LogMessage) :
      (messages.map Purpose.log).filterMap logged = messages := by
    rw [filterMap_map]
    exact filterMap_some
  cases data <;> cases token <;>
    simp [speech, filterMap_append, filterMap_cons, logs, logged]

/-- What a response to a call of each kind uttered. -/
def HttpReader.Shaped (reader : HttpReader) (said : List Purpose) : Prop :=
  match reader with
  | .cancelled => ∃ logs : List LogMessage, said = logs.map .log
  | .result => ∃ logs, said = speech logs true [] false
  | .header | .opening _ | .turn _ => ∃ first data second token, said = speech first data second token

section

variable {A : ArrowIpc} {render : Rendering} {settings : Settings A} {sheet : Sheet A render}
  {logs : List LogMessage} {reader : HttpReader}

/-- A reader that comes back with batches has parsed the response. -/
theorem HttpReader.read_ok (reads : reader ≠ .cancelled) {frames batches : List (Client.Item
    A.Batch)} (read : reader.read settings frames = (logs, .ok batches)) :
    ∃ parsed, parseResponse settings.config reader.asData ⟨frames, none⟩ = (.ok parsed, logs) := by
  cases reader with
  | cancelled => exact absurd rfl reads
  | result =>
    rw [HttpReader.read, Client.readUnary] at read
    rcases parsing : parseResponse settings.config true ⟨frames, none⟩ with ⟨error | parsed, heard⟩
    · rw [parsing] at read
      cases read
    · rw [parsing] at read
      dsimp only at read
      split at read
      · cases read
      rename_i found
      split at found
      · cases found
      · cases found
        cases read
        exact ⟨parsed, parsing⟩
  | _ =>
    rw [HttpReader.read] at read
    split at read
    · cases read
    · next parsed heard parsing =>
      cases read
      exact ⟨parsed, parsing⟩

theorem HttpReader.read_parsed (reads : reader ≠ .cancelled) {frames : List (Client.Item A.Batch)}
    {parsed : ParsedStream A.Batch} (parsing : parseResponse settings.config reader.asData ⟨frames,
    none⟩ = (.ok parsed, logs)) (some : reader = .result → parsed.batches ≠ []) :
    reader.read settings frames = (logs, .ok parsed.batches) := by
  cases reader with
  | cancelled => exact absurd rfl reads
  | result =>
    have parsing : parseResponse settings.config true ⟨frames, none⟩ = _ := parsing
    have few := (Client.parseResponse_ok (congrArg Prod.fst parsing)).1
    rw [HttpReader.read, Client.readUnary, parsing]
    dsimp only
    cases found : parsed.batches with
    | nil => exact absurd found (some rfl)
    | cons item rest =>
      rw [found] at few
      cases rest with
      | nil => rfl
      | cons second rest => exact absurd few (by simp)
  | _ => rw [HttpReader.read, parsing]

/-- A response comes to the caller with all its logs, exactly when none of them is an error
and the client can take the data; nothing of the response to a cancellation does. -/
theorem http_delivered_iff (shaped : reader.Shaped (sheet.pieces.map Piece.purpose))
    (stamped : ∀ piece ∈ sheet.pieces, piece.purpose = .token → Stamped piece) :
    HttpDelivered settings reader sheet ↔ (Quiet (sheet.pieces.map Piece.purpose) ∧
        reader.Reaches (sheet.pieces.map Piece.purpose)) ∧ HttpReadable settings reader sheet := by
  by_cases reads : reader = .cancelled
  · subst reads
    obtain ⟨logs, said⟩ := shaped
    have nothing : dataOf sheet = [] := by
      rw [dataOf, filter_eq_nil said (isData_logs logs), map_nil]
    constructor
    · rintro ⟨batches, read, -⟩
      have unheard := congrArg Prod.fst read
      have silent : sheet.pieces.map Piece.purpose = [] := by
        rw [said] at unheard ⊢
        cases logs with
        | nil => rfl
        | cons message rest => cases unheard
      rw [HttpReadable, nothing, silent]
      exact ⟨⟨nofun, fun _ => rfl⟩, nofun⟩
    · rintro ⟨⟨-, reached⟩, -⟩
      refine ⟨[], ?_, fun some => absurd nothing some⟩
      rw [reached rfl]
      rfl
  · have spoken : ∃ first data second token,
        sheet.pieces.map Piece.purpose = speech first data second token ∧
          (reader = .result → data = true) := by
      cases reader with
      | cancelled => exact absurd rfl reads
      | result =>
        obtain ⟨logs, said⟩ := shaped
        exact ⟨logs, true, [], false, said, fun _ => rfl⟩
      | _ =>
        obtain ⟨first, data, second, token, said⟩ := shaped
        exact ⟨first, data, second, token, said, nofun⟩
    obtain ⟨first, data, second, token, said, whole⟩ := spoken
    constructor
    · rintro ⟨batches, read, taken⟩
      obtain ⟨parsed, parsing⟩ := HttpReader.read_ok reads read
      have quiet : Quiet (sheet.pieces.map Piece.purpose) := by
        unfold parseResponse at parsing
        split at parsing
        · cases parsing
        · next final run =>
          obtain ⟨done, middle, frames, -⟩ := Program.bind_eq_ok run
          exact forM_quiet frames
      refine ⟨⟨quiet, fun cancelled => absurd cancelled reads⟩, ?_⟩
      exact fun frame member => exists_related (taken (ne_nil_of_mem member)) frame member
    · rintro ⟨⟨quiet, -⟩, readable⟩
      obtain ⟨parsed, parsing, taken⟩ := parseResponse_speech said stamped quiet readable
      have filled : dataOf sheet ≠ [] → data = true := by
        intro some
        cases data with
        | true => rfl
        | false =>
          refine absurd ?_ some
          rw [dataOf, filter_eq_nil said (isData_speech first second token), map_nil]
      refine ⟨parsed.batches, ?_, fun some => taken (filled some)⟩
      rw [said, speech_logged]
      refine HttpReader.read_parsed reads parsing fun result none => ?_
      have empty := taken (whole result)
      rw [none, forall₂_nil_right_iff] at empty
      have member : Purpose.data ∈ sheet.pieces.map Piece.purpose := by
        rw [said, whole result]
        simp [speech]
      obtain ⟨piece, there, purpose⟩ := mem_map.mp member
      refine ne_nil_of_mem (mem_map_of_mem (mem_filter.mpr ⟨there, ?_⟩)) empty
      rw [purpose]
      rfl

end

section

open Http
open Http.Dispatch (Answer HttpServer Request Written Tokens Composed Carries bodyStream
  writePieces dispatch respond)

variable {A : ArrowIpc} {σ : Type} (server : HttpServer A)

def WriterTakes : Prop :=
  ∀ tracker batch metadata error, server.writes tracker batch metadata ≠ .error (.error error)

variable {server}

/-! ### The shape of a response -/

theorem speech_behind (logs first : List LogMessage) (data : Bool) (second : List LogMessage)
    (token : Bool) :
    logs.map Purpose.log ++ speech first data second token =
      speech (logs ++ first) data second token := by
  simp [speech]

variable {items : List (Emitted A.Batch)} {origin : Dispatch.Origin} {schema : Schema}
  {written : Written A server.render} {pieces : List (Piece A server.render)}
  {answer : Answer A server.render}

theorem emitted_logs (none : items.countP Emitted.isBatch = 0) :
    ∃ logs : List LogMessage, items.map emittedPurpose = logs.map .log := by
  induction items with
  | nil => exact ⟨[], rfl⟩
  | cons item rest ih =>
    cases item with
    | batch batch metadata => simp [Emitted.isBatch] at none
    | log message =>
      rw [countP_cons_of_neg (by exact Bool.false_ne_true)] at none
      obtain ⟨logs, same⟩ := ih none
      exact ⟨message :: logs, by rw [map_cons, same]; rfl⟩

/-- A collector holds one batch at most. -/
theorem emitted_speech (few : items.countP Emitted.isBatch ≤ 1) :
    ∃ first data second, items.map emittedPurpose = speech first data second false := by
  induction items with
  | nil => exact ⟨[], false, [], rfl⟩
  | cons item rest ih =>
    cases item with
    | batch batch metadata =>
      rw [countP_cons_of_pos rfl] at few
      obtain ⟨logs, same⟩ := emitted_logs (Nat.le_zero.mp (Nat.le_of_succ_le_succ few))
      exact ⟨[], true, logs, by rw [map_cons, same]; simp [speech, emittedPurpose]⟩
    | log message =>
      rw [countP_cons_of_neg (by exact Bool.false_ne_true)] at few
      obtain ⟨first, data, second, same⟩ := ih few
      refine ⟨message :: first, data, second, ?_⟩
      rw [map_cons, same]
      rfl

variable (turn : Turn A σ)

theorem turnSaid_speech : ∃ first data second, turnSaid turn = speech first data second false := by
  have few : turn.out.items.countP Emitted.isBatch ≤ 1 := by
    rw [turn.out.tracked]
    exact Bool.toNat_le _
  obtain ⟨first, data, second, same⟩ := emitted_speech few
  exact ⟨turn.logs ++ first, data, second, by rw [turnSaid, same, speech_behind]⟩

theorem speech_result (logs : List LogMessage) :
    logs.map Purpose.log ++ [.data] = speech logs true [] false := by
  simp [speech]

/-- What a turn says, with a cursor behind it unless that is spared. -/
theorem turnSaid_token (spared : Bool) : ∃ first data second token,
    (turnSaid turn ++ if spared then [] else [.token]) = speech first data second token := by
  obtain ⟨first, data, second, same⟩ := turnSaid_speech turn
  rw [same]
  split
  · exact ⟨first, data, second, false, append_nil _⟩
  · exact ⟨first, data, second, true, by simp [speech]⟩

theorem openingSaid_speech (methods : StreamState A σ) (result : StreamResult A σ)
    (tick : Metadata) :
    ∃ first data second token, openingSaid methods result tick = speech first data second token := by
  unfold openingSaid
  split
  · exact turnSaid_token _ _
  · exact ⟨[], false, [], true, rfl⟩

variable (server) in
/-- The streams of a response have the shape that their readers expect. -/
theorem httpSaid_shaped (request : Request A σ) :
    ∀ stream ∈ httpSaid server request, stream.1.Shaped stream.2 := by
  cases request with
  | unary call => exact forall_mem_singleton.mpr ⟨call.logs, speech_result call.logs⟩
  | reflection result => exact nofun
  | init mint call tick =>
    unfold httpSaid
    dsimp only
    cases callGuard call.init with
    | error error => exact nofun
    | ok result =>
      obtain ⟨first, data, second, token, same⟩ :=
        openingSaid_speech call.methods result tick
      dsimp only
      unfold initSaid
      cases result.header with
      | some header =>
        refine forall_mem_cons.mpr ⟨⟨call.logs, true, [], false, speech_result call.logs⟩,
          forall_mem_singleton.mpr ⟨first, data, second, token, same⟩⟩
      | none =>
        refine forall_mem_singleton.mpr ⟨call.logs ++ first, data, second, token, ?_⟩
        dsimp only
        rw [same, speech_behind]
  | continuation mint methods call resumed batch metadata =>
    unfold httpSaid
    dsimp only
    unfold continuationSaid
    split
    · exact forall_mem_singleton.mpr ⟨_, rfl⟩
    · cases resumed.state with
      | producer state => exact forall_mem_singleton.mpr (turnSaid_token _ _)
      | exchange state =>
        dsimp only
        cases castInput server.toEngine resumed.inputSchema batch with
        | error error => exact nofun
        | ok input => exact forall_mem_singleton.mpr (turnSaid_token _ _)

/-! ### What a response holds -/

theorem Composed.purposes {said : List Purpose} (composed : Composed server written said)
    (sound : written.error = none) : written.pieces.map Piece.purpose = said := by
  induction composed with
  | nil => rfl
  | failing made =>
    obtain ⟨piece, -, made⟩ := Option.bind_eq_some_iff.mp made
    cases made
    cases sound
  | token rows tokens => rfl
  | behind silent spoken rest ih => exact congrArg (List.cons _) (ih sound)

theorem Tokens.metadata_cursor (tokens : Tokens) :
    mdGet tokens.metadata stateKey = some tokens.cursor := by
  rw [Dispatch.Tokens.metadata, EnvelopeMeta.mdGet_setOrClear, if_neg (by decide), mdGet,
    Library.OrderedMap.get?_insert_self]

/-- Each token of a response is on a batch without rows. -/
theorem Composed.stamped {said : List Purpose} (composed : Composed server written said) :
    ∀ piece ∈ written.pieces, piece.purpose = .token → Stamped piece := by
  induction composed with
  | nil => exact nofun
  | failing made =>
    obtain ⟨piece, built, made⟩ := Option.bind_eq_some_iff.mp made
    obtain ⟨empty, -, built⟩ := Option.bind_eq_some_iff.mp built
    cases built
    cases made
    exact forall_mem_singleton.mpr nofun
  | token rows tokens =>
    refine forall_mem_singleton.mpr fun _ => ⟨rows, ?_⟩
    have cursor := Tokens.metadata_cursor tokens
    exact (congrArg Option.isSome cursor).trans rfl
  | behind silent spoken rest ih =>
    exact forall_mem_cons.mpr ⟨fun token => absurd token spoken, ih⟩

theorem writePieces_whole (takes : WriterTakes server)
    {pieces written : List (Piece A server.render)}
    {tracker : server.Tracker} (made : writePieces server tracker pieces = some written) :
    written = pieces := by
  induction pieces generalizing tracker written with
  | nil => cases made; rfl
  | cons piece rest ih =>
    unfold writePieces at made
    split at made
    · obtain ⟨more, later, rfl⟩ := Option.map_eq_some_iff.mp made
      rw [ih later]
    · next refused => exact absurd refused (takes _ _ _ _)
    · cases made

theorem bodyStream_whole (takes : WriterTakes server) {sheet : Sheet A server.render}
    (made : bodyStream server schema pieces = some sheet) : sheet.pieces = pieces := by
  unfold bodyStream at made
  split at made
  · cases made
  · obtain ⟨written, wrote, rfl⟩ := Option.map_eq_some_iff.mp made
    exact writePieces_whole takes wrote

abbrev HttpHearing (A : ArrowIpc) (render : Rendering) := HttpReader × Sheet A render

def HttpHearing.said {render : Rendering} (hearing : HttpHearing A render) :
    HttpReader × List Purpose :=
  (hearing.1, hearing.2.pieces.map Piece.purpose)

/-- These streams are read like this, and their tokens are on batches without rows. -/
def Holds (sheets : List (Sheet A server.render)) (said : List (HttpReader × List Purpose)) :
    Prop :=
  ∃ hearings : List (HttpHearing A server.render), sheets = hearings.map Prod.snd ∧
    hearings.map HttpHearing.said = said ∧
    ∀ hearing ∈ hearings, ∀ piece ∈ hearing.2.pieces, piece.purpose = .token → Stamped piece

/-- A stream is read for what was said into it. -/
theorem Carries.holds (takes : WriterTakes server) {sheets : List (Sheet A server.render)}
    {error : Option RpcError} {said : List (HttpReader × List Purpose)}
    (carries : Carries server sheets error said) (sound : error = none) : Holds sheets said := by
  induction carries with
  | last composed body reader =>
    have whole := bodyStream_whole takes body
    refine ⟨[(reader, _)], rfl, ?_, forall_mem_singleton.mpr ?_⟩
    · rw [map_singleton, HttpHearing.said, whole, Composed.purposes composed sound]
    · rw [whole]
      exact Composed.stamped composed
  | header composed silent body reader rest ih =>
    obtain ⟨hearings, rfl, rfl, stamped⟩ := ih sound
    have whole := bodyStream_whole takes body
    refine ⟨(reader, _) :: hearings, rfl, ?_, forall_mem_cons.mpr ⟨?_, stamped⟩⟩
    · rw [map_cons, HttpHearing.said, whole, Composed.purposes composed silent]
    · rw [whole]
      exact Composed.stamped composed

variable (server) in
/-- A request comes to the caller with all the logs of its handler, exactly when no log is
at the level EXCEPTION, the client reads the response, and it can take the data. -/
def ArrivesOverHttp (settings : Settings A) (request : Request A σ)
    (sheets : List (Sheet A server.render)) : Prop :=
  ∃ hearings : List (HttpHearing A server.render),
    sheets = hearings.map Prod.snd ∧ hearings.map HttpHearing.said = httpSaid server request ∧
    ((∀ hearing ∈ hearings, HttpDelivered settings hearing.1 hearing.2) ↔
      (∀ stream ∈ httpSaid server request, Quiet stream.2 ∧ stream.1.Reaches stream.2) ∧
        ∀ hearing ∈ hearings, HttpReadable settings hearing.1 hearing.2)

theorem dispatch_arrives (takes : WriterTakes server) (settings : Settings A) {hard : Option Nat}
    {request : Request A σ} (handled : Handled request)
    (made : dispatch server origin hard request = some answer) (sound : answer.error = none) :
    ArrivesOverHttp server settings request answer.sheets := by
  obtain ⟨spoken, carries, same⟩ := Dispatch.dispatch_carries handled made
  obtain ⟨hearings, sheets, said, stamped⟩ := Carries.holds takes carries sound
  rw [same sound] at said
  have shaped := httpSaid_shaped server request
  refine ⟨hearings, sheets, said, ?_⟩
  rw [← said, forall_mem_map] at shaped
  rw [← said, forall_mem_map, ← forall₂_and]
  exact forall₂_congr fun hearing member =>
    http_delivered_iff (shaped hearing member) (stamped hearing member)

/-- Every log of a handler that succeeds comes to the caller once, in order and with its
level, and then the result, on a byte stream and over HTTP: exactly when no log is at the
level EXCEPTION, the client reads as far as the call wrote, and it can take the data. -/
theorem successful_call_arrives_iff (engine : Engine A) (server : HttpServer A)
    (takes : WriterTakes server) :
    (∀ (σ : Type) (client : PipeClient A) shm envelope (call : Call A σ) count ending after,
      Succeeds engine shm call → serveCall engine shm call ⟨envelope, []⟩ = (.ok ending, after) →
      ArrivesOnPipe engine shm client count call after.streams) ∧
    ∀ (σ : Type) (settings : Settings A) origin accepted (request : Request A σ) answer,
      Handled request →
      dispatch server origin (hardLimit server.limits accepted) request = some answer →
      answer.error = none → (respond server origin accepted request).sheets = answer.sheets →
      ArrivesOverHttp server settings request (respond server origin accepted request).sheets := by
  refine ⟨fun σ client shm envelope call count ending after succeeds run => ?_,
    fun σ settings origin accepted request answer handled made sound whole => ?_⟩
  · exact serveCall_arrives client succeeds count run
  · rw [whole]
    exact dispatch_arrives takes settings handled made sound

end

namespace SampleClient

open Server.Sample

def settings : Settings tables := ⟨json, fun _ => none, none⟩

def client : PipeClient tables := ⟨settings, engine.toPlane, fun _ => none⟩

theorem writerTakes : WriterTakes Http.Dispatch.SampleServer.server := nofun

/-- A call that logs once, at this level, and then succeeds. -/
def logsOnce (level : LogLevel) : UnaryCall tables :=
  ⟨.empty, [⟨level, "retried", []⟩], none, .returned (.ok none)⟩

end SampleClient

open SampleClient Server.Sample Http.Dispatch Http.Dispatch.SampleServer in
theorem successful_call_arrives_iff_info : WriterTakes server ∧
      ArrivesOnPipe engine none client 0 (.unary (logsOnce .info) : Call tables Nat)
        (serveCall engine none (.unary (logsOnce .info) : Call tables Nat) ⟨envelope, []⟩).2.streams ∧
      ArrivesOverHttp server settings (.unary (logsOnce .info) : Request tables Nat)
        (respond server origin none (.unary (logsOnce .info) : Request tables Nat)).sheets :=
  ⟨writerTakes,
    (successful_call_arrives_iff engine server writerTakes).1 Nat client none envelope _ 0
      .resultWritten _ rfl rfl,
    (successful_call_arrives_iff engine server writerTakes).2 Nat settings origin none _ _ trivial
      rfl rfl rfl⟩

open SampleClient Server.Sample in
/-- The handler logs a message at the level EXCEPTION and returns its result.  The server
writes both, and the client reports the call as failed. -/
theorem exception_log_fails_call :
    Succeeds engine none (.unary (logsOnce .exception) : Call tables Nat) ∧
      (serveCall engine none (.unary (logsOnce .exception) : Call tables Nat) ⟨envelope, []⟩).1 =
        .ok .resultWritten ∧
      (serveCall engine none (.unary (logsOnce .exception) : Call tables Nat)
          ⟨envelope, []⟩).2.streams.map
        (fun stream => client.callUnary (stream.items.map frame) (.ok true)) =
          [([], .error (.error ⟨"Exception", "retried"⟩))] :=
  ⟨rfl, rfl, rfl⟩

end VgiRpc.Logging
