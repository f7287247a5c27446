import VgiRpc.Server.Reflection

/-!
# What the dispatch hook is told

The serve functions of a byte-stream connection keep the failure of a call in `app_err`,
beside the envelopes that they write for it.  A failed cast is written and not kept, a
failed upload is kept and not written, since the batch goes inline.
-/

namespace VgiRpc.Server

open Arrow List Metadata Wire
open Library (Program)

def raised {α : Type} : Except RpcError α → Option RpcError
  | .error error => some error
  | .ok _ => none

/-- What went wrong in a call: its handler failed, an input could not be cast, or the last
upload that failed. -/
structure Mishaps where
  handler : Option RpcError
  cast : Option RpcError
  upload : Option RpcError

/-- `app_err` at the end: a failing handler comes last and replaces what was there. -/
def Mishaps.appErr (mishaps : Mishaps) : Option RpcError := mishaps.handler.or mishaps.upload

def Mishaps.told (mishaps : Mishaps) : Option RpcError := mishaps.handler.or mishaps.cast

def Reply.purpose {A : ArrowIpc} : Reply A → Purpose
  | .log message => .log message
  | .error raised => .error raised
  | .batch _ _ | .nothing | .verbatim _ _ | .reference _ => .data

section

variable {A : ArrowIpc} {σ : Type} (engine : Engine A)

def failedUpload (schema : Schema) (batch : A.Batch) (metadata : Option Metadata) :
    Option RpcError :=
  match engine.externalize batch schema metadata with
  | .error error => some error
  | .ok _ => none

/-- A batch that the segment takes is not uploaded. -/
def uploadFailure (target : Target A) : Reply A → Option RpcError
  | .batch batch metadata =>
    match target.shm with
    | none => failedUpload engine target.schema batch metadata
    | some attached =>
      match Shm.maybeWriteToShm engine.toPlane batch (metadata.getD .empty) (some attached) with
      | .error _ => none
      | .ok (_, stored) =>
        if (mdGet stored shmOffsetKey).isSome then none
        else failedUpload engine target.schema batch metadata
  | _ => none

def lastUpload (target : Target A) (said : List (Reply A)) (earlier : Option RpcError) :
    Option RpcError :=
  said.foldl (fun last reply => (uploadFailure engine target reply).or last) earlier

variable (shm : Option Channel) (methods : StreamState A σ) (result : StreamResult A σ)

/-- How a turn fails: in the handler, or before it. -/
def turnFailure (state : StreamStateKind σ) (batch : A.Batch) (tick : Metadata) :
    Option RpcError × Option RpcError :=
  if (mdGet tick cancelKey).isSome then (raised (callGuard (methods.onCancel state tick).2), none)
  else
    match castInput engine result.inputSchema batch with
    | .error error => (none, some error)
    | .ok input =>
      (raised (callGuard (methods.advance state input tick
        (.new A result.outputSchema result.inputSchema.isNone)).outcome), none)

def loopMishaps (empty : A.Batch) : Nat → StreamStateKind σ → List (A.Batch × Metadata) →
    Option RpcError → Mishaps
  | _, _, [], upload => ⟨none, none, upload⟩
  | turn, state, (batch, metadata) :: rest, upload =>
    match Shm.resolveShmBatch engine.toPlane batch metadata (shm.map (·.atResolving turn)) with
    | .error _ => ⟨none, none, upload⟩
    | .ok (resolved, tick, _) =>
      match iterate engine methods result state resolved tick with
      | (said, .stop _) =>
        ⟨(turnFailure engine methods result state resolved tick).1,
          (turnFailure engine methods result state resolved tick).2,
          lastUpload engine (outputTarget shm result empty turn) said upload⟩
      | (said, .continue next) =>
        loopMishaps empty (turn + 1) next rest
          (lastUpload engine (outputTarget shm result empty turn) said upload)

def outputMishaps (input : Except RpcError (StreamRead A)) : Mishaps :=
  match input, engine.emptyBatch result.outputSchema with
  | .ok read, .ok empty =>
    loopMishaps engine shm methods result empty 0 result.state read.items none
  | _, _ => ⟨none, none, none⟩

def streamMishaps (call : StreamCall A σ) (input : Except RpcError (StreamRead A)) : Mishaps :=
  match callGuard call.init with
  | .error error => ⟨some error, none, none⟩
  | .ok result => outputMishaps engine shm call.methods result input

/-- A failed upload of a unary result goes unnoticed. -/
def unaryMishaps (call : UnaryCall A) : Mishaps := ⟨raised (callGuard call.outcome), none, none⟩

/-- The error that `on_dispatch_end` is given; an early return leaves it out. -/
def endError (mishaps : Mishaps) : Except Failure Ending → Option RpcError
  | .ok _ => mishaps.appErr
  | .error _ => none

end

section

variable {A : ArrowIpc} {engine : Engine A}

def Purpose.isError : Purpose → Bool
  | .error _ => true
  | _ => false

def Silent (said : List Purpose) : Prop := ∀ purpose ∈ said, purpose.isError = false

/-- The pieces for these purposes, or for the first of them when the writing failed; then
no error was among them. -/
def Voiced {α : Type} (said : List Purpose) (result : Except Failure α)
    (pieces : List (Piece A engine.render)) : Prop :=
  match result with
  | .ok _ => pieces.map Piece.purpose = said
  | .error _ => pieces.map Piece.purpose <+: said ∧ Silent (pieces.map Piece.purpose)

/-- What a program adds to its state is pieces for these purposes. -/
def Voices {State α : Type} (grows : State → State → List (Piece A engine.render) → Prop)
    (said : List Purpose) (program : Program State Failure α) : Prop :=
  ∀ state, ∃ pieces, grows state (program state).2 pieces ∧ Voiced said (program state).1 pieces

/-- An open stream grows by the batches of its pieces. -/
def Sent (before after : Responding engine) (pieces : List (Piece A engine.render)) : Prop :=
  after.sent = before.sent ++ pieces.map Piece.item

variable (engine) in
/-- A response grows by the streams of its pieces. -/
def Published (before after : Serving A) (pieces : List (Piece A engine.render)) : Prop :=
  ∃ sheets : List (Sheet A engine.render),
    after.streams = before.streams ++ sheets.map Sheet.response ∧
      sheets.flatMap Sheet.pieces = pieces

abbrev Speaks {α : Type} (said : List Purpose)
    (program : Program (Responding engine) Failure α) : Prop := Voices Sent said program

theorem Sent.append {before middle after : Responding engine}
    {first second : List (Piece A engine.render)} (one : Sent before middle first)
    (two : Sent middle after second) : Sent before after (first ++ second) := by
  unfold Sent at *
  rw [two, one, map_append, append_assoc]

theorem Published.append {before middle after : Serving A}
    {first second : List (Piece A engine.render)} (one : Published engine before middle first)
    (two : Published engine middle after second) : Published engine before after (first ++ second) := by
  obtain ⟨sheets, streams, rfl⟩ := one
  obtain ⟨more, grown, rfl⟩ := two
  exact ⟨sheets ++ more, by rw [grown, streams, map_append, append_assoc], flatMap_append⟩

theorem silent_nil : Silent [] := nofun

theorem silent_append {first second : List Purpose} :
    Silent (first ++ second) ↔ Silent first ∧ Silent second := by
  simp only [Silent, forall_mem_append]

theorem silent_logs (logs : List LogMessage) :
    Silent ((logs.map Reply.log : List (Reply A)).map Reply.purpose) := by
  intro purpose member
  obtain ⟨_, there, rfl⟩ := mem_map.mp member
  obtain ⟨_, _, rfl⟩ := mem_map.mp there
  rfl

section

variable {State α β : Type} {grows : State → State → List (Piece A engine.render) → Prop}
  {first second : List Purpose} {program : Program State Failure α}

theorem Voices.bind (append : ∀ {before middle after first second}, grows before middle first →
    grows middle after second → grows before after (first ++ second)) {next : α → Program State
    Failure β} (voices : Voices grows first program) (silent : Silent first) (rest : ∀ value, Voices
    grows second (next value)) :
    Voices grows (first ++ second) (program >>= next) := by
  intro state
  obtain ⟨pieces, grown, voiced⟩ := voices state
  rcases run : program state with ⟨result, after⟩
  rw [run] at grown voiced
  cases result with
  | error failure =>
    rw [Program.bind_error run]
    exact ⟨pieces, grown, voiced.1.trans (prefix_append _ _), voiced.2⟩
  | ok value =>
    rw [Program.bind_ok run]
    obtain ⟨more, further, later⟩ := rest value after
    refine ⟨pieces ++ more, append grown further, ?_⟩
    have before : pieces.map Piece.purpose = first := voiced
    unfold Voiced at later ⊢
    rw [map_append, before]
    split at later
    · rw [later]
    · exact ⟨(prefix_append_right_inj _).mpr later.1, silent_append.mpr ⟨silent, later.2⟩⟩

/-- Coming back with a value says nothing more. -/
theorem Voices.andPure (voices : Voices grows first program) (value : β) :
    Voices grows first (program >>= fun _ => pure value) := by
  intro state
  obtain ⟨pieces, grown, voiced⟩ := voices state
  rcases run : program state with ⟨result, after⟩
  rw [run] at grown voiced
  cases result with
  | error failure =>
    rw [Program.bind_error run]
    exact ⟨pieces, grown, voiced⟩
  | ok done =>
    rw [Program.bind_ok run]
    exact ⟨pieces, grown, voiced⟩

end

theorem speaks_pure {α : Type} (value : α) :
    Speaks [] (pure value : Program (Responding engine) Failure α) :=
  fun _ => ⟨[], (append_nil _).symm, (rfl : ([] : List Purpose) = [])⟩

/-! ## Replies -/

/-- One batch that was written for this purpose, or none when the writing failed. -/
def SpeaksOnce (purpose : Purpose) (program : Program (Responding engine) Failure Unit) : Prop :=
  ∀ state, match program state with
    | (.ok (), after) => ∃ piece : Piece A engine.render,
        after.sent = state.sent ++ [piece.item] ∧ piece.purpose = purpose
    | (.error _, after) => after.sent = state.sent

theorem write_speaksOnce (batch : A.Batch) (metadata : Option Metadata) :
    SpeaksOnce .data (write batch metadata : Program (Responding engine) Failure Unit) := by
  intro state
  unfold write
  cases engine.writes state.tracker batch metadata with
  | error failure => rfl
  | ok tracker => exact ⟨.data (batch, metadata), rfl, rfl⟩

variable {purpose : Purpose}

/-- Preparing what is written does not write. -/
theorem SpeaksOnce.lift {α : Type} (result : Except Failure α) {next : α → Program (Responding
    engine) Failure Unit} (rest : ∀ value, SpeaksOnce purpose (next value)) :
    SpeaksOnce purpose ((Program.lift result : Program (Responding engine) Failure α) >>= next) := by
  intro state
  cases result with
  | error failure => exact (rfl : state.sent = state.sent)
  | ok value => exact rest value state

theorem writeInline_speaksOnce (schema : Schema) (batch : A.Batch) (metadata : Option Metadata) :
    SpeaksOnce .data
      (writeInline schema batch metadata : Program (Responding engine) Failure Unit) := by
  unfold writeInline
  split
  · exact write_speaksOnce _ _
  · exact write_speaksOnce _ _

theorem writeBatch_speaksOnce (target : Target A) (batch : A.Batch) (metadata : Option Metadata) :
    SpeaksOnce .data
      (writeBatch target batch metadata : Program (Responding engine) Failure Unit) := by
  unfold writeBatch
  split
  · exact writeInline_speaksOnce _ _ _
  · refine SpeaksOnce.lift _ fun stored => ?_
    dsimp only
    split
    · exact write_speaksOnce _ _
    · exact writeInline_speaksOnce _ _ _

variable {target : Target A}

/-- An envelope is written on a batch without rows, filled from the call's builder. -/
theorem writeEnvelope_speaksOnce {fill : EnvelopeMeta → EnvelopeMeta} (rows : ∀ batch, target.empty
    = .ok batch → A.numRows batch = 0) (made : ∀ (batch : A.Batch), A.numRows batch = 0 → ∀
    envelope, ∃ piece : Piece A engine.render, piece.item = (batch, some (fill envelope).map) ∧
    piece.purpose = purpose) :
    SpeaksOnce purpose (writeEnvelope target fill : Program (Responding engine) Failure Unit) := by
  intro state
  have unfolded : (writeEnvelope target fill : Program (Responding engine) Failure Unit) state =
      ((Program.lift target.empty : Program (Responding engine) Failure A.Batch) >>= fun empty =>
        write empty (some (fill state.envelope).map))
          { state with envelope := fill state.envelope } := rfl
  rw [unfolded]
  cases built : target.empty with
  | error failure => exact (rfl : state.sent = state.sent)
  | ok empty =>
    obtain ⟨piece, item, purposed⟩ := made empty (rows empty built) state.envelope
    show match write empty (some (fill state.envelope).map)
        { state with envelope := fill state.envelope } with
      | (.ok (), after) => _
      | (.error _, after) => _
    unfold write
    cases engine.writes state.tracker empty (some (fill state.envelope).map) with
    | error failure => rfl
    | ok tracker => exact ⟨piece, by rw [item], purposed⟩

theorem reply_speaksOnce (rows : ∀ batch, target.empty = .ok batch → A.numRows batch = 0)
    (said : Reply A) :
    SpeaksOnce said.purpose (reply target said : Program (Responding engine) Failure Unit) := by
  cases said with
  | log message =>
    exact writeEnvelope_speaksOnce rows fun batch empty envelope =>
      ⟨.log batch empty envelope message, rfl, rfl⟩
  | error error =>
    exact writeEnvelope_speaksOnce rows fun batch empty envelope =>
      ⟨.error batch empty envelope error, rfl, rfl⟩
  | batch batch metadata => exact writeBatch_speaksOnce target batch metadata
  | nothing => exact SpeaksOnce.lift _ fun empty => writeBatch_speaksOnce target empty none
  | verbatim batch metadata => exact write_speaksOnce batch metadata
  | reference reference => exact SpeaksOnce.lift _ fun pointer => write_speaksOnce _ _

theorem SpeaksOnce.speaks {program : Program (Responding engine) Failure Unit}
    (once : SpeaksOnce purpose program) : Speaks [purpose] program := by
  intro state
  have spoken := once state
  rcases run : program state with ⟨result, after⟩
  rw [run] at spoken
  cases result with
  | error failure =>
    exact ⟨[], spoken.trans (append_nil _).symm, nil_prefix, silent_nil⟩
  | ok done =>
    obtain ⟨piece, sent, purposed⟩ := spoken
    exact ⟨[piece], sent, congrArg (fun purpose => [purpose]) purposed⟩

/-- Replies are pieces, one for each; an error may only be the last of them. -/
theorem replyAll_speaks (rows : ∀ batch, target.empty = .ok batch → A.numRows batch = 0)
    (said : List (Reply A)) (last : Silent (said.dropLast.map Reply.purpose)) :
    Speaks (said.map Reply.purpose)
      (replyAll target said : Program (Responding engine) Failure Unit) := by
  induction said with
  | nil => exact speaks_pure ()
  | cons first rest ih =>
    have once := (reply_speaksOnce rows first : SpeaksOnce first.purpose
      (reply target first : Program (Responding engine) Failure Unit)).speaks
    cases rest with
    | nil => exact once.andPure ()
    | cons second rest =>
      rw [dropLast_cons_cons, map_cons] at last
      obtain ⟨silent, later⟩ := forall_mem_cons.mp last
      exact once.bind Sent.append (forall_mem_singleton.mpr silent) fun _ => ih later

section

variable {σ : Type} (engine) (shm : Option Channel) (methods : StreamState A σ)
  (result : StreamResult A σ)

def loopSaid : Nat → StreamStateKind σ → List (A.Batch × Metadata) → List (Reply A)
  | _, _, [] => []
  | turn, state, (batch, metadata) :: rest =>
    match Shm.resolveShmBatch engine.toPlane batch metadata (shm.map (·.atResolving turn)) with
    | .error _ => []
    | .ok (resolved, tick, _) =>
      match iterate engine methods result state resolved tick with
      | (said, .stop _) => said
      | (said, .continue next) => said ++ loopSaid (turn + 1) next rest

def EndsIn (said : List (Reply A)) (told : Option RpcError) : Prop :=
  ∃ first, said = first ++ told.toList.map .error ∧ Silent (first.map Reply.purpose)

variable {engine shm methods result} {said : List (Reply A)} {told : Option RpcError}

theorem EndsIn.dropLast (ends : EndsIn said told) : Silent (said.dropLast.map Reply.purpose) := by
  obtain ⟨first, rfl, silent⟩ := ends
  cases told with
  | none =>
    rw [Option.toList_none, map_nil, append_nil]
    intro purpose member
    obtain ⟨reply, there, rfl⟩ := mem_map.mp member
    exact silent _ (mem_map_of_mem (dropLast_subset _ there))
  | some error =>
    rw [Option.toList_some, map_singleton, dropLast_concat]
    exact silent

def Errs (said : List Purpose) (told : Option RpcError) : Prop :=
  ∀ error, Purpose.error error ∈ said ↔ told = some error

theorem Silent.errs {said : List Purpose} (silent : Silent said) : Errs said none := by
  intro error
  refine iff_of_false (fun member => ?_) nofun
  cases silent _ member

theorem Silent.errs_append {first second : List Purpose} (silent : Silent first)
    (errs : Errs second told) : Errs (first ++ second) told := by
  intro error
  rw [mem_append, ← errs error]
  exact or_iff_right fun member => by cases silent _ member

theorem EndsIn.errs (ends : EndsIn said told) : Errs (said.map Reply.purpose) told := by
  obtain ⟨first, rfl, silent⟩ := ends
  rw [map_append]
  refine silent.errs_append fun error => ?_
  cases told with
  | none => exact iff_of_false nofun nofun
  | some other => simp [Reply.purpose, eq_comm]

variable (logs : List LogMessage)

theorem endsIn_logs : EndsIn (logs.map Reply.log : List (Reply A)) none :=
  ⟨_, (append_nil _).symm, silent_logs logs⟩

theorem endsIn_logs_error (error : RpcError) :
    EndsIn (logs.map Reply.log ++ [.error error] : List (Reply A)) (some error) :=
  ⟨_, rfl, silent_logs logs⟩

theorem turnReplies_endsIn (turn : Turn A (StreamStateKind σ)) :
    EndsIn (turnReplies turn).1 (raised (callGuard turn.outcome)) := by
  unfold turnReplies
  cases callGuard turn.outcome with
  | error error => exact endsIn_logs_error turn.logs error
  | ok done =>
    refine ⟨_, (append_nil _).symm, ?_⟩
    rw [map_append, silent_append]
    refine ⟨silent_logs turn.logs, fun purpose member => ?_⟩
    obtain ⟨reply, there, rfl⟩ := mem_map.mp member
    obtain ⟨emitted, -, rfl⟩ := mem_map.mp there
    cases emitted <;> rfl

variable (engine methods result) in
/-- A turn says its failure last. -/
theorem iterate_endsIn (state : StreamStateKind σ) (batch : A.Batch) (tick : Metadata) :
    EndsIn (iterate engine methods result state batch tick).1
      ((turnFailure engine methods result state batch tick).1.or
        (turnFailure engine methods result state batch tick).2) := by
  unfold iterate turnFailure
  split
  · rw [Option.or_none, cancelReplies]
    cases callGuard (methods.onCancel state tick).2 with
    | error error => exact endsIn_logs_error _ error
    | ok done => exact endsIn_logs _
  · cases castInput engine result.inputSchema batch with
    | error error => exact endsIn_logs_error [] error
    | ok input =>
      rw [Option.or_none]
      exact turnReplies_endsIn _

/-- A turn after which the loop goes on has not failed. -/
theorem iterate_continue {state next : StreamStateKind σ} {batch : A.Batch} {tick : Metadata}
    (goes : iterate engine methods result state batch tick = (said, .continue next)) :
    turnFailure engine methods result state batch tick = (none, none) := by
  unfold iterate at goes
  unfold turnFailure
  split at goes
  · unfold cancelReplies at goes
    split at goes <;> cases goes
  · next going =>
    rw [if_neg going]
    cases cast : castInput engine result.inputSchema batch with
    | error error =>
      rw [cast] at goes
      cases goes
    | ok input =>
      rw [cast] at goes
      simp only [turnReplies] at goes
      dsimp only
      cases done : callGuard (methods.advance state input tick
          (.new A result.outputSchema result.inputSchema.isNone)).outcome with
      | error error =>
        rw [done] at goes
        cases goes
      | ok unit => rfl

theorem EndsIn.silent (ends : EndsIn said none) : Silent (said.map Reply.purpose) := by
  obtain ⟨first, rfl, silent⟩ := ends
  rw [Option.toList_none, map_nil, append_nil]
  exact silent

theorem lockstep_speaks {empty : A.Batch} (rows : A.numRows empty = 0) (ending : Except RpcError
    Bool) (items : List (A.Batch × Metadata)) (turn : Nat) (state : StreamStateKind σ) :
    Speaks ((loopSaid engine shm methods result turn state items).map Reply.purpose)
      (lockstep engine shm methods result empty ending turn state items) := by
  have blank : ∀ turn batch, (outputTarget shm result empty turn).empty = .ok batch →
      A.numRows batch = 0 := by
    rintro turn batch ⟨⟩
    exact rows
  induction items generalizing turn state with
  | nil => exact speaks_pure _
  | cons item rest ih =>
    obtain ⟨batch, metadata⟩ := item
    intro writer
    unfold loopSaid
    cases step : Shm.resolveShmBatch engine.toPlane batch metadata
      (shm.map (·.atResolving turn)) with
    | error failure =>
      rw [lockstep_unresolved step]
      exact ⟨[], (append_nil _).symm, nil_prefix, silent_nil⟩
    | ok resolution =>
      obtain ⟨resolved, tick, released⟩ := resolution
      rw [lockstep_resolved step]
      have ends := iterate_endsIn engine methods result state resolved tick
      have replies : Speaks _ (replyAll (outputTarget shm result empty turn)
          (iterate engine methods result state resolved tick).1 :
            Program (Responding engine) Failure Unit) :=
        replyAll_speaks (blank turn) _ ends.dropLast
      dsimp only
      rcases turned : iterate engine methods result state resolved tick with
        ⟨said, next | stopped⟩
      · rw [iterate_continue turned, turned] at ends
        rw [turned] at replies
        dsimp only
        rw [map_append]
        exact replies.bind Sent.append ends.silent (fun _ => ih (turn + 1) next) writer
      · rw [turned] at replies
        exact replies.andPure stopped writer

/-- The replies of the loop hold the error that it stopped with. -/
theorem loopSaid_errs (empty : A.Batch) (items : List (A.Batch × Metadata)) (turn : Nat)
    (state : StreamStateKind σ) (upload : Option RpcError) :
    Errs ((loopSaid engine shm methods result turn state items).map Reply.purpose)
      (loopMishaps engine shm methods result empty turn state items upload).told := by
  induction items generalizing turn state upload with
  | nil => exact silent_nil.errs
  | cons item rest ih =>
    obtain ⟨batch, metadata⟩ := item
    unfold loopSaid loopMishaps
    cases Shm.resolveShmBatch engine.toPlane batch metadata (shm.map (·.atResolving turn)) with
    | error failure => exact silent_nil.errs
    | ok resolution =>
      obtain ⟨resolved, tick, released⟩ := resolution
      have ends := iterate_endsIn engine methods result state resolved tick
      dsimp only
      rcases turned : iterate engine methods result state resolved tick with
        ⟨said, next | stopped⟩
      · rw [iterate_continue turned, turned] at ends
        dsimp only
        rw [map_append]
        exact ends.silent.errs_append (ih (turn + 1) next _)
      · rw [turned] at ends
        exact ends.errs

end

section

variable {σ : Type} (engine) (shm : Option Channel) (call : UnaryCall A)

def unarySaid : List (Reply A) :=
  match callGuard call.outcome with
  | .ok result => call.logs.map .log ++ [resultReply call.externalRef result]
  | .error error => call.logs.map .log ++ [.error error]

variable (methods : StreamState A σ)

def outputSaid (result : StreamResult A σ) (logs : List LogMessage)
    (input : Except RpcError (StreamRead A)) : List (Reply A) :=
  match input, engine.emptyBatch result.outputSchema with
  | .ok read, .ok _ =>
    logs.map .log ++ loopSaid engine shm methods result 0 result.state read.items
  | _, _ => []

def streamSaid (call : StreamCall A σ) (input : Except RpcError (StreamRead A)) : List (Reply A) :=
  match callGuard call.init with
  | .error error => call.logs.map .log ++ [.error error]
  | .ok result =>
    match result.header with
    | some header =>
      headerReplies result header call.logs ++ outputSaid engine shm call.methods result [] input
    | none => outputSaid engine shm call.methods result call.logs input

variable {engine shm} {said : List Purpose} {α : Type}

/-- A response stream holds what its body says. -/
theorem responseStream_voices {schema : Schema} {body : Program (Responding engine) Failure α}
    (speaks : Speaks said body) : Voices (Published engine) said (responseStream engine schema body) := by
  intro state
  cases opened : engine.opens schema with
  | error failure =>
    rw [responseStream_unopened opened]
    exact ⟨[], ⟨[], (append_nil _).symm, rfl⟩, nil_prefix, silent_nil⟩
  | ok tracker =>
    obtain ⟨pieces, sent, voiced⟩ := speaks ⟨state.envelope, tracker, []⟩
    rcases run : body ⟨state.envelope, tracker, []⟩ with ⟨result, after⟩
    rw [run] at sent voiced
    rw [responseStream_opened opened run]
    refine ⟨pieces, ⟨[⟨schema, pieces⟩], ?_, append_nil _⟩, voiced⟩
    rw [sent]
    rfl

theorem plainTarget_blank (schema : Schema) (batch : A.Batch)
    (built : (plainTarget engine schema).empty = .ok batch) : A.numRows batch = 0 :=
  engine.emptyBatch_rows schema batch built

theorem errorStream_voices (schema : Schema) (logs : List LogMessage) (error : RpcError) :
    Voices (Published engine) ((logs.map .log ++ [.error error] : List (Reply A)).map Reply.purpose)
      (errorStream engine schema logs error) :=
  responseStream_voices ((replyAll_speaks (plainTarget_blank schema) _
    (endsIn_logs_error logs error).dropLast).andPure _)

theorem resultReply_endsIn (result : Option A.Batch) :
    EndsIn (call.logs.map .log ++ [resultReply call.externalRef result]) none := by
  refine ⟨_, (append_nil _).symm, ?_⟩
  rw [map_append, silent_append]
  refine ⟨silent_logs call.logs, forall_mem_singleton.mpr ?_⟩
  unfold resultReply
  split <;> rfl

theorem serveUnary_voices : Voices (Published engine) ((unarySaid call).map Reply.purpose)
      (serveUnary engine shm call) := by
  unfold serveUnary unarySaid
  cases callGuard call.outcome with
  | error error => exact errorStream_voices _ _ _
  | ok result =>
    refine responseStream_voices ((replyAll_speaks ?_ _
      (resultReply_endsIn call result).dropLast).andPure _)
    intro batch built
    exact engine.emptyBatch_rows call.resultSchema batch built

variable (result : StreamResult A σ)

theorem headerReplies_endsIn (header : A.Batch)
    (logs : List LogMessage) : EndsIn (headerReplies result header logs) none := by
  refine ⟨_, (append_nil _).symm, ?_⟩
  rw [headerReplies, map_append, silent_append]
  exact ⟨silent_logs logs, forall_mem_singleton.mpr rfl⟩

variable (logs : List LogMessage) (input : Except RpcError (StreamRead A))

theorem outputBody_speaks :
    Speaks ((outputSaid engine shm methods result logs input).map Reply.purpose)
      (outputBody engine shm methods result logs input) := by
  intro state
  unfold outputSaid outputBody
  cases input with
  | error error => exact ⟨[], (append_nil _).symm, nil_prefix, silent_nil⟩
  | ok read =>
    cases built : engine.emptyBatch result.outputSchema with
    | error failure => exact ⟨[], (append_nil _).symm, nil_prefix, silent_nil⟩
    | ok empty =>
      have rows := engine.emptyBatch_rows _ _ built
      have ends := endsIn_logs (A := A) logs
      have opening : Speaks _ (replyAll (outputTarget shm result empty 0)
          (logs.map .log) : Program (Responding engine) Failure Unit) :=
        replyAll_speaks (by rintro _ ⟨⟩; exact rows) _ ends.dropLast
      rw [map_append]
      exact opening.bind Sent.append ends.silent
        (fun _ => lockstep_speaks rows read.ending read.items 0 result.state) state

theorem outputStream_voices : Voices (Published engine)
      ((outputSaid engine shm methods result logs input).map Reply.purpose)
      (outputStream engine shm methods result logs input) :=
  responseStream_voices (outputBody_speaks methods result logs input)

theorem serveStream_voices (call : StreamCall A σ) (input : Except RpcError (StreamRead A)) :
    Voices (Published engine) ((streamSaid engine shm call input).map Reply.purpose)
      (serveStream engine shm call input) := by
  unfold serveStream streamSaid
  cases callGuard call.init with
  | error error => exact errorStream_voices _ _ _
  | ok result =>
    dsimp only
    cases result.header with
    | none => exact outputStream_voices _ _ _ _
    | some header =>
      have ends := headerReplies_endsIn result header call.logs
      have first : Voices (Published engine) _ (headerStream engine result header call.logs) :=
        responseStream_voices (replyAll_speaks (plainTarget_blank _) _ ends.dropLast)
      dsimp only
      rw [map_append]
      exact first.bind Published.append ends.silent fun _ => outputStream_voices _ _ _ _

/-! ## Errors of a call -/

theorem unarySaid_errs : Errs ((unarySaid call).map Reply.purpose) (unaryMishaps call).told := by
  unfold unarySaid unaryMishaps
  cases callGuard call.outcome with
  | error error => exact (endsIn_logs_error call.logs error).errs
  | ok result => exact (resultReply_endsIn call result).errs

theorem outputSaid_errs : Errs ((outputSaid engine shm methods result logs input).map Reply.purpose)
      (outputMishaps engine shm methods result input).told := by
  unfold outputSaid outputMishaps
  cases input with
  | error error => exact silent_nil.errs
  | ok read =>
    cases engine.emptyBatch result.outputSchema with
    | error failure => exact silent_nil.errs
    | ok empty =>
      dsimp only
      rw [map_append]
      exact (silent_logs logs).errs_append (loopSaid_errs _ _ _ _ _)

theorem streamSaid_errs (call : StreamCall A σ) (input : Except RpcError (StreamRead A)) :
    Errs ((streamSaid engine shm call input).map Reply.purpose)
      (streamMishaps engine shm call input).told := by
  unfold streamSaid streamMishaps
  cases callGuard call.init with
  | error error => exact (endsIn_logs_error call.logs error).errs
  | ok result =>
    dsimp only
    cases result.header with
    | none => exact outputSaid_errs _ _ _ _
    | some header =>
      dsimp only
      rw [map_append]
      exact (headerReplies_endsIn result header call.logs).silent.errs_append
        (outputSaid_errs _ _ _ _)

/-- A call that is left early has told of no error. -/
def toldBy {α : Type} (told : Option RpcError) : Except Failure α → Option RpcError
  | .ok _ => told
  | .error _ => none

variable {result : Except Failure α} {pieces : List (Piece A engine.render)}

theorem Voiced.tells {told : Option RpcError} (voiced : Voiced said result pieces)
    (errs : Errs said told) : Tells pieces (toldBy told result) := by
  intro error
  rw [← mem_map]
  cases result with
  | ok value =>
    have purposes : pieces.map Piece.purpose = said := voiced
    rw [purposes]
    exact errs error
  | error failure => exact voiced.2.errs error

theorem Voiced.isPrefix (voiced : Voiced said result pieces) : pieces.map Piece.purpose <+: said := by
  cases result with
  | ok value =>
    have purposes : pieces.map Piece.purpose = said := voiced
    exact purposes ▸ prefix_rfl
  | error failure => exact voiced.1

variable (engine) in
/-- The hook hears of a call on a byte stream what its response says, exactly when nothing
there is mistaken for an error and, unless the handler failed, a cast failed just as an
upload did. -/
def HeardOnPipe (json : JsonReader) (said : List Purpose) (mishaps : Mishaps)
    (served : Except Failure Ending × Serving A) : Prop :=
  ∃ sheets : List (Sheet A engine.render), served.2.streams = sheets.map Sheet.response ∧
    (sheets.flatMap Sheet.pieces).map Piece.purpose <+: said ∧
    (Reported json (sheets.flatMap Sheet.pieces) (endError mishaps served.1) ↔
      Unmistaken json (sheets.flatMap Sheet.pieces) ∧ ((∃ ending, served.1 = .ok ending) →
          mishaps.handler.isSome = true ∨ mishaps.upload = mishaps.cast))

theorem heardOnPipe (json : JsonReader) {mishaps : Mishaps} {program : Program (Serving A) Failure
    Ending} (voices : Voices (Published engine) said program) (errs : Errs said mishaps.told)
    (envelope : EnvelopeMeta) : HeardOnPipe engine json said mishaps (program ⟨envelope, []⟩) := by
  obtain ⟨pieces, ⟨sheets, streams, rfl⟩, voiced⟩ := voices ⟨envelope, []⟩
  refine ⟨sheets, streams, voiced.isPrefix, ?_⟩
  rw [reported_iff json (voiced.tells errs)]
  refine and_congr_right fun _ => ?_
  cases (program ⟨envelope, []⟩).1 with
  | error failure => exact iff_of_true rfl (by rintro ⟨_, ⟨⟩⟩)
  | ok ending =>
    simp only [endError, toldBy, Mishaps.appErr, Mishaps.told]
    cases mishaps.handler <;> simp

end

/-! ## Reflection -/

/-- The hook is given what `serve_reflection` returns, and nothing when it panics. -/
def reflectionError : Except Failure Unit → Option RpcError
  | .error (.error error) => some error
  | .error .panicked | .ok () => none

variable {sheets : List (Sheet A engine.render)} {schema : Schema}
  {made : Except Failure (Piece A engine.render)}

theorem sheetOf_ok (served : sheetOf engine schema made = (.ok (), sheets)) :
    ∃ piece, made = .ok piece ∧ sheets.flatMap Sheet.pieces = [piece] := by
  unfold sheetOf at served
  split at served
  · cases served
  · cases served
  · split at served
    · cases served
    · cases served
      exact ⟨_, rfl, rfl⟩

variable {failure : Failure}

theorem sheetOf_cut (served : sheetOf engine schema made = (.error failure, sheets)) :
    sheets.flatMap Sheet.pieces = [] := by
  unfold sheetOf at served
  split at served
  · cases served; rfl
  · cases served; rfl
  · split at served
    · cases served; rfl
    · cases served

variable {envelope : EnvelopeMeta} {result : ReflectionResult A}

/-- A reflection that was served is one batch: the answer or the refusal. -/
theorem serveReflection_ok (served : serveReflection engine envelope result = (.ok (), sheets)) :
    (∃ batch, result = .answered batch ∧ sheets.flatMap Sheet.pieces =
        [.data (batch, some (buildEnvelopeMetadata envelope.serverId envelope.requestId))]) ∨
    ∃ error piece, result = .refused error ∧ sheets.flatMap Sheet.pieces = [piece] ∧
      piece.purpose = .error error ∧ engine.emptyBatch .empty = .ok piece.item.1 := by
  cases result with
  | failed error => cases served
  | answered batch =>
    obtain ⟨piece, made, pieces⟩ := sheetOf_ok served
    cases made
    exact .inl ⟨batch, rfl, pieces⟩
  | refused error =>
    obtain ⟨piece, made, pieces⟩ := sheetOf_ok served
    cases blank : engine.blank .empty with
    | error failure => rw [blank] at made; cases made
    | ok empty =>
      rw [blank] at made
      cases made
      exact .inr ⟨error, _, rfl, pieces, rfl, Engine.blank_eq_ok blank⟩

theorem serveReflection_cut
    (served : serveReflection engine envelope result = (.error failure, sheets)) :
    sheets.flatMap Sheet.pieces = [] := by
  cases result with
  | answered batch => exact sheetOf_cut served
  | refused error => exact sheetOf_cut served
  | failed error => cases served; rfl

/-- The batch of an answer carries no metadata. -/
theorem answered_unmistaken (json : JsonReader) (serverId requestId : String) (batch : A.Batch) :
    isException json (batch, some (buildEnvelopeMetadata serverId requestId)) = false := by
  have location : mdGet (buildEnvelopeMetadata serverId requestId) locationKey = none := rfl
  have level : mdGet (buildEnvelopeMetadata serverId requestId) logLevelKey = none := rfl
  simp [isException_eq, kindOf, classify, location, level]

/-- The hook hears of no refusal, and of failures that were not written. -/
theorem reflection_reported_iff (json : JsonReader) (envelope : EnvelopeMeta)
    (result : ReflectionResult A) {outcome : Except Failure Unit}
    (served : serveReflection engine envelope result = (outcome, sheets)) :
    Reported json (sheets.flatMap Sheet.pieces) (reflectionError outcome) ↔
      (outcome = .ok () ∧ ∃ batch, result = .answered batch) ∨ outcome = .error .panicked := by
  rcases outcome with (error | _) | _
  · rw [serveReflection_cut served, reported_nil_iff]
    refine iff_of_false nofun ?_
    rintro (⟨finished, _⟩ | panicked)
    · cases finished
    · cases panicked
  · rw [serveReflection_cut served, reported_nil_iff]
    exact iff_of_true rfl (.inr rfl)
  · rcases serveReflection_ok served with
      ⟨batch, rfl, pieces⟩ | ⟨error, piece, rfl, pieces, purpose, -⟩
    · refine iff_of_true ?_ (.inl ⟨rfl, batch, rfl⟩)
      rw [pieces]
      refine ⟨forall_mem_singleton.mpr fun exception => ?_, nofun⟩
      exact absurd exception (by rw [Piece.data, answered_unmistaken]; exact nofun)
    · rw [pieces, reported_iff json (tells_single purpose)]
      refine iff_of_false (fun heard => nomatch heard.2) ?_
      rintro (⟨_, batch, answered⟩ | panicked)
      · cases answered
      · cases panicked

end
end VgiRpc.Server

