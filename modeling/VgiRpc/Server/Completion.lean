import VgiRpc.Server.Sample

/-!
# Clean responses

A response whose streams have ended, with no EXCEPTION among their batches, tells the
client that the call completed.  The writer ends its stream whenever it is dropped, so
whether this can be believed depends on the ways a call is left.
-/

namespace VgiRpc.Server

open Arrow Library.Program Wire
open Library (Program)
open Sample (json engine envelope producer rows)

/-- The call completed: its result was written, its state finished the stream, or the
client ended or cancelled its input. -/
def Ending.completed : Ending → Bool
  | .resultWritten | .finished | .inputEnded | .cancelled => true
  | .raised _ | .inputCut | .inputFailed _ | .failed _ => false

/-- What a served call leaves on the wire, and how it really ended. -/
structure Served (A : ArrowIpc) where
  streams : List (Response A)
  ending : Ending

/-- A call on a byte-stream connection: refused before dispatch, or dispatched to a
method. -/
inductive Call (A : ArrowIpc) (σ : Type) where
  | refused (schema : Schema) (error : RpcError)
  | unary (call : UnaryCall A)
  | stream (call : StreamCall A σ) (input : Except RpcError (StreamRead A))

section

variable {A : ArrowIpc} {σ : Type} (engine : Engine A) (shm : Option Channel)

def serveCall : Call A σ → Program (Serving A) Failure Ending
  | .refused schema error => errorStream engine schema [] error
  | .unary call => serveUnary engine shm call
  | .stream call input => serveStream engine shm call input

def concluded : Except Failure Ending × Serving A → Served A
  | (.ok ending, state) => ⟨state.streams, ending⟩
  | (.error failure, state) => ⟨state.streams, .failed failure⟩

def served (envelope : EnvelopeMeta) (call : Call A σ) : Served A :=
  concluded (serveCall engine shm call ⟨envelope, []⟩)

end

section

variable {A : ArrowIpc} (json : JsonReader)

def isException (item : A.Batch × Option Metadata) : Bool :=
  match classify json (A.numRows item.1) (item.2.getD .empty) with
  | .exception _ => true
  | _ => false

def Announced (items : List (A.Batch × Option Metadata)) : Prop :=
  ∃ item ∈ items, isException json item = true

/-- A client that reads these streams sees them end, and sees no error. -/
def Clean (streams : List (Response A)) : Prop :=
  streams ≠ [] ∧ ∀ stream ∈ streams, ¬ Announced json stream.items

/-- The response looks complete only if the call completed. -/
def Honest (served : Served A) : Prop :=
  Clean json served.streams → served.ending.completed = true

end

section

variable {A : ArrowIpc} {σ : Type} {engine : Engine A} (json : JsonReader)
  (earlier : List (A.Batch × Option Metadata))

/-- The call has announced an error by now, on an earlier stream or on this one. -/
def Said (state : Responding engine) : Prop := Announced json (earlier ++ state.sent)

/-- The input is read to its end marker or the loop stops before; every pointer the loop
meets resolves, and every reply can be stored and encoded; or an error was announced
before the first of these failed. -/
def LoopSound (shm : Option Channel) (methods : StreamState A σ) (result : StreamResult A σ)
    (empty : A.Batch) (ending : Except RpcError Bool) :
    Nat → StreamStateKind σ → List (A.Batch × Metadata) → Responding engine → Prop
  | _, _, [], state => ending = .ok true ∨ Said json earlier state
  | turn, kind, (batch, metadata) :: rest, state =>
    match Shm.resolveShmBatch engine.toPlane batch metadata (shm.map (·.atResolving turn)) with
    | .error _ => Said json earlier state
    | .ok (resolved, tick, _) =>
      match replyAll (outputTarget shm result empty turn)
          (iterate engine methods result kind resolved tick).1 state with
      | (.error _, after) => Said json earlier after
      | (.ok (), after) =>
        match (iterate engine methods result kind resolved tick).2 with
        | .stop _ => True
        | .continue next =>
          LoopSound shm methods result empty ending (turn + 1) next rest after

variable (shm : Option Channel) (methods : StreamState A σ) (result : StreamResult A σ)

/-- The same from the opening of the output stream on. -/
def OutputSound (logs : List LogMessage) (input : Except RpcError (StreamRead A))
    (state : Responding engine) : Prop :=
  match input, engine.emptyBatch result.outputSchema with
  | .ok read, .ok empty =>
    match replyAll (outputTarget shm result empty 0) (logs.map .log) state with
    | (.error _, after) => Said json earlier after
    | (.ok (), after) =>
      LoopSound json earlier shm methods result empty read.ending 0 result.state read.items
        after
  | _, _ => Said json earlier state

end

section

variable {A : ArrowIpc} {σ : Type} (engine : Engine A) (json : JsonReader)

/-- Every reply of a stream can be stored and encoded, or an error was announced before
one could not. -/
def RepliesSound (target : Target A) (said : List (Reply A)) (envelope : EnvelopeMeta) : Prop :=
  ∀ tracker, engine.opens target.schema = .ok tracker →
    ∀ failure after, replyAll target said ⟨envelope, tracker, []⟩ = (.error failure, after) →
      Announced json after.sent

variable (shm : Option Channel) (envelope : EnvelopeMeta)

def UnarySound (call : UnaryCall A) : Prop :=
  match callGuard call.outcome with
  | .error error =>
    RepliesSound engine json (plainTarget engine call.resultSchema)
      (call.logs.map .log ++ [.error error]) envelope
  | .ok result =>
    RepliesSound engine json (resultTarget engine shm call.resultSchema)
      (call.logs.map .log ++ [resultReply call.externalRef result]) envelope

def HeaderSound (methods : StreamState A σ) (result : StreamResult A σ) (header : A.Batch)
    (logs : List LogMessage) (input : Except RpcError (StreamRead A)) (state : Responding engine) :
    Prop :=
  match replyAll (plainTarget engine (A.schemaOf header)) (headerReplies result header logs)
      state with
  | (.error _, after) => Announced json after.sent
  | (.ok (), after) =>
    match engine.opens result.outputSchema with
    | .error _ => Announced json after.sent
    | .ok tracker =>
      OutputSound json after.sent shm methods result [] input ⟨after.envelope, tracker, []⟩

def StreamSound (call : StreamCall A σ) (input : Except RpcError (StreamRead A)) : Prop :=
  match callGuard call.init with
  | .error error =>
    RepliesSound engine json (plainTarget engine call.resultSchema)
      (call.logs.map .log ++ [.error error]) envelope
  | .ok result =>
    match result.header with
    | some header =>
      ∀ tracker, engine.opens (A.schemaOf header) = .ok tracker →
        HeaderSound engine json shm call.methods result header call.logs input
          ⟨envelope, tracker, []⟩
    | none =>
      ∀ tracker, engine.opens result.outputSchema = .ok tracker →
        OutputSound json [] shm call.methods result call.logs input ⟨envelope, tracker, []⟩

/-- Nothing goes wrong in the call that the server does not announce. -/
def Sound : Call A σ → Prop
  | .refused schema error =>
    RepliesSound engine json (plainTarget engine schema) [.error error] envelope
  | .unary call => UnarySound engine json shm envelope call
  | .stream call input => StreamSound engine json shm envelope call input

end

section

variable {A : ArrowIpc} {σ : Type} {engine : Engine A} {json : JsonReader}

theorem announced_append {first second : List (A.Batch × Option Metadata)} :
    Announced json (first ++ second) ↔ Announced json first ∨ Announced json second := by
  simp [Announced, or_and_right, exists_or]

variable {target : Target A} {error : RpcError}

/-- An error that was written is one the client sees. -/
theorem reply_error_announced {state after : Responding engine}
    (empty : ∃ schema, target.empty = engine.emptyBatch schema)
    (run : reply target (.error error) state = (.ok (), after)) : Announced json after.sent := by
  obtain ⟨batch, rows, sent, -⟩ := writeEnvelope_ok empty run
  refine ⟨_, by rw [sent]; exact List.mem_append_right _ (List.mem_singleton_self _), ?_⟩
  unfold isException
  rw [Option.getD_some, rows, EnvelopeMeta.error, classify_fill]
  rfl

theorem replyAll_error_announced {said : List (Reply A)} {state after : Responding engine}
    (empty : ∃ schema, target.empty = engine.emptyBatch schema)
    (run : replyAll target (said ++ [.error error]) state = (.ok (), after)) :
    Announced json after.sent := by
  rw [replyAll_append] at run
  obtain ⟨_, middle, -, last⟩ := bind_eq_ok run
  obtain ⟨_, final, ran, ⟨⟩⟩ := bind_eq_ok last
  exact reply_error_announced empty ran

/-- The turn announced an error as its last reply, or it ends a completed call. -/
def Concludes (said : List (Reply A)) (ending : Ending) : Prop :=
  ending.completed = true ∨ ∃ first error, said = first ++ [.error error]

variable {ending : Ending}

theorem turnReplies_stop {turn : Turn A (StreamStateKind σ)} :
    (turnReplies turn).2 = .stop ending → Concludes (turnReplies turn).1 ending := by
  unfold turnReplies
  split
  · exact fun _ => .inr ⟨_, _, rfl⟩
  · dsimp only
    split
    · rintro ⟨⟩
      exact .inl rfl
    · rintro ⟨⟩

theorem iterate_stop {methods : StreamState A σ} {result : StreamResult A σ}
    {kind : StreamStateKind σ} {batch : A.Batch} {tick : Metadata} :
    (iterate engine methods result kind batch tick).2 = .stop ending →
      Concludes (iterate engine methods result kind batch tick).1 ending := by
  unfold iterate
  split
  · unfold cancelReplies
    split <;> rintro ⟨⟩ <;> exact .inl rfl
  · split
    · exact fun _ => .inr ⟨[], _, rfl⟩
    · exact turnReplies_stop

end

section

variable {A : ArrowIpc} {σ : Type} {engine : Engine A} {json : JsonReader}
  {earlier : List (A.Batch × Option Metadata)}

/-- The program ends in a completed call or has announced an error. -/
def Fair (json : JsonReader) (earlier : List (A.Batch × Option Metadata)) :
    Except Failure Ending × Responding engine → Prop
  | (.ok ending, after) => ending.completed = true ∨ Said json earlier after
  | (.error _, after) => Said json earlier after

variable {shm : Option Channel} {methods : StreamState A σ} {result : StreamResult A σ}

theorem lockstep_fair_iff {empty : A.Batch} (built : engine.emptyBatch result.outputSchema = .ok
    empty) (ending : Except RpcError Bool) (items : List (A.Batch × Metadata)) (turn : Nat) (kind :
    StreamStateKind σ) (state : Responding engine) :
    Fair json earlier (lockstep engine shm methods result empty ending turn kind items state) ↔
      LoopSound json earlier shm methods result empty ending turn kind items state := by
  induction items generalizing turn kind state with
  | nil =>
    simp only [lockstep, pure_apply, Fair, LoopSound]
    rcases ending with error | (_ | _) <;> simp [inputEnding, Ending.completed]
  | cons item rest ih =>
    obtain ⟨batch, metadata⟩ := item
    cases step : Shm.resolveShmBatch engine.toPlane batch metadata
      (shm.map (·.atResolving turn)) with
    | error failure =>
      simp only [lockstep_unresolved step, LoopSound, step]
      exact Iff.rfl
    | ok resolution =>
      obtain ⟨resolved, tick, released⟩ := resolution
      rw [lockstep_resolved step]
      simp only [LoopSound, step]
      rcases run : replyAll (outputTarget shm result empty turn)
        (iterate engine methods result kind resolved tick).1 state with ⟨failure | _, after⟩
      · rw [bind_error run]
        exact Iff.rfl
      · rw [bind_ok run]
        cases next : (iterate engine methods result kind resolved tick).2 with
        | «continue» following => exact ih (turn + 1) following after
        | stop ending =>
          refine iff_of_true ?_ trivial
          rcases iterate_stop next with completed | ⟨said, error, replies⟩
          · exact .inl completed
          · rw [replies] at run
            exact .inr (announced_append.mpr (.inr (replyAll_error_announced ⟨_, built.symm⟩ run)))

theorem outputBody_fair_iff (logs : List LogMessage) (input : Except RpcError (StreamRead A))
    (state : Responding engine) :
    Fair json earlier (outputBody engine shm methods result logs input state) ↔
      OutputSound json earlier shm methods result logs input state := by
  unfold outputBody OutputSound
  cases input with
  | error error => exact Iff.rfl
  | ok read =>
    cases built : engine.emptyBatch result.outputSchema with
    | error failure => exact Iff.rfl
    | ok empty =>
      change Fair json earlier ((replyAll (outputTarget shm result empty 0) (logs.map .log) >>=
        fun _ => lockstep engine shm methods result empty read.ending 0 result.state read.items)
          state) ↔ _
      dsimp only
      rcases run : replyAll (outputTarget shm result empty 0) (logs.map .log) state with
        ⟨failure | _, after⟩
      · rw [bind_error run]
        exact Iff.rfl
      · rw [bind_ok run]
        exact lockstep_fair_iff built read.ending read.items 0 result.state after

/-- Replies that conclude a call are fair exactly if they get out. -/
theorem replies_fair_iff {target : Target A} {said : List (Reply A)} {ending : Ending}
    (empty : ∃ schema, target.empty = engine.emptyBatch schema) (concludes : Concludes said ending)
    (state : Responding engine) :
    Fair json earlier ((replyAll target said >>= fun _ => pure ending) state) ↔
      ∀ failure after, replyAll target said state = (.error failure, after) →
        Said json earlier after := by
  rcases run : replyAll target said state with ⟨failure | _, after⟩
  · rw [bind_error run]
    constructor
    · rintro fair _ _ ⟨⟩
      exact fair
    · exact fun sound => sound failure after rfl
  · rw [bind_ok run]
    refine iff_of_true ?_ fun _ _ impossible => nomatch impossible
    rcases concludes with completed | ⟨first, error, rfl⟩
    · exact .inl completed
    · exact .inr (announced_append.mpr (.inr (replyAll_error_announced empty run)))

end

section

variable {A : ArrowIpc} {σ : Type} {engine : Engine A} {json : JsonReader}
  {streams : List (Response A)}

theorem announced_flatMap : Announced json (streams.flatMap (·.items)) ↔
      ∃ stream ∈ streams, Announced json stream.items := by
  simp only [Announced, List.mem_flatMap]
  constructor
  · rintro ⟨item, ⟨stream, member, inside⟩, exception⟩
    exact ⟨stream, member, item, inside, exception⟩
  · rintro ⟨stream, member, item, inside, exception⟩
    exact ⟨item, ⟨stream, member, inside⟩, exception⟩

theorem clean_iff : Clean json streams ↔ streams ≠ [] ∧ ¬ Announced json (streams.flatMap (·.items)) := by
  rw [announced_flatMap, Clean]
  simp

variable {schema : Schema} {envelope : EnvelopeMeta} {tracker : engine.Tracker}

/-- A stream that was opened ends on the wire, so only an announced error or the
completion of the call makes it honest. -/
theorem honest_opened (opened : engine.opens schema = .ok tracker)
    (body : Program (Responding engine) Failure Ending) (state : Serving A) :
    Honest json (concluded (responseStream engine schema body state)) ↔
      Fair json (state.streams.flatMap (·.items)) (body ⟨state.envelope, tracker, []⟩) := by
  have clean (after : Responding engine) : Clean json (state.streams ++ [⟨schema, after.sent⟩]) ↔
        ¬ Said json (state.streams.flatMap (·.items)) after := by
    rw [clean_iff, List.flatMap_append, List.flatMap_singleton, Said]
    exact and_iff_right (by simp)
  rcases run : body ⟨state.envelope, tracker, []⟩ with ⟨failure | ending, after⟩ <;>
    rw [responseStream_opened opened run]
  · simp [concluded, Honest, clean, Fair, Ending.completed]
  · simp only [concluded, Honest, clean, Fair]
    rw [or_comm, or_iff_not_imp_left]

theorem honest_unopened {failure : Failure} (unopened : engine.opens schema = .error failure)
    (body : Program (Responding engine) Failure Ending) (state : Serving A) :
    Honest json (concluded (responseStream engine schema body state)) ↔
      ¬ Clean json state.streams := by
  rw [responseStream_unopened unopened]
  simp [concluded, Honest, Ending.completed]

/-- A response of one stream: nothing reaches the client unless the stream opens. -/
theorem honest_stream_iff {body : Program (Responding engine) Failure Ending} :
    Honest json (concluded (responseStream engine schema body ⟨envelope, []⟩)) ↔
      ∀ tracker, engine.opens schema = .ok tracker → Fair json [] (body ⟨envelope, tracker, []⟩) := by
  cases opens : engine.opens schema with
  | error failure =>
    rw [honest_unopened opens]
    exact iff_of_true (fun clean => clean.1 rfl) fun _ impossible => nomatch impossible
  | ok tracker =>
    rw [honest_opened opens]
    constructor
    · rintro fair _ ⟨⟩
      exact fair
    · exact fun sound => sound tracker rfl

theorem repliesSound_iff (target : Target A) {said : List (Reply A)} {ending : Ending} (empty : ∃
    schema, target.empty = engine.emptyBatch schema) (concludes : Concludes said ending) :
    Honest json (concluded (responseStream engine target.schema
        (replyAll target said >>= fun _ => pure ending) ⟨envelope, []⟩)) ↔
      RepliesSound engine json target said envelope := by
  rw [honest_stream_iff]
  exact forall_congr' fun tracker => forall_congr' fun _ => replies_fair_iff empty concludes _

/-- A header stream that is complete leaves the verdict to the output stream. -/
theorem headerStream_honest_iff {shm : Option Channel} {methods : StreamState A σ} {result :
    StreamResult A σ} {header : A.Batch} {logs : List LogMessage} {input : Except RpcError
    (StreamRead A)} (opened : engine.opens (A.schemaOf header) = .ok tracker) :
    Honest json (concluded ((headerStream engine result header logs >>= fun _ =>
        outputStream engine shm methods result [] input) ⟨envelope, []⟩)) ↔
      HeaderSound engine json shm methods result header logs input ⟨envelope, tracker, []⟩ := by
  unfold HeaderSound
  rcases run : replyAll (plainTarget engine (A.schemaOf header)) (headerReplies result header logs)
    (⟨envelope, tracker, []⟩ : Responding engine) with ⟨failure | _, after⟩
  · have failed : headerStream engine result header logs ⟨envelope, []⟩ = _ :=
      responseStream_opened opened run
    rw [bind_error failed]
    simp [concluded, Honest, Ending.completed, Clean]
  · have done : headerStream engine result header logs ⟨envelope, []⟩ = _ :=
      responseStream_opened opened run
    rw [bind_ok done, outputStream]
    cases opens : engine.opens result.outputSchema with
    | error failure =>
      rw [honest_unopened opens]
      simp [Clean]
    | ok tracker =>
      rw [honest_opened opens, outputBody_fair_iff]
      simp

variable (shm : Option Channel) (envelope : EnvelopeMeta)

theorem serveStream_honest_iff (call : StreamCall A σ) (input : Except RpcError (StreamRead A)) :
    Honest json (concluded (serveStream engine shm call input ⟨envelope, []⟩)) ↔
      StreamSound engine json shm envelope call input := by
  unfold serveStream StreamSound
  cases callGuard call.init with
  | error error => exact repliesSound_iff (plainTarget engine call.resultSchema) ⟨_, rfl⟩ (.inr ⟨_, _, rfl⟩)
  | ok result =>
    dsimp only
    cases result.header with
    | none =>
      dsimp only
      rw [outputStream, honest_stream_iff]
      exact forall_congr' fun tracker => forall_congr' fun _ => outputBody_fair_iff _ _ _
    | some header =>
      dsimp only
      cases opens : engine.opens (A.schemaOf header) with
      | error failure =>
        refine iff_of_true ?_ fun _ impossible => nomatch impossible
        have failed : headerStream engine result header call.logs ⟨envelope, []⟩ = _ :=
          responseStream_unopened opens
        rw [bind_error failed]
        exact fun clean => absurd rfl clean.1
      | ok tracker =>
        rw [headerStream_honest_iff opens]
        constructor
        · rintro sound _ ⟨⟩
          exact sound
        · exact fun sound => sound tracker rfl

theorem serveUnary_honest_iff (call : UnaryCall A) :
    Honest json (concluded (serveUnary engine shm call ⟨envelope, []⟩)) ↔
      UnarySound engine json shm envelope call := by
  unfold serveUnary UnarySound
  cases callGuard call.outcome with
  | error error => exact repliesSound_iff (plainTarget engine call.resultSchema) ⟨_, rfl⟩ (.inr ⟨_, _, rfl⟩)
  | ok result =>
    exact repliesSound_iff (resultTarget engine shm call.resultSchema) ⟨_, rfl⟩ (.inl rfl)

end

/-- A response without an EXCEPTION stands for a completed call exactly where every way
of leaving the call unfinished is announced. -/
theorem clean_response_completed_iff {A : ArrowIpc} {σ : Type} (engine : Engine A)
    (json : JsonReader) (shm : Option Channel) (envelope : EnvelopeMeta) (call : Call A σ) :
    Honest json (served engine shm envelope call) ↔ Sound engine json shm envelope call := by
  cases call with
  | refused schema error =>
    exact repliesSound_iff (plainTarget engine schema) ⟨schema, rfl⟩ (.inr ⟨[], error, rfl⟩)
  | unary call => exact serveUnary_honest_iff shm envelope call
  | stream call input => exact serveStream_honest_iff shm envelope call input

/-- The first tick cannot be decoded; the producer has not finished, and its output
ends without a word about it. -/
theorem undecodable_tick_ends_clean : ¬ Honest json (served engine none envelope
      (.stream (producer rows)
        (.ok ⟨.empty, [], .error (.ipc "IPC buffer descriptor exceeds message body")⟩))) := by
  intro honest
  have clean : Clean json (served engine none envelope (.stream (producer rows)
        (.ok ⟨.empty, [], .error (.ipc "IPC buffer descriptor exceeds message body")⟩))).streams := by
    refine ⟨List.cons_ne_nil _ _, fun stream member => ?_⟩
    obtain rfl := List.mem_singleton.mp member
    rintro ⟨item, impossible, -⟩
    cases impossible
  exact Bool.false_ne_true (honest clean)

end VgiRpc.Server
