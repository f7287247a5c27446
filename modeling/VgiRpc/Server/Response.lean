import VgiRpc.Shm.Pointer
import VgiRpc.Stream

/-!
# Response streams

A served call says what it has to say as replies: logs, errors and batches.  Each
reply becomes one batch of the open response stream, unless storing or encoding it
fails; then the call is left at once and its writer is dropped, which ends the
stream all the same.
-/

namespace VgiRpc.Server

open Arrow Library.Program Metadata
open Library (Program)

/-- What a server is configured with, and the operations of the batch library its
responses go through. -/
structure Engine (A : ArrowIpc) extends Shm.Plane A where
  Tracker : Type
  opens : Schema → Except Failure Tracker
  writes : Tracker → A.Batch → Option Metadata → Except Failure Tracker
  castColumns : A.Batch → Schema → Except RpcError A.Batch
  /-- The upload of a batch to external storage: the pointer to it, or `none` when it
  stays inline. -/
  externalize : A.Batch → Schema → Option Metadata → Except RpcError (Option (A.Batch × Metadata))
  render : Rendering

structure ExternalRef where
  url : String
  sha256 : Option String
  named : url.isEmpty = false
  digest : ∀ text, sha256 = some text →
    text.length = 64 ∧ text.toList.all (fun c => c.isDigit || ('a' ≤ c && c ≤ 'f')) = true

/-- A response stream on the wire; its end marker has been written. -/
structure Response (A : ArrowIpc) where
  schema : Schema
  items : List (A.Batch × Option Metadata)

/-- The stream replies go to: its schema, its batch without rows, and the segment as it
is when a batch is stored. -/
structure Target (A : ArrowIpc) where
  schema : Schema
  empty : Except Failure A.Batch
  shm : Option Shm.Attached

inductive Reply (A : ArrowIpc) where
  | log (message : LogMessage)
  | error (error : RpcError)
  | batch (batch : A.Batch) (metadata : Option Metadata)
  /-- The result of a method that returned none: a batch without rows. -/
  | nothing
  /-- A batch that is written as it is. -/
  | verbatim (batch : A.Batch) (metadata : Option Metadata)
  | reference (reference : ExternalRef)

section

variable {A : ArrowIpc}

def ExternalRef.pointerBatch (plane : Shm.Plane A) (reference : ExternalRef) (schema : Schema) :
    Except Failure (A.Batch × Metadata) := do
  let batch ← plane.emptyBatch schema
  pure (batch, EnvelopeMeta.setOrClear (Library.OrderedMap.empty.insert locationKey reference.url)
    locationSha256Key reference.sha256)

variable (engine : Engine A)

/-- An open response stream and the envelope builder of the call. -/
structure Responding where
  envelope : EnvelopeMeta
  tracker : engine.Tracker
  sent : List (A.Batch × Option Metadata)

variable {engine}

def write (batch : A.Batch) (metadata : Option Metadata) :
    Program (Responding engine) Failure Unit := fun state =>
  match engine.writes state.tracker batch metadata with
  | .error failure => (.error failure, state)
  | .ok tracker =>
    (.ok (), { state with tracker := tracker, sent := state.sent ++ [(batch, metadata)] })

/-- Fill the envelope of the call; its map is the metadata to write. -/
def fillEnvelope (fill : EnvelopeMeta → EnvelopeMeta) :
    Program (Responding engine) Failure Metadata := fun state =>
  (.ok (fill state.envelope).map, { state with envelope := fill state.envelope })

/-- An envelope goes out on a batch without rows. -/
def writeEnvelope (target : Target A) (fill : EnvelopeMeta → EnvelopeMeta) :
    Program (Responding engine) Failure Unit := do
  let metadata ← fillEnvelope fill
  let empty ← target.empty
  write empty (some metadata)

/-- Upload the batch if external storage takes it; otherwise, and when the upload
fails, it goes inline. -/
def writeInline (schema : Schema) (batch : A.Batch) (metadata : Option Metadata) :
    Program (Responding engine) Failure Unit :=
  match engine.externalize batch schema metadata with
  | .ok (some (pointer, pointerMetadata)) => write pointer (some pointerMetadata)
  | _ => write batch metadata

/-- A data batch goes through the segment if there is one and it takes the batch. -/
def writeBatch (target : Target A) (batch : A.Batch) (metadata : Option Metadata) :
    Program (Responding engine) Failure Unit :=
  match target.shm with
  | none => writeInline target.schema batch metadata
  | some attached => do
      let (written, writtenMetadata) ←
        Shm.maybeWriteToShm engine.toPlane batch (metadata.getD .empty) (some attached)
      if (mdGet writtenMetadata shmOffsetKey).isSome then write written (some writtenMetadata)
      else writeInline target.schema batch metadata

def reply (target : Target A) : Reply A → Program (Responding engine) Failure Unit
  | .log message => writeEnvelope target (·.log engine.render message)
  | .error error => writeEnvelope target (·.error engine.render error)
  | .batch batch metadata => writeBatch target batch metadata
  | .nothing => do
      let empty ← target.empty
      writeBatch target empty none
  | .verbatim batch metadata => write batch metadata
  | .reference reference => do
      let (pointer, metadata) ← reference.pointerBatch engine.toPlane target.schema
      write pointer (some metadata)

def replyAll (target : Target A) : List (Reply A) → Program (Responding engine) Failure Unit
  | [] => pure ()
  | first :: rest => do
      reply target first
      replyAll target rest

variable {target : Target A} {state after : Responding engine}

theorem replyAll_append (first second : List (Reply A)) (state : Responding engine) :
    replyAll target (first ++ second) state =
      (replyAll target first >>= fun _ => replyAll target second) state := by
  induction first generalizing state with
  | nil => rfl
  | cons said rest ih =>
    simp only [List.cons_append, replyAll]
    rw [bind_assoc]
    exact bind_congr fun _ after => ih after

theorem write_ok {batch : A.Batch} {metadata : Option Metadata}
    (run : write batch metadata state = (.ok (), after)) :
    after.sent = state.sent ++ [(batch, metadata)] ∧ after.envelope = state.envelope := by
  unfold write at run
  split at run
  · cases run
  · cases run
    exact ⟨rfl, rfl⟩

/-- An envelope that was written is the last batch of the stream, on a batch without
rows. -/
theorem writeEnvelope_ok {fill : EnvelopeMeta → EnvelopeMeta} (empty : ∃ schema, target.empty =
    engine.emptyBatch schema) (run : writeEnvelope target fill state = (.ok (), after)) :
    ∃ batch, A.numRows batch = 0 ∧
      after.sent = state.sent ++ [(batch, some (fill state.envelope).map)] ∧
      after.envelope = fill state.envelope := by
  obtain ⟨metadata, filled, ⟨⟩, run⟩ := bind_eq_ok run
  obtain ⟨batch, same, lifted, run⟩ := bind_eq_ok run
  obtain ⟨built, rfl⟩ := lift_eq_ok lifted
  obtain ⟨schema, source⟩ := empty
  obtain ⟨grown, envelope⟩ := write_ok run
  exact ⟨batch, engine.emptyBatch_rows schema batch (source ▸ built), grown, envelope⟩

/-! ## Invariants of a stream

A stream changes only by writes, so what a write keeps, every reply keeps. -/

section

variable {invariant : Responding engine → Prop}
  (writes : ∀ batch metadata, Program.Preserves invariant (write batch metadata))
  (fills : ∀ state envelope, invariant state → invariant { state with envelope := envelope })

include writes

theorem writeInline_preserves (schema : Schema) (batch : A.Batch) (metadata : Option Metadata) :
    Program.Preserves invariant (writeInline schema batch metadata) := by
  unfold writeInline
  split
  · exact writes _ _
  · exact writes _ _

variable (target : Target A)

theorem writeBatch_preserves (batch : A.Batch) (metadata : Option Metadata) :
    Program.Preserves invariant (writeBatch target batch metadata) := by
  unfold writeBatch
  split
  · exact writeInline_preserves writes _ _ _
  · exact (preserves_lift _).bind fun _ =>
      .ite (writes _ _) (writeInline_preserves writes _ _ _)

include fills

theorem writeEnvelope_preserves (fill : EnvelopeMeta → EnvelopeMeta) :
    Program.Preserves invariant (writeEnvelope target fill) :=
  Program.Preserves.bind (fun state holds => fills state _ holds) fun _ =>
    (preserves_lift _).bind fun _ => writes _ _

theorem reply_preserves (said : Reply A) : Program.Preserves invariant (reply target said) := by
  cases said with
  | log message | error error => exact writeEnvelope_preserves writes fills _ _
  | batch batch metadata => exact writeBatch_preserves writes _ _ _
  | nothing => exact (preserves_lift _).bind fun _ => writeBatch_preserves writes _ _ _
  | verbatim batch metadata => exact writes _ _
  | reference reference => exact (preserves_lift _).bind fun _ => writes _ _

theorem replyAll_preserves (said : List (Reply A)) :
    Program.Preserves invariant (replyAll target said) := by
  induction said with
  | nil => exact preserves_pure ()
  | cons first rest ih => exact (reply_preserves writes fills target first).bind fun _ => ih

end

end
end VgiRpc.Server

