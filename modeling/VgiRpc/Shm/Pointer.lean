import VgiRpc.Shm.Segment

/-!
# Pointer batches

A batch that was stored in a shared segment travels as a batch without rows whose
metadata says where it is.  Resolving and storing see the segment as it is at that
moment: the peer writes to it too.
-/

namespace VgiRpc.Shm

open Arrow Metadata Library.ByteStream

def digitsValue (digits : List Char) : Option Nat :=
  if digits.isEmpty then none
  else
    digits.foldlM (fun value digit =>
        if digit.isDigit then some (value * 10 + (digit.toNat - '0'.toNat)) else none) 0

/-- `str::parse::<u64>`, which also takes a leading plus sign. -/
def parseU64 (text : String) : Option Nat :=
  (digitsValue (match text.toList with
    | '+' :: digits => digits
    | digits => digits)).filter (· < 2 ^ 64)

structure Attached where
  name : String
  segment : Segment

/-- What the batch library and the process's settings contribute. -/
structure Plane (A : ArrowIpc) where
  emptyBatch : Schema → Except Failure A.Batch
  /-- An empty batch has no rows. -/
  emptyBatch_rows : ∀ schema batch, emptyBatch schema = .ok batch → A.numRows batch = 0
  memorySize : A.Batch → Nat
  /-- The library's own stream reader, which the dictionary path uses. -/
  readFirst : Bytes → Except Failure (Option A.Batch)
  shmMinBatchBytes : Nat

section

variable {A : ArrowIpc}

def isShmPointerBatch (batch : A.Batch) (metadata : Metadata) : Bool :=
  if A.numRows batch ≠ 0 then false
  else (mdGet metadata shmOffsetKey).isSome && (mdGet metadata logLevelKey).isNone

def resolvedMetadata (metadata : Metadata) (name : String) : Metadata :=
  ((metadata.remove shmOffsetKey).remove shmLengthKey).insert shmSourceKey name

variable (plane : Plane A)

def makeShmPointerBatch (schema : Schema) (offset length : Nat) :
    Except Failure (A.Batch × Metadata) := do
  let batch ← plane.emptyBatch schema
  pure (batch, (Library.OrderedMap.empty.insert shmOffsetKey (toString offset)).insert
    shmLengthKey (toString length))

def pointerNumber (metadata : Metadata) (key name : String) : Except Failure Nat :=
  match (mdGet metadata key).bind parseU64 with
  | some value => .ok value
  | none => .error (.error (.valueError ("bad " ++ name)))

variable (batch : A.Batch) (metadata : Metadata) (shm : Option Attached)

/-- Resolve a pointer batch, or return the batch when it is not one or there is no
segment.  The offset is returned when the slot has to be released explicitly. -/
def resolveShmBatch : Except Failure (A.Batch × Metadata × Option Nat) :=
  match shm with
  | none => .ok (batch, metadata, none)
  | some attached =>
    if isShmPointerBatch batch metadata then do
      let offset ← pointerNumber metadata shmOffsetKey "shm_offset"
      let length ← pointerNumber metadata shmLengthKey "shm_length"
      let resolved ← attached.segment.readBatch plane.readFirst offset length (A.schemaOf batch)
      pure (resolved, resolvedMetadata metadata attached.name,
        if schemaHasDictionary (A.schemaOf batch) then some offset else none)
    else .ok (batch, metadata, none)

/-- Store a batch that is worth it and fits; otherwise it stays as it is. -/
def maybeWriteToShm : Except Failure (A.Batch × Metadata) :=
  match shm with
  | none => .ok (batch, metadata)
  | some attached =>
    if A.numRows batch = 0 then .ok (batch, metadata)
    else if plane.memorySize batch < plane.shmMinBatchBytes then .ok (batch, metadata)
    else do
      match ← (attached.segment.allocateAndWrite plane.memorySize batch).1 with
      | none => pure (batch, metadata)
      | some (offset, length) =>
        let (pointer, pointerMetadata) ← makeShmPointerBatch plane (A.schemaOf batch) offset length
        pure (pointer, pointerMetadata.entries.foldl
          (fun merged entry => merged.insert entry.1 entry.2) metadata)

end
end VgiRpc.Shm
