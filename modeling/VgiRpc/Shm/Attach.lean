import VgiRpc.Shm.Segment

/-!
# Segments of an untrusted peer

The peer names the size of the mapping and writes its header and its table.  Whatever they say,
the operations of a segment that holds a header stay inside the mapping.  Attaching comes before
that is known: it slices the mapping, and subtracts the size of the header from its length.
-/

namespace VgiRpc.Shm

open Arrow Library.ByteStream Library.LittleEndian Library.Memory

/-- A slice behind the end of the mapping panics. -/
def sliceChecked (mapping : Bytes) (start count : Nat) : Except Failure Bytes :=
  if start + count ≤ mapping.length then .ok (slice mapping start count) else .error .panicked

/-- `ShmAllocator::attach`, with the arithmetic of a checked build. -/
def attach (mapping : Bytes) (addressable : mapping.length < 2 ^ 63) : Except Failure Segment := do
  let named ← sliceChecked mapping 0 4
  if named ≠ magic then throw (.error (.valueError ("bad SHM magic: " ++ toString named)))
  else
    let found := ofLe (← sliceChecked mapping 4 4)
    if found ≠ version then
      throw (.error (.valueError ("unsupported SHM version: " ++ toString found)))
    else
      let dataSize := ofLe (← sliceChecked mapping 8 8)
      if header : headerSize ≤ mapping.length then
        if dataSize = mapping.length - headerSize then pure ⟨mapping, header, addressable⟩
        else throw (.error (.valueError ("data_size mismatch: header says " ++ toString dataSize ++
          ", expected " ++ toString (mapping.length - headerSize))))
      else throw .panicked

namespace Segment

variable (segment : Segment)

def readBytes (offset length : Nat) : Except RpcError Bytes :=
  if 2 ^ 64 ≤ offset + length then .error (.valueError "shm region overflow")
  else if segment.size < offset + length then
    .error (.valueError ("shm region " ++ toString offset ++ ".." ++ toString (offset + length) ++
      " out of bounds (size=" ++ toString segment.size ++ ")"))
  else .ok (slice segment.bytes offset length)

/-- What the operations touch and hand out, whatever the mapping holds. -/
structure Contained : Prop where
  table : headerFixedSize + segment.readAllocs.length * allocEntrySize ≤ segment.size
  found : ∀ offset index, segment.position offset = some index → index < segment.readAllocs.length
  allocated : ∀ size offset next, segment.allocate size = (some offset, next) →
    headerSize ≤ offset ∧ offset + size ≤ segment.size ∧ next.size = segment.size ∧
      ∀ entry ∈ segment.readAllocs, entry.1 + entry.2 ≤ offset ∨ offset + size ≤ entry.1
  bytes : ∀ offset length region, segment.readBytes offset length = .ok region →
    offset + length ≤ segment.size ∧ region = slice segment.bytes offset length

theorem contained : segment.Contained where
  table := by
    have bounded := segment.readAllocs_length_le
    have header : headerSize ≤ segment.size := segment.header
    simp only [headerFixedSize, allocEntrySize, headerSize, maxAllocs] at *
    omega
  found _ _ found := (List.findIdx?_eq_some_iff_getElem.mp found).1
  allocated _ _ _ run :=
    have ⟨behind, inside, same, apart, _⟩ := allocate_some run
    ⟨behind, inside, same.size, apart⟩
  bytes offset length region read := by
    unfold readBytes at read
    split_ifs at read with _ inside
    cases read
    exact ⟨Nat.le_of_not_lt inside, rfl⟩

variable {A : ArrowIpc} {read : Bytes → Except Failure (Option A.Batch)} {schema : Schema}

theorem readBatch_returns
    (reads : ∀ region, deserializeFromShm A read region schema ≠ .error .panicked)
    (offset length : Nat) : segment.readBatch read offset length schema ≠ .error .panicked := by
  unfold readBatch
  split
  · nofun
  split
  · nofun
  split
  · exact reads _
  · cases decodeNonDictShmStream A (slice segment.bytes offset length) schema <;> nofun

end Segment

end VgiRpc.Shm
