import VgiRpc.Shm.RoundTrip

/-!
# What a store changes

Storing a batch reserves a slot, writes to it and settles it.  A store that gives no pointer
leaves the entries of the table and the bytes of every allocation as they were, and one that does
adds one entry.  An empty entry would break both: settling takes the first entry with the slot's
offset for the slot.
-/

namespace VgiRpc.Shm

open Arrow List Library.ByteStream Library.Memory

/-- The sizes `align_ipc_allocation` gives. -/
def roundUp (length : Nat) : Nat := (length + 63) / 64 * 64

namespace Segment

/-- No entry of the table is empty. -/
def Filled (segment : Segment) : Prop :=
  ∀ entry ∈ segment.readAllocs, 0 < entry.2

/-- Behind the header, nothing but a region has changed. -/
structure SameOutside (segment next : Segment) (offset length : Nat) : Prop where
  size : next.size = segment.size
  data : ∀ start count, headerSize ≤ start → start + count ≤ offset ∨ offset + length ≤ start →
    slice next.bytes start count = slice segment.bytes start count

/-- The table has its entries, if in their order, and every allocation behind the header its
bytes. -/
structure Untouched (segment next : Segment) : Prop where
  table : next.readAllocs = segment.readAllocs ∨ next.readAllocs = segment.sortedAllocs
  data : ∀ entry ∈ segment.readAllocs, headerSize ≤ entry.1 →
    slice next.bytes entry.1 entry.2 = slice segment.bytes entry.1 entry.2

/-- A slot with what was written to it, before it is settled. -/
structure Reserved (segment next : Segment) (offset size length : Nat) : Prop where
  outside : SameOutside segment next offset length
  short : length ≤ size
  behind : headerSize ≤ offset
  bounded : offset + size ≤ segment.size
  apart : ∀ entry ∈ segment.readAllocs, entry.1 + entry.2 ≤ offset ∨ offset + size ≤ entry.1
  table : ∃ index ≤ segment.sortedAllocs.length,
    next.readAllocs = segment.sortedAllocs.insertIdx index (offset, size) ∧
      next.position offset = some index

variable {segment next : Segment} {offset size : Nat}

theorem allocate_none (run : segment.allocate size = (none, next)) : next = segment := by
  unfold allocate at run
  split at run
  · cases run
    rfl
  split at run
  · cases run
    rfl
  split at run <;> cases run
  rfl

theorem findIdx?_insertIdx {entries : List Entry} {index : Nat} (within : index ≤ entries.length)
    (fresh : ∀ entry ∈ entries, entry.1 ≠ offset) :
    (entries.insertIdx index (offset, size)).findIdx? (fun entry => entry.1 = offset) =
      some index := by
  rw [findIdx?_eq_some_iff_getElem]
  refine ⟨by rw [length_insertIdx, if_pos within]; omega, by simp, fun earlier before => ?_⟩
  rw [getElem_insertIdx_of_lt before]
  simpa using fresh _ (getElem_mem _)

theorem set_insertIdx_self (entries : List Entry) (index : Nat) (first second : Entry) :
    (entries.insertIdx index first).set index second = entries.insertIdx index second := by
  induction index generalizing entries with
  | zero => rfl
  | succ index ih =>
    cases entries with
    | nil => rfl
    | cons entry rest => simp [ih]

theorem Filled.reserve (filled : segment.Filled) (run : segment.allocate size = (some offset, next))
    {chunk : Bytes} (short : chunk.length ≤ size) (inside : offset + chunk.length ≤ next.size) :
    Reserved segment (next.write offset chunk inside) offset size chunk.length := by
  obtain ⟨behind, bounded, same, apart, index, within, table⟩ := allocate_some run
  have positive : size ≠ 0 := by
    rintro rfl
    cases run
  have written : (next.write offset chunk inside).readAllocs =
      segment.sortedAllocs.insertIdx index (offset, size) := by
    rw [write_readAllocs inside behind, table]
  refine ⟨⟨(write_size inside).trans same.size, fun start count behind apart => ?_⟩, short, behind,
    bounded, apart, index, by rwa [sortedAllocs, length_mergeSort], written, ?_⟩
  · exact (write_slice_apart inside apart).trans (same.data _ _ behind)
  · rw [position, written]
    refine findIdx?_insertIdx (by rwa [sortedAllocs, length_mergeSort]) fun entry member same => ?_
    have listed := mem_mergeSort.mp member
    have nonempty := filled entry listed
    have clear := apart entry listed
    omega

section

variable {length : Nat} (reserved : Reserved segment next offset size length)

include reserved

/-- Freeing the slot takes back everything. -/
theorem Reserved.free : Untouched segment (next.free offset).2 := by
  obtain ⟨index, within, table, found⟩ := reserved.table
  have freed : (next.free offset).2 = next.writeAllocs (next.readAllocs.eraseIdx index)
      (next.erase_bounded index) := by
    rw [Segment.free, found]
  rw [freed]
  constructor
  · rw [readAllocs_writeAllocs _ _ fun entry member =>
      readAllocs_lt ((eraseIdx_sublist ..).subset member), table, eraseIdx_insertIdx_self]
    exact .inr rfl
  · intro entry member region
    have short := reserved.short
    have clear := reserved.apart entry member
    exact ((writeAllocs_sameData ..).data _ _ region).trans
      (reserved.outside.data _ _ region (by omega))

/-- Giving back the tail of the slot leaves one new entry. -/
theorem Reserved.shrink {shorter : Nat} (fits : shorter ≤ size) :
    ∃ final, next.shrink offset shorter = (.ok (), final) ∧
      SameOutside segment final offset length ∧
      ∃ index ≤ segment.sortedAllocs.length,
        final.readAllocs = segment.sortedAllocs.insertIdx index (offset, shorter) := by
  obtain ⟨index, within, table, found⟩ := reserved.table
  have addressable : segment.size < 2 ^ 63 := segment.addressable
  have bounded := reserved.bounded
  have length : next.reservation index = size := by
    rw [reservation, table, getElem?_insertIdx_self, if_pos within]
    rfl
  have same := next.writeAllocs_sameData (next.set_bounded index (offset, shorter))
  refine ⟨_, ?_, ⟨same.size.trans reserved.outside.size, fun start count behind apart =>
    (same.data _ _ behind).trans (reserved.outside.data _ _ behind apart)⟩, index, within, ?_⟩
  · rw [Segment.shrink, found]
    simp only [length]
    rw [if_neg (by omega)]
  · rw [readAllocs_writeAllocs _ _ fun entry member => ?_, table, set_insertIdx_self]
    rcases mem_or_eq_of_mem_set member with member | rfl
    · exact readAllocs_lt member
    · exact ⟨by omega, by omega⟩

end

/-- What a store that returned `result` may have done. -/
def Framed (segment : Segment) (result : Except Failure (Option (Nat × Nat))) (after : Segment) :
    Prop :=
  match result with
  | .ok (some (offset, length)) =>
    SameOutside segment after offset length ∧ ∃ index ≤ segment.sortedAllocs.length,
        after.readAllocs = segment.sortedAllocs.insertIdx index (offset, roundUp length)
  | _ => Untouched segment after

theorem Untouched.refl (segment : Segment) : Untouched segment segment :=
  ⟨.inl rfl, fun _ _ _ => rfl⟩

theorem alignIpcAllocation_some {length aligned : Nat}
    (run : alignIpcAllocation length = some aligned) : aligned = roundUp length := by
  unfold alignIpcAllocation at run
  split_ifs at run
  exact (Option.some.inj run).symm

variable {result : Except Failure (Option (Nat × Nat))} {after : Segment}

theorem Filled.storeCopied (filled : segment.Filled) {bytes : Bytes}
    (run : segment.storeCopied bytes = (result, after)) : Framed segment result after := by
  unfold Segment.storeCopied at run
  split at run
  · cases run
    exact .refl segment
  rename_i aligned round
  have size := alignIpcAllocation_some round
  have short : bytes.length ≤ aligned := by
    rw [size, roundUp]
    omega
  split at run
  · rename_i next refused
    cases run
    cases allocate_none refused
    exact .refl segment
  · rename_i offset next allocated
    obtain ⟨-, bounded, same, -⟩ := allocate_some allocated
    have inside : offset + bytes.length ≤ next.size := by
      rw [same.size]
      omega
    rw [dif_pos inside] at run
    cases run
    have reserved := filled.reserve allocated short inside
    obtain ⟨index, within, table, -⟩ := reserved.table
    rw [size] at table
    exact ⟨reserved.outside, index, within, table⟩

theorem reserveFor_round (segment : Segment) (memorySize : Nat) : segment.reserveFor memorySize % 64 = 0 := by
  unfold reserveFor
  simp only
  cases kept : (alignIpcAllocation (saturatingAdd (min (2 * memorySize) (2 ^ 64 - 1)) 65536)).filter
      fun size => size ≤ segment.size - headerSize with
  | none => rw [Option.getD_none, ipcAlignment, Nat.mul_mod_left]
  | some size =>
    rw [Option.getD_some, alignIpcAllocation_some (Option.filter_eq_some_iff.mp kept).1, roundUp,
      Nat.mul_mod_left]

variable {A : ArrowIpc} {batch : A.Batch}

theorem Filled.storeInPlace (filled : segment.Filled) {reserve : Nat} (round : reserve % 64 = 0)
    (run : segment.storeInPlace batch reserve = (result, after))
    (returned : result ≠ .error .panicked) : Framed segment result after := by
  unfold Segment.storeInPlace at run
  split at run
  · cases run
    exact .refl segment
  split at run
  · rename_i next refused
    cases run
    cases allocate_none refused
    exact .refl segment
  rename_i offset next allocated
  obtain ⟨-, bounded, same, -⟩ := allocate_some allocated
  have addressable : segment.size < 2 ^ 63 := segment.addressable
  have short := writeInPlace_length batch reserve
  rw [dif_pos (by rw [same.size]; exact bounded)] at run
  have reserved := filled.reserve allocated short
    (by rw [same.size]; exact Nat.le_trans (Nat.add_le_add_left short offset) bounded)
  unfold settle at run
  split at run
  · cases run
    exact absurd rfl returned
  · cases run
    split <;> exact reserved.free
  · have aligned : alignIpcAllocation (writeInPlace batch reserve).2.written.length =
        some (roundUp (writeInPlace batch reserve).2.written.length) :=
      if_pos (by rw [ipcAlignment]; omega)
    have fits : roundUp (writeInPlace batch reserve).2.written.length ≤ reserve := by
      unfold roundUp
      omega
    obtain ⟨final, shrunk, outside, added⟩ := reserved.shrink fits
    rw [aligned] at run
    simp only [shrunk] at run
    cases run
    exact ⟨outside, added⟩

/-- A store that returns leaves the allocations as they were, or adds one entry for what it wrote,
rounded up to the alignment of the messages. -/
theorem allocateAndWrite_framed (memorySize : A.Batch → Nat) (filled : segment.Filled)
    (run : segment.allocateAndWrite memorySize batch = (result, after))
    (returned : result ≠ .error .panicked) : Framed segment result after := by
  unfold allocateAndWrite at run
  split at run
  · split at run
    · cases run
      exact .refl segment
    · exact filled.storeCopied run
  · exact filled.storeInPlace (segment.reserveFor_round _) run returned

end Segment

open Arrow.Sample (library)

theorem fresh_filled {fresh : Segment} (run : Sample.blank.initializeHeader = .ok fresh) :
    fresh.sortedAllocs = [] ∧ fresh.Filled := by
  have empty := (Segment.initializeHeader_empty run).2
  rw [Segment.sortedAllocs, Segment.Filled, empty]
  simp

theorem stored_row_framed : ∃ fresh pointer after, Sample.blank.initializeHeader = .ok fresh ∧
    fresh.allocateAndWrite (A := library) (fun _ => 0) .row = (.ok (some pointer), after) ∧
      fresh.Framed (.ok (some pointer)) after := by
  obtain ⟨fresh, pointer, after, run, stores, -⟩ :=
    Sample.fresh_stores rfl Sample.row_sends (by decide +kernel)
  exact ⟨fresh, pointer, after, run, stores,
    Segment.allocateAndWrite_framed _ (fresh_filled run).2 stores (by simp)⟩

/-- The entry of a stored batch is longer than what was written. -/
theorem stored_row_rounded : ∃ fresh pointer after, Sample.blank.initializeHeader = .ok fresh ∧
    fresh.allocateAndWrite (A := library) (fun _ => 0) .row = (.ok (some pointer), after) ∧
      ∃ entry, after.readAllocs = [entry] ∧ pointer.2 < entry.2 := by
  obtain ⟨fresh, pointer, after, run, stores, stored⟩ :=
    Sample.fresh_stores rfl Sample.row_sends (by decide +kernel)
  refine ⟨fresh, pointer, after, run, stores, (pointer.1, roundUp pointer.2), ?_, ?_⟩
  · obtain ⟨empty, filled⟩ := fresh_filled run
    unfold Segment.allocateAndWrite at stores
    rw [if_neg (by decide)] at stores
    obtain ⟨-, index, within, table⟩ :=
      filled.storeInPlace (fresh.reserveFor_round _) stores (by simp)
    rw [empty, length_nil, Nat.le_zero] at within
    rw [table, empty, within]
    rfl
  · rw [stored.length]
    change _ < roundUp _
    decide +kernel

end VgiRpc.Shm
