import VgiRpc.Errors
import VgiRpc.Library.ByteStream
import VgiRpc.Library.Memory
import Mathlib.Data.List.InsertIdx

/-!
# The segment allocator

First-fit allocation over a shared segment.  The allocation table lives in the
header of the segment, as a count and pairs of little-endian words that a peer can
write to as well, so every scan reads the table from the bytes, sorts it and adds
with saturation.
-/

namespace VgiRpc.Shm

open Library.ByteStream List Library.LittleEndian Library.Memory

def headerSize : Nat := 65536

def magic : Bytes := [0x56, 0x47, 0x49, 0x53]

def version : Nat := 1

def headerFixedSize : Nat := 24

def allocEntrySize : Nat := 16

def maxAllocs : Nat := (headerSize - headerFixedSize) / allocEntrySize

def saturatingAdd (first second : Nat) : Nat := min (first + second) (2 ^ 64 - 1)

/-- A mapped segment: the bytes of the mapping, which hold a header and fit in the
address space. -/
structure Segment where
  bytes : Bytes
  header : headerSize ≤ bytes.length
  addressable : bytes.length < 2 ^ 63

namespace Segment

variable (segment : Segment)

def size : Nat := segment.bytes.length

def write (start : Nat) (chunk : Bytes) (inside : start + chunk.length ≤ segment.size) : Segment where
  bytes := overwrite segment.bytes start chunk
  header := by rw [overwrite_length inside]; exact segment.header
  addressable := by rw [overwrite_length inside]; exact segment.addressable

variable {start : Nat} {chunk : Bytes}

@[simp]
theorem write_size {segment : Segment} (inside : start + chunk.length ≤ segment.size) :
    (segment.write start chunk inside).size = segment.size :=
  overwrite_length inside

theorem write_slice_apart {segment : Segment} {other count : Nat} (inside : start + chunk.length ≤
    segment.size) (apart : other + count ≤ start ∨ start + chunk.length ≤ other) :
    slice (segment.write start chunk inside).bytes other count = slice segment.bytes other count :=
  slice_overwrite_apart inside apart

def writeHeader (start : Nat) (chunk : Bytes) (inside : start + chunk.length ≤ headerSize) : Segment :=
  segment.write start chunk (Nat.le_trans inside segment.header)

/-- The two segments have the same size and agree behind the header. -/
structure SameData (segment next : Segment) : Prop where
  size : next.size = segment.size
  data : ∀ start count, headerSize ≤ start →
    slice next.bytes start count = slice segment.bytes start count

theorem SameData.refl : SameData segment segment :=
  ⟨rfl, fun _ _ _ => rfl⟩

theorem SameData.trans {first second third : Segment} (one : SameData first second)
    (two : SameData second third) : SameData first third :=
  ⟨two.size.trans one.size, fun start count behind =>
    (two.data start count behind).trans (one.data start count behind)⟩

theorem write_sameData {segment : Segment} (inside : start + chunk.length ≤ segment.size)
    (header : start + chunk.length ≤ headerSize) :
    SameData segment (segment.write start chunk inside) where
  size := write_size inside
  data _ _ behind := slice_overwrite_apart inside (.inr (Nat.le_trans header behind))

end Segment

abbrev Entry := Nat × Nat

def encodeEntry (entry : Entry) : Bytes := toLe 8 entry.1 ++ toLe 8 entry.2

@[simp]
theorem encodeEntry_length (entry : Entry) : (encodeEntry entry).length = allocEntrySize := by
  simp [encodeEntry, allocEntrySize]

theorem table_inside {allocs : List Entry} (bounded : allocs.length ≤ maxAllocs) :
    headerFixedSize + (allocs.flatMap encodeEntry).length ≤ headerSize := by
  rw [flatMap_length encodeEntry_length]
  simp only [headerFixedSize, allocEntrySize, headerSize, maxAllocs] at *
  omega

namespace Segment

variable (segment : Segment)

def numAllocs : Nat := ofLe (slice segment.bytes 16 4)

/-- The table as the header holds it; a count beyond the capacity is cut. -/
def readAllocs : List Entry :=
  (List.range (min segment.numAllocs maxAllocs)).map fun index =>
    let base := headerFixedSize + index * allocEntrySize
    (ofLe (slice segment.bytes base 8), ofLe (slice segment.bytes (base + 8) 8))

theorem readAllocs_length_le : segment.readAllocs.length ≤ maxAllocs := by
  simp only [readAllocs, length_map, length_range]
  exact Nat.min_le_right _ _

variable {entry : Entry}

/-- The words of the table are 64 bits wide. -/
theorem readAllocs_lt {segment : Segment} (member : entry ∈ segment.readAllocs) :
    entry.1 < 2 ^ 64 ∧ entry.2 < 2 ^ 64 := by
  have word (start : Nat) : ofLe (slice segment.bytes start 8) < 2 ^ 64 := by
    have width : (slice segment.bytes start 8).length ≤ 8 := length_take_le _ _
    exact Nat.lt_of_lt_of_le (ofLe_lt _) (Nat.pow_le_pow_right (n := 256) (by decide) width)
  obtain ⟨index, _, rfl⟩ := mem_map.mp member
  exact ⟨word _, word _⟩

variable (count : Nat)

theorem count_inside : 16 + (toLe 4 count).length ≤ segment.size := by
  rw [toLe_length]
  exact Nat.le_trans (by decide) segment.header

def writeCount : Segment :=
  segment.write 16 (toLe 4 count) (segment.count_inside count)

theorem writeCount_sameData : SameData segment (segment.writeCount count) :=
  write_sameData _ (by rw [toLe_length]; decide)

theorem writeCount_numAllocs {count : Nat} (small : count < 256 ^ 4) :
    (segment.writeCount count).numAllocs = count := by
  have stored := slice_overwrite_same (segment.count_inside count)
  rw [toLe_length] at stored
  exact (congrArg ofLe stored).trans (ofLe_toLe_of_lt small)

variable {allocs : List Entry}

theorem entries_inside (bounded : allocs.length ≤ maxAllocs) :
    headerFixedSize + (allocs.flatMap encodeEntry).length ≤ segment.size :=
  Nat.le_trans (table_inside bounded) segment.header

/-- A copy behind the header leaves the table alone. -/
theorem write_readAllocs {segment : Segment} {start : Nat} {chunk : Bytes}
    (inside : start + chunk.length ≤ segment.size) (behind : headerSize ≤ start) :
    (segment.write start chunk inside).readAllocs = segment.readAllocs := by
  have kept (other count : Nat) (header : other + count ≤ headerSize) :
      slice (segment.write start chunk inside).bytes other count =
        slice segment.bytes other count :=
    write_slice_apart inside (.inl (Nat.le_trans header behind))
  unfold readAllocs numAllocs
  rw [kept 16 4 (by decide)]
  refine map_congr_left fun index member => ?_
  have slot : headerFixedSize + index * allocEntrySize + 16 ≤ headerSize := by
    have below := Nat.lt_of_lt_of_le (mem_range.mp member) (Nat.min_le_right _ _)
    simp only [headerFixedSize, allocEntrySize, headerSize, maxAllocs] at *
    omega
  simp only
  rw [kept _ 8 (by omega), kept _ 8 (by omega)]

/-- Store a table: its count, and its entries one after another. -/
def writeAllocs (allocs : List Entry) (bounded : allocs.length ≤ maxAllocs) : Segment :=
  (segment.writeCount allocs.length).write headerFixedSize (allocs.flatMap encodeEntry)
    (entries_inside _ bounded)

variable (bounded : allocs.length ≤ maxAllocs)

theorem writeAllocs_sameData : SameData segment (segment.writeAllocs allocs bounded) :=
  (segment.writeCount_sameData _).trans (write_sameData _ (table_inside bounded))

theorem slice_encodeEntry (entry : Entry) : slice (encodeEntry entry) 0 8 = toLe 8 entry.1 ∧
      slice (encodeEntry entry) 8 8 = toLe 8 entry.2 := by
  constructor
  · rw [slice, drop_zero, encodeEntry, take_left' (toLe_length ..)]
  · rw [slice, encodeEntry, drop_left' (toLe_length ..), take_of_length_le (by simp)]

theorem writeAllocs_numAllocs : (segment.writeAllocs allocs bounded).numAllocs = allocs.length := by
  have kept : slice (segment.writeAllocs allocs bounded).bytes 16 4 =
      slice (segment.writeCount allocs.length).bytes 16 4 :=
    slice_overwrite_apart (entries_inside _ bounded) (.inl (by decide))
  rw [numAllocs, kept]
  exact segment.writeCount_numAllocs (Nat.lt_of_le_of_lt bounded (by decide))

theorem slice_writeAllocs {index : Nat} (stored : allocs[index]? = some entry) (start : Nat)
    (within : start + 8 ≤ allocEntrySize) :
    slice (segment.writeAllocs allocs bounded).bytes
        (headerFixedSize + index * allocEntrySize + start) 8 =
      slice (encodeEntry entry) start 8 := by
  obtain ⟨before, _⟩ := List.getElem?_eq_some_iff.mp stored
  have written := slice_overwrite_same ((segment.writeCount allocs.length).entries_inside bounded)
  have cell := slice_flatMap encodeEntry_length stored
  rw [flatMap_length encodeEntry_length] at written
  have room : allocEntrySize * index + allocEntrySize ≤ allocEntrySize * allocs.length := by
    rw [← Nat.mul_succ]
    exact Nat.mul_le_mul_left _ before
  rw [← cell, slice_slice within, ← written, slice_slice (by omega), Nat.mul_comm index,
    Nat.add_assoc]
  rfl

/-- Reading the table back gives exactly what was written last. -/
theorem readAllocs_writeAllocs (words : ∀ entry ∈ allocs, entry.1 < 2 ^ 64 ∧ entry.2 < 2 ^ 64) :
    (segment.writeAllocs allocs bounded).readAllocs = allocs := by
  unfold readAllocs
  rw [writeAllocs_numAllocs, Nat.min_eq_left bounded]
  refine ext_getElem? fun index => ?_
  rw [getElem?_map]
  by_cases inside : index < allocs.length
  · have stored := getElem?_eq_getElem inside
    have low := segment.slice_writeAllocs bounded stored 0 (by decide)
    have high := segment.slice_writeAllocs bounded stored 8 (by decide)
    rw [(slice_encodeEntry _).1] at low
    rw [(slice_encodeEntry _).2] at high
    obtain ⟨offset, length⟩ := words _ (getElem_mem inside)
    rw [getElem?_range inside, stored, Option.map_some]
    change some (ofLe _, ofLe _) = _
    rw [Nat.add_zero] at low
    rw [low, high, ofLe_toLe_of_lt (by omega), ofLe_toLe_of_lt (by omega)]
  · rw [getElem?_eq_none (by rw [length_range]; omega), getElem?_eq_none (Nat.le_of_not_lt inside)]
    rfl

end Segment

/-- Scan a sorted table for the first gap that holds `size` bytes: the index to
insert at and the offset of the gap.  An entry that starts before the scan has
come is not trusted; it only moves the scan on. -/
def findGap (size dataEnd : Nat) : Nat → List Entry → Option (Nat × Nat)
  | prevEnd, [] =>
    if dataEnd ≤ prevEnd then none
    else if size ≤ dataEnd - prevEnd then some (0, prevEnd) else none
  | prevEnd, (offset, length) :: rest =>
    if offset < prevEnd then
      (findGap size dataEnd (max prevEnd (saturatingAdd offset length)) rest).map fun gap =>
        (gap.1 + 1, gap.2)
    else if size ≤ offset - prevEnd ∧ saturatingAdd prevEnd size ≤ dataEnd then some (0, prevEnd)
    else
      (findGap size dataEnd (saturatingAdd offset length) rest).map fun gap => (gap.1 + 1, gap.2)

/-- A gap lies behind the start of the scan and inside the segment, apart from every entry. -/
theorem findGap_bounds {size dataEnd prevEnd index gap : Nat} {allocs : List Entry}
    (words : ∀ entry ∈ allocs, entry.1 < 2 ^ 64) (short : dataEnd < 2 ^ 63)
    (sorted : allocs.Pairwise fun first second => first.1 ≤ second.1)
    (found : findGap size dataEnd prevEnd allocs = some (index, gap)) :
    index ≤ allocs.length ∧ prevEnd ≤ gap ∧ gap + size ≤ dataEnd ∧
      ∀ entry ∈ allocs, entry.1 + entry.2 ≤ gap ∨ gap + size ≤ entry.1 := by
  induction allocs generalizing prevEnd index with
  | nil =>
    unfold findGap at found
    split at found
    · cases found
    split_ifs at found
    cases found
    exact ⟨Nat.le_refl _, Nat.le_refl _, by omega, by simp⟩
  | cons entry rest ih =>
    obtain ⟨offset, length⟩ := entry
    have word : offset < 2 ^ 64 := words (offset, length) (mem_cons_self ..)
    rw [pairwise_cons] at sorted
    have later (start : Nat) (behind : prevEnd ≤ start ∧ saturatingAdd offset length ≤ start)
        (scan : (findGap size dataEnd start rest).map (fun gap => (gap.1 + 1, gap.2)) =
          some (index, gap)) :
        index ≤ rest.length + 1 ∧ prevEnd ≤ gap ∧ gap + size ≤ dataEnd ∧
          ∀ entry ∈ (offset, length) :: rest, entry.1 + entry.2 ≤ gap ∨ gap + size ≤ entry.1 := by
      obtain ⟨_, step, same⟩ := Option.map_eq_some_iff.mp scan
      cases same
      obtain ⟨one, two, three, apart⟩ :=
        ih (fun entry member => words entry (.tail _ member)) sorted.2 step
      unfold saturatingAdd at behind
      exact ⟨by omega, by omega, three, forall_mem_cons.mpr ⟨.inl (by simp only; omega), apart⟩⟩
    unfold findGap at found
    split at found
    · exact later _ ⟨Nat.le_max_left _ _, Nat.le_max_right _ _⟩ found
    split at found
    · rename_i fits
      cases found
      unfold saturatingAdd at fits
      refine ⟨Nat.zero_le _, Nat.le_refl _, by omega, forall_mem_cons.mpr ⟨.inr (by omega), ?_⟩⟩
      intro entry member
      have further : offset ≤ entry.1 := sorted.1 entry member
      exact .inr (by omega)
    · exact later _ (by unfold saturatingAdd; omega) found

namespace Segment

/-- The table in the order of its offsets; the sort is stable. -/
def sortedAllocs (segment : Segment) : List Entry :=
  segment.readAllocs.mergeSort fun first second => first.1 ≤ second.1

variable {segment : Segment} {entry : Entry}

theorem sortedAllocs_lt (member : entry ∈ segment.sortedAllocs) :
    entry.1 < 2 ^ 64 ∧ entry.2 < 2 ^ 64 :=
  readAllocs_lt (mem_mergeSort.mp member)

theorem sortedAllocs_sorted (segment : Segment) :
    segment.sortedAllocs.Pairwise fun first second => first.1 ≤ second.1 := by
  refine (pairwise_mergeSort (fun _ _ _ one two => ?_) (fun _ _ => ?_) _).imp of_decide_eq_true
  · exact decide_eq_true (Nat.le_trans (of_decide_eq_true one) (of_decide_eq_true two))
  · simpa using Nat.le_total _ _

theorem insert_bounded {index : Nat} (room : ¬ maxAllocs ≤ segment.readAllocs.length) :
    (segment.sortedAllocs.insertIdx index entry).length ≤ maxAllocs := by
  have grown : (segment.sortedAllocs.insertIdx index entry).length ≤
      segment.sortedAllocs.length + 1 := length_insertIdx_le_succ
  rw [sortedAllocs, length_mergeSort] at grown
  exact Nat.le_trans grown (Nat.lt_of_not_le room)

/-- First-fit allocation: the offset of the region, or `none` when no gap is large
enough or the table is full. -/
def allocate (segment : Segment) (size : Nat) : Option Nat × Segment :=
  if size = 0 then (none, segment)
  else if full : maxAllocs ≤ segment.readAllocs.length then (none, segment)
  else
    match findGap size segment.size headerSize segment.sortedAllocs with
    | none => (none, segment)
    | some (index, offset) =>
      (some offset, segment.writeAllocs (segment.sortedAllocs.insertIdx index (offset, size))
        (insert_bounded full))

def position (segment : Segment) (offset : Nat) : Option Nat :=
  segment.readAllocs.findIdx? fun entry => entry.1 = offset

theorem erase_bounded (segment : Segment) (index : Nat) :
    (segment.readAllocs.eraseIdx index).length ≤ maxAllocs :=
  Nat.le_trans (length_eraseIdx_le ..) segment.readAllocs_length_le

theorem set_bounded (segment : Segment) (index : Nat) (entry : Entry) :
    (segment.readAllocs.set index entry).length ≤ maxAllocs := by
  rw [length_set]
  exact segment.readAllocs_length_le

def noAllocation (offset : Nat) : RpcError :=
  .valueError ("no allocation at offset " ++ toString offset)

def free (segment : Segment) (offset : Nat) : Except RpcError Unit × Segment :=
  match segment.position offset with
  | some index =>
    (.ok (), segment.writeAllocs (segment.readAllocs.eraseIdx index) (segment.erase_bounded index))
  | none => (.error (noAllocation offset), segment)

def reservation (segment : Segment) (index : Nat) : Nat :=
  ((segment.readAllocs[index]?).map Prod.snd).getD 0

def shrink (segment : Segment) (offset newLength : Nat) : Except RpcError Unit × Segment :=
  match segment.position offset with
  | none => (.error (noAllocation offset), segment)
  | some index =>
    if segment.reservation index < newLength then
      (.error (.valueError ("shrink: new_len " ++ toString newLength ++ " > reservation " ++
        toString (segment.reservation index))), segment)
    else
      (.ok (), segment.writeAllocs (segment.readAllocs.set index (offset, newLength))
        (segment.set_bounded index (offset, newLength)))

def reset (segment : Segment) : Segment := segment.writeCount 0

theorem readAllocs_of_count (none : segment.numAllocs = 0) : segment.readAllocs = [] := by
  rw [readAllocs, none, Nat.zero_min]
  rfl

def initializeHeader (segment : Segment) : Except RpcError Segment :=
  if segment.size ≤ headerSize then
    .error (.valueError ("segment size must be > " ++ toString headerSize ++ ", got " ++
      toString segment.size))
  else
    let named := segment.writeHeader 0 magic (by decide)
    let versioned := named.writeHeader 4 (toLe 4 version) (by decide)
    let sized := versioned.writeHeader 8 (toLe 8 (segment.size - headerSize))
      (by rw [toLe_length]; decide)
    .ok ((sized.writeCount 0).writeHeader 20 (toLe 4 0) (by decide))

theorem initializeHeader_empty {segment fresh : Segment} (run : segment.initializeHeader = .ok fresh) :
    fresh.size = segment.size ∧ fresh.readAllocs = [] := by
  unfold initializeHeader at run
  split_ifs at run
  cases run
  refine ⟨by simp [writeHeader, writeCount], readAllocs_of_count ?_⟩
  rw [numAllocs, writeHeader, write_slice_apart _ (.inl (by decide))]
  exact writeCount_numAllocs _ (by decide)

/-- Everything an allocation that succeeds does: the region lies behind the header
and inside the segment, apart from every entry, the data is untouched, and the table
has one more entry. -/
theorem allocate_some {segment next : Segment} {size offset : Nat}
    (run : segment.allocate size = (some offset, next)) :
    headerSize ≤ offset ∧ offset + size ≤ segment.size ∧ SameData segment next ∧
      (∀ entry ∈ segment.readAllocs, entry.1 + entry.2 ≤ offset ∨ offset + size ≤ entry.1) ∧
      ∃ index ≤ segment.readAllocs.length,
        next.readAllocs = segment.sortedAllocs.insertIdx index (offset, size) := by
  unfold allocate at run
  split at run
  · cases run
  split at run
  · cases run
  split at run
  · cases run
  rename_i index gap found
  cases run
  have fits : segment.size < 2 ^ 63 := segment.addressable
  obtain ⟨within, behind, inside, apart⟩ :=
    findGap_bounds (fun entry member => (sortedAllocs_lt member).1) fits
      segment.sortedAllocs_sorted found
  rw [sortedAllocs, length_mergeSort] at within
  refine ⟨behind, inside, writeAllocs_sameData .., fun entry member =>
    apart entry (mem_mergeSort.mpr member), index, within, readAllocs_writeAllocs _ _ ?_⟩
  intro entry member
  rcases eq_or_mem_of_mem_insertIdx member with rfl | member
  · exact ⟨by omega, by omega⟩
  · exact sortedAllocs_lt member

/-- In a segment without allocations the first region starts behind the header. -/
theorem allocate_empty {size : Nat} (empty : segment.readAllocs = [])
    (positive : 0 < size) (fits : headerSize + size ≤ segment.size) :
    ∃ next, segment.allocate size = (some headerSize, next) ∧
      next.readAllocs = [(headerSize, size)] := by
  have sorted : segment.sortedAllocs = [] := by
    rw [sortedAllocs, empty, mergeSort_nil]
  have found : findGap size segment.size headerSize segment.sortedAllocs =
      some (0, headerSize) := by
    rw [sorted, findGap, if_neg (by omega), if_pos (by omega)]
  have room : ¬ maxAllocs ≤ segment.readAllocs.length := by
    rw [empty]
    decide
  have run : segment.allocate size = (some headerSize, segment.writeAllocs
      (segment.sortedAllocs.insertIdx 0 (headerSize, size)) (insert_bounded room)) := by
    unfold allocate
    rw [if_neg (by omega), dif_neg room, found]
  refine ⟨_, run, ?_⟩
  rw [readAllocs_writeAllocs]
  · rw [sorted]
    rfl
  · intro entry member
    have fits' : segment.size < 2 ^ 63 := segment.addressable
    rw [sorted] at member
    cases mem_singleton.mp member
    exact ⟨by simp only; omega, by simp only; omega⟩

theorem shrink_single {offset size newLength : Nat}
    (alone : segment.readAllocs = [(offset, size)]) (shorter : newLength ≤ size) :
    ∃ next, segment.shrink offset newLength = (.ok (), next) := by
  have found : segment.position offset = some 0 := by
    simp [position, alone]
  have length : segment.reservation 0 = size := by
    simp [reservation, alone]
  unfold shrink
  rw [found]
  simp only [length]
  rw [if_neg (by omega)]
  exact ⟨_, rfl⟩

theorem shrink_sameData (segment : Segment) (offset newLength : Nat) :
    SameData segment (segment.shrink offset newLength).2 := by
  unfold shrink
  split
  · exact .refl segment
  · split
    · exact .refl segment
    · exact segment.writeAllocs_sameData (segment.set_bounded _ _)

end Segment
end VgiRpc.Shm
