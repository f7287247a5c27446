import Mathlib.Data.List.Basic
import VgiRpc.Library.Program

/-!
# Segmented byte streams

A reader and a writer whose environment decides how every transfer is cut.  A
source holds the bytes still to be delivered and the events its next reads will
see; a sink holds the bytes accepted so far, the room left in it, and the events
its next writes will see.  The loops that collect a fixed number of bytes and
that write a whole buffer are the ones every transport needs, and the results
below say that no segmentation is visible through them.
-/

namespace VgiRpc.Library.ByteStream

open List

abbrev Bytes := List UInt8

section Reading

variable {ε : Type}

/-- What one read does before it touches the bytes: deliver at most `limit + 1`
of them, report an interruption, or fail. -/
inductive ReadEvent (ε : Type) where
  | chunk (limit : Nat)
  | interrupted
  | fail (error : ε)

structure Source (ε : Type) where
  bytes : Bytes
  events : List (ReadEvent ε)

inductive ReadResult (ε : Type) where
  | data (chunk : Bytes)
  | interrupted
  | fail (error : ε)

/-- One read into a buffer of `want` bytes; an empty chunk is end of input. -/
def Source.read (source : Source ε) (want : Nat) : ReadResult ε × Source ε :=
  match source.events with
  | [] => (.data (source.bytes.take want), ⟨source.bytes.drop want, []⟩)
  | .chunk limit :: rest =>
    (.data (source.bytes.take (min (limit + 1) want)),
      ⟨source.bytes.drop (min (limit + 1) want), rest⟩)
  | .interrupted :: rest => (.interrupted, ⟨source.bytes, rest⟩)
  | .fail error :: rest => (.fail error, ⟨source.bytes, rest⟩)

/-- How a collecting loop ended, with the bytes it had by then. -/
inductive Gathered (ε : Type) where
  | full (bytes : Bytes)
  | eof (bytes : Bytes)
  | failed (error : ε) (bytes : Bytes)

def Gathered.prepend (chunk : Bytes) : Gathered ε → Gathered ε
  | .full bytes => .full (chunk ++ bytes)
  | .eof bytes => .eof (chunk ++ bytes)
  | .failed error bytes => .failed error (chunk ++ bytes)

variable (bytes : Bytes)

/-- A source without events: all its bytes are available at once. -/
def Source.ofBytes : Source ε := ⟨bytes, []⟩

def Source.Reliable (source : Source ε) : Prop :=
  ∀ error, ReadEvent.fail error ∉ source.events

variable {source rest : Source ε} {want : Nat}

theorem read_data {chunk : Bytes} (wanted : 0 < want)
    (step : source.read want = (.data chunk, rest)) :
    ∃ size, 0 < size ∧ size ≤ want ∧ chunk = source.bytes.take size ∧
      rest.bytes = source.bytes.drop size ∧ rest.events.length ≤ source.events.length ∧
      (source.Reliable → rest.Reliable) := by
  rcases source with ⟨bytes, _ | ⟨event, events⟩⟩
  · simp only [Source.read, Prod.mk.injEq, ReadResult.data.injEq] at step
    obtain ⟨rfl, rfl⟩ := step
    exact ⟨want, wanted, Nat.le_refl _, rfl, rfl, Nat.le_refl _, id⟩
  · cases event with
    | chunk limit =>
      simp only [Source.read, Prod.mk.injEq, ReadResult.data.injEq] at step
      obtain ⟨rfl, rfl⟩ := step
      refine ⟨min (limit + 1) want, by omega, Nat.min_le_right _ _, rfl, rfl, by simp, ?_⟩
      intro reliable error member
      exact reliable error (mem_cons_of_mem _ member)
    | interrupted | fail error => simp [Source.read] at step

theorem read_interrupted (step : source.read want = (.interrupted, rest)) :
    rest.bytes = source.bytes ∧ rest.events.length < source.events.length ∧
      (source.Reliable → rest.Reliable) := by
  rcases source with ⟨bytes, _ | ⟨event, events⟩⟩
  · simp [Source.read] at step
  · cases event with
    | chunk limit => simp [Source.read] at step
    | interrupted =>
      simp only [Source.read, Prod.mk.injEq, true_and] at step
      subst step
      refine ⟨rfl, by simp, ?_⟩
      intro reliable error member
      exact reliable error (mem_cons_of_mem _ member)
    | fail error => simp [Source.read] at step

theorem read_fail {error : ε} (step : source.read want = (.fail error, rest)) : ¬ source.Reliable := by
  rcases source with ⟨bytes, _ | ⟨event, events⟩⟩
  · simp [Source.read] at step
  · cases event with
    | chunk limit | interrupted => simp [Source.read] at step
    | fail other => exact fun reliable => reliable other (mem_cons_self ..)

/-- Collect `want` bytes, retrying interrupted reads, until they are there, the
input ends or a read fails. -/
def Source.gather (source : Source ε) (want : Nat) : Gathered ε × Source ε :=
  if _wanted : 0 < want then
    match _step : source.read want with
    | (.data [], rest) => (.eof [], rest)
    | (.data (byte :: more), rest) =>
      let (result, final) := rest.gather (want - (more.length + 1))
      (result.prepend (byte :: more), final)
    | (.interrupted, rest) => rest.gather want
    | (.fail error, rest) => (.failed error [], rest)
  else (.full [], source)
termination_by want + source.events.length
decreasing_by
  · obtain ⟨size, _, _, _, _, events, _⟩ := read_data ‹_› ‹_›
    omega
  · obtain ⟨_, events, _⟩ := read_interrupted ‹_›
    omega

def gathered (want : Nat) : Gathered ε :=
  if want ≤ bytes.length then .full (bytes.take want) else .eof bytes

theorem gathered_split {size : Nat} (small : size ≤ want) (available : size ≤ bytes.length) :
    (gathered (ε := ε) (bytes.drop size) (want - size)).prepend (bytes.take size) =
      gathered bytes want := by
  unfold gathered
  rw [length_drop]
  by_cases enough : want ≤ bytes.length
  · rw [if_pos (by omega), if_pos enough]
    simp only [Gathered.prepend, Gathered.full.injEq]
    rw [← take_add, Nat.add_sub_cancel' small]
  · rw [if_neg (by omega), if_neg enough]
    simp [Gathered.prepend]

/-- A source cut in any way gives the same result as one with all its bytes
available, unless one of its reads fails. -/
theorem gather_eq (source : Source ε) (want : Nat) :
    (∃ error bytes, (source.gather want).1 = .failed error bytes ∧ ¬ source.Reliable) ∨
      ((source.gather want).1 = gathered source.bytes want ∧
        (source.gather want).2.bytes = source.bytes.drop want ∧
        (source.Reliable → (source.gather want).2.Reliable) ∧
        (source.gather want).2.events.length ≤ source.events.length) := by
  fun_induction Source.gather source want with
  | case1 source want wanted rest step =>
    right
    obtain ⟨size, positive, small, chunk, bytes, events, reliable⟩ := read_data wanted step
    have empty : source.bytes = [] := by
      rcases h : source.bytes with _ | ⟨byte, more⟩
      · rfl
      · rw [h] at chunk
        obtain ⟨size, rfl⟩ := Nat.exists_eq_succ_of_ne_zero (Nat.ne_of_gt positive)
        simp at chunk
    refine ⟨?_, ?_, reliable, events⟩
    · rw [empty, gathered, if_neg (by simp; omega)]
    · rw [bytes, empty]; simp
  | case2 source want wanted byte more rest step result final recurse ih =>
    obtain ⟨size, positive, small, chunk, bytes, events, reliable⟩ := read_data wanted step
    have lengths := congrArg List.length chunk
    rw [length_cons, length_take] at lengths
    have available : min size source.bytes.length = more.length + 1 := lengths.symm
    have taken : byte :: more = source.bytes.take (more.length + 1) := by
      rw [chunk, ← available, take_eq_take_min]
    have dropped : rest.bytes = source.bytes.drop (more.length + 1) := by
      rw [bytes, ← available]
      rcases Nat.le_total size source.bytes.length with le | le
      · rw [Nat.min_eq_left le]
      · rw [Nat.min_eq_right le, drop_length, drop_eq_nil_of_le le]
    rw [recurse] at ih
    rcases ih with ⟨error, seen, failed, unreliable⟩ | ⟨same, remaining, stays, fewer⟩
    · left
      refine ⟨error, byte :: more ++ seen, ?_, fun h => unreliable (reliable h)⟩
      simp only at failed ⊢
      rw [failed]; rfl
    · right
      simp only at same remaining stays ⊢
      refine ⟨?_, ?_, fun h => stays (reliable h), Nat.le_trans fewer events⟩
      · rw [same, taken, dropped]
        exact gathered_split source.bytes (by omega) (by omega)
      · rw [remaining, dropped, drop_drop]
        congr 1
        omega
  | case3 source want wanted rest step ih =>
    obtain ⟨bytes, events, reliable⟩ := read_interrupted step
    rcases ih with ⟨error, seen, failed, unreliable⟩ | ⟨same, remaining, stays, fewer⟩
    · exact .inl ⟨error, seen, failed, fun h => unreliable (reliable h)⟩
    · exact .inr ⟨bytes ▸ same, bytes ▸ remaining, fun h => stays (reliable h), by omega⟩
  | case4 source want wanted error rest step =>
    exact .inl ⟨error, [], rfl, read_fail step⟩
  | case5 source want wanted =>
    right
    have zero : want = 0 := by omega
    subst zero
    exact ⟨by simp [gathered], by simp, id, Nat.le_refl _⟩

theorem ofBytes_reliable : (Source.ofBytes (ε := ε) bytes).Reliable :=
  fun _ member => by cases member

@[simp]
theorem gather_ofBytes (want : Nat) :
    (Source.ofBytes (ε := ε) bytes).gather want =
      (gathered bytes want, Source.ofBytes (bytes.drop want)) := by
  rcases gather_eq (Source.ofBytes (ε := ε) bytes) want with
    ⟨_, _, _, unreliable⟩ | ⟨same, remaining, _, events⟩
  · exact absurd (ofBytes_reliable bytes) unreliable
  · rcases run : (Source.ofBytes (ε := ε) bytes).gather want with ⟨result, left, events'⟩
    rw [run] at same remaining events
    cases eq_nil_of_length_eq_zero (Nat.le_zero.mp events)
    cases same
    cases remaining
    rfl

end Reading

section Reader

variable {ε α β : Type}

abbrev Reader (ε α : Type) : Type := Program (Source ε) ε α

namespace Reader

def gather (want : Nat) : Reader ε (Gathered ε) :=
  fun source => ((.ok (source.gather want).1 : Except ε (Gathered ε)), (source.gather want).2)

/-- The segmentation of the source is invisible to the program: on any source it
either reports an error, because a read failed, or returns what it returns on
the same bytes available at once, and leaves the same bytes. -/
def SegmentationFree (program : Reader ε α) : Prop :=
  ∀ source : Source ε,
    (∃ error, (program source).1 = .error error ∧ ¬ source.Reliable) ∨
      (program (.ofBytes source.bytes) = ((program source).1, .ofBytes (program source).2.bytes) ∧
        (source.Reliable → (program source).2.Reliable))

/-- A step that leaves its source reliable can be put in front of a run. -/
theorem run_after {before after final agrees : Prop} {fails : ε → Prop} (stays : before → after)
    (run : (∃ error, fails error ∧ ¬ after) ∨ (agrees ∧ (after → final))) :
    (∃ error, fails error ∧ ¬ before) ∨ (agrees ∧ (before → final)) := by
  rcases run with ⟨error, failed, unreliable⟩ | ⟨same, keeps⟩
  · exact .inl ⟨error, failed, fun reliable => unreliable (stays reliable)⟩
  · exact .inr ⟨same, fun reliable => keeps (stays reliable)⟩

namespace SegmentationFree

theorem pure (value : α) : SegmentationFree (Pure.pure value : Reader ε α) :=
  fun _ => .inr ⟨rfl, id⟩

theorem throw (error : ε) : SegmentationFree (throw error : Reader ε α) :=
  fun _ => .inr ⟨rfl, id⟩

theorem lift (result : Except ε α) : SegmentationFree (liftM result : Reader ε α) :=
  fun _ => .inr ⟨rfl, id⟩

variable {program : Reader ε α}

theorem bind {next : α → Reader ε β} (first : SegmentationFree program)
    (second : ∀ value, SegmentationFree (next value)) : SegmentationFree (program >>= next) := by
  intro source
  rcases first source with ⟨error, failed, unreliable⟩ | ⟨same, stays⟩
  · left
    refine ⟨error, ?_, unreliable⟩
    rw [Program.bind_error (Prod.ext failed rfl)]
  · rcases outcome : (program source).1 with error | value
    · right
      rw [outcome] at same
      rw [Program.bind_error same, Program.bind_error (Prod.ext outcome rfl)]
      exact ⟨rfl, stays⟩
    · rw [outcome] at same
      rw [Program.bind_ok (Prod.ext outcome rfl), Program.bind_ok same]
      exact run_after stays (second value (program source).2)

theorem ite {condition : Prop} [Decidable condition] {yes no : Reader ε α}
    (first : SegmentationFree yes) (second : SegmentationFree no) :
    SegmentationFree (if condition then yes else no) := by
  split
  · exact first
  · exact second

/-- A collecting loop whose failure is turned into an error hides segmentation. -/
theorem gather (want : Nat) {next : Gathered ε → Reader ε α}
    (failure : ∀ error bytes, ∃ reported, next (.failed error bytes) = MonadExcept.throw reported)
    (full : ∀ bytes, SegmentationFree (next (.full bytes)))
    (eof : ∀ bytes, SegmentationFree (next (.eof bytes))) :
    SegmentationFree (Reader.gather want >>= next) := by
  intro source
  have run (start : Source ε) :
      (Reader.gather want >>= next) start = next (start.gather want).1 (start.gather want).2 := rfl
  rw [run, run]
  rcases gather_eq source want with ⟨error, bytes, failed, unreliable⟩ | ⟨same, remaining, stays, -⟩
  · left
    obtain ⟨reported, throws⟩ := failure error bytes
    exact ⟨reported, by rw [failed, throws]; rfl, unreliable⟩
  · rw [gather_ofBytes, same, ← remaining]
    have tail : SegmentationFree (next (gathered source.bytes want)) := by
      unfold gathered
      split
      · exact full _
      · exact eof _
    exact run_after stays (tail (source.gather want).2)

/-- On a reliable source the program is what it is on the bytes. -/
theorem reliable (free : SegmentationFree program) {source : Source ε} (stable : source.Reliable) :
    program (.ofBytes source.bytes) = ((program source).1, .ofBytes (program source).2.bytes) ∧
      (program source).2.Reliable := by
  rcases free source with ⟨_, _, unreliable⟩ | ⟨same, stays⟩
  · exact absurd stable unreliable
  · exact ⟨same, stays stable⟩

end SegmentationFree

end Reader

end Reader

section Writing

variable {ε : Type}

/-- What one write does: accept at most `limit + 1` bytes, report an
interruption, or fail. -/
inductive WriteEvent (ε : Type) where
  | accept (limit : Nat)
  | interrupted
  | fail (error : ε)

/-- `room` is the space left in a fixed buffer; a transport has no such bound. -/
structure Sink (ε : Type) where
  written : Bytes
  room : Option Nat
  events : List (WriteEvent ε)

inductive WriteResult (ε : Type) where
  | accepted (count : Nat)
  | interrupted
  | fail (error : ε)

namespace Sink

variable (sink : Sink ε)

def fits (count : Nat) : Nat :=
  match sink.room with
  | none => count
  | some room => min room count

def push (buffer : Bytes) (events : List (WriteEvent ε)) : Sink ε :=
  ⟨sink.written ++ buffer, sink.room.map (· - buffer.length), events⟩

/-- One write call: the count it returns and the sink after it. -/
def write (buffer : Bytes) : WriteResult ε × Sink ε :=
  match sink.events with
  | [] =>
    (.accepted (sink.fits buffer.length), sink.push (buffer.take (sink.fits buffer.length)) [])
  | .accept limit :: rest =>
    (.accepted (sink.fits (min (limit + 1) buffer.length)),
      sink.push (buffer.take (sink.fits (min (limit + 1) buffer.length))) rest)
  | .interrupted :: rest => (.interrupted, { sink with events := rest })
  | .fail error :: rest => (.fail error, { sink with events := rest })

theorem fits_le (count : Nat) : sink.fits count ≤ count := by
  unfold fits
  split <;> omega

variable {buffer : Bytes} {limit : Nat} {zero : ε} {sink : Sink ε}

theorem write_accepted {sink rest : Sink ε} {count : Nat}
    (step : sink.write buffer = (.accepted count, rest)) :
    count ≤ buffer.length ∧ rest.written = sink.written ++ buffer.take count ∧
      rest.room = sink.room.map (· - count) ∧ rest.events.length ≤ sink.events.length := by
  obtain ⟨size, events, small, fewer, same⟩ : ∃ size events, size ≤ buffer.length ∧
      events.length ≤ sink.events.length ∧
      ((.accepted size : WriteResult ε), sink.push (buffer.take size) events) =
        (.accepted count, rest) := by
    unfold write at step
    split at step
    · exact ⟨_, _, fits_le _ _, Nat.zero_le _, step⟩
    · refine ⟨_, _, Nat.le_trans (fits_le _ _) (Nat.min_le_right _ _), ?_, step⟩
      rw [‹sink.events = _›]; simp
    · simp at step
    · simp at step
  cases same
  refine ⟨small, rfl, ?_, fewer⟩
  simp [push, Nat.min_eq_left small]

theorem write_interrupted {sink rest : Sink ε} (step : sink.write buffer = (.interrupted, rest)) :
    rest.written = sink.written ∧ rest.room = sink.room ∧
      rest.events.length < sink.events.length := by
  unfold write at step
  split at step
  · simp at step
  · simp at step
  · simp only [Prod.mk.injEq, true_and] at step
    subst step
    refine ⟨rfl, rfl, ?_⟩
    rw [‹sink.events = _›]; simp
  · simp at step

/-- Write the whole buffer in calls of at most `limit + 1` bytes, retrying
interrupted ones; a call that accepts nothing is an error. -/
def writeAll (zero : ε) (limit : Nat) (sink : Sink ε) (buffer : Bytes) : Except ε Unit × Sink ε :=
  match buffer with
  | [] => (.ok (), sink)
  | byte :: more =>
    match _step : sink.write ((byte :: more).take (limit + 1)) with
    | (.accepted 0, rest) => (.error zero, rest)
    | (.accepted (count + 1), rest) =>
      writeAll zero limit rest ((byte :: more).drop (count + 1))
    | (.interrupted, rest) => writeAll zero limit rest (byte :: more)
    | (.fail error, rest) => (.error error, rest)
termination_by buffer.length + sink.events.length
decreasing_by
  · obtain ⟨_, _, _, events⟩ := write_accepted ‹_›
    simp only [List.length_drop, List.length_cons]
    omega
  · obtain ⟨_, _, events⟩ := write_interrupted ‹_›
    simp only [List.length_cons]
    omega

def Reliable (sink : Sink ε) : Prop := ∀ error, WriteEvent.fail error ∉ sink.events

/-- The buffer fits into what is left of a bounded sink. -/
def HasRoom (sink : Sink ε) (count : Nat) : Prop := ∀ room, sink.room = some room → count ≤ room

theorem write_reliable {sink rest : Sink ε} {result : WriteResult ε}
    (reliable : sink.Reliable) (room : sink.HasRoom buffer.length) (nonempty : buffer ≠ [])
    (step : sink.write (buffer.take (limit + 1)) = (result, rest)) :
    rest.Reliable ∧ (∀ error, result ≠ .fail error) ∧ result ≠ .accepted 0 := by
  have positive : 0 < (buffer.take (limit + 1)).length :=
    length_pos_iff.mpr (by simpa using nonempty)
  have fits (count : Nat) (small : count ≤ (buffer.take (limit + 1)).length) :
      sink.fits count = count := by
    unfold Sink.fits
    split
    · rfl
    · exact Nat.min_eq_right (Nat.le_trans small (Nat.le_trans (length_take_le' _ _) (room _ ‹_›)))
  unfold write at step
  split at step
  · simp only [Prod.mk.injEq] at step
    obtain ⟨rfl, rfl⟩ := step
    refine ⟨fun error member => (by cases member), by simp, ?_⟩
    rw [fits _ (Nat.le_refl _)]
    simp only [ne_eq, WriteResult.accepted.injEq]
    omega
  · rename_i limit events pending
    simp only [Prod.mk.injEq] at step
    obtain ⟨rfl, rfl⟩ := step
    refine ⟨?_, by simp, ?_⟩
    · intro error member
      exact reliable error (by rw [pending]; exact mem_cons_of_mem _ member)
    · rw [fits _ (Nat.min_le_right _ _)]
      simp only [ne_eq, WriteResult.accepted.injEq]
      omega
  · rename_i events pending
    simp only [Prod.mk.injEq] at step
    obtain ⟨rfl, rfl⟩ := step
    refine ⟨?_, by simp, by simp⟩
    intro error member
    exact reliable error (by rw [pending]; exact mem_cons_of_mem _ member)
  · rename_i error events pending
    exact absurd (by rw [pending]; exact mem_cons_self ..) (reliable error)

/-- However the writes are cut, success means that exactly the buffer was
appended, and that it fitted. -/
theorem writeAll_ok {sink final : Sink ε}
    (run : sink.writeAll zero limit buffer = (.ok (), final)) :
    final.written = sink.written ++ buffer ∧ final.room = sink.room.map (· - buffer.length) := by
  fun_induction Sink.writeAll zero limit sink buffer with
  | case1 sink =>
    simp only [Prod.mk.injEq, true_and] at run
    subst run
    exact ⟨by simp, by simp⟩
  | case2 sink byte more rest step => simp at run
  | case3 sink byte more count rest step ih =>
    obtain ⟨small, written, room, _⟩ := write_accepted step
    obtain ⟨appended, left⟩ := ih run
    have taken : ((byte :: more).take (limit + 1)).take (count + 1) =
        (byte :: more).take (count + 1) := by
      rw [take_take, Nat.min_eq_left (Nat.le_trans small (length_take_le _ _))]
    have bounded : count + 1 ≤ (byte :: more).length :=
      Nat.le_trans small (length_take_le' _ _)
    refine ⟨?_, ?_⟩
    · rw [appended, written, taken, append_assoc, take_append_drop]
    · rw [left, room, Option.map_map]
      congr 1
      funext space
      simp only [Function.comp, length_drop]
      omega
  | case4 sink byte more rest step ih =>
    obtain ⟨written, room, _⟩ := write_interrupted step
    rw [← written, ← room]
    exact ih run
  | case5 sink byte more error rest step => simp at run

/-- A sink that neither fails nor runs out of room takes the whole buffer. -/
theorem writeAll_reliable (reliable : sink.Reliable) (room : sink.HasRoom buffer.length) :
    ∃ final, sink.writeAll zero limit buffer = (.ok (), final) ∧ final.Reliable := by
  fun_induction Sink.writeAll zero limit sink buffer with
  | case1 sink => exact ⟨sink, rfl, reliable⟩
  | case2 sink byte more rest step =>
    exact absurd rfl (write_reliable reliable room (by simp) step).2.2
  | case3 sink byte more count rest step ih =>
    obtain ⟨_, _, left, _⟩ := write_accepted step
    refine ih (write_reliable reliable room (by simp) step).1 ?_
    intro space some
    rw [left, Option.map_eq_some_iff] at some
    obtain ⟨before, was, rfl⟩ := some
    have := room before was
    simp only [length_drop]
    omega
  | case4 sink byte more rest step ih =>
    obtain ⟨_, same, _⟩ := write_interrupted step
    refine ih (write_reliable reliable room (by simp) step).1 ?_
    intro space some
    exact room space (same ▸ some)
  | case5 sink byte more error rest step =>
    exact absurd rfl ((write_reliable reliable room (by simp) step).2.1 error)

/-- A bounded sink that holds, with the room it has left, at most `limit` bytes. -/
def Within (limit : Nat) (sink : Sink ε) : Prop :=
  ∃ room, sink.room = some room ∧ sink.written.length + room ≤ limit

theorem push_within {events : List (WriteEvent ε)}
    (within : sink.Within limit) (small : ∀ room, sink.room = some room → buffer.length ≤ room) :
    (sink.push buffer events).Within limit := by
  obtain ⟨room, bounded, total⟩ := within
  have fits := small room bounded
  refine ⟨room - buffer.length, by rw [push, bounded, Option.map_some], ?_⟩
  rw [push, length_append]
  omega

variable (buffer : Bytes)

theorem write_within (within : sink.Within limit) :
    (sink.write buffer).2.Within limit := by
  have taken (count : Nat) : ∀ room, sink.room = some room →
      (buffer.take (sink.fits count)).length ≤ room := by
    intro room bounded
    rw [length_take, fits, bounded]
    exact Nat.le_trans (Nat.min_le_left _ _) (Nat.min_le_left _ _)
  unfold write
  split
  · exact push_within within (taken _)
  · exact push_within within (taken _)
  · exact within
  · exact within

/-- What every write call keeps, writing a whole buffer keeps, whether it succeeds
or not. -/
theorem writeAll_preserves {invariant : Sink ε → Prop}
    (keeps : ∀ sink buffer, invariant sink → invariant (sink.write buffer).2)
    {zero : ε} {limit : Nat} {sink : Sink ε} (buffer : Bytes) (holds : invariant sink) :
    invariant (sink.writeAll zero limit buffer).2 := by
  fun_induction Sink.writeAll zero limit sink buffer with
  | case1 sink => exact holds
  | case2 sink byte more rest step | case5 sink byte more error rest step =>
    have kept := keeps _ ((byte :: more).take (limit + 1)) holds
    rw [step] at kept
    exact kept
  | case3 sink byte more count rest step ih | case4 sink byte more rest step ih =>
    have kept := keeps _ ((byte :: more).take (limit + 1)) holds
    rw [step] at kept
    exact ih kept

/-- A bounded sink never holds more than its bound. -/
theorem writeAll_within {limit bound : Nat}
    (within : sink.Within bound) : (sink.writeAll zero limit buffer).2.Within bound :=
  writeAll_preserves (fun _ buffer => write_within buffer) buffer within

def Unbounded (sink : Sink ε) : Prop := sink.room = none

theorem write_unbounded (unbounded : sink.Unbounded) :
    (sink.write buffer).2.Unbounded := by
  unfold Unbounded at *
  unfold write
  split
  · rw [push, unbounded, Option.map_none]
  · rw [push, unbounded, Option.map_none]
  · exact unbounded
  · exact unbounded

theorem writeAll_unbounded
    (unbounded : sink.Unbounded) : (sink.writeAll zero limit buffer).2.Unbounded :=
  writeAll_preserves (fun _ buffer => write_unbounded buffer) buffer unbounded

end Sink

end Writing

end VgiRpc.Library.ByteStream

