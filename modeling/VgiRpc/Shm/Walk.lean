import VgiRpc.Shm.Segment

/-!
# Walking the frames of a buffer

A buffer is split into messages in two ways: by ranges of offsets, for a region of a
segment, and by reads, for a transport.  Where both get to an end they find the same
messages.
-/

namespace VgiRpc.Shm

open Arrow Wire List Library.ByteStream Library.LittleEndian Library.Memory

section Ranges

variable {A : ArrowIpc} {bytes : Bytes} {start size maxMetadata : Nat}
  {frame : IpcFrameRange} {result : Option IpcFrameRange}

theorem metadataRange_ok (found : metadataRange A bytes start size maxMetadata = .ok result) :
    size = 0 ∧ result = none ∨
      0 < size ∧ ∃ message, A.rootAsMessage (slice bytes start size) = .ok message ∧
        start + size + message.bodyLength.toNat ≤ bytes.length ∧
        result = some ⟨start, size, start + size, message.bodyLength.toNat,
          start + size + message.bodyLength.toNat⟩ := by
  unfold metadataRange at found
  split at found
  · cases found
    exact .inl ⟨‹_›, rfl⟩
  split_ifs at found
  split at found
  · cases found
  next message parsed =>
  right
  simp only [bodyRange] at found
  split_ifs at found
  cases found
  exact ⟨by omega, message, parsed, by omega, rfl⟩

/-- The prefix of a frame is the length word of an item. -/
theorem ipcFrameRange_word (found : ipcFrameRange A bytes start maxMetadata = .ok result) :
    ∃ word tail size, LengthWord word size ∧ bytes.drop start = word ++ tail ∧
      metadataRange A bytes (start + word.length) size maxMetadata = .ok result := by
  have four {index : Nat} (inside : index + 4 ≤ bytes.length) :
      (slice bytes index 4).length = 4 := by
    rw [slice, length_take, length_drop]
    omega
  have next (index : Nat) : bytes.drop index = slice bytes index 4 ++ bytes.drop (index + 4) := by
    rw [slice, ← drop_drop, take_append_drop]
  unfold ipcFrameRange at found
  split at found
  · cases found
  split at found
  · cases found
  have first : (slice bytes start 4).length = 4 := four (by omega)
  split at found
  next marked =>
    split_ifs at found
    have second : (slice bytes (start + 4) 4).length = 4 := four (by omega)
    have marker : slice bytes start 4 = continuationMarker := by
      have same := toLe_ofLe (slice bytes start 4)
      rw [marked, first] at same
      exact same.symm
    refine ⟨_, bytes.drop (start + 8), _, .marked second, ?_, ?_⟩
    · rw [append_assoc, ← marker, ← next (start + 4), ← next start]
    · rw [length_append, second]
      exact found
  next unmarked =>
    refine ⟨_, bytes.drop (start + 4), _, .legacy first ?_, next start, ?_⟩
    · intro marker
      rw [marker] at unmarked
      exact unmarked rfl
    · rwa [first]

/-- The parts of a frame lie one behind another inside the buffer. -/
theorem ipcFrameRange_inside
    (found : ipcFrameRange A bytes start maxMetadata = .ok (some frame)) :
    start < frame.metadataStart ∧ 0 < frame.metadataLength ∧
      frame.bodyStart = frame.metadataStart + frame.metadataLength ∧
      frame.next = frame.bodyStart + frame.bodyLength ∧ frame.next ≤ bytes.length := by
  obtain ⟨word, -, size, length, -, found⟩ := ipcFrameRange_word found
  obtain ⟨-, ⟨⟩⟩ | ⟨positive, message, -, inside, made⟩ := metadataRange_ok found
  cases made
  exact ⟨Nat.lt_add_of_pos_right length.length_pos, positive, rfl, rfl, inside⟩

end Ranges

section Walking

variable (A : ArrowIpc)

/-- Walk the frames of a buffer from an index to the end marker, under a limit for
each index.  Every frame ends behind its start, so the walk ends. -/
def ipcFrames (bytes : Bytes) (limits : Nat → Nat) (start : Nat) :
    Except RpcError (List RawMessage) :=
  match _found : ipcFrameRange A bytes start (limits start) with
  | .error error => .error error
  | .ok none => .ok []
  | .ok (some frame) => do
      let later ← ipcFrames bytes limits frame.next
      pure (⟨slice bytes frame.metadataStart frame.metadataLength,
        slice bytes frame.bodyStart frame.bodyLength, false⟩ :: later)
termination_by bytes.length - start
decreasing_by
  have := ipcFrameRange_inside _found
  omega

/-- Read message after message to an end. -/
inductive ReadsAll (caps : Nat → Nat) : Nat → Source RpcError → List RawMessage → Prop
  | stops {index : Nat} {source rest : Source RpcError} {last : Option Frame}
      (read : readMessageBytes A (caps index) source = (.ok last, rest))
      (ended : last = none ∨ last = some .eos) : ReadsAll caps index source []
  | message {index : Nat} {source rest : Source RpcError} {raw : RawMessage}
      {later : List RawMessage}
      (read : readMessageBytes A (caps index) source = (.ok (some (.message raw)), rest))
      (others : ReadsAll caps (index + 1) rest later) : ReadsAll caps index source (raw :: later)

variable {A} {bytes : Bytes} {start maxMetadata maxBytes : Nat} {source rest : Source RpcError}
  {read : Option Frame} {result : Option IpcFrameRange}

/-- One read and one range, from the same index of a buffer. -/
theorem readMessageBytes_ipcFrameRange (same : source.bytes = bytes.drop start)
    (run : readMessageBytes A maxBytes source = (.ok read, rest))
    (found : ipcFrameRange A bytes start maxMetadata = .ok result) :
    read = some .eos ∧ result = none ∨
      ∃ frame, result = some frame ∧ rest.bytes = bytes.drop frame.next ∧
        read = some (.message ⟨slice bytes frame.metadataStart frame.metadataLength,
          slice bytes frame.bodyStart frame.bodyLength, false⟩) := by
  obtain ⟨error, failed, -⟩ | ⟨whole, -⟩ := readMessageBytes_free A maxBytes source
  · rw [run] at failed
    cases failed
  obtain ⟨word, tail, size, length, layout, found⟩ := ipcFrameRange_word found
  rw [run, same, layout, readMessageBytes_word length] at whole
  obtain ⟨rfl, rfl, -⟩ | ⟨header, message, repaired, body, flag, left, rfl, nonempty, -, parsed,
    announced, -, rfl, rfl, remains⟩ := readSized_ok whole
  · obtain ⟨-, none⟩ | ⟨⟨⟩, -⟩ := metadataRange_ok found
    exact .inl ⟨rfl, none⟩
  right
  obtain ⟨empty, -⟩ | ⟨-, other, root, -, made⟩ := metadataRange_ok found
  · exact absurd (length_eq_zero_iff.mp empty) nonempty
  have headed : bytes.drop (start + word.length) = header ++ (body ++ left) := by
    rw [← drop_drop, layout, drop_left]
  have bodied : bytes.drop (start + word.length + header.length) = body ++ left := by
    rw [← drop_drop, headed, drop_left]
  rw [slice, headed, take_left] at root
  -- a header that parses as it stands is not repaired
  cases (parseHeader_valid root).symm.trans parsed
  rw [announced, Int.toNat_natCast] at made
  refine ⟨_, made, ?_, ?_⟩
  · rw [← drop_drop, bodied, drop_left]
    exact congrArg Source.bytes remains
  · simp only [slice, headed, bodied, take_left]

theorem ReadsAll.eq_ipcFrames {caps limits : Nat → Nat} {index : Nat}
    {read walked : List RawMessage} (reads : ReadsAll A caps index source read)
    (same : source.bytes = bytes.drop start)
    (walks : ipcFrames A bytes limits start = .ok walked) : read = walked := by
  induction reads generalizing start walked with
  | stops run ended =>
    unfold ipcFrames at walks
    split at walks
    · cases walks
    · cases walks
      rfl
    next found =>
      obtain ⟨-, ⟨⟩⟩ | ⟨frame, -, -, rfl⟩ := readMessageBytes_ipcFrameRange same run found
      obtain ⟨⟨⟩⟩ | ⟨⟨⟩⟩ := ended
  | message run others ih =>
    unfold ipcFrames at walks
    split at walks
    · cases walks
    next found => obtain ⟨⟨⟩, -⟩ | ⟨_, ⟨⟩, -⟩ := readMessageBytes_ipcFrameRange same run found
    next found =>
      obtain ⟨-, ⟨⟩⟩ | ⟨_, ⟨⟩, remains, ⟨⟩⟩ := readMessageBytes_ipcFrameRange same run found
      obtain ⟨_, onwards, ⟨⟩⟩ := Library.exceptBind_eq_ok walks
      rw [ih remains onwards]

/-- A frame lies inside its buffer and ends behind its start; and the messages found by
walking a buffer from any index are the ones read from a transport with its bytes,
however they are cut and whatever the limits of the two. -/
theorem ipcFrames_readMessageBytes (A : ArrowIpc) (bytes : Bytes) (start : Nat) :
    (∀ maxMetadata frame, ipcFrameRange A bytes start maxMetadata = .ok (some frame) →
      start < frame.metadataStart ∧ 0 < frame.metadataLength ∧
        frame.bodyStart = frame.metadataStart + frame.metadataLength ∧
        frame.next = frame.bodyStart + frame.bodyLength ∧ frame.next ≤ bytes.length) ∧
      ∀ limits caps index source read walked, source.bytes = bytes.drop start →
        ReadsAll A caps index source read → ipcFrames A bytes limits start = .ok walked →
        read = walked :=
  ⟨fun _ _ => ipcFrameRange_inside, fun _ _ _ _ _ _ same reads => reads.eq_ipcFrames same⟩

end Walking

end VgiRpc.Shm
