import VgiRpc.Arrow.Sample
import VgiRpc.Library.Memory
import VgiRpc.Metadata

/-!
# Reading one message

The message reader takes one framed item off a transport that may deliver its
bytes in any pieces.  An item is an end marker or a length, a header and the body
the header announces; the results below say which byte strings the reader takes
for one, and how it tells the end of its input from the middle of an item.
-/

namespace VgiRpc.Wire

open Arrow List Library.Program
open Library.ByteStream Library.LittleEndian

def maxIpcSchemaBytes : Nat := 16 * 1024 * 1024

def maxIpcMessageBytes : Nat := 2 ^ 32 - 1

/-! ## One message -/

/-- The bytes wanted, or `none` when the input ends before the first of them. -/
def readExact (want : Nat) : Reader RpcError (Option Bytes) := do
  match ← Reader.gather want with
  | .full bytes => pure (some bytes)
  | .eof [] => pure none
  | .eof (_ :: _) => throw (.io "unexpected EOF in IPC message")
  | .failed error _ => throw error

structure RawMessage where
  messageBytes : Bytes
  body : Bytes
  hadInvalidUtf8 : Bool
  deriving DecidableEq, Repr

inductive Frame where
  | message (raw : RawMessage)
  | eos
  deriving DecidableEq, Repr

/-- Overwrite a range of bytes with question marks. -/
def fillRange (bytes : Bytes) (start stop : Nat) : Bytes :=
  bytes.take start ++ List.replicate (stop - start) 0x3F ++ bytes.drop stop

/-- Parse a header, replacing each string that is not UTF-8.  Every replacement
removes a byte outside ASCII, so there are at most as many rounds as such bytes. -/
def repairHeader (A : ArrowIpc) :
    Nat → Bytes → Bool → Except RpcError (Message A.SchemaTable × Bytes × Bool)
  | 0, _, _ => .error (.ipc "parse message header: repair did not terminate")
  | fuel + 1, bytes, hadInvalidUtf8 =>
    match A.rootAsMessage bytes with
    | .ok message => .ok (message, bytes, hadInvalidUtf8)
    | .error (.utf8Error start stop text) =>
      if start < stop ∧ stop ≤ bytes.length then
        repairHeader A fuel (fillRange bytes start stop) true
      else .error (.ipc ("parse message header: " ++ text))
    | .error (.other text) => .error (.ipc ("parse message header: " ++ text))

def nonAscii (bytes : Bytes) : Nat := bytes.countP fun byte => 128 ≤ byte.toNat

def parseHeader (A : ArrowIpc) (bytes : Bytes) :
    Except RpcError (Message A.SchemaTable × Bytes × Bool) :=
  repairHeader A (nonAscii bytes + 1) bytes false

def refusesHeader (size maxBytes : Nat) : RpcError :=
  .ipc ("IPC message header length " ++ toString size ++ " bytes exceeds cap " ++
    toString maxBytes ++ " — refusing to allocate before parsing")

def refusesBody (bodyLength : Int) (maxBytes : Nat) : RpcError :=
  .ipc ("IPC message bodyLength " ++ toString bodyLength ++ " bytes exceeds cap " ++
    toString maxBytes ++ " — refusing to allocate before parsing")

section MessageReader

variable (A : ArrowIpc) (maxBytes : Nat)

/-- The body a parsed header announces, behind its two size checks. -/
def readBody (message : Message A.SchemaTable) : Reader RpcError Bytes :=
  if message.bodyLength < 0 then
    throw (.ipc ("IPC message has negative bodyLength (" ++ toString message.bodyLength ++ ")"))
  else if maxBytes < message.bodyLength then throw (refusesBody message.bodyLength maxBytes)
  else do
    match ← Reader.gather message.bodyLength.toNat with
    | .full body => pure body
    | .eof _ => throw (.io "unexpected EOF in message body")
    | .failed error _ => throw error

def readSized (size : Nat) : Reader RpcError (Option Frame) :=
  if size = 0 then pure (some .eos)
  else if maxBytes < size then throw (refusesHeader size maxBytes)
  else do
    match ← readExact size with
    | none => throw (.io "unexpected EOF in message body")
    | some header => do
        let (message, bytes, hadInvalidUtf8) ← parseHeader A header
        let body ← readBody A maxBytes message
        pure (some (.message ⟨bytes, body, hadInvalidUtf8⟩))

/-- One framed item, or `none` at the end of the input. -/
def readMessageBytes : Reader RpcError (Option Frame) := do
  match ← readExact 4 with
  | none => pure none
  | some word =>
    if word = continuationMarker then do
      match ← readExact 4 with
      | none => pure none
      | some size => readSized A maxBytes (ofLe size)
    else readSized A maxBytes (ofLe word)

end MessageReader

section Segmentation

theorem readExact_free (want : Nat) : (readExact want).SegmentationFree := by
  apply Reader.SegmentationFree.gather
  · exact fun error _ => ⟨error, rfl⟩
  · exact fun bytes => .pure (some bytes)
  · intro bytes
    cases bytes with
    | nil => exact .pure none
    | cons byte rest => exact .throw _

variable (A : ArrowIpc) (maxBytes : Nat)

theorem readBody_free (message : Message A.SchemaTable) :
    (readBody A maxBytes message).SegmentationFree := by
  refine .ite (.throw _) (.ite (.throw _) (.gather _ ?_ ?_ ?_))
  · exact fun error _ => ⟨error, rfl⟩
  · exact fun body => .pure body
  · exact fun _ => .throw _

theorem readSized_free (size : Nat) : (readSized A maxBytes size).SegmentationFree := by
  refine .ite (.pure _) (.ite (.throw _) (.bind (readExact_free size) ?_))
  intro header
  cases header with
  | none => exact .throw _
  | some header =>
    exact .bind (.lift _) fun parsed => .bind (readBody_free A maxBytes parsed.1) fun _ => .pure _

theorem readMessageBytes_free : (readMessageBytes A maxBytes).SegmentationFree := by
  refine .bind (readExact_free 4) ?_
  intro word
  cases word with
  | none => exact .pure none
  | some word =>
    refine .ite (.bind (readExact_free 4) ?_) (readSized_free A maxBytes _)
    intro size
    cases size with
    | none => exact .pure none
    | some size => exact readSized_free A maxBytes _

end Segmentation

section Items

/-- The length word of an item, with or without the continuation marker. -/
inductive LengthWord : Bytes → Nat → Prop
  | legacy {word : Bytes} (four : word.length = 4) (unmarked : word ≠ continuationMarker) :
      LengthWord word (ofLe word)
  | marked {size : Bytes} (four : size.length = 4) :
      LengthWord (continuationMarker ++ size) (ofLe size)

/-- A byte string that is exactly one item. -/
inductive Item (A : ArrowIpc) (maxBytes : Nat) : Bytes → Frame → Prop
  | eos {word : Bytes} (length : LengthWord word 0) : Item A maxBytes word .eos
  | message {word header body bytes : Bytes} {message : Message A.SchemaTable} {flag : Bool}
      (length : LengthWord word header.length) (nonempty : header ≠ [])
      (headerFits : header.length ≤ maxBytes)
      (parsed : parseHeader A header = .ok (message, bytes, flag))
      (announced : message.bodyLength = body.length) (bodyFits : body.length ≤ maxBytes) :
      Item A maxBytes (word ++ header ++ body) (.message ⟨bytes, body, flag⟩)

variable {A : ArrowIpc} {maxBytes size : Nat} {word : Bytes} {frame : Frame} {bytes : Bytes}
  {message : Message A.SchemaTable} {source : Source RpcError}

theorem LengthWord.length_pos (length : LengthWord word size) :
    0 < word.length := by
  cases length with
  | legacy four _ => omega
  | marked four => simp [continuationMarker]

variable {item : Bytes}

theorem Item.length_pos (whole : Item A maxBytes item frame) : 0 < item.length := by
  cases whole with
  | eos length => exact length.length_pos
  | message length =>
    have := length.length_pos
    simp only [length_append]
    omega

theorem readExact_append (part rest : Bytes) :
    readExact part.length (.ofBytes (part ++ rest)) = (.ok (some part), .ofBytes rest) := by
  have run : Reader.gather part.length (.ofBytes (part ++ rest) : Source RpcError) =
      (.ok (.full part), .ofBytes rest) := by
    simp [Reader.gather, gathered]
  exact bind_ok run

variable {want : Nat}

theorem readExact_ofBytes_nil (wanted : 0 < want) :
    readExact want (.ofBytes []) = (.ok none, .ofBytes []) := by
  have run : Reader.gather want (.ofBytes [] : Source RpcError) =
      (.ok (.eof []), .ofBytes []) := by
    simp [Reader.gather, gathered]
    omega
  exact bind_ok run

theorem readExact_short (short : bytes.length < want) (some : bytes ≠ []) :
    readExact want (.ofBytes bytes) =
      (.error (.io "unexpected EOF in IPC message"), .ofBytes []) := by
  have run : Reader.gather want (.ofBytes bytes : Source RpcError) =
      (.ok (.eof bytes), .ofBytes []) := by
    simp only [Reader.gather, gather_ofBytes, gathered, if_neg (Nat.not_le.mpr short),
      drop_eq_nil_of_le (Nat.le_of_lt short)]
  refine (bind_ok run).trans ?_
  cases bytes with
  | nil => exact absurd rfl some
  | cons byte rest => rfl

/-- The three ways an exact read of available bytes ends. -/
theorem readExact_cases (want : Nat) (wanted : 0 < want) (bytes : Bytes) :
    (∃ part rest, part.length = want ∧ bytes = part ++ rest ∧
        readExact want (.ofBytes bytes) = (.ok (some part), .ofBytes rest)) ∨
      (bytes = [] ∧ readExact want (.ofBytes bytes) = (.ok none, .ofBytes [])) ∨
      (bytes ≠ [] ∧ bytes.length < want ∧
        ∃ error, readExact want (.ofBytes bytes) = (.error error, .ofBytes [])) := by
  by_cases enough : want ≤ bytes.length
  · left
    have size : (bytes.take want).length = want := by simpa using enough
    refine ⟨bytes.take want, bytes.drop want, size, (take_append_drop ..).symm, ?_⟩
    have run := readExact_append (bytes.take want) (bytes.drop want)
    rwa [size, take_append_drop] at run
  · right
    by_cases empty : bytes = []
    · subst empty
      exact .inl ⟨rfl, readExact_ofBytes_nil wanted⟩
    · exact .inr ⟨empty, by omega, _, readExact_short (by omega) empty⟩

variable {body : Bytes}

theorem readBody_whole (announced : message.bodyLength = body.length)
    (bodyFits : body.length ≤ maxBytes) (rest : Bytes) :
    readBody A maxBytes message (.ofBytes (body ++ rest)) = (.ok body, .ofBytes rest) := by
  unfold readBody
  rw [if_neg (by omega), if_neg (by omega)]
  have run : Reader.gather message.bodyLength.toNat (.ofBytes (body ++ rest) : Source RpcError) =
      (.ok (.full body), .ofBytes rest) := by
    simp [Reader.gather, gathered, announced]
  exact bind_ok run

theorem readBody_ok {bytes : Bytes}
    (run : readBody A maxBytes message (.ofBytes bytes) = (.ok body, source)) :
    message.bodyLength = body.length ∧ body.length ≤ maxBytes ∧
      ∃ rest, bytes = body ++ rest ∧ source = .ofBytes rest := by
  unfold readBody at run
  split at run
  · cases run
  split at run
  · cases run
  obtain ⟨collected, _, gathers, returns⟩ := bind_eq_ok run
  by_cases enough : message.bodyLength.toNat ≤ bytes.length
  · simp only [Reader.gather, gather_ofBytes, gathered, if_pos enough] at gathers
    cases gathers
    cases returns
    refine ⟨?_, ?_, _, (take_append_drop ..).symm, rfl⟩
    all_goals simp only [length_take]; omega
  · simp only [Reader.gather, gather_ofBytes, gathered, if_neg enough] at gathers
    cases gathers
    cases returns

theorem readSized_zero (source : Source RpcError) :
    readSized A maxBytes 0 source = (.ok (some .eos), source) := by
  unfold readSized
  rw [if_pos rfl, pure_apply]

theorem readSized_whole {header bytes : Bytes} {flag : Bool} (nonempty : header ≠ [])
    (headerFits : header.length ≤ maxBytes)
    (parsed : parseHeader A header = .ok (message, bytes, flag))
    (announced : message.bodyLength = body.length) (bodyFits : body.length ≤ maxBytes)
    (rest : Bytes) :
    readSized A maxBytes header.length (.ofBytes (header ++ (body ++ rest))) =
      (.ok (some (.message ⟨bytes, body, flag⟩)), .ofBytes rest) := by
  have positive : 0 < header.length := length_pos_iff.mpr nonempty
  have parses : (liftM (parseHeader A header) :
      Reader RpcError (Message A.SchemaTable × Bytes × Bool)) (.ofBytes (body ++ rest)) =
      (.ok (message, bytes, flag), .ofBytes (body ++ rest)) := by
    rw [lift_apply, parsed]
  unfold readSized
  rw [if_neg (by omega), if_neg (by omega), bind_ok (readExact_append ..)]
  exact (bind_ok parses).trans
    ((bind_ok (readBody_whole announced bodyFits rest)).trans rfl)

variable {result : Option Frame}

theorem readSized_ok (run : readSized A maxBytes size (.ofBytes bytes) = (.ok result, source)) :
    (size = 0 ∧ result = some .eos ∧ source = .ofBytes bytes) ∨
      ∃ header message parsed body flag rest,
        header.length = size ∧ header ≠ [] ∧ header.length ≤ maxBytes ∧
        parseHeader A header = .ok (message, parsed, flag) ∧
        message.bodyLength = body.length ∧ body.length ≤ maxBytes ∧
        bytes = header ++ (body ++ rest) ∧ result = some (.message ⟨parsed, body, flag⟩) ∧
        source = .ofBytes rest := by
  unfold readSized at run
  split at run
  · cases run
    exact .inl ⟨‹_›, rfl, rfl⟩
  split at run
  · cases run
  right
  rename_i nonzero fits
  obtain ⟨read, middle, first, later⟩ := bind_eq_ok run
  rcases readExact_cases size (by omega) bytes with
    ⟨header, tail, length, rfl, reads⟩ | ⟨rfl, reads⟩ | ⟨_, _, error, reads⟩
  · cases reads.symm.trans first
    obtain ⟨⟨message, parsed, flag⟩, _, parsing, last⟩ := bind_eq_ok later
    obtain ⟨parses, rfl⟩ := lift_eq_ok parsing
    obtain ⟨body, _, takes, returns⟩ := bind_eq_ok last
    obtain ⟨announced, bodyFits, rest, rfl, rfl⟩ := readBody_ok takes
    cases returns
    refine ⟨header, message, parsed, body, flag, rest, length, ?_, by omega, parses, announced,
      bodyFits, rfl, rfl, rfl⟩
    rintro rfl
    exact nonzero length.symm
  · cases reads.symm.trans first
    cases later
  · cases reads.symm.trans first

theorem readMessageBytes_nil :
    readMessageBytes A maxBytes (.ofBytes []) = (.ok none, .ofBytes []) :=
  (bind_ok (readExact_ofBytes_nil (by decide))).trans rfl

theorem readMessageBytes_marked (rest : Bytes) :
    readMessageBytes A maxBytes (.ofBytes (continuationMarker ++ rest)) =
      (do
        match ← readExact 4 with
        | none => pure none
        | some size => readSized A maxBytes (ofLe size) : Reader RpcError (Option Frame))
        (.ofBytes rest) :=
  (bind_ok (readExact_append continuationMarker rest)).trans
    (congrFun (if_pos rfl) _)

theorem readMessageBytes_legacy (four : word.length = 4)
    (unmarked : word ≠ continuationMarker) (rest : Bytes) :
    readMessageBytes A maxBytes (.ofBytes (word ++ rest)) =
      readSized A maxBytes (ofLe word) (.ofBytes rest) := by
  have reads := readExact_append word rest
  rw [four] at reads
  exact (bind_ok reads).trans (congrFun (if_neg unmarked) _)

/-- The input that stops behind a continuation marker reads as an end of input. -/
theorem readMessageBytes_continuationMarker :
    readMessageBytes A maxBytes (.ofBytes continuationMarker) = (.ok none, .ofBytes []) := by
  have run : readMessageBytes A maxBytes (.ofBytes (continuationMarker ++ [])) = _ :=
    readMessageBytes_marked []
  exact run.trans ((bind_ok (readExact_ofBytes_nil (by decide))).trans rfl)

theorem readMessageBytes_word (length : LengthWord word size) (rest : Bytes) :
    readMessageBytes A maxBytes (.ofBytes (word ++ rest)) =
      readSized A maxBytes size (.ofBytes rest) := by
  cases length with
  | legacy four unmarked => exact readMessageBytes_legacy four unmarked rest
  | @marked size four =>
    rw [append_assoc, readMessageBytes_marked]
    have reads := readExact_append size rest
    rw [four] at reads
    exact bind_ok reads

/-- The reader takes an item for what it is and leaves what follows it. -/
theorem readMessageBytes_item (whole : Item A maxBytes item frame) (rest : Bytes) :
    readMessageBytes A maxBytes (.ofBytes (item ++ rest)) = (.ok (some frame), .ofBytes rest) := by
  cases whole with
  | eos length => rw [readMessageBytes_word length, readSized_zero]
  | message length nonempty headerFits parsed announced bodyFits =>
    rw [append_assoc, append_assoc, readMessageBytes_word length,
      readSized_whole nonempty headerFits parsed announced bodyFits]

/-- The ways a read of available bytes succeeds: at the end of the input, right
behind a continuation marker, or with an item. -/
theorem readMessageBytes_ok
    (run : readMessageBytes A maxBytes (.ofBytes bytes) = (.ok result, source)) :
    (result = none ∧ (bytes = [] ∨ bytes = continuationMarker)) ∨
      ∃ frame item rest, result = some frame ∧ Item A maxBytes item frame ∧
        bytes = item ++ rest ∧ source = .ofBytes rest := by
  have sized {word tail : Bytes} {size : Nat} (length : LengthWord word size)
      (step : readSized A maxBytes size (.ofBytes tail) = (.ok result, source)) :
      ∃ frame item rest, result = some frame ∧ Item A maxBytes item frame ∧
        word ++ tail = item ++ rest ∧ source = .ofBytes rest := by
    rcases readSized_ok step with ⟨rfl, rfl, rfl⟩ |
      ⟨header, message, parsed, body, flag, rest, rfl, nonempty, headerFits, parses, announced,
        bodyFits, rfl, rfl, rfl⟩
    · exact ⟨.eos, word, tail, rfl, .eos length, rfl, rfl⟩
    · exact ⟨_, word ++ header ++ body, rest, rfl,
        .message length nonempty headerFits parses announced bodyFits, by simp, rfl⟩
  rcases readExact_cases 4 (by decide) bytes with
    ⟨word, tail, four, rfl, reads⟩ | ⟨rfl, reads⟩ | ⟨_, _, error, reads⟩
  · by_cases marked : word = continuationMarker
    · subst marked
      rw [readMessageBytes_marked] at run
      rcases readExact_cases 4 (by decide) tail with
        ⟨size, rest, length, rfl, second⟩ | ⟨rfl, second⟩ | ⟨_, _, error, second⟩
      · right
        rw [bind_ok second] at run
        obtain ⟨frame, item, left, found, whole, split, remains⟩ := sized (.marked length) run
        exact ⟨frame, item, left, found, whole, by rw [← split, append_assoc], remains⟩
      · rw [bind_ok second] at run
        cases run
        exact .inl ⟨rfl, .inr (append_nil _)⟩
      · rw [bind_error second] at run
        cases run
    · rw [readMessageBytes_legacy four marked] at run
      exact .inr (sized (.legacy four marked) run)
  · rw [readMessageBytes_nil] at run
    cases run
    exact .inl ⟨rfl, .inl rfl⟩
  · rw [readMessageBytes, bind_error reads] at run
    cases run

/-- Reading an item consumes at least a byte, however the source is cut. -/
theorem readMessageBytes_progress {source rest : Source RpcError}
    (run : readMessageBytes A maxBytes source = (.ok (some frame), rest)) :
    rest.bytes.length < source.bytes.length := by
  rcases readMessageBytes_free A maxBytes source with ⟨error, failed, _⟩ | ⟨same, _⟩
  · rw [run] at failed
    cases failed
  · rw [run] at same
    rcases readMessageBytes_ok same with ⟨none, _⟩ | ⟨_, item, left, _, whole, split, remains⟩
    · cases none
    · have bytes : rest.bytes = left := congrArg Source.bytes remains
      have := whole.length_pos
      rw [split, bytes, length_append]
      omega

end Items

section Endings

variable (A : ArrowIpc) (caps : Nat → Nat)

/-- Read message after message, the one at each index under its own cap, until an
end is reported: `true` for an end marker, `false` for the end of the input. -/
def readToEnd (index : Nat) (source : Source RpcError) : Except RpcError Bool × Source RpcError :=
  match _step : readMessageBytes A (caps index) source with
  | (.error error, rest) => (.error error, rest)
  | (.ok none, rest) => (.ok false, rest)
  | (.ok (some .eos), rest) => (.ok true, rest)
  | (.ok (some (.message _)), rest) => readToEnd (index + 1) rest
termination_by source.bytes.length
decreasing_by exact readMessageBytes_progress ‹_›

/-- The caps of a stream: one for the schema message, one for all others. -/
def streamCaps (index : Nat) : Nat := if index = 0 then maxIpcSchemaBytes else maxIpcMessageBytes

inductive Ending where
  | betweenMessages
  | endMarker
  | afterContinuation
  deriving DecidableEq, Repr

/-- The input is whole messages and then stops, or has an end marker, or stops
behind a continuation marker. -/
inductive Ends : Nat → Bytes → Ending → Prop
  | betweenMessages (index : Nat) : Ends index [] .betweenMessages
  | endMarker (index : Nat) {word : Bytes} (length : LengthWord word 0) (rest : Bytes) :
      Ends index (word ++ rest) .endMarker
  | afterContinuation (index : Nat) : Ends index continuationMarker .afterContinuation
  | message {index : Nat} {item rest : Bytes} {raw : RawMessage} {ending : Ending}
      (whole : Item A (caps index) item (.message raw)) (later : Ends (index + 1) rest ending) :
      Ends index (item ++ rest) ending

def ReportsCleanEnd (source : Source RpcError) : Prop :=
  ∃ sawMarker rest, readToEnd A caps 0 source = (.ok sawMarker, rest)

variable {A caps} {index : Nat} {bytes : Bytes}

theorem readToEnd_step {source rest : Source RpcError} {result : Except RpcError (Option Frame)}
    (step : readMessageBytes A (caps index) source = (result, rest)) :
    readToEnd A caps index source =
      match result with
      | .error error => (.error error, rest)
      | .ok none => (.ok false, rest)
      | .ok (some .eos) => (.ok true, rest)
      | .ok (some (.message _)) => readToEnd A caps (index + 1) rest := by
  rw [readToEnd.eq_def]
  split <;> rename_i found <;> rw [step] at found <;> cases found <;> rfl

variable (A caps) in
theorem readToEnd_free (index : Nat) :
    Reader.SegmentationFree (readToEnd A caps index : Reader RpcError Bool) := by
  intro source
  fun_induction readToEnd A caps index source with
  | case1 index source error rest step =>
    rcases readMessageBytes_free A (caps index) source with ⟨_, _, unreliable⟩ | ⟨same, stays⟩
    · exact .inl ⟨error, rfl, unreliable⟩
    · rw [step] at same stays
      exact .inr ⟨readToEnd_step same, stays⟩
  | case2 index source rest step | case3 index source rest step =>
    rcases readMessageBytes_free A (caps index) source with ⟨_, failed, _⟩ | ⟨same, stays⟩
    · rw [step] at failed
      cases failed
    · rw [step] at same stays
      exact .inr ⟨readToEnd_step same, stays⟩
  | case4 index source raw rest step ih =>
    rcases readMessageBytes_free A (caps index) source with ⟨_, failed, _⟩ | ⟨same, stays⟩
    · rw [step] at failed
      cases failed
    · rw [step] at same stays
      rw [readToEnd_step same]
      exact Reader.run_after stays ih

variable {ending : Ending}

/-- The reader finishes without an error on every input with one of the endings. -/
theorem Ends.readToEnd (ends : Ends A caps index bytes ending) :
    ∃ sawMarker rest, readToEnd A caps index (.ofBytes bytes) = (.ok sawMarker, rest) := by
  induction ends with
  | betweenMessages index => exact ⟨false, _, readToEnd_step readMessageBytes_nil⟩
  | endMarker index length rest =>
    exact ⟨true, _, readToEnd_step (readMessageBytes_item (.eos length) rest)⟩
  | afterContinuation index =>
    exact ⟨false, _, readToEnd_step readMessageBytes_continuationMarker⟩
  | @message index item rest raw ending whole later ih =>
    obtain ⟨sawMarker, final, run⟩ := ih
    exact ⟨sawMarker, final, (readToEnd_step (readMessageBytes_item whole rest)).trans run⟩

/-- An input on which the reader finishes without an error has one of the endings. -/
theorem ends_of_readToEnd {sawMarker : Bool} {final : Source RpcError}
    (run : readToEnd A caps index (.ofBytes bytes) = (.ok sawMarker, final)) :
    ∃ ending, Ends A caps index bytes ending := by
  induction bound : bytes.length using Nat.strong_induction_on generalizing index bytes with
  | _ size ih =>
    rcases step : readMessageBytes A (caps index) (.ofBytes bytes) with ⟨error | result, rest⟩
    · rw [readToEnd_step step] at run
      cases run
    rcases readMessageBytes_ok step with
      ⟨rfl, rfl | rfl⟩ | ⟨frame, item, left, rfl, whole, rfl, rfl⟩
    · exact ⟨_, .betweenMessages index⟩
    · exact ⟨_, .afterContinuation index⟩
    cases frame with
    | eos =>
      cases whole with
      | eos length => exact ⟨_, .endMarker index length left⟩
    | message raw =>
      rw [readToEnd_step step] at run
      have shorter : left.length < size := by
        have := whole.length_pos
        rw [← bound, length_append]
        omega
      obtain ⟨ending, later⟩ := ih left.length shorter run rfl
      exact ⟨ending, .message whole later⟩

/-- The message at the head of an input and what follows it are determined. -/
theorem Ends.tail {item rest : Bytes} {raw : RawMessage}
    (whole : Item A (caps index) item (.message raw))
    (ends : Ends A caps index (item ++ rest) ending) : Ends A caps (index + 1) rest ending := by
  have reads := readMessageBytes_item whole rest
  generalize total : item ++ rest = bytes at reads ends
  cases ends with
  | betweenMessages => cases readMessageBytes_nil.symm.trans reads
  | endMarker _ length _ => cases (readMessageBytes_item (.eos length) _).symm.trans reads
  | afterContinuation => cases readMessageBytes_continuationMarker.symm.trans reads
  | message other later =>
    cases (readMessageBytes_item other _).symm.trans reads
    exact later

/-- An input without a message ends between two, or behind a continuation marker. -/
theorem Ends.unread {rest : Source RpcError} (ends : Ends A caps index bytes ending)
    (reads : readMessageBytes A (caps index) (.ofBytes bytes) = (.ok none, rest)) :
    bytes = [] ∧ ending = .betweenMessages ∨
      bytes = continuationMarker ∧ ending = .afterContinuation := by
  cases ends with
  | betweenMessages => exact .inl ⟨rfl, rfl⟩
  | afterContinuation => exact .inr ⟨rfl, rfl⟩
  | endMarker _ length _ => cases (readMessageBytes_item (.eos length) _).symm.trans reads
  | message whole later => cases (readMessageBytes_item whole _).symm.trans reads

theorem Ends.unique {first second : Ending}
    (left : Ends A caps index bytes first) (right : Ends A caps index bytes second) :
    first = second := by
  induction left generalizing second with
  | message whole later ih => exact ih (right.tail whole)
  | betweenMessages index =>
    obtain ⟨-, same⟩ | ⟨marker, -⟩ := right.unread readMessageBytes_nil
    · exact same.symm
    · cases marker
  | afterContinuation index =>
    obtain ⟨nothing, -⟩ | ⟨-, same⟩ := right.unread readMessageBytes_continuationMarker
    · cases nothing
    · exact same.symm
  | endMarker index length rest =>
    have reads : readMessageBytes A (caps index) (.ofBytes (_ ++ rest)) = _ :=
      readMessageBytes_item (.eos length) rest
    generalize total : _ ++ rest = bytes at right reads
    cases right with
    | betweenMessages => cases readMessageBytes_nil.symm.trans reads
    | endMarker => rfl
    | afterContinuation => cases readMessageBytes_continuationMarker.symm.trans reads
    | message whole later => cases (readMessageBytes_item whole _).symm.trans reads

theorem reportsCleanEnd_iff {source : Source RpcError} (reliable : source.Reliable) :
    ReportsCleanEnd A caps source ↔ ∃ ending, Ends A caps 0 source.bytes ending := by
  obtain ⟨same, _⟩ := (readToEnd_free A caps 0).reliable reliable
  constructor
  · rintro ⟨sawMarker, rest, run⟩
    rw [run] at same
    exact ends_of_readToEnd same
  · rintro ⟨ending, ends⟩
    obtain ⟨sawMarker, rest, run⟩ := ends.readToEnd
    rw [same] at run
    exact ⟨sawMarker, _, Prod.ext (Prod.mk.inj run).1 rfl⟩

/-- A clean end means that the input stopped between two messages or at an end
marker, except on the inputs that stop right behind a continuation marker. -/
theorem cleanEnd_at_boundary_iff (A : ArrowIpc) (caps : Nat → Nat) (source : Source RpcError)
    (reliable : source.Reliable) :
    (ReportsCleanEnd A caps source →
        Ends A caps 0 source.bytes .betweenMessages ∨ Ends A caps 0 source.bytes .endMarker) ↔
      ¬ Ends A caps 0 source.bytes .afterContinuation := by
  rw [reportsCleanEnd_iff reliable]
  constructor
  · intro sound stops
    rcases sound ⟨_, stops⟩ with ends | ends
    · cases ends.unique stops
    · cases ends.unique stops
  · rintro complete ⟨ending, ends⟩
    cases ending with
    | betweenMessages => exact .inl ends
    | endMarker => exact .inr ends
    | afterContinuation => exact absurd ends complete

/-- An end marker delivered in pieces of one and seven bytes. -/
def choppedMarker : Source RpcError :=
  ⟨continuationMarker ++ [0, 0, 0, 0], [.chunk 0, .interrupted, .chunk 6]⟩

theorem choppedMarker_reliable : choppedMarker.Reliable := by
  intro error member
  simp [choppedMarker] at member

theorem choppedMarker_ends :
    Ends Sample.library streamCaps 0 choppedMarker.bytes .endMarker := by
  have length : LengthWord (continuationMarker ++ [0, 0, 0, 0]) 0 := .marked rfl
  exact .endMarker 0 length []

theorem cleanEnd_at_boundary_iff_choppedMarker :
    ReportsCleanEnd Sample.library streamCaps choppedMarker ∧
      (Ends Sample.library streamCaps 0 choppedMarker.bytes .betweenMessages ∨
        Ends Sample.library streamCaps 0 choppedMarker.bytes .endMarker) := by
  have clean := (reportsCleanEnd_iff choppedMarker_reliable).mpr ⟨_, choppedMarker_ends⟩
  refine ⟨clean, (cleanEnd_at_boundary_iff Sample.library streamCaps choppedMarker
    choppedMarker_reliable).mpr ?_ clean⟩
  intro stops
  cases choppedMarker_ends.unique stops

/-- Four bytes of a continuation marker and nothing else are reported as a clean
end, although a length had to follow. -/
theorem cleanEnd_inside_message :
    ReportsCleanEnd Sample.library streamCaps (.ofBytes [0xFF, 0xFF, 0xFF, 0xFF]) ∧
      ¬ Ends Sample.library streamCaps 0 [0xFF, 0xFF, 0xFF, 0xFF] .betweenMessages ∧
      ¬ Ends Sample.library streamCaps 0 [0xFF, 0xFF, 0xFF, 0xFF] .endMarker := by
  have stops : Ends Sample.library streamCaps 0 [0xFF, 0xFF, 0xFF, 0xFF] .afterContinuation :=
    .afterContinuation 0
  refine ⟨(reportsCleanEnd_iff (ofBytes_reliable _)).mpr ⟨_, stops⟩, ?_, ?_⟩
  · intro ends
    cases ends.unique stops
  · intro ends
    cases ends.unique stops

end Endings

/-! ## Repairing a header -/

section Repair

/-- The repair loop of the reader, without a bound: the ranges it fills and the block it ends
with. -/
inductive Repairs (A : ArrowIpc) : Bytes → List (Nat × Nat) → Bytes → Prop
  | stop {bytes : Bytes} (settled : ∀ start stop text,
      A.rootAsMessage bytes = .error (.utf8Error start stop text) →
        ¬ (start < stop ∧ stop ≤ bytes.length)) : Repairs A bytes [] bytes
  | repair {bytes final : Bytes} {ranges : List (Nat × Nat)} {start stop : Nat} {text : String}
      (reported : A.rootAsMessage bytes = .error (.utf8Error start stop text))
      (inside : start < stop ∧ stop ≤ bytes.length)
      (rest : Repairs A (fillRange bytes start stop) ranges final) :
      Repairs A bytes ((start, stop) :: ranges) final

variable {A : ArrowIpc} {bytes final : Bytes} {ranges : List (Nat × Nat)} {start stop : Nat}

theorem nonAscii_fillRange (inside : start < stop ∧ stop ≤ bytes.length)
    (invalid : ∃ byte ∈ (bytes.drop start).take (stop - start), 128 ≤ byte.toNat) :
    nonAscii (fillRange bytes start stop) < nonAscii bytes := by
  have parts : bytes.take start ++ ((bytes.drop start).take (stop - start) ++ bytes.drop stop) =
      bytes := by
    rw [← Nat.add_sub_cancel' (Nat.le_of_lt inside.1), Nat.add_sub_cancel_left, ← drop_drop,
      take_append_drop, take_append_drop]
  have filled : nonAscii (replicate (stop - start) (0x3F : UInt8)) = 0 :=
    countP_eq_zero.mpr fun byte member => by rw [eq_of_mem_replicate member]; decide
  have some_invalid : 0 < nonAscii ((bytes.drop start).take (stop - start)) :=
    countP_pos_iff.mpr (by simpa using invalid)
  have whole := congrArg nonAscii parts
  simp only [nonAscii, fillRange, countP_append] at whole filled some_invalid ⊢
  omega

variable (invalid : ∀ bytes start stop text,
  A.rootAsMessage bytes = .error (.utf8Error start stop text) →
    ∃ byte ∈ (bytes.drop start).take (stop - start), 128 ≤ byte.toNat)
include invalid

theorem Repairs.bounded (run : Repairs A bytes ranges final) :
    ranges.length + nonAscii final ≤ nonAscii bytes ∧ final.length = bytes.length ∧
      ∀ index, (∀ range ∈ ranges, index < range.1 ∨ range.2 ≤ index) →
        final[index]? = bytes[index]? := by
  induction run with
  | stop => exact ⟨by simp, rfl, fun _ _ => rfl⟩
  | @repair bytes final ranges start stop text reported inside rest ih =>
    obtain ⟨few, length, outside⟩ := ih
    have fewer := nonAscii_fillRange inside (invalid _ _ _ _ reported)
    have filled : start + (replicate (stop - start) (0x3F : UInt8)).length = stop := by
      rw [length_replicate]
      omega
    have same : fillRange bytes start stop =
        Library.Memory.overwrite bytes start (replicate (stop - start) 0x3F) := by
      rw [Library.Memory.overwrite, filled]
      rfl
    rw [same] at length outside
    refine ⟨?_, length.trans (Library.Memory.overwrite_length (by omega)), fun index apart => ?_⟩
    · rw [length_cons]
      omega
    · rw [forall_mem_cons] at apart
      rw [outside index apart.2, Library.Memory.overwrite_getElem? (by omega), filled,
        if_pos apart.1]

/-- A bound above the number of the bytes outside ASCII is never reached. -/
theorem repairHeader_runs {fuel : Nat} (enough : nonAscii bytes < fuel) (flag : Bool) :
    ∃ ranges final, Repairs A bytes ranges final ∧ repairHeader A fuel bytes flag =
      match A.rootAsMessage final with
      | .ok message => .ok (message, final, flag || !ranges.isEmpty)
      | .error error => .error (.ipc ("parse message header: " ++ error.text)) := by
  induction fuel generalizing bytes flag with
  | zero => cases enough
  | succ fuel ih =>
    rw [repairHeader]
    split
    · next message root => exact ⟨[], bytes, .stop (by simp [root]), by simp [root]⟩
    · next start stop text reported =>
      split
      · next inside =>
        have fewer := nonAscii_fillRange inside (invalid _ _ _ _ reported)
        obtain ⟨ranges, final, run, result⟩ := ih (Nat.lt_of_lt_of_le fewer (by omega)) true
        exact ⟨_, final, .repair reported inside run, by simpa using result⟩
      · next outside =>
        refine ⟨[], bytes, .stop fun _ _ _ same => ?_, by rw [reported]; rfl⟩
        cases reported.symm.trans same
        exact outside
    · next text reported => exact ⟨[], bytes, .stop (by simp [reported]), by rw [reported]; rfl⟩

/-- The loop repairs a header at most once for each of its bytes outside ASCII, changes nothing
but the ranges that are reported, and flags the message exactly when it has changed it. -/
theorem header_repaired (bytes : Bytes) :
    (∀ message, A.rootAsMessage bytes = .ok message →
      parseHeader A bytes = .ok (message, bytes, false)) ∧
    ∃ ranges final, Repairs A bytes ranges final ∧ ranges.length ≤ nonAscii bytes ∧
      final.length = bytes.length ∧
      (∀ index, (∀ range ∈ ranges, index < range.1 ∨ range.2 ≤ index) →
        final[index]? = bytes[index]?) ∧
      parseHeader A bytes =
        match A.rootAsMessage final with
        | .ok message => .ok (message, final, decide (final ≠ bytes))
        | .error error => .error (.ipc ("parse message header: " ++ error.text)) := by
  refine ⟨fun message root => by rw [parseHeader, repairHeader, root], ?_⟩
  obtain ⟨ranges, final, run, result⟩ :=
    repairHeader_runs invalid (Nat.lt_succ_self (nonAscii bytes)) false
  obtain ⟨few, length, outside⟩ := run.bounded invalid
  have flagged : (!ranges.isEmpty) = decide (final ≠ bytes) := by
    cases run with
    | stop => exact (decide_eq_false (not_not_intro rfl)).symm
    | repair =>
      refine (decide_eq_true ?_).symm
      rintro rfl
      rw [length_cons] at few
      omega
  rw [Bool.false_or, flagged] at result
  exact ⟨ranges, final, run, by omega, length, outside, result⟩

end Repair

/-- The small library behind a verifier that reports the first byte outside ASCII. -/
def strictLibrary : ArrowIpc :=
  { Sample.library with
    rootAsMessage := fun bytes =>
      match bytes.findIdx? fun byte => 128 ≤ byte.toNat with
      | some index => .error (.utf8Error index (index + 1) "invalid utf-8")
      | none => Sample.library.rootAsMessage bytes }

theorem strictLibrary_invalid (bytes : Bytes) (start stop : Nat) (text : String)
    (reported : strictLibrary.rootAsMessage bytes = .error (.utf8Error start stop text)) :
    ∃ byte ∈ (bytes.drop start).take (stop - start), 128 ≤ byte.toNat := by
  simp only [strictLibrary] at reported
  split at reported
  · next index found =>
    cases reported
    obtain ⟨within, high, -⟩ := findIdx?_eq_some_iff_getElem.mp found
    refine ⟨bytes[start], ?_, of_decide_eq_true high⟩
    rw [drop_eq_getElem_cons within, Nat.add_sub_cancel_left]
    exact mem_cons_self
  · exact Sample.library_lawful.utf8_range _ _ _ _ reported

theorem header_repaired_strict :
    (∃ ranges final, Repairs strictLibrary [0x80, 4, 0xFF] ranges final ∧ ranges.length ≤ 2 ∧
      final.length = 3) ∧
    Repairs strictLibrary [0x80, 4, 0xFF] [(0, 1), (2, 3)] [0x3F, 4, 0x3F] := by
  obtain ⟨-, ranges, final, run, few, length, -⟩ :=
    header_repaired strictLibrary_invalid [0x80, 4, 0xFF]
  refine ⟨⟨ranges, final, run, few, length⟩, .repair rfl (by decide)
    (.repair rfl (by decide) (.stop ?_))⟩
  intro start stop text reported
  cases reported

end VgiRpc.Wire
