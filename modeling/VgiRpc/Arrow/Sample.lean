import VgiRpc.Arrow.Ipc

/-!
# A small lawful library

A library over four schemas: no columns, one large-binary column, a schema that
carries a note of any length, and a list of dictionary-encoded strings.  Messages
are named by single bytes, and a note is written out in full.  It shows that the
assumptions on `arrow-ipc` hold together, and concrete runs are evaluated on it.
-/

namespace VgiRpc.Arrow.Sample

open Library.ByteStream

inductive Kind where
  | empty
  | blob
  | nested
  | noted (length : Nat)
  deriving DecidableEq, Repr

def note (length : Nat) : String := String.ofList (List.replicate length 'x')

def tagsField : Field :=
  .mk "tags" (.list (.mk "item" (.dictionary .int32 .utf8) true [])) true []

def Kind.schema : Kind → Schema
  | .empty => ⟨[], []⟩
  | .blob => ⟨[.mk "value" .largeBinary false []], []⟩
  | .nested => ⟨[tagsField], []⟩
  | .noted length => ⟨[], [("note", note length)]⟩

def kindOf : Schema → Option Kind
  | ⟨[], []⟩ => some .empty
  | ⟨[], [("note", text)]⟩ =>
    if text = note text.length then some (.noted text.length) else none
  | ⟨[.mk "value" .largeBinary false []], []⟩ => some .blob
  | ⟨[.mk "tags" (.list (.mk "item" (.dictionary .int32 .utf8) true [])) true []], []⟩ =>
    some .nested
  | _ => none

theorem kindOf_schema (kind : Kind) : kindOf kind.schema = some kind := by
  cases kind with
  | empty => rfl
  | blob => rfl
  | nested => rfl
  | noted length =>
    have same : (note length).length = length := by simp [note]
    simp [kindOf, Kind.schema, same]

theorem schema_of_kindOf {schema : Schema} {kind : Kind} (known : kindOf schema = some kind) :
    schema = kind.schema := by
  unfold kindOf at known
  split at known
  · cases known; rfl
  · split_ifs at known with same
    cases known
    rw [Kind.schema, ← same]
  · cases known; rfl
  · cases known; rfl
  · cases known

inductive Batch where
  | row
  | blob (value : Bytes)
  | nested
  deriving DecidableEq, Repr

def Batch.kind : Batch → Kind
  | .row => .empty
  | .blob _ => .blob
  | .nested => .nested

def rowTable : RecordBatchTable := ⟨1, some [], some [], none, none⟩

def blobTable : RecordBatchTable :=
  ⟨1, some [⟨1, 0⟩], some [⟨0, 1⟩, ⟨64, 16⟩, ⟨128, 1⟩], none, none⟩

def nestedTable : RecordBatchTable := ⟨1, some [⟨1, 0⟩, ⟨0, 0⟩], some [], none, none⟩

def valuesTable : DictionaryTable := ⟨0, some ⟨0, some [⟨0, 0⟩], some [], none, none⟩, false⟩

def schemaMessage (kind : Kind) : Message Kind := ⟨.v5, .schema (some kind), 0, none⟩

def codes : List (UInt8 × Message Kind) :=
  [(1, schemaMessage .empty), (2, schemaMessage .blob), (3, schemaMessage .nested),
    (4, ⟨.v5, .recordBatch (some rowTable), 0, none⟩),
    (5, ⟨.v5, .recordBatch (some rowTable), 0, some [(some "key", some "value")]⟩),
    (6, ⟨.v5, .recordBatch (some blobTable), 192, none⟩),
    (7, ⟨.v5, .dictionaryBatch (some valuesTable), 0, none⟩),
    (8, ⟨.v5, .recordBatch (some nestedTable), 0, none⟩)]

def finishMessage (message : Message Kind) : Option Bytes :=
  match codes.find? fun code => code.2 = message with
  | some code => some [code.1]
  | none =>
    match message with
    | ⟨.v5, .schema (some (.noted length)), 0, none⟩ =>
      if length < 2 ^ 31 then some (9 :: List.replicate length 0x78) else none
    | _ => none

def rootAsMessage : Bytes → Except InvalidFlatbuffer (Message Kind)
  | [] => .error (.other "empty buffer")
  | tag :: rest =>
    if tag = 9 then .ok (schemaMessage (.noted (rest.takeWhile (· = 0x78)).length))
    else
      match codes.find? fun code => code.1 = tag with
      | some code => .ok code.2
      | none => .error (.other "unknown message")

def unreadable : Failure := .error ⟨"ArrowError", "Ipc error: unreadable"⟩

def readRecordBatch (body : Bytes) (table : RecordBatchTable) (schema : Schema) (known : Bool) :
    Except Failure Batch :=
  match kindOf schema with
  | some .empty => .ok .row
  | some .blob =>
    match table.buffers with
    | some [_, _, values] => .ok (.blob (values.slice body))
    | _ => .error unreadable
  | some .nested => if known then .ok .nested else .error unreadable
  | _ => .error unreadable

def encode : Batch → Except Failure (List EncodedData × EncodedData)
  | .row => .ok ([], ⟨[4], []⟩)
  | .blob _ => .error unreadable
  | .nested => .ok ([⟨[7], []⟩], ⟨[8], []⟩)

/-- The library: a decoder remembers whether it has seen the dictionary. -/
def library : ArrowIpc where
  Batch := Batch
  Dictionaries := Bool
  Tracker := Unit
  SchemaTable := Kind
  schemaOf batch := batch.kind.schema
  sameSchema left right := left == right
  numRows _ := 1
  numColumns batch := batch.kind.schema.fields.length
  largeBinaryValue
    | .blob value => some (some value)
    | _ => none
  rootAsMessage := rootAsMessage
  finishMessage := finishMessage
  newTracker := ()
  schemaToBytes schema _ := do
    let kind ← kindOf schema
    let bytes ← finishMessage (schemaMessage kind)
    pure (⟨bytes, []⟩, ())
  encode batch _ := (encode batch, ())
  hasFields _ := true
  fbToSchema kind := .ok kind.schema
  noDictionaries := false
  readDictionary _ _ _ _ _ := .ok true
  readRecordBatch body table schema known _ := readRecordBatch body table schema known

theorem codes_distinct : ∀ code ∈ codes,
    code.1 ≠ 9 ∧ codes.find? (fun other => other.1 = code.1) = some code := by decide

theorem codes_small : ∀ code ∈ codes, code.2.bodyLength < 2 ^ 63 := by decide

variable {message : Message Kind} {bytes : Bytes}

theorem finishMessage_some (built : finishMessage message = some bytes) :
    (∃ code ∈ codes, code.2 = message ∧ bytes = [code.1]) ∨
      ∃ length < 2 ^ 31, message = schemaMessage (.noted length) ∧
        bytes = 9 :: List.replicate length 0x78 := by
  unfold finishMessage at built
  split at built
  · rename_i code found
    left
    refine ⟨code, List.mem_of_find?_eq_some found, ?_, (Option.some.inj built).symm⟩
    simpa using List.find?_some found
  · right
    split at built
    · split at built
      · rename_i length _ short
        exact ⟨length, short, rfl, (Option.some.inj built).symm⟩
      · cases built
    · cases built

theorem finishMessage_noted {length : Nat} (short : length < 2 ^ 31) :
    finishMessage (schemaMessage (.noted length)) = some (9 :: List.replicate length 0x78) := by
  have absent : codes.find? (fun code => code.2 = schemaMessage (.noted length)) = none := by
    simp [codes, schemaMessage]
  unfold finishMessage
  rw [absent]
  exact if_pos short

theorem rootAsMessage_finish (padding : Nat) (built : finishMessage message = some bytes) :
    rootAsMessage (bytes ++ List.replicate padding 0) = .ok message := by
  rcases finishMessage_some built with ⟨code, member, rfl, rfl⟩ | ⟨length, _, rfl, rfl⟩
  · obtain ⟨named, found⟩ := codes_distinct code member
    simp [rootAsMessage, if_neg named, found]
  · simp [rootAsMessage]

theorem library_lawful : library.Lawful where
  root_finish _ _ padding built := rootAsMessage_finish padding built
  utf8_range bytes start stop text failed := by
    simp only [library, rootAsMessage] at failed
    split at failed
    · cases failed
    · split_ifs at failed
      split at failed <;> cases failed
  finish_size message bytes built := by
    rcases finishMessage_some built with ⟨code, _, _, rfl⟩ | ⟨length, short, _, rfl⟩
    · exact ⟨Nat.zero_lt_one, Nat.one_le_two_pow⟩
    · simp only [List.length_cons, List.length_replicate]
      omega
  body_length message bytes built := by
    rcases finishMessage_some built with ⟨code, member, rfl, _⟩ | ⟨length, _, rfl, _⟩
    · exact codes_small code member
    · exact Int.pow_pos (by decide)
  schema_encoded schema tracker encoded tracker' opened := by
    simp only [library, Option.bind_eq_bind, Option.bind_eq_some_iff, Option.pure_def] at opened
    obtain ⟨kind, known, bytes, built, same⟩ := opened
    cases same
    refine ⟨rfl, kind, built, rfl, ?_⟩
    rw [schema_of_kindOf known]
    rfl
  encode_decodes schema tracker known batch dictionaries data tracker' _ same encodes := by
    subst same
    cases batch with
    | row =>
      cases encodes
      refine ⟨known, rowTable, .nil known, ⟨rfl, rfl, ?_, rfl, rfl, rfl⟩, rfl⟩
      intro buffers present span member
      cases present
      cases member
    | blob value => cases encodes
    | nested =>
      cases encodes
      refine ⟨true, nestedTable, ?_, ⟨rfl, rfl, ?_, rfl, rfl, rfl⟩, rfl⟩
      · have message : library.EncodesDictionary ⟨[7], []⟩ valuesTable := ⟨rfl, rfl, ?_⟩
        · exact ArrowIpc.Replays.cons message rfl (ArrowIpc.Replays.nil (A := library) true)
        intro table present buffers some span member
        cases present
        cases some
        cases member
      · intro buffers present span member
        cases present
        cases member
  large_binary schema known batch table body value same rows columns single _ row := by
    subst same
    cases batch with
    | row => cases single
    | nested => cases single
    | blob stored =>
      cases single
      obtain ⟨_, _, values, _, buffers, _, _, _, slice⟩ := row.layout
      simp [library, readRecordBatch, Batch.kind, kindOf_schema, buffers, slice]

end VgiRpc.Arrow.Sample
