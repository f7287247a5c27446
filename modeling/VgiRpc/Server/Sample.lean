import VgiRpc.Server.Call

/-!
# A sample server

A batch library whose batches are a schema and a number of rows, and a server on it
that encodes every batch.  Nothing here reads bytes: the readers of the library refuse
everything.
-/

namespace VgiRpc.Server.Sample

open Arrow

def tables : ArrowIpc where
  Batch := Schema × Nat
  Dictionaries := Unit
  Tracker := Unit
  SchemaTable := Unit
  schemaOf := Prod.fst
  sameSchema left right := left == right
  numRows := Prod.snd
  numColumns batch := batch.1.fields.length
  largeBinaryValue _ := none
  rootAsMessage _ := .error (.other "unreadable")
  finishMessage _ := some [0]
  newTracker := ()
  schemaToBytes _ _ := some (⟨[0], []⟩, ())
  encode _ _ := (.ok ([], ⟨[0], []⟩), ())
  hasFields _ := true
  fbToSchema _ := .error .panicked
  noDictionaries := ()
  readDictionary _ _ _ _ _ := .error .panicked
  readRecordBatch _ _ _ _ _ := .error .panicked

def render : Rendering where
  object _ := "object"
  wireCode _ := "UNKNOWN"
  errorKind _ := none
  errorDetails _ := none
  traceback _ := ""

def engine : Engine tables where
  emptyBatch schema := .ok (schema, 0)
  emptyBatch_rows := by rintro schema batch ⟨⟩; rfl
  memorySize _ := 0
  readFirst _ := .ok none
  shmMinBatchBytes := 131072
  Tracker := Unit
  opens _ := .ok ()
  writes _ _ _ := .ok ()
  castColumns batch schema := .ok (schema, batch.2)
  externalize _ _ _ := .ok none
  render := render

def json : JsonReader := fun _ => none

def envelope : EnvelopeMeta := .new "server" "request" none

/-- A stream state that counts its turns and does nothing else. -/
def counting : StreamState tables Nat where
  produce count _ out := ⟨[], out, count + 1, .returned (.ok ())⟩
  exchange count _ _ out := ⟨[], out, count + 1, .returned (.ok ())⟩
  onCancel _ _ := ([], .returned (.ok ()))

def rows : StreamState tables Nat where
  produce count _ out :=
    match out.emit (fun _ => "fields") (out.schema, 1) with
    | .ok emitted => ⟨[], emitted, count + 1, .returned (.ok ())⟩
    | .error error => ⟨[], out, count, .returned (.error error)⟩
  exchange count _ _ out := ⟨[], out, count + 1, .returned (.ok ())⟩
  onCancel _ _ := ([], .returned (.ok ()))

def producer (methods : StreamState tables Nat) : StreamCall tables Nat where
  resultSchema := .empty
  logs := []
  init := .returned (.ok (.producer .empty 0))
  methods := methods

end VgiRpc.Server.Sample
