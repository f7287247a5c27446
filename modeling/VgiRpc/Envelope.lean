import VgiRpc.Errors
import VgiRpc.Metadata

/-!
# Response envelopes

A response stream carries logs and errors between its data batches, as batches
without rows whose metadata says what they are.  `EnvelopeMeta` is the server's
writing of that metadata, into one map for the whole call, and `classify` the
client's reading of a frame; the JSON behind both is a parameter.
-/

namespace VgiRpc

open Metadata

inductive LogLevel where
  | trace
  | debug
  | info
  | warn
  | error
  | exception
  deriving DecidableEq, Repr

structure LogMessage where
  level : LogLevel
  message : String
  extras : List (String × String)
  deriving DecidableEq, Repr

def LogLevel.asStr : LogLevel → String
  | .trace => "TRACE"
  | .debug => "DEBUG"
  | .info => "INFO"
  | .warn => "WARN"
  | .error => "ERROR"
  | .exception => "EXCEPTION"

theorem LogLevel.asStr_eq_exception {level : LogLevel} :
    level.asStr = "EXCEPTION" ↔ level = .exception := by
  cases level <;> decide

/-- The level a text names; an unknown one is an ordinary message. -/
def parseLevel (text : String) : LogLevel :=
  if text = "TRACE" then .trace
  else if text = "DEBUG" then .debug
  else if text = "INFO" then .info
  else if text = "WARN" then .warn
  else if text = "ERROR" then .error
  else if text = "EXCEPTION" then .exception
  else .info

/-- A value of a JSON object: a string, or the text of anything else. -/
inductive JsonValue where
  | string (value : String)
  | other (text : String)
  deriving DecidableEq, Repr

def JsonValue.text : JsonValue → String
  | .string value => value
  | .other text => text

abbrev JsonReader := String → Option (List (String × JsonValue))

inductive BatchKind where
  | data
  | pointer
  | log (message : LogMessage)
  | exception (error : RpcError)

section

variable (json : JsonReader) (extra : Option String)

def parseExceptionExtra : String :=
  match (extra.bind json).bind fun entries => entries.lookup "exception_type" with
  | some (.string errorType) => errorType
  | _ => "Exception"

def logExtras : List (String × String) :=
  ((extra.bind json).getD []).map fun entry => (entry.1, entry.2.text)

/-- A pointer is tested for first, since it has no rows either. -/
def classify (numRows : Nat) (metadata : Metadata) : BatchKind :=
  if (mdGet metadata locationKey).isSome then .pointer
  else if numRows ≠ 0 then .data
  else
    match mdGet metadata logLevelKey with
    | none => .data
    | some level =>
      let message := (mdGet metadata logMessageKey).getD ""
      if level = "EXCEPTION" then
        .exception ⟨parseExceptionExtra json (mdGet metadata logExtraKey), message⟩
      else .log ⟨parseLevel level, message, logExtras json (mdGet metadata logExtraKey)⟩

end

/-- The error model and the JSON writer the envelopes are built with. -/
structure Rendering where
  object : List (String × JsonValue) → String
  wireCode : RpcError → String
  errorKind : RpcError → Option String
  /-- The details as JSON text, where they obey the catalog rules and the size cap. -/
  errorDetails : RpcError → Option String
  /-- The traceback a handler attached, or the empty text. -/
  traceback : RpcError → String

variable (render : Rendering)

def LogMessage.extrasJson (message : LogMessage) : String :=
  render.object (message.extras.map fun entry => (entry.1, .string entry.2))

/-- The traceback of an error: its own, or one made from the error and its origin. -/
def tracebackText (error : RpcError) (origin : String) : String :=
  if !(render.traceback error).isEmpty then render.traceback error
  else if origin.isEmpty then error.errorType ++ ": " ++ error.message
  else error.errorType ++ ": " ++ error.message ++ "\n  raised by " ++ origin

variable (tracebacks : Option String)

def errorExtra (error : RpcError) : List (String × JsonValue) :=
  [("exception_type", .string error.errorType), ("exception_message", .string error.message),
      ("error_code", .string (render.wireCode error))] ++
    (render.errorKind error).toList.map (fun kind => ("error_kind", .string kind)) ++
    (render.errorDetails error).toList.map (fun details => ("error_details", .other details)) ++
    tracebacks.toList.map fun origin => ("traceback", .string (tracebackText render error origin))

/-- The metadata builder of a call.  Its map is allocated on first use and reused by
every later envelope; it never holds a location, so no envelope is a pointer. -/
structure EnvelopeMeta where
  serverId : String
  requestId : String
  tracebacks : Option String
  md : Option Metadata
  unlocated : ∀ entries, md = some entries → mdGet entries locationKey = none

/-- The values of one envelope: level, message and extra, and the three layers of the
error model. -/
structure EnvelopeValues where
  level : String
  message : String
  extra : Option String
  errorCode : Option String
  errorKind : Option String
  errorDetails : Option String

/-- A log is not an error: none of the error model rides on it. -/
def LogMessage.values (message : LogMessage) : EnvelopeValues where
  level := message.level.asStr
  message := message.message
  extra := if message.extras.isEmpty then none else some (message.extrasJson render)
  errorCode := none
  errorKind := none
  errorDetails := none

def RpcError.values (error : RpcError) : EnvelopeValues where
  level := "EXCEPTION"
  message := error.message
  extra := some (render.object (errorExtra render tracebacks error))
  errorCode := some (render.wireCode error)
  errorKind := render.errorKind error
  errorDetails := render.errorDetails error

namespace EnvelopeMeta

def new (serverId requestId : String) (tracebacks : Option String) : EnvelopeMeta where
  serverId := serverId
  requestId := requestId
  tracebacks := tracebacks
  md := none
  unlocated := by rintro entries ⟨⟩

variable (entries : Metadata)

def insertNonEmpty (key text : String) : Metadata :=
  if text.isEmpty then entries else entries.insert key text

variable (envelope : EnvelopeMeta)

/-- The map, with the two stable entries when it is new. -/
def map : Metadata :=
  envelope.md.getD
    (insertNonEmpty (insertNonEmpty .empty serverIdKey envelope.serverId) requestIdKey
      envelope.requestId)

/-- Set a value, or clear the one an earlier envelope left. -/
def setOrClear (key : String) (value : Option String) : Metadata :=
  match value with
  | some text => entries.insert key text
  | none => entries.remove key

theorem mdGet_insertNonEmpty {entries : Metadata} {key text other : String} (apart : other ≠ key) :
    mdGet (insertNonEmpty entries key text) other = mdGet entries other := by
  unfold insertNonEmpty
  split
  · rfl
  · rw [mdGet, mdGet, Library.OrderedMap.get?_insert, if_neg apart]

theorem mdGet_setOrClear (key other : String) (value : Option String) :
    mdGet (setOrClear entries key value) other =
      if other = key then value else mdGet entries other := by
  unfold setOrClear mdGet
  split
  · exact Library.OrderedMap.get?_insert ..
  · exact Library.OrderedMap.get?_remove ..

theorem mdGet_map_location : mdGet envelope.map locationKey = none := by
  unfold map
  cases held : envelope.md with
  | some entries => exact envelope.unlocated entries held
  | none =>
    rw [Option.getD_none, mdGet_insertNonEmpty (by decide), mdGet_insertNonEmpty (by decide)]
    rfl

variable (values : EnvelopeValues)

def fillEntries : Metadata :=
  setOrClear (setOrClear (setOrClear (setOrClear (setOrClear (setOrClear entries
    logLevelKey (some values.level)) logMessageKey (some values.message))
    logExtraKey values.extra) errorCodeKey values.errorCode) errorKindKey values.errorKind)
    errorDetailsKey values.errorDetails

theorem mdGet_fillEntries : mdGet (fillEntries entries values) logLevelKey = some values.level ∧
      mdGet (fillEntries entries values) logMessageKey = some values.message ∧
      mdGet (fillEntries entries values) logExtraKey = values.extra ∧
      mdGet (fillEntries entries values) locationKey = mdGet entries locationKey := by
  refine ⟨?_, ?_, ?_, ?_⟩ <;> simp only [fillEntries, mdGet_setOrClear] <;> rfl

theorem mdGet_fillEntries_model :
    mdGet (fillEntries entries values) errorCodeKey = values.errorCode ∧
      mdGet (fillEntries entries values) errorKindKey = values.errorKind ∧
      mdGet (fillEntries entries values) errorDetailsKey = values.errorDetails := by
  refine ⟨?_, ?_, ?_⟩ <;> simp only [fillEntries, mdGet_setOrClear] <;> rfl

def fill : EnvelopeMeta :=
  { envelope with
    md := some (fillEntries envelope.map values)
    unlocated := by
      rintro entries ⟨⟩
      rw [(mdGet_fillEntries envelope.map values).2.2.2, mdGet_map_location] }

/-- An envelope overwrites or clears all that the one before it wrote. -/
theorem mdGet_fill_fill (later : EnvelopeValues) (key : String) :
    mdGet ((envelope.fill values).fill later).map key = mdGet (envelope.fill later).map key := by
  show mdGet (fillEntries (fillEntries envelope.map values) later) key =
    mdGet (fillEntries envelope.map later) key
  simp only [fillEntries, mdGet_setOrClear]
  split_ifs <;> rfl

variable (render : Rendering) (envelope : EnvelopeMeta)

def log (message : LogMessage) : EnvelopeMeta :=
  envelope.fill (message.values render)

def error (error : RpcError) : EnvelopeMeta :=
  envelope.fill (error.values render envelope.tracebacks)

end EnvelopeMeta

/-- The metadata of a plain answer.  The map of a new builder is not allocated yet, so
neither of the two entries is in it. -/
def buildEnvelopeMetadata (serverId requestId : String) : Metadata :=
  (EnvelopeMeta.new serverId requestId none).md.getD .empty

section

variable (json : JsonReader)

/-- The reading of a batch without rows that carries these values. -/
def EnvelopeValues.kind (values : EnvelopeValues) : BatchKind :=
  if values.level = "EXCEPTION" then
    .exception ⟨parseExceptionExtra json values.extra, values.message⟩
  else .log ⟨parseLevel values.level, values.message, logExtras json values.extra⟩

/-- Nothing of an envelope survives in the reading of a later one. -/
theorem classify_fill (envelope : EnvelopeMeta) (values : EnvelopeValues) :
    classify json 0 (envelope.fill values).map = values.kind json := by
  obtain ⟨level, message, extra, location⟩ :=
    EnvelopeMeta.mdGet_fillEntries envelope.map values
  have filled : (envelope.fill values).map = EnvelopeMeta.fillEntries envelope.map values := rfl
  rw [EnvelopeMeta.mdGet_map_location] at location
  simp only [classify, filled, level, message, extra, location, EnvelopeValues.kind]
  rfl

end
end VgiRpc
