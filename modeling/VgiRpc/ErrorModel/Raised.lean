import VgiRpc.Envelope
import VgiRpc.ErrorModel.Detail

/-!
# The error model on the wire

An error carries a code, a kind and details beside its type and its message.  The server
writes all of them into the metadata of an EXCEPTION and mirrors them in its extra, and
the client reads each from its own key, or from the mirror when the key is absent.
-/

namespace VgiRpc.ErrorModel

open Library (Json)
open Metadata

inductive Code where
  | cancelled
  | unknown
  | invalidArgument
  | deadlineExceeded
  | notFound
  | alreadyExists
  | permissionDenied
  | resourceExhausted
  | failedPrecondition
  | aborted
  | outOfRange
  | unimplemented
  | internal
  | unavailable
  | dataLoss
  | unauthenticated
  deriving DecidableEq

def Code.asStr : Code → String
  | .cancelled => "CANCELLED"
  | .unknown => "UNKNOWN"
  | .invalidArgument => "INVALID_ARGUMENT"
  | .deadlineExceeded => "DEADLINE_EXCEEDED"
  | .notFound => "NOT_FOUND"
  | .alreadyExists => "ALREADY_EXISTS"
  | .permissionDenied => "PERMISSION_DENIED"
  | .resourceExhausted => "RESOURCE_EXHAUSTED"
  | .failedPrecondition => "FAILED_PRECONDITION"
  | .aborted => "ABORTED"
  | .outOfRange => "OUT_OF_RANGE"
  | .unimplemented => "UNIMPLEMENTED"
  | .internal => "INTERNAL"
  | .unavailable => "UNAVAILABLE"
  | .dataLoss => "DATA_LOSS"
  | .unauthenticated => "UNAUTHENTICATED"

/-- An error with all that travels.  The code is the empty text when none was set, and the
details are values that JSON can hold. -/
structure RaisedError extends RpcError where
  traceback : String
  requestId : String
  retryAfterSeconds : Option UInt32
  errorKind : Option String
  errorCode : String
  errorDetails : List Json
  wellFormed : ∀ detail ∈ errorDetails, detail.WellFormed

def RaisedError.withCode (error : RaisedError) (code : Code) : RaisedError :=
  { error with errorCode := code.asStr }

def reservedDetailPrefix : String := "vgi_rpc."

def typeOf (detail : Json) : Option String :=
  (detail.asObject.bind fun entries => entries.lookup "@type").bind Json.asStr

/-- The rules of the catalog, for what follows the types that were seen. -/
def validateFrom : List String → List Json → Except String Unit
  | _, [] => .ok ()
  | seen, detail :: rest =>
    if !detail.isObject then .error "every error detail must be a JSON object"
    else
      match (typeOf detail).filter fun type => !type.isEmpty with
      | none => .error "every error detail must name its type in '@type'"
      | some type =>
        if type ∈ seen then
          .error ("error detail type " ++ type.quote ++ " appears more than once")
        else if reservedDetailPrefix.toList.isPrefixOf type.toList && !catalogTypes.contains type
        then
          .error (type.quote ++ " claims the reserved 'vgi_rpc.' prefix but is not in the catalog")
        else if !type.toList.contains '.' then
          .error (type.quote ++
            " is not qualified; protocol-defined types live under the protocol's name")
        else validateFrom (type :: seen) rest

def validateErrorDetails (details : List Json) : Except String Unit := validateFrom [] details

def maxErrorDetailsBytes : Nat := 4096

section

variable (codec : Json.Codec) (details : List Json)

/-- The details obey the catalog rules and the size cap. -/
def Carried : Prop :=
  validateErrorDetails details = .ok () ∧
    (codec.print (.array details)).utf8ByteSize ≤ maxErrorDetailsBytes

/-- The details as a text, all of them or none. -/
def encodeErrorDetails : Option String :=
  if details.isEmpty then none
  else
    match validateErrorDetails details with
    | .error _ => none
    | .ok () =>
      if (codec.print (.array details)).utf8ByteSize > maxErrorDetailsBytes then none
      else some (codec.print (.array details))

def objectsOf : Option Json → List Json
  | some (.array items) => items.filter Json.isObject
  | _ => []

def decodeErrorDetails (raw : String) : List Json := objectsOf (codec.parse raw)

namespace RaisedError

variable (error : RaisedError)

def wireCode : String :=
  if error.errorCode = "" then Code.unknown.asStr else error.errorCode

theorem seconds_fit (seconds : UInt32) : (seconds.toNat : ℤ).natAbs ≤ 2 ^ 64 := by
  have := seconds.toNat_lt
  omega

/-- The details, with a `RetryInfo` for the retry hint unless there is one. -/
def wireDetails : List Json :=
  match error.retryAfterSeconds with
  | none => error.errorDetails
  | some seconds =>
    if error.errorDetails.any fun detail => typeOf detail = some retryInfoType then
      error.errorDetails
    else
      error.errorDetails ++
        [(ErrorDetail.retryInfo (.ofInt seconds.toNat (seconds_fit seconds))).toJson]

def tracebackText (origin : String) : String :=
  if !error.traceback.isEmpty then error.traceback
  else if origin.isEmpty then error.errorType ++ ": " ++ error.message
  else error.errorType ++ ": " ++ error.message ++ "\n  raised by " ++ origin

variable (tracebacks : Option String)

def extra : Entries :=
  [("exception_type", .string error.errorType), ("exception_message", .string error.message),
      ("error_code", .string error.wireCode)] ++
    error.errorKind.toList.map (fun kind => ("error_kind", .string kind)) ++
    (encodeErrorDetails codec error.wireDetails).toList.map
      (fun _ => ("error_details", .array error.wireDetails)) ++
    tracebacks.toList.map fun origin => ("traceback", .string (error.tracebackText origin))

def values : EnvelopeValues where
  level := "EXCEPTION"
  message := error.message
  extra := some (codec.print (.object (error.extra codec tracebacks)))
  errorCode := some error.wireCode
  errorKind := error.errorKind
  errorDetails := encodeErrorDetails codec error.wireDetails

end RaisedError

section

variable (render : Rendering)

/-- The next envelope of a call: for a log message, or for an error with all its layers. -/
def nextEnvelope (envelope : EnvelopeMeta) : LogMessage ⊕ RaisedError → EnvelopeMeta
  | .inl message => envelope.log render message
  | .inr error => envelope.fill (error.values codec envelope.tracebacks)

theorem history_fill (history : List (LogMessage ⊕ RaisedError)) (envelope : EnvelopeMeta) :
    (history.foldl (nextEnvelope codec render) envelope).tracebacks = envelope.tracebacks ∧
      ∀ values key, mdGet ((history.foldl (nextEnvelope codec render) envelope).fill values).map key =
        mdGet (envelope.fill values).map key := by
  induction history generalizing envelope with
  | nil => exact ⟨rfl, fun _ _ => rfl⟩
  | cons first rest ih =>
    obtain ⟨tracebacks, filled⟩ := ih (nextEnvelope codec render envelope first)
    cases first <;>
      exact ⟨tracebacks, fun values key =>
        (filled values key).trans (envelope.mdGet_fill_fill _ values key)⟩

/-- Whatever a call has logged and reported before, its next envelope is that of a builder
made for it. -/
theorem envelope_reuse (serverId requestId : String) (tracebacks : Option String)
    (history : List (LogMessage ⊕ RaisedError)) (next : LogMessage ⊕ RaisedError) (key : String) :
    mdGet (nextEnvelope codec render (history.foldl (nextEnvelope codec render)
        (.new serverId requestId tracebacks)) next).map key =
      mdGet (nextEnvelope codec render (.new serverId requestId tracebacks) next).map key := by
  obtain ⟨same, filled⟩ := history_fill codec render history (.new serverId requestId tracebacks)
  cases next with
  | inl message => exact filled (message.values render) key
  | inr error =>
    rw [nextEnvelope, same]
    exact filled (error.values codec _) key

end

section

variable (metadata : Metadata)

def extraOf : Option Entries := ((mdGet metadata logExtraKey).bind codec.parse).bind Json.asObject

def extraText (key : String) : Option String :=
  ((extraOf codec metadata).bind fun entries => entries.lookup key).bind Json.asStr

def decodedDetails : List Json :=
  match mdGet metadata errorDetailsKey with
  | some raw => decodeErrorDetails codec raw
  | none => objectsOf ((extraOf codec metadata).bind fun entries => entries.lookup "error_details")

theorem wellFormed_objectsOf {value : Option Json}
    (wellFormed : ∀ json, value = some json → json.WellFormed) :
    ∀ detail ∈ objectsOf value, detail.WellFormed := by
  intro detail member
  unfold objectsOf at member
  split at member
  · exact (wellFormed _ rfl).of_mem (List.mem_of_mem_filter member)
  · cases member

theorem wellFormed_extraOf {entries : Entries} (read : extraOf codec metadata = some entries) :
    (Json.object entries).WellFormed := by
  obtain ⟨json, parsed, object⟩ := Option.bind_eq_some_iff.mp read
  obtain ⟨text, -, parsed⟩ := Option.bind_eq_some_iff.mp parsed
  cases json <;> cases object
  exact codec.parse_wellFormed parsed

theorem wellFormed_decodedDetails :
    ∀ detail ∈ decodedDetails codec metadata, detail.WellFormed := by
  unfold decodedDetails
  split
  · exact wellFormed_objectsOf fun _ => codec.parse_wellFormed
  · refine wellFormed_objectsOf fun json found => ?_
    obtain ⟨entries, read, found⟩ := Option.bind_eq_some_iff.mp found
    exact (wellFormed_extraOf codec metadata read).of_lookup found

def nonEmpty (text : String) : Option String := if text.isEmpty then none else some text

def decodeException : RaisedError where
  errorType := (extraText codec metadata "exception_type").getD "Exception"
  message := (mdGet metadata logMessageKey).getD ""
  traceback := (extraText codec metadata "traceback").getD ""
  requestId := (mdGet metadata requestIdKey).getD ""
  retryAfterSeconds := none
  errorKind :=
    nonEmpty ((mdGet metadata errorKindKey).getD ((extraText codec metadata "error_kind").getD ""))
  errorCode :=
    (mdGet metadata errorCodeKey).getD ((extraText codec metadata "error_code").getD "")
  errorDetails := decodedDetails codec metadata
  wellFormed := wellFormed_decodedDetails codec metadata

end
end
end VgiRpc.ErrorModel
