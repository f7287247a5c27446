import VgiRpc.Library.Json
import VgiRpc.Library.OrderedMap

/-!
# Error details

The catalog of typed details and their JSON form.  Decoding is tolerant: an unknown type
and a malformed known one are absent, and a text that is absent reads as empty.
-/

namespace VgiRpc.ErrorModel

open Library (Float64 Json OrderedMap)

structure FieldViolation where
  field : String
  description : String

structure PreconditionViolation where
  type : String
  subject : String
  description : String

structure QuotaViolation where
  subject : String
  description : String

structure HelpLink where
  description : String
  url : String

/-- A member of the catalog. -/
inductive ErrorDetail where
  | errorInfo (metadata : OrderedMap String String)
  | retryInfo (retryDelaySeconds : Float64)
  | badRequest (fieldViolations : List FieldViolation)
  | preconditionFailure (violations : List PreconditionViolation)
  | quotaFailure (violations : List QuotaViolation)
  | resourceInfo (resourceType resourceName owner description : String)
  | help (links : List HelpLink)
  | localizedMessage (locale message : String)

def errorInfoType : String := "vgi_rpc.ErrorInfo"
def retryInfoType : String := "vgi_rpc.RetryInfo"
def badRequestType : String := "vgi_rpc.BadRequest"
def preconditionFailureType : String := "vgi_rpc.PreconditionFailure"
def quotaFailureType : String := "vgi_rpc.QuotaFailure"
def resourceInfoType : String := "vgi_rpc.ResourceInfo"
def helpType : String := "vgi_rpc.Help"
def localizedMessageType : String := "vgi_rpc.LocalizedMessage"

def catalogTypes : List String :=
  [errorInfoType, retryInfoType, badRequestType, preconditionFailureType, quotaFailureType,
    resourceInfoType, helpType, localizedMessageType]

abbrev Entries := List (String × Json)

variable (delay : Float64)

/-- A whole number of seconds travels as an integer. -/
def delayJson : Json :=
  if delay.isFinite && delay.isWhole && delay.absBelow (9000000000000000 : ℕ) then
    .number (.integer delay.toI64 delay.toI64_fits)
  else .ofFloat64 delay

def FieldViolation.entries (violation : FieldViolation) : Entries :=
  [("field", .string violation.field), ("description", .string violation.description)]

def PreconditionViolation.entries (violation : PreconditionViolation) : Entries :=
  [("type", .string violation.type), ("subject", .string violation.subject),
    ("description", .string violation.description)]

def QuotaViolation.entries (violation : QuotaViolation) : Entries :=
  [("subject", .string violation.subject), ("description", .string violation.description)]

def HelpLink.entries (link : HelpLink) : Entries :=
  [("description", .string link.description), ("url", .string link.url)]

def objectArray {α : Type} (write : α → Entries) (values : List α) : Json :=
  .array (values.map fun value => .object (write value))

namespace ErrorDetail

def typeName : ErrorDetail → String
  | .errorInfo _ => errorInfoType
  | .retryInfo _ => retryInfoType
  | .badRequest _ => badRequestType
  | .preconditionFailure _ => preconditionFailureType
  | .quotaFailure _ => quotaFailureType
  | .resourceInfo _ _ _ _ => resourceInfoType
  | .help _ => helpType
  | .localizedMessage _ _ => localizedMessageType

def fields : ErrorDetail → Entries
  | .errorInfo metadata =>
    [("metadata", .object (metadata.entries.map fun entry => (entry.1, .string entry.2)))]
  | .retryInfo delay => [("retry_delay_seconds", delayJson delay)]
  | .badRequest violations => [("field_violations", objectArray FieldViolation.entries violations)]
  | .preconditionFailure violations =>
    [("violations", objectArray PreconditionViolation.entries violations)]
  | .quotaFailure violations => [("violations", objectArray QuotaViolation.entries violations)]
  | .resourceInfo resourceType resourceName owner description =>
    [("resource_type", .string resourceType), ("resource_name", .string resourceName),
      ("owner", .string owner), ("description", .string description)]
  | .help links => [("links", objectArray HelpLink.entries links)]
  | .localizedMessage locale message => [("locale", .string locale), ("message", .string message)]

def toJson (detail : ErrorDetail) : Json :=
  .object (("@type", .string detail.typeName) :: detail.fields)

end ErrorDetail

variable (entries : Entries) (key : String)

/-- A text field: absent it is empty, and anything but a text is malformed. -/
def string : Option String :=
  match entries.lookup key with
  | none => some ""
  | some (.string value) => some value
  | some _ => none

def objects : Option (List Entries) :=
  match entries.lookup key with
  | none => some []
  | some (.array items) => items.mapM Json.asObject
  | some _ => none

def records {α : Type} (read : Entries → Option α) (entries : Entries) (key : String) :
    Option (List α) :=
  (objects entries key).bind fun found => found.mapM read

def FieldViolation.read : Option FieldViolation := do
  return ⟨← string entries "field", ← string entries "description"⟩

def PreconditionViolation.read : Option PreconditionViolation := do
  return ⟨← string entries "type", ← string entries "subject", ← string entries "description"⟩

def QuotaViolation.read : Option QuotaViolation := do
  return ⟨← string entries "subject", ← string entries "description"⟩

def HelpLink.read : Option HelpLink := do
  return ⟨← string entries "description", ← string entries "url"⟩

def textEntry (entry : String × Json) : Option (String × String) :=
  entry.2.asStr.map fun text => (entry.1, text)

/-- The context of an `ErrorInfo`, whose values are all texts. -/
def readContext : Option (OrderedMap String String) :=
  match entries.lookup "metadata" with
  | none => some .empty
  | some (.object context) =>
    (context.mapM textEntry).map OrderedMap.ofEntries
  | some _ => none

/-- The delay of a `RetryInfo`, a number that is finite and not negative. -/
def readDelay : Option Float64 :=
  (entries.lookup "retry_delay_seconds").bind fun delay =>
    if delay.isBoolean then none
    else delay.asF64.filter fun value => value.isFinite && !value.isNegative

namespace ErrorDetail

def readAs (type : String) (entries : Entries) : Option ErrorDetail :=
  if type = errorInfoType then (readContext entries).map .errorInfo
  else if type = retryInfoType then (readDelay entries).map .retryInfo
  else if type = badRequestType then
    (records FieldViolation.read entries "field_violations").map .badRequest
  else if type = preconditionFailureType then
    (records PreconditionViolation.read entries "violations").map .preconditionFailure
  else if type = quotaFailureType then
    (records QuotaViolation.read entries "violations").map .quotaFailure
  else if type = resourceInfoType then do
    return .resourceInfo (← string entries "resource_type") (← string entries "resource_name")
      (← string entries "owner") (← string entries "description")
  else if type = helpType then (records HelpLink.read entries "links").map .help
  else if type = localizedMessageType then do
    return .localizedMessage (← string entries "locale") (← string entries "message")
  else none

def fromJson (value : Json) : Option ErrorDetail := do
  let entries ← value.asObject
  let type ← (← entries.lookup "@type").asStr
  readAs type entries

/-- Equality of details, where delays are compared as doubles. -/
def same : ErrorDetail → ErrorDetail → Prop
  | .retryInfo delay, .retryInfo other => delay.eq other = true
  | detail, other => detail = other

/-- The delay, if the detail has one, is finite and not negative. -/
def decodable : ErrorDetail → Bool
  | .retryInfo delay => delay.isFinite && !delay.isNegative
  | _ => true

end ErrorDetail

theorem mapM_map_some {α β : Type} {write : α → β} {read : β → Option α}
    (reads : ∀ value, read (write value) = some value) (values : List α) :
    (values.map write).mapM read = some values := by
  induction values with
  | nil => rfl
  | cons value rest ih =>
    rw [List.map_cons, List.mapM_cons, reads, ih]
    rfl

variable {entries : Entries}

theorem records_objectArray {α : Type} {write : α → Entries} {read : Entries → Option α}
    (reads : ∀ value, read (write value) = some value) {key : String} {values : List α}
    (found : entries.lookup key = some (objectArray write values)) :
    records read entries key = some values := by
  have written : objects entries key = some (values.map write) := by
    unfold objects
    rw [found]
    show (values.map fun value => Json.object (write value)).mapM Json.asObject = _
    have split : (values.map fun value => Json.object (write value)) =
        (values.map write).map Json.object := by rw [List.map_map]; rfl
    rw [split]
    exact mapM_map_some Json.asObject_object _
  rw [records, written, Option.bind_some]
  exact mapM_map_some reads values

theorem textEntry_string (entry : String × String) :
    textEntry (entry.1, .string entry.2) = some entry := rfl

theorem readContext_written {metadata : OrderedMap String String} (found : entries.lookup "metadata"
    = some (.object (metadata.entries.map fun entry => (entry.1, .string entry.2)))) :
    readContext entries = some metadata := by
  unfold readContext
  rw [found]
  have texts : (metadata.entries.map fun entry => (entry.1, Json.string entry.2)).mapM textEntry =
      some metadata.entries := mapM_map_some textEntry_string _
  dsimp only
  rw [texts, Option.map_some, OrderedMap.ofEntries_entries]

theorem FieldViolation.read_entries (violation : FieldViolation) :
    read violation.entries = some violation := rfl

theorem PreconditionViolation.read_entries (violation : PreconditionViolation) :
    read violation.entries = some violation := rfl

theorem QuotaViolation.read_entries (violation : QuotaViolation) :
    read violation.entries = some violation := rfl

theorem HelpLink.read_entries (link : HelpLink) : read link.entries = some link := rfl

theorem asF64_delayJson :
    (delayJson delay).asF64 = if delay.isFinite then some delay.unsignZero else none := by
  unfold delayJson
  cases finite : delay.isFinite with
  | false => simp [Json.ofFloat64, finite, Json.asF64]
  | true =>
    have inexact (kept : delay.unsignZero = delay) :
        (Json.ofFloat64 delay).asF64 = some delay.unsignZero := by
      rw [kept, Json.ofFloat64, dif_pos finite]
      rfl
    rw [Bool.true_and, if_pos rfl]
    cases whole : delay.isWhole with
    | false => exact inexact (Float64.unsignZero_of_not_isWhole whole)
    | true =>
      cases below : delay.absBelow (9000000000000000 : ℕ) with
      | false => exact inexact (Float64.unsignZero_of_not_absBelow (by norm_num) below)
      | true => exact congrArg some (Float64.ofInt_toI64 (by decide) whole below
          (Library.natAbs_le_of_fits delay.toI64_fits))

theorem isBoolean_delayJson : (delayJson delay).isBoolean = false := by
  unfold delayJson Json.ofFloat64
  split
  · rfl
  · split <;> rfl

theorem readDelay_written {delay : Float64}
    (found : entries.lookup "retry_delay_seconds" = some (delayJson delay)) :
    readDelay entries =
      if delay.isFinite && !delay.isNegative then some delay.unsignZero else none := by
  rw [readDelay, found, Option.bind_some, isBoolean_delayJson, if_neg nofun, asF64_delayJson]
  cases finite : delay.isFinite with
  | false => rfl
  | true =>
    rw [if_pos rfl, Option.filter_some, Float64.isFinite_unsignZero,
      Float64.isNegative_unsignZero, finite]

namespace ErrorDetail

def unsignZero : ErrorDetail → ErrorDetail
  | .retryInfo delay => .retryInfo delay.unsignZero
  | detail => detail

variable (detail : ErrorDetail)

/-- A detail is read back unless its delay is negative or not finite. -/
theorem fromJson_toJson :
    fromJson detail.toJson = if detail.decodable then some detail.unsignZero else none := by
  cases detail with
  | errorInfo metadata =>
    show (readContext _).map errorInfo = _
    rw [readContext_written rfl]
    rfl
  | retryInfo delay =>
    show (readDelay _).map retryInfo = _
    rw [readDelay_written rfl]
    rw [decodable]
    cases delay.isFinite && !delay.isNegative <;> rfl
  | badRequest violations =>
    show (records FieldViolation.read _ "field_violations").map badRequest = _
    rw [records_objectArray FieldViolation.read_entries rfl]
    rfl
  | preconditionFailure violations =>
    show (records PreconditionViolation.read _ "violations").map preconditionFailure = _
    rw [records_objectArray PreconditionViolation.read_entries rfl]
    rfl
  | quotaFailure violations =>
    show (records QuotaViolation.read _ "violations").map quotaFailure = _
    rw [records_objectArray QuotaViolation.read_entries rfl]
    rfl
  | resourceInfo resourceType resourceName owner description => rfl
  | help links =>
    show (records HelpLink.read _ "links").map help = _
    rw [records_objectArray HelpLink.read_entries rfl]
    rfl
  | localizedMessage locale message => rfl

theorem unsignZero_same {detail : ErrorDetail} (decodable : detail.decodable = true) :
    detail.unsignZero.same detail := by
  cases detail with
  | retryInfo delay =>
    exact Float64.eq_unsignZero (Bool.and_eq_true_iff.mp decodable).1
  | _ => rfl

theorem decodes_iff : (∃ decoded, fromJson detail.toJson = some decoded ∧ decoded.same detail) ↔
      detail.decodable = true := by
  rw [fromJson_toJson]
  constructor
  · rintro ⟨decoded, read, -⟩
    by_contra malformed
    rw [if_neg malformed] at read
    cases read
  · intro decodable
    exact ⟨detail.unsignZero, if_pos decodable, unsignZero_same decodable⟩

end ErrorDetail

theorem wellFormed_retryInfo : (ErrorDetail.retryInfo delay).toJson.WellFormed := by
  have value : (delayJson delay).WellFormed := by
    unfold delayJson Json.ofFloat64
    split
    · exact .number _
    · split
      · exact .number _
      · exact .null
  have distinct : ["@type", "retry_delay_seconds"].Nodup := by decide
  exact .object distinct (List.forall_mem_cons.mpr ⟨.string _, List.forall_mem_singleton.mpr value⟩)

end VgiRpc.ErrorModel
