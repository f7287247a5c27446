import VgiRpc.ErrorModel.Raised

/-!
# Errors there and back

What the client makes of the EXCEPTION that a server writes for an error.
-/

namespace VgiRpc.ErrorModel

open List
open Library (Float64 Json)
open Metadata
open ErrorDetail (fromJson retryInfo decodable)

theorem validateFrom_isObject {seen : List String} {details : List Json}
    (valid : validateFrom seen details = .ok ()) : ∀ detail ∈ details, detail.isObject = true := by
  induction details generalizing seen with
  | nil => nofun
  | cons detail rest ih =>
    unfold validateFrom at valid
    by_cases object : detail.isObject = true
    · rw [object] at valid
      split_ifs at valid
      split at valid
      · cases valid
      · split_ifs at valid
        exact forall_mem_cons.mpr ⟨object, ih valid⟩
    · rw [Bool.not_eq_true] at object
      rw [object] at valid
      cases valid

section

variable (codec : Json.Codec)

theorem encodeErrorDetails_eq_some_iff {details : List Json} {text : String} :
    encodeErrorDetails codec details = some text ↔
      details ≠ [] ∧ Carried codec details ∧ text = codec.print (.array details) := by
  unfold encodeErrorDetails Carried
  cases details with
  | nil => exact iff_of_false nofun fun some => some.1 rfl
  | cons detail rest =>
    simp only [isEmpty_cons, Bool.false_eq_true, if_false, ne_eq, reduceCtorEq,
      not_false_eq_true, true_and]
    cases validateErrorDetails (detail :: rest) with
    | error message => simp
    | ok _ =>
      dsimp only
      split
      · next exceeds =>
        exact iff_of_false nofun fun ⟨⟨_, within⟩, _⟩ => absurd within (by omega)
      · next within => simp [Nat.not_lt.mp within, eq_comm]

theorem objectsOf_valid {details : List Json} (valid : validateErrorDetails details = .ok ()) :
    objectsOf (some (.array details)) = details :=
  filter_eq_self.mpr (validateFrom_isObject valid)

namespace RaisedError

variable (error : RaisedError)

theorem wellFormed_wireDetails : (Json.array error.wireDetails).WellFormed := by
  refine .array ?_
  unfold wireDetails
  split
  · exact error.wellFormed
  · split
    · exact error.wellFormed
    · exact forall_mem_append.mpr ⟨error.wellFormed,
        forall_mem_singleton.mpr (wellFormed_retryInfo _)⟩

variable (tracebacks : Option String)

theorem wellFormed_extra : (Json.object (error.extra codec tracebacks)).WellFormed := by
  have details := error.wellFormed_wireDetails
  unfold extra
  cases error.errorKind <;> cases encodeErrorDetails codec error.wireDetails <;> cases tracebacks
  all_goals
    refine .object ?_ ?_
    · simp
    · simp [Json.WellFormed.string, details]

theorem lookup_extra :
    (error.extra codec tracebacks).lookup "exception_type" = some (.string error.errorType) ∧
    (error.extra codec tracebacks).lookup "error_code" = some (.string error.wireCode) ∧
    (error.extra codec tracebacks).lookup "error_kind" = error.errorKind.map .string ∧
    (error.extra codec tracebacks).lookup "error_details" =
      (encodeErrorDetails codec error.wireDetails).map fun _ => .array error.wireDetails := by
  unfold extra
  cases error.errorKind <;> cases encodeErrorDetails codec error.wireDetails <;> cases tracebacks
  all_goals exact ⟨rfl, rfl, rfl, rfl⟩

def details : List ErrorDetail := error.errorDetails.filterMap fromJson

end RaisedError

/-- A value that is not a text is printed again. -/
def jsonValue : Json → JsonValue
  | .string value => .string value
  | value => .other (codec.print value)

def reader : JsonReader := fun text =>
  ((codec.parse text).bind Json.asObject).map fun entries =>
    entries.map fun entry => (entry.1, jsonValue codec entry.2)

theorem lookup_map_snd {α β : Type} (convert : α → β) (entries : List (String × α)) (key : String) :
    (entries.map fun entry => (entry.1, convert entry.2)).lookup key =
      (entries.lookup key).map convert := by
  induction entries with
  | nil => rfl
  | cons entry rest ih =>
    rw [map_cons, lookup_cons, lookup_cons, ih]
    cases key == entry.1 <;> rfl

theorem parseExceptionExtra_reader (metadata : Metadata) :
    parseExceptionExtra (reader codec) (mdGet metadata logExtraKey) =
      (extraText codec metadata "exception_type").getD "Exception" := by
  have entries : (mdGet metadata logExtraKey).bind (reader codec) =
      (extraOf codec metadata).map fun entries =>
        entries.map fun entry => (entry.1, jsonValue codec entry.2) := by
    unfold extraOf reader
    cases mdGet metadata logExtraKey <;> rfl
  rw [parseExceptionExtra, entries, extraText]
  cases extraOf codec metadata with
  | none => rfl
  | some entries =>
    rw [Option.map_some, Option.bind_some, Option.bind_some, lookup_map_snd]
    cases entries.lookup "exception_type" with
    | none => rfl
    | some value => cases value <;> rfl

/-- The client's classifier sees the type and the message of the whole error. -/
theorem classify_eq_exception {rows : Nat} {metadata : Metadata} {plain : RpcError}
    (exception : classify (reader codec) rows metadata = .exception plain) :
    plain = (decodeException codec metadata).toRpcError := by
  unfold classify at exception
  split_ifs at exception
  split at exception
  · cases exception
  dsimp only at exception
  split_ifs at exception
  injection exception with same
  rw [← same, parseExceptionExtra_reader]
  rfl

structure Received (error : RaisedError) (sent : Metadata) : Prop where
  exception : classify (reader codec) 0 sent = .exception (decodeException codec sent).toRpcError
  errorType : (decodeException codec sent).errorType = error.errorType
  message : (decodeException codec sent).message = error.message
  code : (decodeException codec sent).wireCode = error.wireCode
  kind : (decodeException codec sent).errorKind = error.errorKind
  carried : Carried codec error.wireDetails →
    (decodeException codec sent).errorDetails = error.wireDetails
  dropped : ¬ Carried codec error.wireDetails → (decodeException codec sent).errorDetails = []
  mirroredCode : extraText codec sent "error_code" = mdGet sent errorCodeKey
  mirroredKind : extraText codec sent "error_kind" = mdGet sent errorKindKey
  mirroredDetails : ((extraOf codec sent).bind fun entries => entries.lookup "error_details") =
    (mdGet sent errorDetailsKey).bind codec.parse

/-- The metadata that the server puts on the wire for an error. -/
structure Sent (error : RaisedError) (tracebacks : Option String) (sent : Metadata) : Prop where
  exception : ∃ plain, classify (reader codec) 0 sent = .exception plain
  message : mdGet sent logMessageKey = some error.message
  extra : extraOf codec sent = some (error.extra codec tracebacks)
  code : mdGet sent errorCodeKey = some error.wireCode
  kind : mdGet sent errorKindKey = error.errorKind
  details : mdGet sent errorDetailsKey = encodeErrorDetails codec error.wireDetails

theorem sent_fill (envelope : EnvelopeMeta) (error : RaisedError) :
    Sent codec error envelope.tracebacks
      (envelope.fill (error.values codec envelope.tracebacks)).map := by
  obtain ⟨-, message, extra, -⟩ :=
    EnvelopeMeta.mdGet_fillEntries envelope.map (error.values codec envelope.tracebacks)
  obtain ⟨code, kind, details⟩ :=
    EnvelopeMeta.mdGet_fillEntries_model envelope.map (error.values codec envelope.tracebacks)
  refine ⟨⟨_, classify_fill (reader codec) envelope _⟩, message, ?_, code, kind, details⟩
  show ((mdGet (EnvelopeMeta.fillEntries _ _) logExtraKey).bind codec.parse).bind Json.asObject = _
  rw [extra]
  show (codec.parse (codec.print _)).bind Json.asObject = _
  rw [codec.parse_print _ (error.wellFormed_extra codec envelope.tracebacks)]
  rfl

section

variable {codec} {error : RaisedError} {tracebacks : Option String} {sent : Metadata}

section

variable (sends : Sent codec error tracebacks sent)
include sends

theorem Sent.lookup (key : String) : ((extraOf codec sent).bind fun entries => entries.lookup key) =
      (error.extra codec tracebacks).lookup key := by
  rw [sends.extra]
  rfl

theorem Sent.wireCode : (decodeException codec sent).wireCode = error.wireCode := by
  have decoded : (decodeException codec sent).errorCode = error.wireCode := by
    show (mdGet sent errorCodeKey).getD _ = _
    rw [sends.code]
    rfl
  have nonempty : error.wireCode ≠ "" := by
    unfold RaisedError.wireCode
    split
    · decide
    · assumption
  rw [RaisedError.wireCode, decoded, if_neg nonempty]

theorem Sent.kindText : extraText codec sent "error_kind" = error.errorKind := by
  rw [extraText, sends.lookup, (error.lookup_extra codec tracebacks).2.2.1]
  cases error.errorKind <;> rfl

theorem Sent.errorKind (kinded : error.errorKind ≠ some "") :
    (decodeException codec sent).errorKind = error.errorKind := by
  show nonEmpty ((mdGet sent errorKindKey).getD _) = _
  rw [sends.kind, sends.kindText]
  cases kind : error.errorKind with
  | none => rfl
  | some text =>
    have nonempty : text.isEmpty = false := by
      rw [String.isEmpty_eq_false_iff]
      rintro rfl
      exact kinded kind
    rw [Option.getD_some, nonEmpty, nonempty]
    rfl

theorem Sent.mirroredDetails :
    ((extraOf codec sent).bind fun entries => entries.lookup "error_details") =
      (mdGet sent errorDetailsKey).bind codec.parse := by
  rw [sends.lookup, (error.lookup_extra codec tracebacks).2.2.2, sends.details]
  cases encoded : encodeErrorDetails codec error.wireDetails with
  | none => rfl
  | some text =>
    obtain ⟨-, -, rfl⟩ := (encodeErrorDetails_eq_some_iff codec).mp encoded
    exact (codec.parse_print _ error.wellFormed_wireDetails).symm

/-- Either way the details are those of the mirror. -/
theorem Sent.decodedDetails : decodedDetails codec sent =
      objectsOf ((encodeErrorDetails codec error.wireDetails).map
        fun _ => .array error.wireDetails) := by
  have mirror := sends.mirroredDetails
  rw [sends.lookup, (error.lookup_extra codec tracebacks).2.2.2] at mirror
  unfold ErrorModel.decodedDetails
  split
  · next raw found =>
    rw [mirror, found]
    rfl
  · rw [sends.lookup, (error.lookup_extra codec tracebacks).2.2.2]

theorem Sent.received (kinded : error.errorKind ≠ some "") : Received codec error sent where
  exception := by
    obtain ⟨plain, exception⟩ := sends.exception
    rw [exception, classify_eq_exception codec exception]
  errorType := by
    show (extraText codec sent "exception_type").getD _ = _
    rw [extraText, sends.lookup, (error.lookup_extra codec tracebacks).1]
    rfl
  message := by
    show (mdGet sent logMessageKey).getD _ = _
    rw [sends.message]
    rfl
  code := sends.wireCode
  kind := sends.errorKind kinded
  carried carried := by
    show ErrorModel.decodedDetails codec sent = _
    rw [sends.decodedDetails]
    cases encoded : encodeErrorDetails codec error.wireDetails with
    | some text => exact objectsOf_valid carried.1
    | none =>
      -- Carried and not encoded: there are no details.
      by_contra nonempty
      have encoding := (encodeErrorDetails_eq_some_iff codec).mpr
        ⟨fun empty => nonempty empty.symm, carried, rfl⟩
      rw [encoded] at encoding
      cases encoding
  dropped uncarried := by
    show ErrorModel.decodedDetails codec sent = _
    rw [sends.decodedDetails]
    cases encoded : encodeErrorDetails codec error.wireDetails with
    | none => rfl
    | some text =>
      exact absurd ((encodeErrorDetails_eq_some_iff codec).mp encoded).2.1 uncarried
  mirroredCode := by
    rw [extraText, sends.lookup, (error.lookup_extra codec tracebacks).2.1, sends.code]
    rfl
  mirroredKind := by rw [sends.kindText, sends.kind]
  mirroredDetails := sends.mirroredDetails

end

end

/-- The text of a value was printed from it. -/
def jsonOf : JsonValue → Json
  | .string value => .string value
  | .other text => (codec.parse text).getD .null

variable (error : RaisedError)

/-- What the envelope of a call is built with when it is built for this error. -/
def rendering : Rendering where
  object entries := codec.print (.object (entries.map fun entry => (entry.1, jsonOf codec entry.2)))
  wireCode _ := error.wireCode
  errorKind _ := error.errorKind
  errorDetails _ := encodeErrorDetails codec error.wireDetails
  traceback _ := error.traceback

theorem values_rendering (tracebacks : Option String) :
    RpcError.values (rendering codec error) tracebacks error.toRpcError =
      error.values codec tracebacks := by
  have details : ((encodeErrorDetails codec error.wireDetails).toList.map
        fun text => ("error_details", JsonValue.other text)).map
          (fun entry => (entry.1, jsonOf codec entry.2)) =
      (encodeErrorDetails codec error.wireDetails).toList.map
        fun _ => ("error_details", .array error.wireDetails) := by
    cases encoded : encodeErrorDetails codec error.wireDetails with
    | none => rfl
    | some text =>
      obtain ⟨-, -, rfl⟩ := (encodeErrorDetails_eq_some_iff codec).mp encoded
      simp [jsonOf, codec.parse_print _ error.wellFormed_wireDetails]
  have extra : (errorExtra (rendering codec error) tracebacks error.toRpcError).map
      (fun entry => (entry.1, jsonOf codec entry.2)) = error.extra codec tracebacks := by
    unfold errorExtra RaisedError.extra
    rw [map_append, map_append, map_append]
    refine congrArg₂ _ (congrArg₂ _ (congrArg₂ _ rfl ?_) details) ?_
    · show (error.errorKind.toList.map _).map _ = _
      cases error.errorKind <;> rfl
    · cases tracebacks <;> rfl
  unfold RpcError.values RaisedError.values
  rw [← extra]
  rfl

/-- The error that the client makes of the EXCEPTION for an error is that error; a typed
detail is read back exactly when its delay, if it has one, is finite and not negative; and
what is malformed or unknown hides nothing else. -/
theorem error_round_trip (envelope : EnvelopeMeta) (error : RaisedError)
    (kinded : error.errorKind ≠ some "") :
    Received codec error (envelope.fill (error.values codec envelope.tracebacks)).map ∧
    (∀ detail : ErrorDetail,
      (∃ decoded, fromJson detail.toJson = some decoded ∧ decoded.same detail) ↔
        detail.decodable = true) ∧
    (∀ metadata raw, (decodeException codec (metadata.insert errorDetailsKey raw)).toRpcError =
          (decodeException codec metadata).toRpcError ∧
        (decodeException codec (metadata.insert errorDetailsKey raw)).errorCode =
          (decodeException codec metadata).errorCode ∧
        (decodeException codec (metadata.insert errorDetailsKey raw)).errorKind =
          (decodeException codec metadata).errorKind) ∧
    ∀ (decoded : RaisedError) before odd after, decoded.errorDetails = before ++ odd :: after →
      fromJson odd = none → decoded.details =
          before.filterMap fromJson ++ after.filterMap fromJson := by
  refine ⟨(sent_fill codec envelope error).received kinded, ErrorDetail.decodes_iff,
    fun metadata raw => ?_, fun decoded before odd after listed malformed => ?_⟩
  · -- Nothing but the details depends on what stands under their key.
    have other : ∀ key, key ≠ errorDetailsKey →
        mdGet (metadata.insert errorDetailsKey raw) key = mdGet metadata key := by
      intro key apart
      rw [mdGet, mdGet, Library.OrderedMap.get?_insert, if_neg apart]
    have extra : ∀ key, extraText codec (metadata.insert errorDetailsKey raw) key =
        extraText codec metadata key := by
      intro key
      rw [extraText, extraText, extraOf, extraOf, other _ (by decide)]
    unfold decodeException
    simp [extra, other logMessageKey (by decide), other errorCodeKey (by decide),
      other errorKindKey (by decide)]
  · rw [RaisedError.details, listed, filterMap_append, filterMap_cons_none malformed]

end

namespace Sample

def draining : RaisedError where
  errorType := "ServerDrainingError"
  message := "server is draining"
  traceback := ""
  requestId := ""
  retryAfterSeconds := some 5
  errorKind := some "server_draining"
  errorCode := Code.unavailable.asStr
  errorDetails := []
  wellFormed := nofun

end Sample

open Sample in
theorem error_round_trip_draining : draining.errorKind ≠ some "" ∧
      Received Json.unaryCodec draining ((EnvelopeMeta.new "server" "1" none).fill
        (draining.values Json.unaryCodec none)).map :=
  ⟨by decide, (error_round_trip Json.unaryCodec (.new "server" "1" none) draining (by decide)).1⟩

/-- A `RetryInfo` of minus one second has a JSON form, which is read as no detail. -/
theorem negative_delay_unread : fromJson (retryInfo (.ofInt (-1) (by decide))).toJson = none ∧
      ¬ ∃ decoded, fromJson (retryInfo (.ofInt (-1) (by decide))).toJson = some decoded ∧
          decoded.same (.retryInfo (.ofInt (-1) (by decide))) := by
  have unread :
      fromJson (retryInfo (.ofInt (-1) (by decide))).toJson = none := by
    rw [ErrorDetail.fromJson_toJson, if_neg]
    have round : Float64.roundNat 1 = 1 := Float64.roundNat_of_lt (by decide)
    simp [decodable, Float64.ofInt, Float64.isNegative, round]
  refine ⟨unread, ?_⟩
  rintro ⟨decoded, read, -⟩
  rw [unread] at read
  cases read

end VgiRpc.ErrorModel
