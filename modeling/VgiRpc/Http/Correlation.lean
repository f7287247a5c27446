import VgiRpc.Http.Budget

/-!
# Correlation ids

The middleware settles the correlation id of a request before anything runs, writes it onto the
request and, on the way out, onto the response.  It has early exits, the layers around it answer
on their own, and a record of reflection takes its id from the Arrow metadata.
-/

namespace VgiRpc.Http.Correlation

structure RequestLimits where
  maxBodySize : Nat
  maxRequestBytes : Option Nat
  hostingMaxRequestBytes : Option Nat

/-- What the layers read of a request.  A header whose value is no text is absent. -/
structure Inbound where
  requestId : Option String
  path : String
  contentLength : Option Nat
  /-- The length of the body, unless reading it fails. -/
  body : Option Nat

inductive Record where
  | dispatched (wireId : String)
  | reflected (wireId : String)

/-- What the routes make of a request.  They are stopped by a panic and by the clock. -/
inductive Routed where
  | answered (ids : List String) (length : Nat) (records : List Record)
  | stopped (records : List Record)

structure Outbound where
  ids : List String
  records : List String
deriving DecidableEq

def Record.requestId (header : String) : Record → String
  | .dispatched wireId => if header.isEmpty then wireId else header
  | .reflected wireId => wireId

abbrev FreshId := { id : String // id.isEmpty = false }

/-- The caller's id where it can be used, and a fresh one otherwise. -/
def correlationId (fresh : FreshId) (inbound : Inbound) : String :=
  (inbound.requestId.filter fun id => !id.isEmpty && id.utf8ByteSize ≤ 128).getD fresh.val

variable (limits : RequestLimits)

/-- The layer that bounds bodies and the middleware let the request pass. -/
def admits (inbound : Inbound) : Bool :=
  inbound.contentLength.all (· ≤ limits.maxBodySize) &&
    match smallest [limits.maxRequestBytes, limits.hostingMaxRequestBytes] with
    | none => true
    | some limit =>
      "/health".toList.isSuffixOf inbound.path.toList || (inbound.contentLength.all (· ≤ limit) &&
          (inbound.body.filter (· ≤ limits.maxBodySize)).any (· ≤ limit))

variable (ceiling : Option Nat)

def buildRouter (fresh : FreshId) (inbound : Inbound) (next : String → Routed) : Outbound :=
  let requestId := correlationId fresh inbound
  if admits limits inbound then
    match next requestId with
    | .answered _ length records =>
      -- No other value of the header stays on the response.
      ⟨if Within ceiling length then [requestId] else [], records.map (·.requestId requestId)⟩
    | .stopped records => ⟨[], records.map (·.requestId requestId)⟩
  else ⟨[], []⟩

/-- The response carries this id and no other, and so does every record. -/
def Outbound.Correlated (outbound : Outbound) (id : String) : Prop :=
  outbound.ids = [id] ∧ ∀ record ∈ outbound.records, record = id

theorem correlationId_isEmpty (fresh : FreshId) (inbound : Inbound) :
    (correlationId fresh inbound).isEmpty = false := by
  unfold correlationId
  cases usable : inbound.requestId.filter fun id => !id.isEmpty && id.utf8ByteSize ≤ 128 with
  | none => exact fresh.property
  | some id =>
    have kept := (Option.filter_eq_some_iff.mp usable).2
    rw [Bool.and_eq_true, Bool.not_eq_true'] at kept
    exact kept.1

/-- Only the records of reflection can have another id than the request. -/
theorem Record.forall_requestId {id : String} (named : id.isEmpty = false) (records : List Record) :
    (∀ record ∈ records, record.requestId id = id) ↔
      ∀ wireId, .reflected wireId ∈ records → wireId = id := by
  refine ⟨fun same wireId member => same _ member, fun same record member => ?_⟩
  cases record with
  | dispatched wireId => exact if_neg (by rw [named]; exact Bool.false_ne_true)
  | reflected wireId => exact same wireId member

/-- The trail holds exactly for a request that the layers let pass, whose routes answer within the
buffer, and whose records of reflection were given the same id by the caller. -/
theorem correlated_iff (fresh : FreshId) (inbound : Inbound) (next : String → Routed) :
    (buildRouter limits ceiling fresh inbound next).Correlated (correlationId fresh inbound) ↔
      admits limits inbound = true ∧
      ∃ ids length records, next (correlationId fresh inbound) = .answered ids length records ∧
        Within ceiling length ∧
        ∀ wireId, .reflected wireId ∈ records → wireId = correlationId fresh inbound := by
  have named := correlationId_isEmpty fresh inbound
  unfold buildRouter Outbound.Correlated
  generalize correlationId fresh inbound = id at named ⊢
  by_cases admitted : admits limits inbound = true
  · rw [if_pos admitted, and_iff_right admitted]
    cases next id with
    | answered ids length records =>
      by_cases fits : Within ceiling length
      · simp [fits, Record.forall_requestId named]
      · simp [fits]
    | stopped records => simp
  · rw [if_neg admitted]
    simp [admitted]

/-- A request that is over its limit is refused without an id, and a record of reflection has the
id of the Arrow metadata. -/
theorem refused_request_uncorrelated :
    buildRouter ⟨64, some 8, none⟩ none ⟨"5f", rfl⟩ ⟨some "trail", "/Echo/echo", some 9, some 9⟩
        (fun _ => .answered [] 0 []) = ⟨[], []⟩ ∧
      buildRouter ⟨64, some 8, none⟩ none ⟨"5f", rfl⟩ ⟨some "trail", "/Reflection/list", none, some 4⟩
        (fun _ => .answered [] 0 [.reflected "7"]) = ⟨["trail"], ["7"]⟩ := by
  decide

end VgiRpc.Http.Correlation
