import VgiRpc.Sticky.Token

/-!
# The session registry

Each worker keeps the objects that handlers bound to sessions in a map behind a lock,
with the time each expires and the caller that opened it.  A request that presents a
token gets the object for as long as the handler runs; handlers open and close
sessions, a reaper sweeps the expired ones, and an operator drains or shuts down.
-/

namespace VgiRpc.Sticky

open Library List ByteStream Http

structure SessionEntry (S : Type) where
  state : S
  /-- A reading of the monotonic clock, in nanoseconds. -/
  expiresAt : Nat
  principalKey : String

structure SessionRegistry (S : Type) where
  defaultTtl : Nat
  entries : OrderedMap SessionId (SessionEntry S)
  draining : Bool

namespace SessionRegistry

variable {S : Type}

def new (defaultTtl : Nat) : SessionRegistry S := ⟨defaultTtl, OrderedMap.empty, false⟩

variable (registry : SessionRegistry S)

def setDraining (value : Bool) : SessionRegistry S :=
  { registry with draining := value }

/-- Register a session under a random id, at a reading of each of the two clocks. -/
def openSession (state : S) (ttl : Option Nat)
    (principalKey : String) (now : Nat) (nowUnix : UInt64) (sessionId : SessionId) :
    Except RpcError (UInt64 × SessionRegistry S) :=
  if registry.draining then
    .error (.serverDrainingError "server is draining — new sessions are rejected")
  else
    .ok (nowUnix + UInt64.ofNat (ttl.getD registry.defaultTtl / 10 ^ 9), { registry with
        entries := registry.entries.insert sessionId
          ⟨state, now + ttl.getD registry.defaultTtl, principalKey⟩ })

/-- Look a session up; one that has expired is dropped on the way. -/
def get (registry : SessionRegistry S) (sessionId : SessionId) (principalKey : String)
    (now : Nat) : Option S × SessionRegistry S :=
  match registry.entries.get? sessionId with
  | none => (none, registry)
  | some entry =>
    if entry.expiresAt < now then
      (none, { registry with entries := registry.entries.remove sessionId })
    else if entry.principalKey ≠ principalKey then (none, registry)
    else (some entry.state, registry)

def close (sessionId : SessionId) : Bool × SessionRegistry S :=
  ((registry.entries.get? sessionId).isSome,
    { registry with entries := registry.entries.remove sessionId })

def expired (now : Nat) : List SessionId :=
  (registry.entries.entries.filter fun entry => entry.2.expiresAt < now).map Prod.fst

def drainExpired (now : Nat) : Nat × SessionRegistry S :=
  ((registry.expired now).length,
    { registry with entries := (registry.expired now).foldl OrderedMap.remove registry.entries })

def shutdown : SessionRegistry S :=
  { registry with entries := OrderedMap.empty }

variable {now : Nat} {registry : SessionRegistry S} {sessionId : SessionId}

theorem mem_expired : sessionId ∈ registry.expired now ↔
      ∃ entry, registry.entries.get? sessionId = some entry ∧ entry.expiresAt < now := by
  unfold expired
  constructor
  · intro member
    obtain ⟨⟨id, entry⟩, kept, rfl⟩ := mem_map.mp member
    obtain ⟨held, passed⟩ := mem_filter.mp kept
    exact ⟨entry, OrderedMap.mem_entries_iff.mp held, of_decide_eq_true passed⟩
  · rintro ⟨entry, found, passed⟩
    refine mem_map.mpr ⟨(sessionId, entry), mem_filter.mpr ⟨?_, ?_⟩, rfl⟩
    · exact OrderedMap.mem_entries_iff.mpr found
    · exact decide_eq_true passed

/-- These sessions are gone from the registry, and no others. -/
def Without (gone : List SessionId) (before after : SessionRegistry S) : Prop :=
  ∀ sessionId, after.entries.get? sessionId =
    if sessionId ∈ gone then none else before.entries.get? sessionId

/-- The session that a lookup at this reading drops. -/
def evictedBy (registry : SessionRegistry S) (sessionId : SessionId) (now : Nat) : List SessionId :=
  if sessionId ∈ registry.expired now then [sessionId] else []

theorem get_without (registry : SessionRegistry S) (sessionId : SessionId) (principalKey : String)
    (now : Nat) :
    Without (registry.evictedBy sessionId now) registry
      (registry.get sessionId principalKey now).2 := by
  intro other
  unfold get evictedBy
  cases found : registry.entries.get? sessionId with
  | none =>
    have absent : sessionId ∉ registry.expired now := by
      simp [mem_expired, found]
    simp [absent]
  | some entry =>
    by_cases passed : entry.expiresAt < now
    · have member : sessionId ∈ registry.expired now := mem_expired.mpr ⟨entry, found, passed⟩
      simp [passed, member, OrderedMap.get?_remove]
    · have absent : sessionId ∉ registry.expired now := by
        simp [mem_expired, found, passed]
      simp only [passed, absent, if_false, not_mem_nil]
      split <;> rfl

theorem drainExpired_without (registry : SessionRegistry S) (now : Nat) :
    Without (registry.expired now) registry (registry.drainExpired now).2 := by
  intro sessionId
  simp only [drainExpired, OrderedMap.get?_foldl_remove]

theorem close_without (registry : SessionRegistry S) (sessionId : SessionId) :
    Without [sessionId] registry (registry.close sessionId).2 := by
  intro other
  simp [close, OrderedMap.get?_remove]

variable {principalKey : String} {state : S}

/-- A lookup answers with the live entry of its caller. -/
theorem get_eq_some_iff : (registry.get sessionId principalKey now).1 = some state ↔
      ∃ entry, registry.entries.get? sessionId = some entry ∧ now ≤ entry.expiresAt ∧
        entry.principalKey = principalKey ∧ entry.state = state := by
  unfold get
  split
  · rename_i missing
    simp [missing]
  · rename_i entry found
    split
    · rename_i passed
      refine iff_of_false (by simp) ?_
      rintro ⟨other, same, live, _⟩
      cases found.symm.trans same
      omega
    · rename_i live
      split
      · rename_i differs
        refine iff_of_false (by simp) ?_
        rintro ⟨other, same, _, key, _⟩
        cases found.symm.trans same
        exact differs key
      · rename_i owned
        simp [found, not_not.mp owned, Nat.not_lt.mp live]

/-- A lookup that finds its session drops nothing. -/
theorem get_found (found : (registry.get sessionId principalKey now).1 = some state) :
    (registry.get sessionId principalKey now).2 = registry := by
  unfold get at found ⊢
  split at found
  · cases found
  · split_ifs at found with unexpired
    rw [if_neg unexpired]
    split <;> rfl

end SessionRegistry

def bytesToHex (bytes : Bytes) : String := String.ofList (bytes.flatMap hexByte)

def hexValue (char : Char) : Option Nat :=
  if '0' ≤ char ∧ char ≤ '9' then some (char.toNat - '0'.toNat)
  else if 'a' ≤ char ∧ char ≤ 'f' then some (char.toNat - 'a'.toNat + 10)
  else if 'A' ≤ char ∧ char ≤ 'F' then some (char.toNat - 'A'.toNat + 10)
  else none

/-- `u8::from_str_radix` on two characters; a sign may take the place of the first. -/
def hexPair (high low : Char) : Option UInt8 :=
  match hexValue low with
  | none => none
  | some low =>
    if high = '+' then some (UInt8.ofNat low)
    else (hexValue high).map fun high => UInt8.ofNat (16 * high + low)

def hexPairs : List Char → Option Bytes
  | [] => some []
  | [_] => none
  | high :: low :: rest =>
    match hexPair high low with
    | none => none
    | some byte => (hexPairs rest).map (byte :: ·)

def hexToSid (hex : String) : Option SessionId :=
  if (utf8 hex).length = 2 * sessionIdLength then (hexPairs hex.toList).bind readSessionId
  else none

theorem hexPair_hexByte (byte : UInt8) :
    hexPair (Nat.digitChar (byte.toNat / 16)) (Nat.digitChar (byte.toNat % 16)) = some byte := by
  have table : ∀ high low : Fin 16, hexPair (Nat.digitChar high.val) (Nat.digitChar low.val) =
        some (UInt8.ofNat (16 * high.val + low.val)) := by decide
  have small := byte.toNat_lt
  rw [table ⟨byte.toNat / 16, by omega⟩ ⟨byte.toNat % 16, by omega⟩, Nat.div_add_mod,
    UInt8.ofNat_toNat]

theorem hexPairs_flatMap (bytes : Bytes) : hexPairs (bytes.flatMap hexByte) = some bytes := by
  induction bytes with
  | nil => rfl
  | cons byte rest ih =>
    change hexPairs (_ :: _ :: rest.flatMap hexByte) = _
    rw [hexPairs, hexPair_hexByte, ih]
    rfl

theorem utf8_hexByte (byte : UInt8) : (utf8 (String.ofList (hexByte byte))).length = 2 := by
  have table : ∀ high low : Fin 16, (utf8 (String.ofList
      [Nat.digitChar high.val, Nat.digitChar low.val])).length = 2 := by decide
  have small := byte.toNat_lt
  exact table ⟨byte.toNat / 16, by omega⟩ ⟨byte.toNat % 16, by omega⟩

theorem utf8_bytesToHex (bytes : Bytes) : (utf8 (bytesToHex bytes)).length = 2 * bytes.length := by
  induction bytes with
  | nil => rfl
  | cons byte rest ih =>
    unfold bytesToHex at ih ⊢
    rw [flatMap_cons, String.ofList_append, utf8_append, length_append, utf8_hexByte,
      ih, length_cons]
    omega

theorem hexToSid_bytesToHex (sessionId : SessionId) :
    hexToSid (bytesToHex sessionId.bytes) = some sessionId := by
  have whole := readSessionId_append sessionId []
  rw [append_nil] at whole
  rw [hexToSid, utf8_bytesToHex, sessionId.length, if_pos rfl, bytesToHex, String.toList_ofList,
    hexPairs_flatMap]
  exact whole

theorem bytesToHex_injective {first second : SessionId}
    (same : bytesToHex first.bytes = bytesToHex second.bytes) : first = second := by
  have parsed := hexToSid_bytesToHex first
  rw [same, hexToSid_bytesToHex] at parsed
  exact (Option.some.inj parsed).symm

structure StickyContext where
  tokenKey : Bytes
  defaultTtl : Nat
  serverId : String

/-- The session of one request, as its handler sees and changes it. -/
structure StickySink (S : Type) where
  aad : Bytes
  principalKey : String
  acceptOpens : Bool
  currentState : Option S
  /-- The id in hexadecimal digits. -/
  currentSid : Option String
  mintToken : Option String
  closed : Bool

/-- What opening a session reads: both clocks, the clock again for the seal, and the
random source for the id and the nonce. -/
structure OpenReadings where
  now : Nat
  nowUnix : UInt64
  sessionId : SessionId
  sealedAt : UInt64
  nonce : Nonce

inductive StickyResolution (S : Type) where
  | sink (sink : StickySink S)
  | lost (error : RpcError)

inductive DeleteOutcome where
  | idempotent
  | closed
  deriving DecidableEq

def presented (header : Option String) : Option String :=
  (header.map trim).filter fun token => token ≠ ""

def lostWorker : RpcError :=
  .sessionLostError "session token was issued by a different worker (server_id mismatch)"

def lostSession : RpcError :=
  .sessionLostError "session not found, expired, or principal mismatch"

section

variable {S : Type} (P : SessionPrimitives) (ctx : StickyContext) (sink : StickySink S) (state : S)
  (ttl : Option Nat) (readings : OpenReadings) (registry : SessionRegistry S)

def StickySink.openSession : Except RpcError (StickySink S × SessionRegistry S) := do
  let (expiresAt, registry) ← registry.openSession state ttl sink.principalKey readings.now
    readings.nowUnix readings.sessionId
  pure ({ sink with
    currentState := some state
    currentSid := some (bytesToHex readings.sessionId.bytes)
    mintToken := some (sealSessionToken P ctx.serverId readings.sessionId expiresAt ctx.tokenKey
      sink.aad readings.sealedAt readings.nonce)
    closed := false }, registry)

/-- The id is kept, so that the access log can still name the session. -/
def StickySink.close : StickySink S × SessionRegistry S :=
  ({ sink with closed := true, currentState := none }, match sink.currentSid.bind hexToSid with
    | some sessionId => (registry.close sessionId).2
    | none => registry)

/-- `CallContext::open_session`, on a transport that has sessions. -/
def StickySink.handlerOpen : Except RpcError (StickySink S × SessionRegistry S) :=
  if ¬ sink.acceptOpens then
    .error (.runtimeError ("client did not opt in to sticky sessions " ++
      "(missing VGI-Session-Accept: true header — open the call inside " ++
      "an HttpConnection.with_session_token() block)"))
  else if sink.currentState.isSome then
    .error (.runtimeError "a sticky session is already active for this request")
  else sink.openSession P ctx state ttl readings registry

variable (auth : AuthContext) (acceptOpens : Bool)

def newSink (current : Option (S × SessionId)) : StickySink S where
  aad := computeSessionAad auth
  principalKey := principalKey auth
  acceptOpens
  currentState := current.map Prod.fst
  currentSid := current.map fun session => bytesToHex session.2.bytes
  mintToken := none
  closed := false

/-- The session that a token names for this caller, looked up in the registry. -/
def present (token : String) (now : Nat) (registry : SessionRegistry S) :
    Except RpcError (S × SessionId) × SessionRegistry S :=
  match openSessionToken P token ctx.tokenKey (computeSessionAad auth) with
  | .error error => (.error error, registry)
  | .ok (serverId, sessionId, _) =>
    if serverId ≠ ctx.serverId then (.error lostWorker, registry)
    else
      match registry.get sessionId (principalKey auth) now with
      | (some state, registry) => (.ok (state, sessionId), registry)
      | (none, registry) => (.error lostSession, registry)

variable (header : Option String) (now : Nat) (registry : SessionRegistry S)

def resolve : StickyResolution S × SessionRegistry S :=
  match presented header with
  | none => (.sink (newSink auth acceptOpens none), registry)
  | some token =>
    match present P ctx auth token now registry with
    | (.ok session, registry) => (.sink (newSink auth acceptOpens (some session)), registry)
    | (.error error, registry) => (.lost error, registry)

/-- Tear a session down; a token that names none is not told apart from a missing one. -/
def handleDelete : DeleteOutcome × SessionRegistry S :=
  match presented header with
  | none => (.idempotent, registry)
  | some token =>
    match present P ctx auth token now registry with
    | (.ok session, registry) => (.closed, (registry.close session.2).2)
    | (.error _, registry) => (.idempotent, registry)

end

end VgiRpc.Sticky

