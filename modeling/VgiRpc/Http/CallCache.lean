import VgiRpc.Http.Token
import VgiRpc.Library.Transition

/-!
# The call-state cache

The half of a stream that its call token carries is also kept in a map behind a
lock, stamped with the time it was put there.  A lookup that finds a fresh entry
answers without opening the token; otherwise the token is opened and its call is
put back.  The map is emptied when a new entry finds it full.
-/

namespace VgiRpc.Http

open Library List OrderedMap ByteStream

/-! ## Keys -/

def hexByte (byte : UInt8) : List Char :=
  [Nat.digitChar (byte.toNat / 16), Nat.digitChar (byte.toNat % 16)]

def hexTail : Bytes → List Char
  | [] => []
  | byte :: rest => ',' :: ' ' :: (hexByte byte ++ hexTail rest)

/-- The bytes of an id as `{:02x?}` prints them. -/
def hexBytes : Bytes → List Char
  | [] => ['[', ']']
  | byte :: rest => '[' :: (hexByte byte ++ (hexTail rest ++ [']']))

def cacheIdentity (auth : AuthContext) : String :=
  (if auth.authenticated then auth.domain ++ "\x00" ++ auth.principal else "\x00anonymous") ++
    match peerEvidenceBinding auth with
    | some binding => "\x00" ++ binding
    | none => ""

def cacheKey (auth : AuthContext) (callId : CallId) : String :=
  String.ofList (hexBytes callId.bytes ++ '\x00' :: (cacheIdentity auth).toList)

theorem hexByte_injective {first second : UInt8} (same : hexByte first = hexByte second) :
    first = second := by
  have firstByte := first.toNat_lt
  have secondByte := second.toNat_lt
  have table : ∀ first second : Fin 16,
      Nat.digitChar first.val = Nat.digitChar second.val → first = second := by decide
  obtain ⟨high, low⟩ := List.cons.inj same
  have high := Fin.mk.inj (table ⟨_, by omega⟩ ⟨_, by omega⟩ high)
  have low := Fin.mk.inj (table ⟨_, by omega⟩ ⟨_, by omega⟩ (List.cons.inj low).1)
  exact UInt8.toNat_inj.mp (by omega)

variable {first second : Bytes} {firstRest secondRest : List Char}

theorem hexTail_injective (lengths : first.length = second.length)
    (same : hexTail first ++ firstRest = hexTail second ++ secondRest) : first = second := by
  induction first generalizing second with
  | nil => exact (length_eq_zero_iff.mp lengths.symm).symm
  | cons byte rest ih =>
    cases second with
    | nil => cases lengths
    | cons other others =>
      have after : hexByte byte ++ (hexTail rest ++ firstRest) =
          hexByte other ++ (hexTail others ++ secondRest) := by
        simpa only [hexTail, cons_append, append_assoc, List.cons.injEq, true_and] using same
      obtain ⟨heads, tails⟩ := append_inj after rfl
      rw [hexByte_injective heads, ih (Nat.succ.inj lengths) tails]

/-- Texts of ids of one length differ when the ids do, whatever follows them. -/
theorem hexBytes_injective (lengths : first.length = second.length)
    (same : hexBytes first ++ firstRest = hexBytes second ++ secondRest) : first = second := by
  cases first with
  | nil => exact (length_eq_zero_iff.mp lengths.symm).symm
  | cons byte rest =>
    cases second with
    | nil => cases lengths
    | cons other others =>
      have after : hexTail (byte :: rest) ++ (']' :: firstRest) =
          hexTail (other :: others) ++ (']' :: secondRest) := by
        simpa [hexBytes, hexTail] using same
      exact hexTail_injective lengths after

/-- Two calls share a key only if they are one call. -/
theorem cacheKey_callId {first second : AuthContext} {firstId secondId : CallId}
    (same : cacheKey first firstId = cacheKey second secondId) : firstId = secondId := by
  have texts := congrArg String.toList same
  rw [cacheKey, cacheKey, String.toList_ofList, String.toList_ofList] at texts
  exact CallId.ext (hexBytes_injective (firstId.length.trans secondId.length.symm) texts)

/-! ## The cache -/

structure TokenConfig where
  tokenKey : Bytes
  /-- The configured lifetime in nanoseconds. -/
  tokenTtl : Nat
  callStateCacheEntries : Nat

/-- The lifetime the checks use, in whole seconds; zero switches them off. -/
def TokenConfig.tokenTtlOpt (config : TokenConfig) : Option Nat :=
  if config.tokenTtl = 0 then none else some (config.tokenTtl / 10 ^ 9)

abbrev CallStates := OrderedMap String (UInt64 × ResolvedCall)

section

variable (P : Primitives) (config : TokenConfig) (auth : AuthContext) (callId : CallId)

def cacheCall (call : ResolvedCall) (now : UInt64) (cache : CallStates) : CallStates :=
  if config.callStateCacheEntries = 0 then cache
  else if config.callStateCacheEntries ≤ cache.size ∧ cacheKey auth callId ∉ cache.keys then
    OrderedMap.empty.insert (cacheKey auth callId) (now, call)
  else cache.insert (cacheKey auth callId) (now, call)

def freshAt (storedAt now : UInt64) : Bool :=
  match config.tokenTtlOpt with
  | some ttl => now.toNat - storedAt.toNat ≤ ttl
  | none => true

variable (now : UInt64) (cache : CallStates)

def freshCall : Option ResolvedCall :=
  match cache.get? (cacheKey auth callId) with
  | some (storedAt, call) => if freshAt config storedAt now then some call else none
  | none => none

/-- What a lookup leaves: an entry that is no longer fresh is dropped. -/
def afterLookup : CallStates :=
  match cache.get? (cacheKey auth callId) with
  | some (storedAt, _) =>
    if freshAt config storedAt now then cache else cache.remove (cacheKey auth callId)
  | none => cache

variable (cursor : UnpackedCursor) (callToken : Option String)

def openCall (now : UInt64) : Except RpcError ResolvedCall :=
  match callToken with
  | none => .error (.runtimeError "Missing call token in exchange request")
  | some token => do
      let (callId, resolved) ←
        unpackCallToken P config.tokenKey (computeCallAad auth) token config.tokenTtlOpt now
      if callId ≠ cursor.callId then .error malformedToken else pure resolved

/-- The readings of the clock that one request takes, in order. -/
structure Readings where
  cursor : UInt64
  lookup : UInt64
  token : UInt64
  store : UInt64

def resolveCall
    (times : Readings) (cache : CallStates) : Except RpcError ResolvedCall × CallStates :=
  match freshCall config auth cursor.callId times.lookup cache with
  | some call => (.ok call, afterLookup config auth cursor.callId times.lookup cache)
  | none =>
    match openCall P config auth cursor callToken times.token with
    | .error error => (.error error, afterLookup config auth cursor.callId times.lookup cache)
    | .ok call =>
      (.ok call, cacheCall config auth cursor.callId call times.store
        (afterLookup config auth cursor.callId times.lookup cache))

/-- The tokens of one exchange request and the caller that presents them. -/
structure TokenRequest where
  auth : AuthContext
  cursor : String
  callToken : Option String

variable (request : TokenRequest) (times : Readings)

/-- The call that a request is accepted with, or its refusal, and the cache it leaves. -/
def answer (cache : CallStates) : Except RpcError ResolvedCall × CallStates :=
  match unpackCursorToken P config.tokenKey (computeAad request.auth) request.cursor
      config.tokenTtlOpt times.cursor with
  | .error error => (.error error, cache)
  | .ok cursor => resolveCall P config request.auth cursor request.callToken times cache

def answerWithoutCache : Except RpcError ResolvedCall :=
  (answer P { config with callStateCacheEntries := 0 } request times OrderedMap.empty).1

/-! ## Runs

Requests are served by many tasks at once, and each takes the lock twice: to look
a call up, and to put one in.  Between the two a task holds what it is about to
put in.  Servers that share the token key mint calls that this one never saw. -/

structure Mint where
  auth : AuthContext
  callId : CallId
  call : ResolvedCall
  createdAt : UInt64
  nonce : Nonce

def Mint.token (mint : Mint) : String :=
  packCallToken P config.tokenKey (computeCallAad mint.auth) mint.callId mint.call mint.createdAt
    mint.nonce

structure Pending where
  auth : AuthContext
  callId : CallId
  call : ResolvedCall

structure CacheState where
  cache : CallStates
  pending : List Pending
  minted : List Mint

/-- What the cipher stands for: a call token that opens for a caller was sealed for
that caller by a server with this key. -/
def Authentic (minted : List Mint) (auth : AuthContext) (token : String) (now : UInt64) : Prop :=
  ∀ opened, unpackCallToken P config.tokenKey (computeCallAad auth) token config.tokenTtlOpt now =
      .ok opened →
    ∃ mint ∈ minted, token = mint.token P config ∧ computeCallAad auth = computeCallAad mint.auth

inductive CacheStep : CacheState → CacheState → Prop where
  /-- The random id of a call is new. -/
  | mint {cache : CallStates} {pending : List Pending} {minted : List Mint} (mint : Mint)
      (unused : mint.callId ∉ minted.map Mint.callId) :
      CacheStep ⟨cache, pending, minted⟩
        ⟨cache, ⟨mint.auth, mint.callId, mint.call⟩ :: pending, mint :: minted⟩
  | mintElsewhere {cache : CallStates} {pending : List Pending} {minted : List Mint} (mint : Mint)
      (unused : mint.callId ∉ minted.map Mint.callId) :
      CacheStep ⟨cache, pending, minted⟩ ⟨cache, pending, mint :: minted⟩
  | lookup {cache : CallStates} {pending : List Pending} {minted : List Mint}
      (auth : AuthContext) (callId : CallId) (now : UInt64) :
      CacheStep ⟨cache, pending, minted⟩ ⟨afterLookup config auth callId now cache, pending, minted⟩
  | reopen {cache : CallStates} {pending : List Pending} {minted : List Mint}
      (auth : AuthContext) (cursor : UnpackedCursor) (token : String) (now : UInt64)
      (call : ResolvedCall) (authentic : Authentic P config minted auth token now)
      (opened : openCall P config auth cursor (some token) now = .ok call) :
      CacheStep ⟨cache, pending, minted⟩ ⟨cache, ⟨auth, cursor.callId, call⟩ :: pending, minted⟩
  | store {cache : CallStates} {before after : List Pending} {minted : List Mint} (entry : Pending)
      (now : UInt64) :
      CacheStep ⟨cache, before ++ entry :: after, minted⟩
        ⟨cacheCall config entry.auth entry.callId entry.call now cache, before ++ after, minted⟩

def cacheSystem : TransitionSystem CacheState where
  initial state := state = ⟨OrderedMap.empty, [], []⟩
  step := CacheStep P config

/-- The call is the one its id was minted for, if a token can carry that one. -/
def Known (minted : List Mint) (callId : CallId) (call : ResolvedCall) : Prop :=
  ∃ mint ∈ minted, mint.callId = callId ∧
    (CallFits P mint.createdAt mint.callId mint.call → call = mint.call)

structure CacheInvariant (state : CacheState) : Prop where
  bounded : state.cache.size ≤ config.callStateCacheEntries
  distinct : (state.minted.map Mint.callId).Nodup
  pending : ∀ entry ∈ state.pending, Known P state.minted entry.callId entry.call
  cached : ∀ auth callId storedAt call,
    state.cache.get? (cacheKey auth callId) = some (storedAt, call) →
      Known P state.minted callId call

end

section

variable {P : Primitives} {config : TokenConfig} {minted : List Mint}

theorem Known.cons {callId : CallId} {call : ResolvedCall} (known : Known P minted callId call)
    (mint : Mint) : Known P (mint :: minted) callId call := by
  obtain ⟨found, member, rest⟩ := known
  exact ⟨found, mem_cons_of_mem _ member, rest⟩

variable {cache : CallStates} {now : UInt64} {cursor : UnpackedCursor} {times : Readings}
  (auth : AuthContext) (callId : CallId)

theorem cacheCall_bounded
    (call : ResolvedCall) (now : UInt64) (bounded : cache.size ≤ config.callStateCacheEntries) :
    (cacheCall config auth callId call now cache).size ≤ config.callStateCacheEntries := by
  unfold cacheCall
  split
  · exact bounded
  · split
    · have one : (empty.insert (cacheKey auth callId) (now, call)).size = 1 := by
        rw [size_insert, if_neg (by simp [OrderedMap.keys, empty])]
        rfl
      omega
    · rename_i room
      rw [size_insert]
      split
      · exact bounded
      · rename_i absent
        have notFull : ¬ config.callStateCacheEntries ≤ cache.size := fun full =>
          room ⟨full, absent⟩
        omega

/-- An entry after an insertion is the inserted one or was there before. -/
theorem cacheCall_get {auth other : AuthContext} {callId otherId : CallId} {call found :
    ResolvedCall} {now storedAt : UInt64} (get : (cacheCall config auth callId call now cache).get?
    (cacheKey other otherId) = some (storedAt, found)) :
    (otherId = callId ∧ found = call) ∨
      cache.get? (cacheKey other otherId) = some (storedAt, found) := by
  unfold cacheCall at get
  split at get
  · exact .inr get
  · split at get
    · rw [get?_insert] at get
      split at get
      · cases get
        exact .inl ⟨cacheKey_callId ‹_›, rfl⟩
      · cases get
    · rw [get?_insert] at get
      split at get
      · cases get
        exact .inl ⟨cacheKey_callId ‹_›, rfl⟩
      · exact .inr get

theorem afterLookup_bounded
    (now : UInt64) : (afterLookup config auth callId now cache).size ≤ cache.size := by
  unfold afterLookup
  split
  · split
    · exact Nat.le_refl _
    · exact size_remove_le _ _
  · exact Nat.le_refl _

theorem afterLookup_get {auth : AuthContext} {callId : CallId} {key : String} {entry : UInt64 ×
    ResolvedCall} (get : (afterLookup config auth callId now cache).get? key = some entry) :
    cache.get? key = some entry := by
  unfold afterLookup at get
  split at get
  · split at get
    · exact get
    · rw [get?_remove] at get
      split_ifs at get
      exact get
  · exact get

variable {token : String}

theorem openCall_ok {auth : AuthContext} {call : ResolvedCall}
    (opened : openCall P config auth cursor (some token) now = .ok call) :
    unpackCallToken P config.tokenKey (computeCallAad auth) token config.tokenTtlOpt now =
      .ok (cursor.callId, call) := by
  obtain ⟨⟨id, resolved⟩, unpacked, returns⟩ := exceptBind_eq_ok opened
  simp only at returns
  split_ifs at returns with same
  cases returns
  rw [unpacked, not_not.mp same]

/-- A call reopened from an authentic token is the call its id was minted for. -/
theorem openCall_known (lawful : P.Lawful) {auth : AuthContext} {call : ResolvedCall}
    (authentic : Authentic P config minted auth token now)
    (opened : openCall P config auth cursor (some token) now = .ok call) :
    Known P minted cursor.callId call := by
  have unpacked := openCall_ok opened
  obtain ⟨mint, member, rfl, identity⟩ := authentic _ unpacked
  rw [identity] at unpacked
  refine ⟨mint, member, (unpackCallToken_ok lawful unpacked).2.2.1.symm, ?_⟩
  intro fits
  rw [Mint.token, unpackCallToken_fits lawful _ _ _ _ _ fits] at unpacked
  obtain ⟨-, -, same⟩ := exceptMap_eq_ok unpacked
  exact (congrArg Prod.snd same).symm

/-- A claim about where a call comes from that holds of minted calls and of reopened ones. -/
structure Provenance (P : Primitives) (config : TokenConfig)
    (holds : List Mint → CallId → ResolvedCall → Prop) : Prop where
  cons : ∀ {minted callId call}, holds minted callId call → ∀ mint, holds (mint :: minted) callId call
  minted : ∀ mint minted, holds (mint :: minted) mint.callId mint.call
  reopened : ∀ {minted auth cursor token now call}, Authentic P config minted auth token now →
    openCall P config auth cursor (some token) now = .ok call → holds minted cursor.callId call

structure Sourced (holds : List Mint → CallId → ResolvedCall → Prop) (state : CacheState) :
    Prop where
  pending : ∀ entry ∈ state.pending, holds state.minted entry.callId entry.call
  cached : ∀ auth callId storedAt call,
    state.cache.get? (cacheKey auth callId) = some (storedAt, call) → holds state.minted callId call

variable {holds : List Mint → CallId → ResolvedCall → Prop}

theorem Sourced.start : Sourced holds ⟨OrderedMap.empty, [], []⟩ where
  pending entry member := by cases member
  cached auth callId storedAt call get := by cases get

variable {state after : CacheState}

theorem Sourced.step (provenance : Provenance P config holds) (sourced : Sourced holds state)
    (step : CacheStep P config state after) : Sourced holds after := by
  obtain ⟨pending, cached⟩ := sourced
  cases step with
  | mint mint unused =>
    refine ⟨forall_mem_cons.mpr ⟨provenance.minted mint _, ?_⟩, fun auth callId storedAt call get =>
      provenance.cons (cached auth callId storedAt call get) mint⟩
    exact fun entry member => provenance.cons (pending entry member) mint
  | mintElsewhere mint unused =>
    exact ⟨fun entry member => provenance.cons (pending entry member) mint,
      fun auth callId storedAt call get =>
        provenance.cons (cached auth callId storedAt call get) mint⟩
  | lookup auth callId now =>
    exact ⟨pending, fun other otherId storedAt call get =>
      cached other otherId storedAt call (afterLookup_get get)⟩
  | reopen auth cursor token now call authentic opened =>
    exact ⟨forall_mem_cons.mpr ⟨provenance.reopened authentic opened, pending⟩, cached⟩
  | store entry now =>
    constructor
    · intro other member
      apply pending other
      rcases mem_append.mp member with early | late
      · exact mem_append_left _ early
      · exact mem_append_right _ (mem_cons_of_mem _ late)
    · intro auth callId storedAt call get
      rcases cacheCall_get get with ⟨rfl, rfl⟩ | before
      · exact pending entry (mem_append_right _ (mem_cons_self ..))
      · exact cached auth callId storedAt call before

/-- Ids are drawn afresh. -/
theorem CacheStep.distinct (step : CacheStep P config state after)
    (distinct : (state.minted.map Mint.callId).Nodup) : (after.minted.map Mint.callId).Nodup := by
  cases step with
  | mint mint unused | mintElsewhere mint unused => exact nodup_cons.mpr ⟨unused, distinct⟩
  | lookup => exact distinct
  | reopen => exact distinct
  | store => exact distinct

theorem CacheInvariant.step (lawful : P.Lawful) (invariant : CacheInvariant P config state)
    (step : CacheStep P config state after) : CacheInvariant P config after := by
  obtain ⟨bounded, distinct, pending, cached⟩ := invariant
  have provenance : Provenance P config (Known P) :=
    ⟨fun known mint => known.cons mint, fun mint _ => ⟨mint, mem_cons_self .., rfl, fun _ => rfl⟩,
      openCall_known lawful⟩
  have sourced := Sourced.step provenance ⟨pending, cached⟩ step
  refine ⟨?_, step.distinct distinct, sourced.pending, sourced.cached⟩
  cases step with
  | mint => exact bounded
  | mintElsewhere => exact bounded
  | lookup => exact Nat.le_trans (afterLookup_bounded _ _ _) bounded
  | reopen => exact bounded
  | store => exact cacheCall_bounded _ _ _ _ bounded

theorem cacheInvariant (lawful : P.Lawful) :
    (cacheSystem P config).Invariant (CacheInvariant P config) where
  initial state initial := by
    cases initial
    exact ⟨Nat.zero_le _, nodup_nil, Sourced.start.pending, Sourced.start.cached⟩
  step _ _ invariant step := invariant.step lawful step

/-! ## Answers with and without the cache -/

theorem freshCall_get {auth : AuthContext} {callId : CallId}
    {call : ResolvedCall} (fresh : freshCall config auth callId now cache = some call) :
    ∃ storedAt, cache.get? (cacheKey auth callId) = some (storedAt, call) := by
  unfold freshCall at fresh
  split at fresh
  · rename_i storedAt found get
    split_ifs at fresh
    cases fresh
    exact ⟨storedAt, get⟩
  · cases fresh

/-- What is kept for a minted call is that call. -/
theorem CacheInvariant.freshCall_eq (invariant : CacheInvariant P config state) {mint : Mint}
    (member : mint ∈ state.minted) (fits : CallFits P mint.createdAt mint.callId mint.call)
    {auth : AuthContext} {call : ResolvedCall}
    (fresh : freshCall config auth mint.callId now state.cache = some call) : call = mint.call := by
  obtain ⟨storedAt, get⟩ := freshCall_get fresh
  obtain ⟨other, otherMember, sameId, same⟩ := invariant.cached _ _ _ _ get
  have one : other = mint := inj_on_of_nodup_map invariant.distinct otherMember member sameId
  rw [one] at same
  exact same fits

theorem resolveCall_fst (auth : AuthContext) (cursor : UnpackedCursor) (callToken : Option String)
    (times : Readings) (cache : CallStates) :
    (resolveCall P config auth cursor callToken times cache).1 =
      match freshCall config auth cursor.callId times.lookup cache with
      | some call => .ok call
      | none => openCall P config auth cursor callToken times.token := by
  unfold resolveCall
  cases freshCall config auth cursor.callId times.lookup cache with
  | some call => rfl
  | none => cases openCall P config auth cursor callToken times.token <;> rfl

theorem answer_fst (request : TokenRequest) (times : Readings) (cache : CallStates) :
    (answer P config request times cache).1 =
      (unpackCursorToken P config.tokenKey (computeAad request.auth) request.cursor
        config.tokenTtlOpt times.cursor).bind fun cursor =>
          (resolveCall P config request.auth cursor request.callToken times cache).1 := by
  unfold answer
  split <;> rename_i unpacked <;> rw [unpacked] <;> rfl

theorem answerWithoutCache_eq (request : TokenRequest) (times : Readings) :
    answerWithoutCache P config request times =
      (unpackCursorToken P config.tokenKey (computeAad request.auth) request.cursor
        config.tokenTtlOpt times.cursor).bind fun cursor =>
          openCall P config request.auth cursor request.callToken times.token := by
  rw [answerWithoutCache, answer_fst]
  refine congrArg (Except.bind _) (funext fun cursor => ?_)
  rw [resolveCall_fst, freshCall, get?_empty]
  rfl

theorem openCall_mint (lawful : P.Lawful) {mint : Mint} {auth : AuthContext} (now : UInt64) (fits :
    CallFits P mint.createdAt mint.callId mint.call) (identity : computeCallAad auth =
    computeCallAad mint.auth) (sameId : cursor.callId = mint.callId) :
    openCall P config auth cursor (some (mint.token P config)) now =
      (checkLifetime config.tokenTtlOpt mint.createdAt now).map fun _ => mint.call := by
  rw [openCall, identity, Mint.token, unpackCallToken_fits lawful _ _ _ _ _ fits]
  cases checkLifetime config.tokenTtlOpt mint.createdAt now with
  | error error => rfl
  | ok _ => exact if_neg (not_not.mpr sameId.symm)

def Mint.request (P : Primitives) (config : TokenConfig) (mint : Mint) (auth : AuthContext)
    (stateBytes : Bytes) (cursorAt : UInt64) (nonce : Nonce) : TokenRequest :=
  ⟨auth, packCursorToken P config.tokenKey (computeAad mint.auth) stateBytes mint.callId cursorAt
    nonce, some (mint.token P config)⟩

/-- The cursor of a request opens only for the caller it was sealed for. -/
def Bound (P : Primitives) (config : TokenConfig) (mint : Mint) (request : TokenRequest)
    (now : UInt64) : Prop :=
  ∀ cursor, unpackCursorToken P config.tokenKey (computeAad request.auth) request.cursor
    config.tokenTtlOpt now = .ok cursor → computeAad request.auth = computeAad mint.auth

/-- In every run the cache keeps within its capacity, and it changes no answer exactly
when the cursor is refused anyway, nothing fresh is kept for the call, or the call
token is still inside its lifetime. -/
theorem cache_keeps_answer_iff (lawful : P.Lawful) {state : CacheState}
    (reachable : (cacheSystem P config).Reachable state) :
    state.cache.size ≤ config.callStateCacheEntries ∧
    ∀ mint ∈ state.minted, CallFits P mint.createdAt mint.callId mint.call →
      ∀ (auth : AuthContext) (stateBytes : Bytes) (cursorAt : UInt64) (nonce : Nonce)
        (times : Readings),
        Bound P config mint (mint.request P config auth stateBytes cursorAt nonce) times.cursor →
        ((answer P config (mint.request P config auth stateBytes cursorAt nonce) times
            state.cache).1 =
          answerWithoutCache P config (mint.request P config auth stateBytes cursorAt nonce) times ↔
          (∀ cursor, unpackCursorToken P config.tokenKey (computeAad auth)
            (mint.request P config auth stateBytes cursorAt nonce).cursor config.tokenTtlOpt
            times.cursor ≠ .ok cursor) ∨
          freshCall config auth mint.callId times.lookup state.cache = none ∨
          WithinLifetime config.tokenTtlOpt mint.createdAt times.token) := by
  have invariant := (cacheInvariant lawful).reachable reachable
  refine ⟨invariant.bounded, ?_⟩
  intro mint member fits auth stateBytes cursorAt nonce times bound
  rw [answer_fst, answerWithoutCache_eq]
  change (Except.bind (unpackCursorToken P config.tokenKey (computeAad auth) _ _ _) _ =
    Except.bind (unpackCursorToken P config.tokenKey (computeAad auth) _ _ _) _) ↔ _
  cases opened : unpackCursorToken P config.tokenKey (computeAad auth)
      (mint.request P config auth stateBytes cursorAt nonce).cursor config.tokenTtlOpt
      times.cursor with
  | error error => simp [Except.bind]
  | ok cursor =>
    have aad := bound cursor opened
    have sameId : cursor.callId = mint.callId := by
      have unpacked := opened
      rw [show computeAad auth = computeAad mint.auth from aad] at unpacked
      rw [unpackCursorToken_ok lawful unpacked]
    have reopened : openCall P config auth cursor (some (mint.token P config)) times.token = _ :=
      openCall_mint lawful times.token fits (computeCallAad_of_computeAad aad) sameId
    change (resolveCall P config auth cursor (some (mint.token P config)) times state.cache).1 =
      openCall P config auth cursor (some (mint.token P config)) times.token ↔ _
    rw [resolveCall_fst, sameId, reopened, ← checkLifetime_ok]
    cases fresh : freshCall config auth mint.callId times.lookup state.cache with
    | none => simp
    | some call =>
      rw [invariant.freshCall_eq member fits fresh]
      cases checkLifetime config.tokenTtlOpt mint.createdAt times.token <;> simp [Except.map]

end

/-! ## A token that outlives its lifetime

A call is minted at second 0 with a lifetime of ten seconds.  At second 9 a server
that did not see the `/init` opens its token and keeps the call. -/

namespace Sample

def config : TokenConfig := ⟨List.replicate 32 0, 10 * 10 ^ 9, 4096⟩

def auth : AuthContext := ⟨false, "", "", OrderedMap.empty⟩

def callId : CallId := ⟨List.replicate callIdLength 0, by simp⟩

def call : ResolvedCall := ⟨[1, 2, 3], [], "stream", none, none⟩

def mint : Mint := ⟨auth, callId, call, 0, nonce⟩

def refilled : CacheState :=
  ⟨cacheCall config auth callId call 9 OrderedMap.empty, [], [mint]⟩

theorem payloadFits (plaintext : Bytes) : PayloadFits primitives plaintext := by
  intro packed packs shorter
  cases packs
  exact absurd shorter (Nat.lt_irrefl _)

theorem mint_fits : CallFits primitives mint.createdAt mint.callId mint.call :=
  ⟨payloadFits _, by decide, by decide, by decide⟩

theorem refilled_reachable : (cacheSystem primitives config).Reachable refilled := by
  have first : (cacheSystem primitives config).Reachable ⟨empty, [], [mint]⟩ :=
    .next (.start rfl) (.mintElsewhere mint (by simp))
  have opened : openCall primitives config auth ⟨[], callId, 9⟩ (some (mint.token primitives config))
      9 = .ok call := openCall_mint primitives_lawful 9 mint_fits rfl rfl
  have second : (cacheSystem primitives config).Reachable ⟨empty, [⟨auth, callId, call⟩], [mint]⟩ :=
    .next first (.reopen auth ⟨[], callId, 9⟩ (mint.token primitives config) 9 call
      (fun _ _ => ⟨mint, mem_singleton_self _, rfl, rfl⟩) opened)
  have third : CacheStep primitives config ⟨empty, [] ++ ⟨auth, callId, call⟩ :: [], [mint]⟩
      refilled := .store ⟨auth, callId, call⟩ 9
  exact .next second third

/-- At second 15 the call was kept for six seconds only. -/
theorem refilled_fresh : freshCall config auth callId 15 refilled.cache = some call := by
  have room : ¬ (config.callStateCacheEntries ≤ (empty : CallStates).size ∧
      cacheKey auth callId ∉ (empty : CallStates).keys) := by
    intro full
    exact absurd full.1 (by decide)
  have kept : refilled.cache.get? (cacheKey auth callId) = some (9, call) := by
    rw [refilled, cacheCall, if_neg (by decide), if_neg room, get?_insert_self]
  rw [freshCall, kept]
  exact if_pos (by decide)

def request : TokenRequest := mint.request primitives config auth [7] 9 nonce

def requestAt (now : UInt64) : Readings := ⟨now, now, now, now⟩

end Sample

open Sample

/-- At second 10 the token would open, so the kept call is the answer without a cache too. -/
theorem cache_keeps_answer_iff_refilled : (answer primitives config request (requestAt 10)
        refilled.cache).1 =
      answerWithoutCache primitives config request (requestAt 10) :=
  ((cache_keeps_answer_iff primitives_lawful refilled_reachable).2 mint
    (mem_singleton_self _) mint_fits auth [7] 9 nonce (requestAt 10) (fun _ _ => rfl)).mpr
      (.inr (.inr (checkLifetime_ok.mp (by decide))))

/-- At second 15 the call token has expired, and the kept call is still the answer. -/
theorem expired_call_token_accepted : (cacheSystem primitives config).Reachable refilled ∧
    (answer primitives config request (requestAt 15) refilled.cache).1 = .ok call ∧
    answerWithoutCache primitives config request (requestAt 15) =
      .error (.runtimeError "State token expired") := by
  have opened : unpackCursorToken primitives config.tokenKey
      (computeAad request.auth) request.cursor config.tokenTtlOpt 15 = .ok ⟨[7], callId, 9⟩ := by
    refine (unpackCursorToken_accepts primitives_lawful _ _ _ _ _ _ _ _).mpr ⟨?_, ?_⟩
    · exact ⟨payloadFits _, by decide⟩
    · exact checkLifetime_ok.mp (by decide)
  rw [answer_fst, answerWithoutCache_eq, show (requestAt 15).cursor = 15 from rfl, opened]
  refine ⟨refilled_reachable, ?_, ?_⟩
  · change (resolveCall _ _ _ _ _ _ _).1 = _
    rw [resolveCall_fst, show freshCall config request.auth callId
      (requestAt 15).lookup refilled.cache = some call from refilled_fresh]
  · rw [Except.bind]
    exact openCall_mint primitives_lawful 15 mint_fits rfl rfl

end VgiRpc.Http
