import VgiRpc.Http.Identity
import VgiRpc.Http.CallCache

/-!
# Runs of streams

Many callers open and continue streams on servers that share a token key.  Each call
is minted for one caller, and each cursor for the caller that presented the one
before it.  Whatever a request presents, the call it is answered with was minted for
a caller with the same associated data.
-/

namespace VgiRpc.Http

open Library ByteStream

/-- One cursor handed out, to the caller of the request. -/
structure CursorMint where
  auth : AuthContext
  callId : CallId
  stateBytes : Bytes
  createdAt : UInt64
  nonce : Nonce

structure StreamRun where
  calls : CacheState
  cursors : List CursorMint

section

variable (P : Primitives) (config : TokenConfig)

def CursorMint.token (cursor : CursorMint) : String :=
  packCursorToken P config.tokenKey (computeAad cursor.auth) cursor.stateBytes cursor.callId
    cursor.createdAt cursor.nonce

/-- What the cipher stands for: a cursor that opens for a caller was sealed for that
caller by a server with this key. -/
def AuthenticCursor (cursors : List CursorMint) (auth : AuthContext) (token : String)
    (now : UInt64) : Prop :=
  ∀ opened, unpackCursorToken P config.tokenKey (computeAad auth) token config.tokenTtlOpt now =
      .ok opened →
    ∃ cursor ∈ cursors, token = cursor.token P config ∧ computeAad auth = computeAad cursor.auth

inductive StreamStep : StreamRun → StreamRun → Prop where
  /-- A call is minted, looked up, reopened from its token or kept. -/
  | call {before after : CacheState} {cursors : List CursorMint}
      (step : CacheStep P config before after) : StreamStep ⟨before, cursors⟩ ⟨after, cursors⟩
  /-- `/init` hands out the first cursor of its call. -/
  | first {calls : CacheState} {cursors : List CursorMint} (mint : Mint)
      (member : mint ∈ calls.minted) (stateBytes : Bytes) (createdAt : UInt64) (nonce : Nonce) :
      StreamStep ⟨calls, cursors⟩
        ⟨calls, ⟨mint.auth, mint.callId, stateBytes, createdAt, nonce⟩ :: cursors⟩
  /-- A continuation hands out a new cursor to whoever presented the old one. -/
  | turn {calls : CacheState} {cursors : List CursorMint} (auth : AuthContext) (token : String)
      (now : UInt64) (opened : UnpackedCursor)
      (authentic : AuthenticCursor P config cursors auth token now)
      (unpacked : unpackCursorToken P config.tokenKey (computeAad auth) token config.tokenTtlOpt
        now = .ok opened)
      (stateBytes : Bytes) (createdAt : UInt64) (nonce : Nonce) :
      StreamStep ⟨calls, cursors⟩
        ⟨calls, ⟨auth, opened.callId, stateBytes, createdAt, nonce⟩ :: cursors⟩

def streamSystem : TransitionSystem StreamRun where
  initial run := run = ⟨⟨OrderedMap.empty, [], []⟩, []⟩
  step := StreamStep P config

/-- The call that was minted, or what its own token reads as. -/
def Mint.Yields (mint : Mint) (call : ResolvedCall) : Prop :=
  call = mint.call ∨ ∃ now, unpackCallToken P config.tokenKey (computeCallAad mint.auth)
    (mint.token P config) config.tokenTtlOpt now = .ok (mint.callId, call)

def From (minted : List Mint) (callId : CallId) (call : ResolvedCall) : Prop :=
  ∃ mint ∈ minted, mint.callId = callId ∧ mint.Yields P config call

structure StreamInvariant (run : StreamRun) : Prop where
  distinct : (run.calls.minted.map Mint.callId).Nodup
  sourced : Sourced (From P config) run.calls
  cursors : ∀ cursor ∈ run.cursors, ∃ mint ∈ run.calls.minted,
    mint.callId = cursor.callId ∧ computeAad cursor.auth = computeAad mint.auth

end

section

variable {P : Primitives} {config : TokenConfig} {auth : AuthContext} {token : String}
  {now : UInt64} {call : ResolvedCall}

/-- A call reopened from an authentic token comes from the mint its id names. -/
theorem openCall_from (lawful : P.Lawful) {minted : List Mint} {cursor : UnpackedCursor}
    (authentic : Authentic P config minted auth token now)
    (opened : openCall P config auth cursor (some token) now = .ok call) :
    From P config minted cursor.callId call := by
  have unpacked := openCall_ok opened
  obtain ⟨mint, member, rfl, identity⟩ := authentic _ unpacked
  rw [identity] at unpacked
  have named : cursor.callId = mint.callId := (unpackCallToken_ok lawful unpacked).2.2.1
  rw [named] at unpacked ⊢
  exact ⟨mint, member, rfl, .inr ⟨now, unpacked⟩⟩

theorem from_provenance (lawful : P.Lawful) : Provenance P config (From P config) where
  cons := by
    rintro minted callId call ⟨found, member, rest⟩ mint
    exact ⟨found, List.mem_cons_of_mem _ member, rest⟩
  minted mint _ := ⟨mint, List.mem_cons_self .., rfl, .inl rfl⟩
  reopened authentic opened := openCall_from lawful authentic opened

/-- Minted calls are never forgotten. -/
theorem CacheStep.minted_subset {before after : CacheState} (step : CacheStep P config before after)
    {mint : Mint} (member : mint ∈ before.minted) : mint ∈ after.minted := by
  cases step with
  | mint | mintElsewhere => exact List.mem_cons_of_mem _ member
  | lookup => exact member
  | reopen => exact member
  | store => exact member

variable {run : StreamRun}

/-- The cursor of a request and the call it names belong to one caller. -/
theorem StreamInvariant.opened (lawful : P.Lawful) (invariant : StreamInvariant P config run)
    {opened : UnpackedCursor} (authentic : AuthenticCursor P config run.cursors auth token now)
    (unpacked : unpackCursorToken P config.tokenKey (computeAad auth) token config.tokenTtlOpt now =
    .ok opened) :
    ∃ mint ∈ run.calls.minted, mint.callId = opened.callId ∧
      computeAad auth = computeAad mint.auth := by
  obtain ⟨cursor, member, rfl, identity⟩ := authentic opened unpacked
  rw [identity] at unpacked ⊢
  have same := unpackCursorToken_ok lawful unpacked
  obtain ⟨mint, known, named, caller⟩ := invariant.cursors cursor member
  exact ⟨mint, known, by rw [named, same], caller⟩

theorem StreamInvariant.step (lawful : P.Lawful) {after : StreamRun}
    (invariant : StreamInvariant P config run) (step : StreamStep P config run after) :
    StreamInvariant P config after := by
  cases step with
  | call step =>
    refine ⟨step.distinct invariant.distinct,
      invariant.sourced.step (from_provenance lawful) step, ?_⟩
    intro cursor member
    obtain ⟨mint, known, rest⟩ := invariant.cursors cursor member
    exact ⟨mint, step.minted_subset known, rest⟩
  | first mint known stateBytes createdAt nonce =>
    exact ⟨invariant.distinct, invariant.sourced,
      List.forall_mem_cons.mpr ⟨⟨mint, known, rfl, rfl⟩, invariant.cursors⟩⟩
  | turn auth token now opened authentic unpacked stateBytes createdAt nonce =>
    exact ⟨invariant.distinct, invariant.sourced,
      List.forall_mem_cons.mpr ⟨invariant.opened lawful authentic unpacked, invariant.cursors⟩⟩

theorem streamInvariant (lawful : P.Lawful) :
    (streamSystem P config).Invariant (StreamInvariant P config) where
  initial run initial := by
    cases initial
    exact ⟨List.nodup_nil, .start, fun cursor member => by cases member⟩
  step _ _ invariant step := invariant.step lawful step

/-- In every run, the call that a request is answered with was minted for a caller with
the associated data of the request's own caller. -/
theorem answer_caller (lawful : P.Lawful) (reachable : (streamSystem P config).Reachable run)
    {request : TokenRequest} {times : Readings} (cursorAuthentic : AuthenticCursor P config
    run.cursors request.auth request.cursor times.cursor) (callAuthentic : ∀ token,
    request.callToken = some token → Authentic P config run.calls.minted request.auth token
    times.token) (answered : (answer P config request times run.calls.cache).1 = .ok call) :
    ∃ mint ∈ run.calls.minted, mint.Yields P config call ∧
      computeAad request.auth = computeAad mint.auth := by
  have invariant := (streamInvariant lawful).reachable reachable
  rw [answer_fst] at answered
  obtain ⟨cursor, unpacked, answered⟩ := exceptBind_eq_ok answered
  rw [resolveCall_fst] at answered
  have source : From P config run.calls.minted cursor.callId call := by
    cases fresh : freshCall config request.auth cursor.callId times.lookup run.calls.cache with
    | some kept =>
      rw [fresh] at answered
      cases answered
      obtain ⟨storedAt, get⟩ := freshCall_get fresh
      exact invariant.sourced.cached _ _ _ _ get
    | none =>
      rw [fresh] at answered
      cases given : request.callToken with
      | none => rw [given] at answered; cases answered
      | some token =>
        rw [given] at answered
        exact openCall_from lawful (callAuthentic token given) answered
  obtain ⟨mint, member, named, yields⟩ := source
  obtain ⟨owner, known, same, caller⟩ := invariant.opened lawful cursorAuthentic unpacked
  have one : owner = mint :=
    List.inj_on_of_nodup_map invariant.distinct known member (same.trans named.symm)
  exact ⟨mint, member, yields, one ▸ caller⟩

end

end VgiRpc.Http
