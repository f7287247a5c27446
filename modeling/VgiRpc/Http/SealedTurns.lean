import VgiRpc.Http.Continuation
import VgiRpc.Http.Equivalence
import VgiRpc.Server.OnWire

/-!
# Turns on sealed cursors

The cursors the server hands out, sealed by its key and opened by the next request,
carry a stream from turn to turn as long as they keep the limits of the way back.
-/

namespace VgiRpc.Http

open Arrow Server

structure Requests where
  mintedAt : Nat → UInt64
  nonce : Nat → Nonce
  times : Nat → Readings
  cache : Nat → CallStates

section

variable {σ : Type} (P : Primitives) (A : ArrowIpc) (config : TokenConfig)
  (codec : StreamStateCodec σ) (mint : Mint)

/-- The cursors of one stream call; `kind` is what the registered decoder makes of a
state. -/
def sealedCursors (method : String) (registered : Bool) (kind : σ → StreamStateKind σ)
    (requests : Requests) : Cursors String σ where
  mint request state :=
    (buildCursorToken P config codec mint.auth state mint.callId (requests.mintedAt request)
      (requests.nonce request)).map Prod.fst
  reopen request cursor :=
    (reopen P A config method (registeredDecoder registered codec)
      ⟨mint.auth, cursor, some (mint.token P config)⟩ (requests.times request)
      (requests.cache request)).map fun reopened =>
        ⟨kind reopened.state, reopened.outputSchema, reopened.inputSchema⟩

/-- From this request to the next one every state encodes and keeps the limits of the way
back, and the tokens are alive. -/
structure Carries (call : StreamCall) (registered : Bool) (requests : Requests) (request : Nat) :
    Prop where
  able : ∀ state, ∃ stateBytes, callGuard (codec.encode state) = .ok stateBytes ∧
    Reopenable P A config mint call codec registered state stateBytes (requests.mintedAt request)
      mint.auth (requests.times (request + 1)) (requests.cache (request + 1))
  cursorAlive : WithinLifetime config.tokenTtlOpt (requests.mintedAt request)
    (requests.times (request + 1)).cursor
  callAlive : WithinLifetime config.tokenTtlOpt mint.createdAt (requests.times (request + 1)).token

variable {P A config codec mint} {emptyBatch : Schema → Except Failure A.Batch}
  {call : StreamCall} (result : StreamResult A σ) {registered : Bool}
  {requests : Requests} {request : Nat} (lawful : P.Lawful) (arrow : A.Lawful)
  (named : ∀ schema batch, emptyBatch schema = .ok batch → A.schemaOf batch = schema)
  (coded : codec.Lawful) (fixed : call.resolved A emptyBatch = .ok mint.call)
  (output : call.outputSchema = result.outputSchema) (input : call.inputSchema = result.inputSchema)
  (method : String)
include lawful arrow named coded fixed output input

theorem sealedCursors_faithful
    (carries : Carries P A config codec mint call registered requests request) :
    Faithful (sealedCursors P A config codec mint method registered (replaceState result.state)
      requests) result request := by
  intro state
  obtain ⟨stateBytes, encoded, able⟩ := carries.able state
  obtain ⟨outputRead, inputRead⟩ := resolved_schemas arrow named fixed
  have unpacked := (unpackCursorToken_accepts lawful config.tokenKey (computeAad mint.auth) _ _ _
    (requests.nonce request) _ _).mpr ⟨able.cursor, carries.cursorAlive⟩
  have resolves : (resolveCall P config mint.auth ⟨stateBytes, mint.callId,
      requests.mintedAt request⟩ _ _ _).1 = _ :=
    (resolveCall_mint_iff lawful rfl rfl carries.callAlive).mpr able.resolves
  have opened := reopen_opened ⟨mint.auth, _, some (mint.token P config)⟩ unpacked resolves
    (outputRead.mpr able.output) (inputRead.mpr able.input) method
    (registeredDecoder registered codec)
  rw [(decodeState_iff coded encoded method registered).mpr ⟨able.registered, able.decodes⟩]
    at opened
  refine ⟨packCursorToken P config.tokenKey (computeAad mint.auth) stateBytes mint.callId
    (requests.mintedAt request) (requests.nonce request), ?_, ?_⟩
  · simp only [sealedCursors, buildCursorToken, encoded]
    rfl
  · rw [Opens, ← output, ← input]
    exact congrArg (Except.map _) opened

end

namespace Sample

open Arrow.Sample

/-- A state of one byte, with a codec written by hand. -/
def flag : StreamStateCodec Bool :=
  .manual (fun state => .returned (.ok [cond state 1 0])) fun bytes =>
    .returned (.ok (bytes == [1]))

def toggle : StreamMethod library Bool where
  produce state out := ⟨[], out, !state, .returned (.ok ())⟩
  exchange state _ out := ⟨[], out, state, .panicked⟩
  onCancel _ := ([], .panicked)

def requests : Requests := ⟨fun _ => 0, fun _ => nonce, fun _ => requestAt 1, fun _ => .empty⟩

theorem flag_carries (request : Nat) :
    Carries primitives library config flag streamMint streamCall true requests request where
  able state := ⟨[cond state 1 0], rfl, rfl, by cases state <;> rfl,
    ⟨payloadFits _, by simp⟩, .inr ⟨rfl, streamMint_fits⟩, schemaFits_empty,
    by rintro schema ⟨⟩⟩
  cursorAlive := checkLifetime_ok.mp rfl
  callAlive := checkLifetime_ok.mp rfl

end Sample

end VgiRpc.Http
