import VgiRpc.Http.Dispatch
import VgiRpc.Sticky.Lifetime

/-!
# A client and its session

A client keeps the token of its session and presents it with every call; what a handler
does to the session comes back in two headers of the response.  The registry meanwhile
serves other callers, and time passes.
-/

namespace VgiRpc.Sticky

open Arrow Library Http
open Http.Dispatch (HttpServer Origin Request respond)

/-- `VGI-Session` and `VGI-Session-Close`. -/
structure SessionHeaders where
  session : Option String
  close : Bool

def stampSessionHeaders {S : Type} (sink : StickySink S) : SessionHeaders :=
  ⟨sink.mintToken, sink.closed⟩

def unstamped : SessionHeaders := ⟨none, false⟩

/-- The client's token once it has read the headers of a response. -/
def processSessionHeaders (token : Option String) (headers : SessionHeaders) : Option String :=
  if headers.close then none
  else
    match headers.session with
    | some minted => some minted
    | none => token

/-- A call that reached its handler, with what its response is made from. -/
structure HttpCall (A : ArrowIpc) (σ : Type) where
  server : HttpServer A
  origin : Origin
  accepted : Option ByteBudget
  request : Request A σ

def HttpCall.stamped {A : ArrowIpc} {σ : Type} (call : HttpCall A σ) : Bool :=
  (respond call.server call.origin call.accepted call.request).stamped

def HttpCall.headers {A : ArrowIpc} {σ S : Type} (call : HttpCall A σ) (sink : StickySink S) :
    SessionHeaders :=
  if call.stamped then stampSessionHeaders sink else unstamped

structure InFlight (S : Type) where
  auth : AuthContext
  sink : StickySink S

/-- The server's sessions, the client's token, every session its calls opened, and the
call it waits for. -/
structure Conversation (S : Type) where
  server : Sessions S
  token : Option String
  own : List (Opening S)
  call : Option (InFlight S)

inductive Event (S : Type) (A : ArrowIpc) (σ : Type) where
  /-- Another caller, the reaper, an operator or the clock. -/
  | elsewhere (after : Sessions S)
  /-- A call that is answered before a handler runs, for a lost session or otherwise. -/
  | turnedAway (auth : AuthContext) (now : Nat)
  | begun (auth : AuthContext) (now : Nat)
  | opened (state : S) (ttl : Option Nat) (readings : OpenReadings)
  | closed
  /-- The response leaves the server; the client reads its headers or never gets there. -/
  | responded (call : HttpCall A σ) (received : Bool)

section

variable {S : Type} (P : SessionPrimitives) (ctx : StickyContext)

def namedSession (auth : AuthContext) (header : Option String) : Option SessionId :=
  match (presented header).map fun token =>
      openSessionToken P token ctx.tokenKey (computeSessionAad auth) with
  | some (.ok (serverId, sessionId, _)) => if serverId = ctx.serverId then some sessionId else none
  | _ => none

variable (run : Sessions S) (auth : AuthContext)

def Sessions.resolved (header : Option String) (now : Nat) : Sessions S :=
  { run with
    registry := (resolve P ctx auth true header now run.registry).2
    evicted := (namedSession P ctx auth header).elim [] (run.registry.evictedBy · now) ++
      run.evicted }

def Sessions.opening (state : S) (ttl : Option Nat) (readings : OpenReadings) : Opening S :=
  ⟨auth, readings.sessionId, state, readings.now + ttl.getD run.registry.defaultTtl,
    readings.nowUnix + UInt64.ofNat (ttl.getD run.registry.defaultTtl / 10 ^ 9),
    readings.sealedAt, readings.nonce⟩

def Sessions.closing (sink : StickySink S) : Sessions S :=
  { run with
    registry := (sink.close run.registry).2
    ended := (sink.currentSid.bind hexToSid).toList ++ run.ended }

variable {A : ArrowIpc} {σ : Type}

/-- The client makes one call at a time, under one identity. -/
inductive Step (caller : Identity) : Conversation S → Event S A σ → Conversation S → Prop where
  | elsewhere {talk : Conversation S} {after : Sessions S} (step : SessionStep talk.server after) :
      Step caller talk (.elsewhere after) { talk with server := after }
  | turnedAway {talk : Conversation S} {auth : AuthContext} {now : Nat} (idle : talk.call = none)
      (known : auth.identity = caller) (taken : now ≤ talk.server.clock) :
      Step caller talk (.turnedAway auth now)
        { talk with server := talk.server.resolved P ctx auth talk.token now }
  | begun {talk : Conversation S} {auth : AuthContext} {now : Nat} {sink : StickySink S}
      (idle : talk.call = none) (known : auth.identity = caller)
      (taken : now ≤ talk.server.clock)
      (found : (resolve P ctx auth true talk.token now talk.server.registry).1 = .sink sink) :
      Step caller talk (.begun auth now)
        { talk with
          server := talk.server.resolved P ctx auth talk.token now
          call := some ⟨auth, sink⟩ }
  | opened {talk : Conversation S} {auth : AuthContext} {sink after : StickySink S} {state : S}
      {ttl : Option Nat} {readings : OpenReadings} {registry : SessionRegistry S}
      (busy : talk.call = some ⟨auth, sink⟩) (taken : readings.now ≤ talk.server.clock)
      (unused : readings.sessionId ∉ talk.server.openings.map Opening.sessionId)
      (result : sink.handlerOpen P ctx state ttl readings talk.server.registry =
        .ok (after, registry)) :
      Step caller talk (.opened state ttl readings)
        { talk with
          server := { talk.server with
            registry := registry
            openings := talk.server.opening auth state ttl readings :: talk.server.openings }
          own := talk.server.opening auth state ttl readings :: talk.own
          call := some ⟨auth, after⟩ }
  | closed {talk : Conversation S} {auth : AuthContext} {sink : StickySink S}
      (busy : talk.call = some ⟨auth, sink⟩) :
      Step caller talk .closed
        { talk with
          server := talk.server.closing sink
          call := some ⟨auth, (sink.close talk.server.registry).1⟩ }
  | responded {talk : Conversation S} {auth : AuthContext} {sink : StickySink S}
      (busy : talk.call = some ⟨auth, sink⟩) (call : HttpCall A σ) (received : Bool) :
      Step caller talk (.responded call received)
        { talk with
          token := if received then processSessionHeaders talk.token (call.headers sink)
            else talk.token
          call := none }

end

section

variable {S : Type} (P : SessionPrimitives) (ctx : StickyContext)

/-- Of the sessions that the client's calls opened, the live ones are those whose token
the client holds; it holds no other token. -/
def Agreement (talk : Conversation S) : Prop :=
  (∀ opening ∈ talk.own, (talk.token = some (opening.token P ctx) ↔ talk.server.Live opening)) ∧
  ∀ text, talk.token = some text → ∃ opening ∈ talk.own, text = opening.token P ctx

def Quiet (sink : StickySink S) (token : Option String) : Prop :=
  if sink.currentState.isSome then sink.mintToken = none else token = none

variable {A : ArrowIpc} {σ : Type}

/-- What a step has to meet.  Nothing that happens elsewhere ends a live session of the
client, a session is not opened past its own expiry, and a call that changes the session
is answered with the session headers, which the client reads. -/
def Meets (talk : Conversation S) : Event S A σ → Prop
  | .elsewhere after =>
    ∀ opening ∈ talk.own, talk.server.Live opening →
      opening.sessionId ∉ after.ended ∧ after.clock ≤ opening.expiresAt
  | .opened _ ttl readings =>
    talk.server.clock ≤ readings.now + ttl.getD talk.server.registry.defaultTtl
  | .responded call received =>
    ∀ busy, talk.call = some busy →
      (call.stamped = true ∧ received = true) ∨ Quiet busy.sink talk.token
  | .turnedAway _ _ | .begun _ _ | .closed => True

/-- A client starts without a session, or resumes one that is live. -/
def Starts (caller : Identity) (talk : Conversation S) : Prop :=
  (sessionSystem S ctx).Reachable talk.server ∧ talk.call = none ∧
    ∃ resumed : Option (Opening S), talk.own = resumed.toList ∧
      talk.token = resumed.map (·.token P ctx) ∧
      ∀ opening, resumed = some opening → talk.server.Live opening ∧ opening.auth.identity = caller

/-- The runs whose steps all meet the condition. -/
def conversationSystem (A : ArrowIpc) (σ : Type) (caller : Identity) :
    TransitionSystem (Conversation S) where
  initial := Starts P ctx caller
  step talk after := ∃ event : Event S A σ, Step P ctx caller talk event after ∧ Meets talk event

end

end VgiRpc.Sticky
