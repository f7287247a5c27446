import VgiRpc.Client.ResumeToken
import VgiRpc.Envelope
import VgiRpc.Library.Program

/-!
# HTTP stream sessions

The client's side of a stream over HTTP.  Each response is a stream of frames that
comes to at most one batch and, while the stream goes on, a cursor; a session holds
the cursor and posts it for the next response.  `tick` follows cursors until a batch
arrives, `nextWithToken` reads one response and hands out where to go on from.
-/

namespace VgiRpc.Client

open Library Metadata

abbrev Item (β : Type) := β × Metadata

/-- The frames of an IPC stream that could be read, and the failure behind them. -/
structure Body (β : Type) where
  frames : List (Item β)
  failure : Option RpcError

/-- What a client is configured with: how it reads batches, and its resolver of
external pointers, which returns the fetched stream and the elapsed time as text. -/
structure ClientConfig (β : Type) where
  numRows : β → Nat
  json : JsonReader
  urlHost : String → Option String
  external : Option (Metadata → Except RpcError (Option (Body β × String)))

structure ParsedStream (β : Type) where
  batches : List (Item β)
  token : Option String
  callToken : Option String
  finished : Bool

/-- A response while it is parsed, and the logs handed to the callback so far. -/
structure Parsing (β : Type) where
  out : ParsedStream β
  logs : List LogMessage

section

variable {β : Type} (config : ClientConfig β) (metadata : Metadata)

def unresolvedPointerError : RpcError :=
  let host := (config.urlHost ((mdGet metadata locationKey).getD "")).getD "<unparseable>"
  .protocolError ("received an external-location pointer batch (storage host " ++ host ++
    ") but this client has no external-location resolver configured; the payload would " ++
    "otherwise be delivered as a zero-row batch")

/-- A token of the metadata replaces the one known before. -/
def takeToken (key : String) (before : Option String) : Option String :=
  (mdGet metadata key).or before

variable (stateFrameAsData : Bool) (frame : Item β)

/-- A data frame: its tokens are taken off, and a frame that carried a cursor is data
only where the caller says so. -/
def collectData (out : ParsedStream β) : ParsedStream β :=
  let metadata := (frame.2.remove callStateKey).remove stateKey
  let isData := (mdGet frame.2 stateKey).isNone ||
    (stateFrameAsData && (config.numRows frame.1 != 0 || out.batches.isEmpty))
  { out with
    callToken := takeToken frame.2 callStateKey out.callToken
    token := takeToken frame.2 stateKey out.token
    batches := if isData then out.batches ++ [(frame.1, metadata)] else out.batches }

def processFrameWith (pointer : Metadata → Program (Parsing β) RpcError Unit)
    (stateFrameAsData : Bool) (frame : Item β) : Program (Parsing β) RpcError Unit :=
  match classify config.json (config.numRows frame.1) frame.2 with
  | .log message => modify fun parsing => { parsing with logs := parsing.logs ++ [message] }
  | .exception error => throw error
  | .pointer => pointer frame.2
  | .data => modify fun parsing =>
    { parsing with out := collectData config stateFrameAsData frame parsing.out }

def processFrames (step : Item β → Program (Parsing β) RpcError Unit) (body : Body β) :
    Program (Parsing β) RpcError Unit := do
  body.frames.forM step
  match body.failure with
  | some error => throw error
  | none => pure ()

def refusePointer : Program (Parsing β) RpcError Unit :=
  throw (unresolvedPointerError config metadata)

def stampFetched (fetchMs url : String) (item : Item β) : Item β :=
  (item.1, (item.2.insert locationFetchMsKey fetchMs).insert locationSourceKey url)

/-- Fetch what a pointer stands for and process it; a pointer inside is refused. -/
def resolvePointer (fetch : Metadata → Except RpcError (Option (Body β × String)))
    (stateFrameAsData : Bool) (pointer : Metadata) : Program (Parsing β) RpcError Unit := do
  modify fun parsing =>
    { parsing with out := { parsing.out with
        token := takeToken pointer stateKey parsing.out.token
        callToken := takeToken pointer callStateKey parsing.out.callToken } }
  let metadata := (pointer.remove stateKey).remove callStateKey
  let firstNew := (← get).out.batches.length
  match ← fetch metadata with
  | none => pure ()
  | some (inner, fetchMs) =>
    processFrames (processFrameWith config (refusePointer config) stateFrameAsData) inner
    let stamp := stampFetched fetchMs ((mdGet metadata locationKey).getD "")
    modify fun parsing =>
      { parsing with out := { parsing.out with
          batches := parsing.out.batches.take firstNew ++
            (parsing.out.batches.drop firstNew).map stamp } }

def processFrame : Program (Parsing β) RpcError Unit :=
  let pointer :=
    match config.external with
    | some fetch => resolvePointer config fetch stateFrameAsData
    | none => refusePointer config
  processFrameWith config pointer stateFrameAsData frame

def parseResponse (body : Body β) : Except RpcError (ParsedStream β) × List LogMessage :=
  match processFrames (processFrame config stateFrameAsData) body ⟨⟨[], none, none, true⟩, []⟩ with
  | (.error error, parsing) => (.error error, parsing.logs)
  | (.ok _, parsing) =>
    if 1 < parsing.out.batches.length then
      (.error (.protocolError "HTTP response contained more than one data batch"), parsing.logs)
    else (.ok { parsing.out with finished := parsing.out.token.isNone }, parsing.logs)

def readUnary (body : Body β) : Except RpcError (Item β) × List LogMessage :=
  match parseResponse config true body with
  | (.error error, logs) => (.error error, logs)
  | (.ok parsed, logs) =>
    match parsed.batches with
    | [] => (.error ⟨"TransportError", "no result batch in http response"⟩, logs)
    | item :: _ => (.ok item, logs)

variable {config}

/-- A response comes to at most one batch, and ends the stream exactly without a cursor. -/
theorem parseResponse_ok {stateFrameAsData : Bool} {body : Body β} {parsed : ParsedStream β}
    (ok : (parseResponse config stateFrameAsData body).1 = .ok parsed) :
    parsed.batches.length ≤ 1 ∧ parsed.finished = parsed.token.isNone := by
  unfold parseResponse at ok
  split at ok
  · cases ok
  · split_ifs at ok with few
    cases ok
    exact ⟨Nat.not_lt.mp few, rfl⟩

end

/-- What a continuation sends, apart from the random id of the request. -/
structure ContinuationRequest where
  token : String
  callToken : Option String
  cancel : Bool
  metadata : Option Metadata

/-- The other end: what a posted continuation is answered with, or how posting fails. -/
abbrev Responder (β : Type) := ContinuationRequest → Except RpcError (Body β)

structure HttpStreamSession (β : Type) where
  pending : List (Item β)
  token : Option String
  callToken : Option String
  finished : Bool
  cancelled : Bool
  logs : List LogMessage

namespace HttpStreamSession

variable {β : Type} (config : ClientConfig β) (server : Responder β) (session : HttpStreamSession β)
  (token : String)

def continuation (metadata : Option Metadata) :
    Except RpcError (ParsedStream β) × HttpStreamSession β :=
  match server ⟨token, session.callToken, false, metadata⟩ with
  | .error error => (.error error, session)
  | .ok body =>
    let (parsed, logs) := parseResponse config false body
    (parsed, { session with logs := session.logs ++ logs })

/-- The next batch, or nothing at the end of the stream.  The fuel bounds the cursors
followed in one step. -/
def tickWithMetadata (metadata : Option Metadata) :
    Nat → HttpStreamSession β → Option (Except RpcError (Option (Item β)) × HttpStreamSession β)
  | 0, _ => none
  | fuel + 1, session =>
    if session.cancelled then some (.error (.protocolError "tick after cancel"), session)
    else
      match session.pending, session.token with
      | item :: rest, _ => some (.ok (some item), { session with pending := rest })
      | [], none => some (.ok none, { session with finished := true })
      | [], some token =>
        if session.finished then some (.ok none, session)
        else
          match continuation config server session token metadata with
          | (.error error, after) => some (.error error, after)
          | (.ok parsed, after) =>
            tickWithMetadata metadata fuel { after with
              pending := parsed.batches
              token := parsed.token
              finished := parsed.finished }

def tick : Nat → HttpStreamSession β →
    Option (Except RpcError (Option (Item β)) × HttpStreamSession β) :=
  tickWithMetadata config server none

def resumeToken : Option String :=
  session.token.map fun cursor => packResumeToken cursor session.callToken

def moreThanOne : RpcError :=
  .protocolError "HTTP stream response contained more than one data batch"

def nextWithToken : Except RpcError (Option (Item β × Option String)) × HttpStreamSession β :=
  if session.cancelled then (.error (.protocolError "next_with_token after cancel"), session)
  else
    match session.pending, session.token with
    | item :: rest, _ =>
      if rest ≠ [] then (.error moreThanOne, session)
      else (.ok (some (item, session.resumeToken)), { session with pending := [] })
    | [], none => (.ok none, { session with finished := true })
    | [], some token =>
      if session.finished then (.ok none, session)
      else
        match continuation config server session token none with
        | (.error error, after) => (.error error, after)
        | (.ok parsed, after) =>
          match parsed.batches with
          | [] => (.ok none, { after with token := parsed.token, finished := true })
          | item :: rest =>
            if rest ≠ [] then (.error moreThanOne, after)
            else
              let next := { after with token := parsed.token }
              (.ok (some (item, next.resumeToken)), next)

def seekToToken : HttpStreamSession β :=
  { session with
    pending := []
    token := some (unpackResumeToken token).1
    callToken := (unpackResumeToken token).2
    finished := false }

end HttpStreamSession

def resumeStream {β : Type} (token : String) : HttpStreamSession β :=
  { pending := []
    token := some (unpackResumeToken token).1
    callToken := (unpackResumeToken token).2
    finished := false
    cancelled := false
    logs := [] }

/-- The session of an opened producer: what its `/init` response came to. -/
def openProducer {β : Type} (config : ClientConfig β) (body : Body β) :
    Except RpcError (HttpStreamSession β) :=
  match parseResponse config false body with
  | (.error error, _) => .error error
  | (.ok parsed, logs) =>
    .ok ⟨parsed.batches, parsed.token, parsed.callToken, parsed.finished, false, logs⟩

end VgiRpc.Client
