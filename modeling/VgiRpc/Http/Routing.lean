import VgiRpc.Http.Continuation

/-!
# Routes of a continuation

An exchange request names a protocol and a method in its path.  Its tokens are opened
first; then the method is looked up among the hosted protocols and its state decoder
is given the bytes of the cursor.  Nothing in either token says which method minted it.
-/

namespace VgiRpc.Http

open Library ByteStream Arrow
open Arrow.Sample (library)

inductive MethodType where
  | unary
  | producer
  | exchange
  | dynamic
  deriving DecidableEq

structure MethodInfo (σ : Type) where
  methodType : MethodType
  stateDecoder : Option (Bytes → Outcome σ)

structure ProtocolBinding (σ : Type) where
  name : String
  methods : OrderedMap String (MethodInfo σ)

def isAsciiAlphabetic (char : Char) : Bool :=
  (97 ≤ char.toNat && char.toNat ≤ 122) || (65 ≤ char.toNat && char.toNat ≤ 90)

def isAsciiAlphanumeric (char : Char) : Bool :=
  isAsciiAlphabetic char || (48 ≤ char.toNat && char.toNat ≤ 57)

def isValidName (name : String) : Bool :=
  match name.toList with
  | [] => false
  | first :: rest =>
    (isAsciiAlphabetic first || first == '_') &&
      rest.all fun char => isAsciiAlphanumeric char || char == '_' || char == '.'

def reservedProtocolPrefix : String := "vgi_rpc."
def maxProtocolNameBytes : Nat := 255
def reflectionProtocolName : String := "vgi_rpc.Reflection.v1"
def identityProtocolName : String := "vgi_rpc.Identity.v2"

section

-- The text that `{:?}` prints for a string.
variable (quoted : String → String)

/-- The text that `{:?}` prints for a list of strings. -/
def quotedList (names : List String) : String :=
  "[" ++ ", ".intercalate (names.map quoted) ++ "]"

/-- Whether a text is the name of a protocol.  A name that is too long is cut at its 64th
byte for the message, which panics inside a character. -/
def validateProtocolName (name : String) (allowReserved : Bool) : Outcome Unit :=
  if name = "" then .returned (.error (.valueError "A protocol name may not be empty."))
  else if maxProtocolNameBytes < (utf8 name).length then
    match fromUtf8 ((utf8 name).take (min (utf8 name).length 64)) with
    | some start => .returned (.error (.valueError
        ("Protocol name exceeds 255 bytes: " ++ start ++ "...")))
    | none => .panicked
  else if !isValidName name then .returned (.error (.valueError ("Protocol name " ++ quoted name ++
    " is not an identifier, optionally dot-qualified. Expected something like 'vgi.Identity.v1'.")))
  else if !allowReserved && name.startsWith reservedProtocolPrefix then
    .returned (.error (.valueError ("Protocol name " ++ quoted name ++ " claims the reserved " ++
      quoted reservedProtocolPrefix ++ " prefix, which is for protocols the framework defines.")))
  else .returned (.ok ())

def protocolNotSpecified (hosted : List String) : RpcError :=
  .protocolError ("Request carries no 'vgi_rpc.protocol' routing key. Every request must name " ++
    "the protocol it addresses. This server hosts: " ++ quotedList quoted hosted ++ ".")

def protocolNotSupported (requested : String) (hosted : List String) : RpcError :=
  .protocolError ("This server does not host protocol " ++ quoted requested ++ ". Hosted: " ++
    quotedList quoted hosted ++ ".")

end

/-- The protocols of a server, each with a name of its own. -/
structure Hosting (σ : Type) where
  primary : ProtocolBinding σ
  extra : List (ProtocolBinding σ)
  identity : Option (OrderedMap String (MethodInfo σ))
  distinct : (primary.name :: extra.map ProtocolBinding.name).Nodup

namespace Hosting

variable {σ : Type} (hosting : Hosting σ)

def hostedProtocolNames : List String :=
  hosting.primary.name :: hosting.extra.map ProtocolBinding.name ++
    reflectionProtocolName :: (hosting.identity.map fun _ => identityProtocolName).toList

def resolveBinding (protocol : String) : Option (ProtocolBinding σ) :=
  if protocol = hosting.primary.name then some hosting.primary
  else
    match hosting.extra.find? fun binding => binding.name == protocol with
    | some binding => some binding
    | none =>
      if protocol = identityProtocolName then
        hosting.identity.map fun methods => ⟨identityProtocolName, methods⟩
      else none

variable (quoted : String → String)

def route (protocol : String) : Outcome (ProtocolBinding σ) :=
  if protocol = "" then
    .returned (.error (protocolNotSpecified quoted hosting.hostedProtocolNames))
  else
    match validateProtocolName quoted protocol true with
    | .panicked => .panicked
    | .returned (.error _) => .returned (.error
        (protocolNotSupported quoted "<invalid>" hosting.hostedProtocolNames))
    | .returned (.ok _) =>
      match hosting.resolveBinding protocol with
      | some binding => .returned (.ok binding)
      | none => .returned (.error
          (protocolNotSupported quoted protocol hosting.hostedProtocolNames))

end Hosting

variable {σ : Type}

def ProtocolBinding.noSuchMethod (quoted : String → String)
    (binding : ProtocolBinding σ) (method : String) : RpcError :=
  ⟨"AttributeError", "Protocol '" ++ binding.name ++ "' has no method '" ++ method ++
    "'. Available: " ++ quotedList quoted (binding.methods.keys.mergeSort (· ≤ ·))⟩

def Hosting.streamMethod (hosting : Hosting σ) (quoted : String → String)
    (protocol method : String) : Outcome (MethodInfo σ) :=
  match hosting.route quoted protocol with
  | .panicked => .panicked
  | .returned (.error error) => .returned (.error error)
  | .returned (.ok binding) =>
    match (binding.methods.get? method).filter fun info => info.methodType ≠ .unary with
    | some info => .returned (.ok info)
    | none => .returned (.error (binding.noSuchMethod quoted method))

/-- A continuation at this path reaches a state decoder. -/
def Hosting.Continues (hosting : Hosting σ) (quoted : String → String)
    (protocol method : String) : Prop :=
  ∃ info, hosting.streamMethod quoted protocol method = .returned (.ok info) ∧
    info.stateDecoder.isSome = true

structure OpenedTokens where
  cursor : UnpackedCursor
  call : ResolvedCall
  outputSchema : Schema
  inputSchema : Option Schema

section

variable {σ : Type} (P : Primitives) (A : ArrowIpc) (config : TokenConfig)

def openTokens (request : TokenRequest) (times : Readings) (cache : CallStates) :
    Except RpcError OpenedTokens := do
  let cursor ← unpackCursorToken P config.tokenKey (computeAad request.auth) request.cursor
    config.tokenTtlOpt times.cursor
  let call ← (resolveCall P config request.auth cursor request.callToken times cache).1
  let outputSchema ← readSchemaBytes A call.outputSchemaBytes
  let inputSchema ← readInputSchema A call.inputSchemaBytes
  pure ⟨cursor, call, outputSchema, inputSchema⟩

variable (hosting : Hosting σ) (quoted : String → String) (protocol method : String)
  (request : TokenRequest) (times : Readings) (cache : CallStates)

def decoderInput : Outcome Bytes :=
  match openTokens P A config request times cache with
  | .error error => .returned (.error error)
  | .ok tokens =>
    match hosting.streamMethod quoted protocol method with
    | .panicked => .panicked
    | .returned (.error error) => .returned (.error error)
    | .returned (.ok info) =>
      if info.stateDecoder.isSome then .returned (.ok tokens.cursor.stateBytes)
      else .returned (.error (missingDecoder method))

/-- The stream that a request continues, by the path it was sent to. -/
def exchangeStream : Outcome (Reopened σ) :=
  match openTokens P A config request times cache with
  | .error error => .returned (.error error)
  | .ok tokens =>
    match hosting.streamMethod quoted protocol method with
    | .panicked => .panicked
    | .returned (.error error) => .returned (.error error)
    | .returned (.ok info) => .returned
        ((decodeState method info.stateDecoder tokens.cursor.stateBytes).map fun state =>
          ⟨state, tokens.call, tokens.outputSchema, tokens.inputSchema⟩)

end

section

variable {σ : Type} {P : Primitives} {A : ArrowIpc} {config : TokenConfig} {hosting : Hosting σ}
  {quoted : String → String}

/-- At the path of a hosted stream method a request reopens as its decoder makes it. -/
theorem exchangeStream_eq_reopen {protocol method : String} {info : MethodInfo σ}
    (hosted : hosting.streamMethod quoted protocol method = .returned (.ok info))
    (request : TokenRequest) (times : Readings) (cache : CallStates) :
    exchangeStream P A config hosting quoted protocol method request times cache =
      .returned (reopen P A config method info.stateDecoder request times cache) := by
  have phases : reopen P A config method info.stateDecoder request times cache =
      (openTokens P A config request times cache >>= fun tokens =>
        (decodeState method info.stateDecoder tokens.cursor.stateBytes).map fun state =>
          ⟨state, tokens.call, tokens.outputSchema, tokens.inputSchema⟩) := by
    simp only [reopen, openTokens, bind_assoc, pure_bind]
    rfl
  rw [phases, exchangeStream, hosted]
  cases openTokens P A config request times cache <;> rfl

variable {times : Readings} {cache : CallStates}

/-- A decoder is given bytes exactly where the tokens open and the path continues, and then
it is given those of the cursor. -/
theorem decoderInput_iff {protocol method : String} {request : TokenRequest} {bytes : Bytes} :
    decoderInput P A config hosting quoted protocol method request times cache =
        .returned (.ok bytes) ↔
      (∃ tokens, openTokens P A config request times cache = .ok tokens ∧
        tokens.cursor.stateBytes = bytes) ∧ hosting.Continues quoted protocol method := by
  unfold decoderInput
  constructor
  · intro given
    split at given
    · cases given
    rename_i tokens opened
    split at given
    · cases given
    · cases given
    · rename_i info hosted
      split at given
      · rename_i registered
        cases given
        exact ⟨⟨tokens, opened, rfl⟩, info, hosted, registered⟩
      · cases given
  · rintro ⟨⟨tokens, opened, rfl⟩, info, hosted, registered⟩
    rw [opened, hosted]
    exact if_pos registered

/-- The state bytes that a method minted are what every decoder is given that is given
anything, and no decoder but that method's own is given them exactly when the tokens do
not open or no other hosted stream method has a decoder. -/
theorem state_stays_with_method_iff (lawful : P.Lawful) {codec : StreamStateCodec σ} {mint : Mint}
    {state : σ} {cursorAt : UInt64} {nonce : Nonce} {cursor : String} {stateBytes : Bytes} (minted :
    buildCursorToken P config codec mint.auth state mint.callId cursorAt nonce = .ok (cursor,
    stateBytes)) {auth : AuthContext} (identity : computeAad auth = computeAad mint.auth) (protocol
    method : String) (times : Readings) (cache : CallStates) :
    (∀ otherProtocol otherMethod bytes,
      decoderInput P A config hosting quoted otherProtocol otherMethod
        ⟨auth, cursor, some (mint.token P config)⟩ times cache = .returned (.ok bytes) →
          bytes = stateBytes) ∧
    ((∀ otherProtocol otherMethod bytes,
      decoderInput P A config hosting quoted otherProtocol otherMethod
        ⟨auth, cursor, some (mint.token P config)⟩ times cache = .returned (.ok bytes) →
          otherProtocol = protocol ∧ otherMethod = method) ↔
      (∀ tokens, openTokens P A config ⟨auth, cursor, some (mint.token P config)⟩ times cache ≠
        .ok tokens) ∨
      ∀ otherProtocol otherMethod, hosting.Continues quoted otherProtocol otherMethod →
        otherProtocol = protocol ∧ otherMethod = method) := by
  constructor
  · intro otherProtocol otherMethod bytes given
    obtain ⟨⟨tokens, opened, rfl⟩, _⟩ := decoderInput_iff.mp given
    obtain ⟨encoded, _, returns⟩ := exceptBind_eq_ok minted
    cases returns
    obtain ⟨unpacked, opens, rest⟩ := exceptBind_eq_ok opened
    obtain ⟨_, _, rest⟩ := exceptBind_eq_ok rest
    obtain ⟨_, _, rest⟩ := exceptBind_eq_ok rest
    obtain ⟨_, _, returns⟩ := exceptBind_eq_ok rest
    cases returns
    simp only [identity] at opens
    rw [unpackCursorToken_ok lawful opens]
  · constructor
    · intro stays
      by_cases opens : ∃ tokens, openTokens P A config ⟨auth, cursor, some (mint.token P config)⟩
          times cache = .ok tokens
      · obtain ⟨tokens, opened⟩ := opens
        refine .inr fun otherProtocol otherMethod continues => ?_
        exact stays otherProtocol otherMethod _
          (decoderInput_iff.mpr ⟨⟨tokens, opened, rfl⟩, continues⟩)
      · exact .inl fun tokens opened => opens ⟨tokens, opened⟩
    · rintro apart otherProtocol otherMethod bytes given
      obtain ⟨⟨tokens, opened, _⟩, continues⟩ := decoderInput_iff.mp given
      rcases apart with refused | only
      · exact absurd opened (refused tokens)
      · exact only otherProtocol otherMethod continues

end

namespace Sample

def hosted : MethodInfo Bytes := ⟨.producer, some codec.decode⟩

/-- A protocol with these stream methods, all over the same kind of state. -/
def hosting (methods : List String) : Hosting Bytes where
  primary := ⟨"Service", OrderedMap.ofEntries (methods.map fun name => (name, hosted))⟩
  extra := []
  identity := none
  distinct := by simp

def quoted (text : String) : String := "\"" ++ text ++ "\""

def countRequest : TokenRequest :=
  ⟨auth, cursorOf [1], some (streamMint.token primitives config)⟩

theorem countRequest_opens :
    openTokens primitives library config countRequest (requestAt 0) OrderedMap.empty =
      .ok ⟨⟨[1, 0, 0, 0, 0, 0, 0, 0, 1], callId, 0⟩, streamMint.call, streamCall.outputSchema,
        streamCall.inputSchema⟩ := by
  obtain ⟨unpacked, resolves, output, input⟩ := tokens_open (show 8 + ([1] : Bytes).length < 2 ^ 32 by decide)
  simp only [openTokens, countRequest, unpacked, bind, Except.bind, resolves, output, input]
  rfl

theorem countRequest_minted :
    buildCursorToken primitives config codec streamMint.auth [1] streamMint.callId 0 nonce =
      .ok (countRequest.cursor, [1, 0, 0, 0, 0, 0, 0, 0, 1]) :=
  buildCursorToken_of (by decide)

/-- A server with one stream method continues streams at its path only. -/
theorem continues_count {protocol method : String}
    (continues : (hosting ["count"]).Continues quoted protocol method) :
    protocol = "Service" ∧ method = "count" := by
  obtain ⟨info, found, _⟩ := continues
  unfold Hosting.streamMethod at found
  split at found
  · cases found
  · cases found
  · rename_i binding routed
    have resolved : (hosting ["count"]).resolveBinding protocol = some binding := by
      unfold Hosting.route at routed
      split at routed
      · cases routed
      split at routed
      · cases routed
      · cases routed
      · split at routed
        · rename_i known
          cases routed
          exact known
        · cases routed
    unfold Hosting.resolveBinding at resolved
    split at resolved
    · rename_i named
      cases resolved
      refine ⟨named, ?_⟩
      by_contra other
      have missing : (hosting ["count"]).primary.methods.get? method = none := by
        change (OrderedMap.empty.insert "count" hosted).get? method = none
        rw [OrderedMap.get?_insert, if_neg other]
        rfl
      rw [missing] at found
      cases found
    · change (if protocol = identityProtocolName then none else none) = some binding at resolved
      split at resolved <;> cases resolved

end Sample

open Sample

/-- Where the producer is the only stream method, its state reaches no other path. -/
theorem state_stays_with_method_iff_alone :
    decoderInput primitives library config (hosting ["count"])
      quoted "Service" "sum" countRequest (requestAt 0) OrderedMap.empty ≠
        .returned (.ok [1, 0, 0, 0, 0, 0, 0, 0, 1]) := by
  intro given
  have stays := ((state_stays_with_method_iff (A := library) primitives_lawful countRequest_minted
    (show computeAad auth = computeAad streamMint.auth from rfl) "Service" "count"
    (requestAt 0) OrderedMap.empty).2.mpr
      (.inr fun protocol method => continues_count)) "Service" "sum" _ given
  exact absurd stays.2 (by decide)

/-- The state of one producer is given to the decoder of another. -/
theorem state_reaches_other_method : buildCursorToken primitives config codec streamMint.auth [1]
        streamMint.callId 0 nonce =
      .ok (countRequest.cursor, [1, 0, 0, 0, 0, 0, 0, 0, 1]) ∧
    decoderInput primitives library config
        (hosting ["count", "sum"]) quoted "Service" "sum" countRequest
        (requestAt 0) OrderedMap.empty =
      .returned (.ok [1, 0, 0, 0, 0, 0, 0, 0, 1]) :=
  ⟨countRequest_minted, decoderInput_iff.mpr ⟨⟨_, countRequest_opens, rfl⟩, hosted, by rfl, rfl⟩⟩

end VgiRpc.Http
