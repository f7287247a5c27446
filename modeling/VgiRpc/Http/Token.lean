import VgiRpc.Errors
import VgiRpc.Http.Crypto
import VgiRpc.Library.OrderedMap

/-!
# Stream tokens

The two tokens that carry a stream between HTTP requests: the call token, minted
once with everything fixed for the life of the call, and the cursor, minted on
every turn with the encoded state.  A token is a framed plaintext, compressed when
that pays, sealed under associated data that names the caller, in base64.
-/

namespace VgiRpc.Http

open Library.ByteStream List Library LittleEndian

/-! ## Identities -/

structure AuthContext where
  authenticated : Bool
  domain : String
  principal : String
  claims : Library.OrderedMap String String

def utf8 (text : String) : Bytes := text.toByteArray.data.toList

def fromUtf8 (bytes : Bytes) : Option String := String.fromUTF8? ⟨bytes.toArray⟩

theorem fromUtf8_utf8 (text : String) : fromUtf8 (utf8 text) = some text := by
  have bytes : (⟨(utf8 text).toArray⟩ : ByteArray) = text.toByteArray := by
    simp [utf8]
  rw [fromUtf8, String.fromUTF8?, bytes, dif_pos text.isValidUTF8]
  rfl

theorem utf8_fromUtf8 {bytes : Bytes} {text : String} (decoded : fromUtf8 bytes = some text) :
    bytes = utf8 text := by
  unfold fromUtf8 String.fromUTF8? at decoded
  split_ifs at decoded
  cases decoded
  rfl

variable (auth : AuthContext)

def peerEvidenceBinding : Option String :=
  (auth.claims.get? "peer_evidence_binding").filter fun value => value ≠ ""

def bindingSuffix : Bytes :=
  match peerEvidenceBinding auth with
  | some binding => 0 :: utf8 binding
  | none => []

variable (label : Bytes) (auth : AuthContext)

def computeAadWith : Bytes :=
  if auth.authenticated then
    label ++ 0x01 :: utf8 auth.domain ++ 0 :: utf8 auth.principal ++ bindingSuffix auth
  else label ++ utf8 "\x00anonymous" ++ bindingSuffix auth

def computeAad : Bytes :=
  computeAadWith (if (peerEvidenceBinding auth).isSome then utf8 "vgi_rpc.state.v5\x00"
      else utf8 "vgi_rpc.state.v4\x00") auth

def computeCallAad : Bytes :=
  computeAadWith (if (peerEvidenceBinding auth).isSome then utf8 "vgi_rpc.call.v2\x00"
      else utf8 "vgi_rpc.call.v1\x00") auth

theorem computeAadWith_label : computeAadWith label auth = label ++ computeAadWith [] auth := by
  unfold computeAadWith
  split <;> simp

/-- Callers that one cursor opens for are callers that one call token opens for. -/
theorem computeCallAad_of_computeAad {first second : AuthContext}
    (same : computeAad first = computeAad second) :
    computeCallAad first = computeCallAad second := by
  have lengths : (utf8 "vgi_rpc.state.v5\x00").length = (utf8 "vgi_rpc.state.v4\x00").length := by
    decide
  have apart : utf8 "vgi_rpc.state.v5\x00" ≠ utf8 "vgi_rpc.state.v4\x00" := by decide
  unfold computeAad at same
  rw [computeAadWith_label _ first, computeAadWith_label _ second] at same
  obtain ⟨labels, callers⟩ := append_inj same (by split <;> split <;> simp [lengths])
  unfold computeCallAad
  rw [computeAadWith_label _ first, computeAadWith_label _ second, callers]
  congr 1
  by_cases one : (peerEvidenceBinding first).isSome <;>
    by_cases two : (peerEvidenceBinding second).isSome <;>
    simp_all

/-! ## Payloads -/

def cursorTokenVersion : UInt8 := 0x06
def callTokenVersion : UInt8 := 0x02
def tokenCodecRaw : UInt8 := 0x00
def tokenCodecZstd : UInt8 := 0x01
def maxTokenPlaintextBytes : Nat := 64 * 2 ^ 20

def malformedToken : RpcError := .runtimeError "Malformed state token"

section

variable (P : Primitives) (plaintext : Bytes)

/-- Compress a payload when that makes it shorter, and tag which codec was used. -/
def packTokenPayload : Bytes :=
  match P.zstdCompress plaintext with
  | some packed =>
    if packed.length < plaintext.length then tokenCodecZstd :: packed
    else tokenCodecRaw :: plaintext
  | none => tokenCodecRaw :: plaintext

def unpackTokenPayload : Bytes → Except RpcError Bytes
  | [] => .error malformedToken
  | tag :: body =>
    if tag = tokenCodecRaw then .ok body
    else if tag = tokenCodecZstd then
      match P.zstdDecompress maxTokenPlaintextBytes body with
      | some plaintext => .ok plaintext
      | none => .error malformedToken
    else .error malformedToken

/-- The payload is short enough for the decompression bound, or not compressed. -/
def PayloadFits : Prop :=
  ∀ packed, P.zstdCompress plaintext = some packed → packed.length < plaintext.length →
    plaintext.length ≤ maxTokenPlaintextBytes

variable {P} {plaintext : Bytes}

theorem unpackTokenPayload_fits (lawful : P.Lawful) (fits : PayloadFits P plaintext) :
    unpackTokenPayload P (packTokenPayload P plaintext) = .ok plaintext := by
  unfold packTokenPayload
  cases packs : P.zstdCompress plaintext with
  | none => simp [unpackTokenPayload]
  | some packed =>
    simp only
    split
    · rename_i shorter
      have unpacked := lawful.zstd_within _ _ _ packs (fits packed packs shorter)
      simp [unpackTokenPayload, tokenCodecZstd, tokenCodecRaw, unpacked]
    · simp [unpackTokenPayload]

theorem unpackTokenPayload_beyond (lawful : P.Lawful) (beyond : ¬ PayloadFits P plaintext) :
    unpackTokenPayload P (packTokenPayload P plaintext) = .error malformedToken := by
  simp only [PayloadFits, not_forall, Nat.not_le] at beyond
  obtain ⟨packed, packs, shorter, long⟩ := beyond
  have refused := lawful.zstd_beyond _ _ _ packs long
  simp [packTokenPayload, packs, shorter, unpackTokenPayload, tokenCodecZstd, tokenCodecRaw,
    refused]

end

/-! ## Plaintexts -/

def callIdLength : Nat := 16

/-- The random id that binds the tokens of one stream. -/
@[ext]
structure CallId where
  bytes : Bytes
  length : bytes.length = callIdLength

instance : DecidableEq CallId := fun first second =>
  decidable_of_iff (first.bytes = second.bytes) ⟨CallId.ext, fun same => congrArg CallId.bytes same⟩

/-- A response budget; the builder and the request parser refuse small ones, so a
zero on the wire stands for none. -/
abbrev Limit := { limit : UInt64 // limit ≠ 0 }

/-- The half of a stream's state that is fixed for the life of the call. -/
structure ResolvedCall where
  outputSchemaBytes : Bytes
  inputSchemaBytes : Bytes
  streamId : String
  responseLimitBytes : Option Limit
  preferredResponseBytes : Option Limit
  deriving DecidableEq

structure UnpackedCursor where
  stateBytes : Bytes
  callId : CallId
  createdAt : UInt64

def word (value : UInt64) : Bytes := toLe 8 value.toNat

def segment (bytes : Bytes) : Bytes := toLe 4 bytes.length ++ bytes

def limitWord (limit : Option Limit) : Bytes := word ((limit.map Subtype.val).getD 0)

variable (createdAt : UInt64) (callId : CallId)

def cursorPlaintext (stateBytes : Bytes) : Bytes :=
  word createdAt ++ (callId.bytes ++ segment stateBytes)

def callPlaintext (call : ResolvedCall) : Bytes :=
  word createdAt ++ (callId.bytes ++ (segment call.outputSchemaBytes ++
    (segment call.inputSchemaBytes ++ (segment (utf8 call.streamId) ++
      (limitWord call.responseLimitBytes ++ limitWord call.preferredResponseBytes)))))

section

variable (P : Primitives)

def packCursorToken (tokenKey aad stateBytes : Bytes) (callId : CallId) (createdAt : UInt64)
    (nonce : Nonce) : String :=
  sealBase64 P (packTokenPayload P (cursorPlaintext createdAt callId stateBytes)) tokenKey aad
    cursorTokenVersion nonce

variable (tokenKey aad : Bytes)

def packCallToken (callId : CallId) (call : ResolvedCall)
    (createdAt : UInt64) (nonce : Nonce) : String :=
  sealBase64 P (packTokenPayload P (callPlaintext createdAt callId call)) tokenKey aad
    callTokenVersion nonce

/-- A token is at most `ttl` seconds old, and not far in the future. -/
def checkLifetime (ttl : Option Nat) (createdAt now : UInt64) : Except RpcError Unit :=
  match ttl with
  | none => .ok ()
  | some secs =>
    if createdAt.toNat < now.toNat ∧ secs < now.toNat - createdAt.toNat then
      .error (.runtimeError "State token expired")
    else if now.toNat < createdAt.toNat ∧ 60 < createdAt.toNat - now.toNat then
      .error (.runtimeError "State token timestamp is implausibly in the future")
    else .ok ()

variable (token : String)

/-- The framed plaintext of a token and the time it was minted. -/
def openTokenPlaintext (version : UInt8)
    (ttl : Option Nat) (now : UInt64) : Except RpcError (Bytes × UInt64) :=
  match P.base64Decode token with
  | none => .error malformedToken
  | some raw =>
    match openBytes P raw tokenKey aad version with
    | none => .error (.runtimeError "State token signature verification failed")
    | some payload => do
        let plaintext ← unpackTokenPayload P payload
        if plaintext.length < 8 + callIdLength then .error malformedToken
        else do
          let createdAt := UInt64.ofNat (ofLe (plaintext.take 8))
          checkLifetime ttl createdAt now
          pure (plaintext, createdAt)

variable (bytes : Bytes)

def readSegment : Except RpcError (Bytes × Bytes) :=
  if bytes.length < 4 then .error malformedToken
  else if (bytes.drop 4).length < ofLe (bytes.take 4) then .error malformedToken
  else .ok ((bytes.drop 4).take (ofLe (bytes.take 4)), (bytes.drop 4).drop (ofLe (bytes.take 4)))

def readCallId (plaintext : Bytes) : Except RpcError CallId :=
  if length : ((plaintext.drop 8).take callIdLength).length = callIdLength then
    .ok ⟨(plaintext.drop 8).take callIdLength, length⟩
  else .error malformedToken

variable (ttl : Option Nat) (now : UInt64)

def unpackCursorToken : Except RpcError UnpackedCursor := do
  let (plaintext, createdAt) ← openTokenPlaintext P tokenKey aad token cursorTokenVersion ttl now
  let callId ← readCallId plaintext
  let (stateBytes, rest) ← readSegment (plaintext.drop (8 + callIdLength))
  if rest ≠ [] then .error malformedToken else pure ⟨stateBytes, callId, createdAt⟩

def readLimit : Option Limit :=
  if nonzero : UInt64.ofNat (ofLe bytes) ≠ 0 then some ⟨UInt64.ofNat (ofLe bytes), nonzero⟩ else none

def readCall : Except RpcError ResolvedCall := do
  let (outputSchemaBytes, rest) ← readSegment bytes
  let (inputSchemaBytes, rest) ← readSegment rest
  let (streamIdBytes, rest) ← readSegment rest
  match fromUtf8 streamIdBytes with
  | none => .error malformedToken
  | some streamId =>
    if rest.length ≠ 16 then .error malformedToken
    else
      pure ⟨outputSchemaBytes, inputSchemaBytes, streamId, readLimit (rest.take 8),
        readLimit (rest.drop 8)⟩

def unpackCallToken : Except RpcError (CallId × ResolvedCall) := do
  let (plaintext, _) ← openTokenPlaintext P tokenKey aad token callTokenVersion ttl now
  let callId ← readCallId plaintext
  let call ← readCall (plaintext.drop (8 + callIdLength))
  pure (callId, call)

end

section

variable {P : Primitives}

/-- The token is inside its lifetime at this reading of the clock. -/
def WithinLifetime (ttl : Option Nat) (createdAt now : UInt64) : Prop :=
  ∀ secs, ttl = some secs → now.toNat ≤ createdAt.toNat + secs ∧ createdAt.toNat ≤ now.toNat + 60

variable {ttl : Option Nat} {callId : CallId} {now : UInt64}

theorem checkLifetime_ok {createdAt : UInt64} :
    checkLifetime ttl createdAt now = .ok () ↔ WithinLifetime ttl createdAt now := by
  unfold checkLifetime WithinLifetime
  cases ttl with
  | none => simp
  | some secs =>
    simp only [Option.some.injEq, forall_eq']
    split
    · simp only [reduceCtorEq, false_iff]
      omega
    · split
      · simp only [reduceCtorEq, false_iff]
        omega
      · simp only [true_iff]
        omega

@[simp]
theorem word_length (value : UInt64) : (word value).length = 8 := toLe_length _ _

theorem ofLe_word (value : UInt64) : UInt64.ofNat (ofLe (word value)) = value := by
  rw [word, ofLe_toLe_of_lt value.toNat_lt]
  exact UInt64.ofNat_toNat

variable {bytes : Bytes}

/-- A segment whose length fits its word is read back, with what follows it. -/
theorem readSegment_segment (fits : bytes.length < 2 ^ 32) (rest : Bytes) :
    readSegment (segment bytes ++ rest) = .ok (bytes, rest) := by
  have length : ofLe ((segment bytes ++ rest).take 4) = bytes.length := by
    have back : ofLe (toLe 4 bytes.length) = bytes.length := ofLe_toLe_of_lt (by omega)
    simp [segment, back]
  have tail : (segment bytes ++ rest).drop 4 = bytes ++ rest := by
    simp [segment]
  rw [readSegment, if_neg (by simp [segment]), length, tail, if_neg (by simp), take_left, drop_left]

/-- A segment that was read is shorter than its word can say. -/
theorem readSegment_ok {part rest : Bytes} (read : readSegment bytes = .ok (part, rest)) :
    part.length < 2 ^ 32 := by
  unfold readSegment at read
  split_ifs at read
  cases read
  have bound := ofLe_lt (bytes.take 4)
  have four : (bytes.take 4).length = 4 := by simp; omega
  rw [four] at bound
  simp only [length_take]
  omega

theorem readSegment_split {part rest : Bytes} (read : readSegment bytes = .ok (part, rest)) :
    bytes.drop 4 = part ++ rest := by
  unfold readSegment at read
  split_ifs at read
  cases read
  exact (take_append_drop _ _).symm

/-- What both kinds of token put in front of their body. -/
def framed (createdAt : UInt64) (callId : CallId) (body : Bytes) : Bytes :=
  word createdAt ++ (callId.bytes ++ body)

section

variable (createdAt : UInt64) (callId : CallId) (body : Bytes)

theorem readCallId_framed : readCallId (framed createdAt callId body) = .ok callId := by
  have taken : ((framed createdAt callId body).drop 8).take callIdLength = callId.bytes := by
    rw [framed, ← word_length createdAt, drop_left, ← callId.length, take_left]
  unfold readCallId
  rw [dif_pos (by rw [taken, callId.length])]
  exact congrArg Except.ok (CallId.ext taken)

theorem framed_time : UInt64.ofNat (ofLe ((framed createdAt callId body).take 8)) = createdAt := by
  rw [framed, ← word_length createdAt, take_left, ofLe_word]

theorem framed_body : (framed createdAt callId body).drop (8 + callIdLength) = body := by
  rw [framed, ← drop_drop, ← word_length createdAt, drop_left, ← callId.length, drop_left]

theorem framed_length : 8 + callIdLength ≤ (framed createdAt callId body).length := by
  simp only [framed, length_append, word_length, callId.length]
  omega

end

variable {nonce : Nonce} {createdAt : UInt64} {call : ResolvedCall} {key aad body : Bytes}
  {version : UInt8}

theorem openTokenPlaintext_framed (lawful : P.Lawful)
    (fits : PayloadFits P (framed createdAt callId body)) :
    openTokenPlaintext P key aad
        (sealBase64 P (packTokenPayload P (framed createdAt callId body)) key aad version nonce)
        version ttl now =
      (checkLifetime ttl createdAt now).map fun _ => (framed createdAt callId body, createdAt) := by
  have long := framed_length createdAt callId body
  simp only [openTokenPlaintext, sealBase64, lawful.base64_decode, openBytes_sealBytes lawful,
    unpackTokenPayload_fits lawful fits]
  change (if _ then _ else _) = _
  rw [if_neg (by omega), framed_time]
  cases checkLifetime ttl createdAt now <;> rfl

/-- Opening a sealed frame gives that frame, inside its lifetime, or nothing. -/
theorem openTokenPlaintext_ok (lawful : P.Lawful) {opened : Bytes × UInt64} (accepted :
    openTokenPlaintext P key aad (sealBase64 P (packTokenPayload P (framed createdAt callId body))
    key aad version nonce) version ttl now = .ok opened) :
    PayloadFits P (framed createdAt callId body) ∧ WithinLifetime ttl createdAt now ∧
      opened = (framed createdAt callId body, createdAt) := by
  by_cases fits : PayloadFits P (framed createdAt callId body)
  · rw [openTokenPlaintext_framed lawful fits] at accepted
    obtain ⟨_, alive, rfl⟩ := exceptMap_eq_ok accepted
    exact ⟨fits, checkLifetime_ok.mp alive, rfl⟩
  · simp only [openTokenPlaintext, sealBase64, lawful.base64_decode, openBytes_sealBytes lawful,
      unpackTokenPayload_beyond lawful fits] at accepted
    cases accepted

/-- What a token opens to was inside an envelope for this caller. -/
theorem openTokenPlaintext_opened {token : String} {opened : Bytes × UInt64}
    (accepted : openTokenPlaintext P key aad token version ttl now = .ok opened) :
    ∃ raw payload, P.base64Decode token = some raw ∧
      openBytes P raw key aad version = some payload := by
  unfold openTokenPlaintext at accepted
  split at accepted
  · cases accepted
  rename_i raw decoded
  split at accepted
  · cases accepted
  · rename_i payload opens
    exact ⟨raw, payload, decoded, opens⟩

variable {stateBytes : Bytes}

structure CursorFits (P : Primitives) (createdAt : UInt64) (callId : CallId)
    (stateBytes : Bytes) : Prop where
  payload : PayloadFits P (cursorPlaintext createdAt callId stateBytes)
  state : stateBytes.length < 2 ^ 32

structure CallFits (P : Primitives) (createdAt : UInt64) (callId : CallId)
    (call : ResolvedCall) : Prop where
  payload : PayloadFits P (callPlaintext createdAt callId call)
  outputSchema : call.outputSchemaBytes.length < 2 ^ 32
  inputSchema : call.inputSchemaBytes.length < 2 ^ 32
  streamId : (utf8 call.streamId).length < 2 ^ 32

variable {stateBytes : Bytes}

/-- A cursor comes back as it was minted, and only when it fits and is inside its lifetime. -/
theorem unpackCursorToken_eq_ok_iff (lawful : P.Lawful) {cursor : UnpackedCursor} :
    unpackCursorToken P key aad (packCursorToken P key aad stateBytes callId createdAt nonce)
        ttl now = .ok cursor ↔
      CursorFits P createdAt callId stateBytes ∧ WithinLifetime ttl createdAt now ∧
        cursor = ⟨stateBytes, callId, createdAt⟩ := by
  constructor
  · intro accepted
    obtain ⟨_, opened, rest⟩ := exceptBind_eq_ok accepted
    obtain ⟨payload, alive, rfl⟩ := openTokenPlaintext_ok lawful opened
    obtain ⟨_, read, last⟩ := exceptBind_eq_ok rest
    rw [readCallId_framed] at read
    cases read
    obtain ⟨⟨part, tail⟩, taken, returns⟩ := exceptBind_eq_ok last
    rw [framed_body] at taken
    have split := readSegment_split taken
    rw [segment, drop_left' (toLe_length _ _)] at split
    simp only at returns
    split_ifs at returns with none
    cases returns
    rw [not_not.mp none, append_nil] at split
    subst split
    exact ⟨⟨payload, readSegment_ok taken⟩, alive, rfl⟩
  · rintro ⟨fits, alive, rfl⟩
    have whole : segment stateBytes = segment stateBytes ++ [] := (append_nil _).symm
    rw [unpackCursorToken, packCursorToken]
    change (openTokenPlaintext P key aad (sealBase64 P (packTokenPayload P
      (framed createdAt callId (segment stateBytes))) key aad _ nonce) _ ttl now >>= _) = _
    rw [openTokenPlaintext_framed lawful fits.payload, checkLifetime_ok.mpr alive]
    change (readCallId _ >>= _) = _
    rw [readCallId_framed]
    change (readSegment _ >>= _) = _
    rw [framed_body, whole, readSegment_segment fits.state]
    rfl

theorem unpackCursorToken_ok (lawful : P.Lawful) {cursor : UnpackedCursor} (accepted :
    unpackCursorToken P key aad (packCursorToken P key aad stateBytes callId createdAt nonce) ttl
    now = .ok cursor) :
    cursor = ⟨stateBytes, callId, createdAt⟩ :=
  ((unpackCursorToken_eq_ok_iff lawful).mp accepted).2.2

theorem unpackCursorToken_accepts (lawful : P.Lawful) (key aad : Bytes) (stateBytes : Bytes)
    (callId : CallId) (createdAt : UInt64) (nonce : Nonce) (ttl : Option Nat) (now : UInt64) :
    unpackCursorToken P key aad (packCursorToken P key aad stateBytes callId createdAt nonce)
        ttl now = .ok ⟨stateBytes, callId, createdAt⟩ ↔
      CursorFits P createdAt callId stateBytes ∧ WithinLifetime ttl createdAt now := by
  simp [unpackCursorToken_eq_ok_iff lawful]

theorem readLimit_limitWord (limit : Option Limit) : readLimit (limitWord limit) = limit := by
  cases limit with
  | none => rfl
  | some limit =>
    have back : UInt64.ofNat (ofLe (limitWord (some limit))) = limit.val := ofLe_word limit.val
    unfold readLimit
    rw [dif_pos (by rw [back]; exact limit.property)]
    exact congrArg some (Subtype.ext back)

theorem readCall_fits (fits : CallFits P createdAt callId call) :
    readCall ((callPlaintext createdAt callId call).drop (8 + callIdLength)) = .ok call := by
  have limits : (limitWord call.responseLimitBytes ++
      limitWord call.preferredResponseBytes).length = 16 := by
    simp [limitWord]
  have first : (limitWord call.responseLimitBytes ++
      limitWord call.preferredResponseBytes).take 8 = limitWord call.responseLimitBytes :=
    take_left' (word_length _)
  have second : (limitWord call.responseLimitBytes ++
      limitWord call.preferredResponseBytes).drop 8 = limitWord call.preferredResponseBytes :=
    drop_left' (word_length _)
  change readCall ((framed createdAt callId _).drop _) = _
  rw [framed_body, readCall, readSegment_segment fits.outputSchema]
  change (readSegment _ >>= _) = _
  rw [readSegment_segment fits.inputSchema]
  change (readSegment _ >>= _) = _
  rw [readSegment_segment fits.streamId]
  simp only [bind, Except.bind, fromUtf8_utf8, limits, ne_eq, not_true_eq_false, if_false, first,
    second, readLimit_limitWord]
  rfl

/-- What a call token can say fits the words that count its fields. -/
theorem readCall_ok (read : readCall bytes = .ok call) :
    call.outputSchemaBytes.length < 2 ^ 32 ∧ call.inputSchemaBytes.length < 2 ^ 32 ∧
      (utf8 call.streamId).length < 2 ^ 32 := by
  obtain ⟨⟨output, afterOutput⟩, readOutput, rest⟩ := exceptBind_eq_ok read
  obtain ⟨⟨input, afterInput⟩, readInput, rest⟩ := exceptBind_eq_ok rest
  obtain ⟨⟨id, afterId⟩, readId, rest⟩ := exceptBind_eq_ok rest
  simp only at rest
  split at rest
  · cases rest
  rename_i decoded
  split_ifs at rest
  cases rest
  refine ⟨readSegment_ok readOutput, readSegment_ok readInput, ?_⟩
  rw [← utf8_fromUtf8 decoded]
  exact readSegment_ok readId

theorem unpackCallToken_fits (lawful : P.Lawful) (key aad : Bytes) (nonce : Nonce)
    (ttl : Option Nat) (now : UInt64) (fits : CallFits P createdAt callId call) :
    unpackCallToken P key aad (packCallToken P key aad callId call createdAt nonce) ttl now =
      (checkLifetime ttl createdAt now).map fun _ => (callId, call) := by
  have opened : openTokenPlaintext P key aad (packCallToken P key aad callId call createdAt nonce)
      callTokenVersion ttl now = _ := openTokenPlaintext_framed lawful fits.payload
  rw [unpackCallToken, opened]
  cases checkLifetime ttl createdAt now with
  | error error => rfl
  | ok _ =>
    change (readCallId _ >>= _) = _
    rw [readCallId_framed]
    change (readCall ((callPlaintext createdAt callId call).drop _) >>= _) = _
    rw [readCall_fits fits]
    rfl

theorem unpackCallToken_ok (lawful : P.Lawful) {callId id : CallId} {call read : ResolvedCall}
    (accepted : unpackCallToken P key aad (packCallToken P key aad callId call createdAt nonce) ttl
    now = .ok (id, read)) :
    PayloadFits P (callPlaintext createdAt callId call) ∧ WithinLifetime ttl createdAt now ∧
      id = callId ∧ ∃ body, readCall body = .ok read := by
  obtain ⟨_, opened, rest⟩ := exceptBind_eq_ok accepted
  obtain ⟨payload, alive, rfl⟩ := openTokenPlaintext_ok lawful opened
  obtain ⟨_, found, last⟩ := exceptBind_eq_ok rest
  rw [readCallId_framed] at found
  cases found
  obtain ⟨_, reads, returns⟩ := exceptBind_eq_ok last
  cases returns
  exact ⟨payload, alive, rfl, _, reads⟩

/-- A call token comes back as it was minted exactly when it fits and is inside its lifetime. -/
theorem unpackCallToken_accepts (lawful : P.Lawful) (key aad : Bytes) (callId : CallId)
    (call : ResolvedCall) (createdAt : UInt64) (nonce : Nonce) (ttl : Option Nat) (now : UInt64) :
    unpackCallToken P key aad (packCallToken P key aad callId call createdAt nonce) ttl now =
        .ok (callId, call) ↔
      CallFits P createdAt callId call ∧ WithinLifetime ttl createdAt now := by
  constructor
  · intro accepted
    obtain ⟨payload, alive, -, body, read⟩ := unpackCallToken_ok lawful accepted
    obtain ⟨output, input, streamId⟩ := readCall_ok read
    exact ⟨⟨payload, output, input, streamId⟩, alive⟩
  · rintro ⟨fits, alive⟩
    rw [unpackCallToken_fits lawful key aad nonce ttl now fits, checkLifetime_ok.mpr alive]
    rfl

end

end VgiRpc.Http
