import VgiRpc.Auth.Request
import VgiRpc.ErrorModel.Raised
import VgiRpc.Http.Routing
import VgiRpc.Library.Base64Url
import VgiRpc.Library.Cursor
import VgiRpc.Library.Rounding

/-!
# Sealed grants

A grant is the framework's own credential: who it was issued to, what for, and between which
two moments it counts, sealed under a key of the deployment and written as a text with a
label in front.  The first key of a deployment seals, and each of them opens.
-/

namespace VgiRpc.Identity

open Library
open Library.ByteStream (Bytes)
open Library.LittleEndian (toLe)
open Library.Float64 (nearest)
open Http (Primitives Nonce sealBytes openBytes utf8 fromUtf8)
open Auth (byteLength)

/-- An error of the identity service or of one of its hooks, with what a client tells it
by. -/
structure IdentityError extends RpcError where
  code : Option ErrorModel.Code
  errorKind : Option String
  retryAfterSeconds : Option UInt32
  deriving DecidableEq

namespace IdentityError

def staleAuth (detail : String) : IdentityError :=
  ⟨⟨"PermissionError", detail⟩, some .unauthenticated, some "stale_auth", none⟩

def grantRefused (detail : String) : IdentityError :=
  ⟨⟨"PermissionError", detail⟩, some .permissionDenied, some "grant_refused", none⟩

def tokenUnresolved : IdentityError :=
  ⟨⟨"ValueError", "unresolved"⟩, some .notFound, some "token_unresolved", none⟩

variable (error : IdentityError)

def isAuthUnavailable : Bool :=
  error.errorType == Auth.AuthError.authUnavailableErrorType

def defaultIdentityRetryAfterSeconds : UInt32 := 5

def asUnavailable : IdentityError :=
  ⟨⟨Auth.AuthError.authUnavailableErrorType, error.message⟩, some .unavailable,
    some "identity_unavailable",
    some (error.retryAfterSeconds.getD defaultIdentityRetryAfterSeconds)⟩

end IdentityError

def grantTokenPrefix : List Char := "vgig1.".toList
def maxGrantTokenChars : Nat := 4096
def keyLength : Nat := 32
def kidLength : Nat := 8
def envelopeVersion : UInt8 := 1
def kidDomain : Bytes := utf8 "vgi_rpc.grant.kid.v1\x00"
def aadDomain : Bytes := utf8 "vgi_rpc.grant.v1\x00"
def maxField : Nat := 0xFFFF

section

variable (P : Primitives)

def grantKeyId (key : Bytes) : Bytes := (P.sha256 (kidDomain ++ key)).take kidLength

/-- A deployment's configuration.  The first key seals and every key opens. -/
structure GrantKeys where
  keys : List Bytes
  audience : String
  maxTtlSeconds : Int64
  clockSkewSeconds : Int64
  someKey : keys ≠ []
  keyLengths : ∀ key ∈ keys, key.length = keyLength
  distinct : (keys.map (grantKeyId P)).Nodup
  ttlPositive : 0 < maxTtlSeconds.toInt
  skewNonneg : 0 ≤ clockSkewSeconds.toInt
  audienceShort : (utf8 audience).length ≤ maxField

/-- Check a configuration, in the order in which its faults are reported. -/
def GrantKeys.new (keys : List Bytes) (audience : String)
    (maxTtlSeconds clockSkewSeconds : Int64) : Except RpcError (GrantKeys P) :=
  if lengths : ∃ key ∈ keys, key.length ≠ keyLength then
    .error (.valueError "every grant key must be exactly 32 bytes")
  else if none : keys = [] then
    .error (.valueError "grant configuration needs at least one key")
  else if distinct : ¬ (keys.map (grantKeyId P)).Nodup then
    .error (.valueError "grant keys must be distinct")
  else if ttl : maxTtlSeconds.toInt ≤ 0 then
    .error (.valueError "max_ttl_seconds must be positive")
  else if skew : clockSkewSeconds.toInt < 0 then
    .error (.valueError "clock_skew_seconds must not be negative")
  else if long : maxField < (utf8 audience).length then
    .error (.valueError "audience is too long")
  else
    .ok ⟨keys, audience, maxTtlSeconds, clockSkewSeconds, none, by simpa using lengths,
      by simpa using distinct, not_le.mp ttl, not_lt.mp skew, not_lt.mp long⟩

variable {P} in
def GrantKeys.aad (config : GrantKeys P) (kid : Bytes) : Bytes :=
  aadDomain ++ kid ++ utf8 config.audience

variable {P} in
def GrantKeys.first (config : GrantKeys P) : Bytes := config.keys.head config.someKey

end

structure GrantClaims where
  principal : String
  scopes : List String
  purpose : String
  grantId : String
  issuedAt : Int64
  expiresAt : Int64
  deriving DecidableEq

structure GrantInvalid where
  detail : String
  expired : Bool
  deriving DecidableEq

def GrantInvalid.new (detail : String) : GrantInvalid := ⟨detail, false⟩
def GrantInvalid.lifetime (detail : String) : GrantInvalid := ⟨detail, true⟩

def packText (value : String) : Except RpcError Bytes :=
  if maxField < (utf8 value).length then
    .error (.valueError "grant field longer than 65535 bytes")
  else .ok (toLe 2 (utf8 value).length ++ utf8 value)

def packI64 (value : Int64) : Bytes := toLe 8 value.toUInt64.toNat

def encodePayload (claims : GrantClaims) : Except RpcError Bytes :=
  if maxField < claims.scopes.length then .error (.valueError "too many scopes")
  else do
    let grantId ← packText claims.grantId
    let principal ← packText claims.principal
    let purpose ← packText claims.purpose
    let scopes ← Cursor.writeAll packText claims.scopes
    pure (packI64 claims.issuedAt ++ (packI64 claims.expiresAt ++ (grantId ++ (principal ++
      (purpose ++ (toLe 2 claims.scopes.length ++ scopes))))))

namespace Payload

def truncated : GrantInvalid := .new "grant payload is truncated"

def i64 : Cursor GrantInvalid Int64 := do
  let value ← Cursor.word truncated 8
  pure (UInt64.ofNat value).toInt64

def u16 : Cursor GrantInvalid Nat := Cursor.word truncated 2

def text : Cursor GrantInvalid String := do
  let length ← u16
  let bytes ← Cursor.take truncated length
  match fromUtf8 bytes with
  | some value => pure value
  | none => throw (.new "grant payload is not UTF-8")

/-- Exact lengths, valid texts, and nothing behind them. -/
def claims : Cursor GrantInvalid GrantClaims := do
  let issuedAt ← i64
  let expiresAt ← i64
  let grantId ← text
  let principal ← text
  let purpose ← text
  let count ← u16
  let scopes ← Cursor.many text count
  pure ⟨principal, scopes, purpose, grantId, issuedAt, expiresAt⟩

end Payload

def decodePayload (payload : Bytes) : Except GrantInvalid GrantClaims := do
  let (claims, rest) ← Payload.claims payload
  if rest.isEmpty then pure claims else throw (.new "grant payload has trailing bytes")

/-- Decode a text that is the encoding of its bytes. -/
def b64urlStrict (text : List Char) : Except GrantInvalid Bytes :=
  if text.isEmpty || text.any (fun char =>
      !(Http.isAsciiAlphanumeric char || char == '-' || char == '_')) ||
      byteLength text % 4 == 1 then
    .error (.new "grant token is not unpadded base64url")
  else
    match Base64Url.decode text with
    | none => .error (.new "grant token is not unpadded base64url")
    | some raw =>
      if Base64Url.encode raw = text then .ok raw
      else .error (.new "grant token is not canonical base64url")

/-- What a clock shows: a double that counts seconds since the epoch, as far as a signed
64-bit count of seconds goes. -/
structure Clock where
  seconds : ℚ
  representable : Representable seconds
  below : seconds < 2 ^ 63

structure Surroundings where
  clock : Clock
  idBytes : Bytes
  idLength : idBytes.length = 16
  nonce : Nonce

def Surroundings.grantId (surroundings : Surroundings) : String :=
  String.ofList (surroundings.idBytes.flatMap Http.hexByte)

structure MintOverrides where
  now : Option Int64
  grantId : Option String
  nonce : Option Nonce

def MintOverrides.none : MintOverrides := ⟨.none, .none, .none⟩

section

variable {P : Primitives}

/-- The text of a token: the label, and behind it the id of the key and the envelope. -/
def grantToken (kid envelope : Bytes) : String :=
  String.ofList (grantTokenPrefix ++ Base64Url.encode (kid ++ envelope))

variable (config : GrantKeys P)

def lifetime (ttlSeconds : Int64) : Int64 :=
  if ttlSeconds ≤ config.maxTtlSeconds then ttlSeconds else config.maxTtlSeconds

variable (surroundings : Surroundings)

def mintGrantToken (principal : String) (scopes : List String)
    (purpose : String) (ttlSeconds : Int64) (overrides : MintOverrides) :
    Except RpcError (String × GrantClaims) :=
  if ttlSeconds ≤ 0 then .error (.valueError "ttl_seconds must be positive")
  else do
    let issuedAt := overrides.now.getD (Int64.ofInt ⌊surroundings.clock.seconds⌋)
    let claims : GrantClaims :=
      ⟨principal, scopes, purpose, overrides.grantId.getD surroundings.grantId, issuedAt,
        issuedAt + lifetime config ttlSeconds⟩
    let kid := grantKeyId P config.first
    let payload ← encodePayload claims
    let envelope := sealBytes P payload config.first (config.aad kid) envelopeVersion
      (overrides.nonce.getD surroundings.nonce)
    pure (grantToken kid envelope, claims)

def openGrant (token : String) : Except GrantInvalid GrantClaims :=
  if !grantTokenPrefix.isPrefixOf token.toList then .error (.new "not a sealed grant")
  else if maxGrantTokenChars < byteLength token.toList then .error (.new "grant token is too long")
  else do
    let raw ← b64urlStrict (token.toList.drop grantTokenPrefix.length)
    if raw.length < kidLength then .error (.new "grant token is truncated")
    else
      let kid := raw.take kidLength
      let envelope := raw.drop kidLength
      match config.keys.find? fun key => grantKeyId P key == kid with
      | none => .error (.new "grant was sealed with a key this deployment does not hold")
      | some key =>
        match openBytes P envelope key (config.aad kid) envelopeVersion with
        | none => .error (.new "grant failed verification")
        | some payload => decodePayload payload

def saturate (value : ℤ) : ℤ := max (-2 ^ 63) (min (2 ^ 63 - 1) value)

def asF64 (value : Int64) : ℚ := nearest value.toInt

def addF64 (first second : ℚ) : ℚ := nearest (first + second)

def checkGrant (claims : GrantClaims) (current : ℚ) : Except GrantInvalid GrantClaims :=
  if claims.principal.isEmpty then .error (.new "grant names no principal")
  else if claims.expiresAt ≤ claims.issuedAt ∨
      config.maxTtlSeconds.toInt < saturate (claims.expiresAt.toInt - claims.issuedAt.toInt) then
    .error (.new "grant lifetime exceeds this deployment's maximum")
  else if addF64 current (asF64 config.clockSkewSeconds) < asF64 claims.issuedAt then
    .error (.lifetime "grant is not yet valid")
  else if addF64 (asF64 claims.expiresAt) (asF64 config.clockSkewSeconds) ≤ current then
    .error (.lifetime "grant has expired")
  else .ok claims

def verifyGrantToken (token : String) (current : ℚ) : Except GrantInvalid GrantClaims := do
  let claims ← openGrant config token
  checkGrant config claims current

structure IssuedGrant where
  token : String
  expiresAtMicros : Int64
  grantId : String
  deriving DecidableEq

/-- The minter of a deployment that has keys and no minter of its own. -/
def sealedMintGrant (principal purpose : String)
    (scopes : List String) (ttlSeconds : Int64) : Except IdentityError IssuedGrant :=
  if ttlSeconds ≤ 0 then .error (.grantRefused "ttl_seconds must be positive")
  else
    match mintGrantToken config surroundings principal scopes purpose ttlSeconds .none with
    | .error error => .error (.grantRefused error.message)
    | .ok (token, claims) =>
      .ok ⟨token, Int64.ofInt (saturate (claims.expiresAt.toInt * 1000000)), claims.grantId⟩

end

end VgiRpc.Identity
