import VgiRpc.Auth.Request
import VgiRpc.Http.Routing

/-!
# Proxy proofs

A trusted proxy adds a proof to each request: a time, a nonce and a MAC over both and the
worker's identifier.  The worker takes a proof when its time is within a window around its
own clock and its nonce is not among those it remembers.  The nonces are kept in the order
they came, each until a time of its own, and there is room for so many of them only.
-/

namespace VgiRpc.Auth

open Library
open Library.ByteStream (Bytes)
open Http (AuthContext utf8 isAsciiAlphanumeric)
open String (ofList)

inductive ProofMode where
  | off
  | allow
  | require
  deriving DecidableEq

structure ProofConfig where
  mode : ProofMode
  originId : String
  /-- The secret of a key id and the label of the proxy that holds it. -/
  secrets : OrderedMap String (Bytes × String)
  skewSeconds : Int
  replayCapacity : Nat
  enableReplayCache : Bool

/-! Only characters of one byte pass these checks, so the lengths are in bytes as well. -/

def isWordChar (char : Char) : Bool := isAsciiAlphanumeric char || char == '_' || char == '-'

variable (text : List Char)

def isKid : Bool := !text.isEmpty && text.length ≤ 64 && text.all isWordChar

def isTs : Bool := !text.isEmpty && text.length ≤ 20 && text.all Char.isDigit

def isNonce : Bool := text.length == 22 && text.all isWordChar

def isMac : Bool := text.length == 43 && text.all isWordChar

def isOrigin : Bool :=
  !text.isEmpty && text.length ≤ 255 &&
    text.all fun char => isAsciiAlphanumeric char || ['.', '_', ':', '/', '-'].contains char

/-- What has to hold of a configuration for a gate to be built from it. -/
def ProofConfig.check (config : ProofConfig) : Except RpcError Unit :=
  if config.mode = .off then
    .error (.valueError "proof_authenticate called with mode=Off; install no gate instead")
  else if !isOrigin config.originId.toList then
    .error (.valueError "origin_id is required and must be valid")
  else if config.secrets.isEmpty then .error (.valueError "at least one secret is required")
  else if config.secrets.keys.any fun kid => !isKid kid.toList then
    .error (.valueError "invalid kid in secrets")
  else if config.skewSeconds ≤ 0 then .error (.valueError "skew_seconds must be positive")
  else .ok ()

/-- The result of an operation on signed 64-bit integers, which wraps around. -/
def wrapI64 (value : Int) : Int := value.bmod (2 ^ 64)

variable {value : Int}

theorem wrapI64_of_fits (low : -2 ^ 63 ≤ value) (high : value < 2 ^ 63) : wrapI64 value = value := by
  unfold wrapI64
  rw [Int.bmod_eq_of_le] <;> omega

structure NonceCacheInner where
  order : List (String × Int)
  seen : OrderedMap String Unit

namespace NonceCacheInner

def empty : NonceCacheInner := ⟨[], OrderedMap.empty⟩

def sweep (now : Int) : List (String × Int) → OrderedMap String Unit → NonceCacheInner
  | [], seen => ⟨[], seen⟩
  | (nonce, expires) :: rest, seen =>
    if now < expires then ⟨(nonce, expires) :: rest, seen⟩ else sweep now rest (seen.remove nonce)

/-- Make room for one more.  With no room at all the loop goes on for ever, which is `none`. -/
def evict (capacity : Nat) : List (String × Int) → OrderedMap String Unit → Option NonceCacheInner
  | [], seen => if capacity = 0 then none else some ⟨[], seen⟩
  | (nonce, expires) :: rest, seen =>
    if capacity ≤ rest.length + 1 then evict capacity rest (seen.remove nonce)
    else some ⟨(nonce, expires) :: rest, seen⟩

def add (cache : NonceCacheInner) (nonce : String) (expires : Int) : NonceCacheInner :=
  ⟨cache.order ++ [(nonce, expires)], cache.seen.insert nonce ()⟩

def checkAndAdd (ttl : Int) (capacity : Nat) (cache : NonceCacheInner) (nonce : String)
    (now : Int) : Option (Bool × NonceCacheInner) :=
  let swept := sweep now cache.order cache.seen
  if swept.seen.contains nonce then some (false, swept)
  else (evict capacity swept.order swept.seen).map fun room => (true, room.add nonce (wrapI64 (now + ttl)))

end NonceCacheInner

/-- The cache behind its lock, which a request that never ends holds for ever. -/
inductive NonceCache where
  | free (inner : NonceCacheInner)
  | held

/-- What comes of a proof; a request that waits for the lock or goes round in the cache for
ever is stuck. -/
inductive Verdict where
  | accepted (claims : List (String × String))
  | rejected (reason : String)
  | stuck
  deriving DecidableEq

def Verdict.isAccepted : Verdict → Bool
  | .accepted _ => true
  | .rejected _ | .stuck => false

def proofVersion : List Char := "v1".toList
def maxHeaderLen : Nat := 512
def domainPrefix : Bytes := utf8 "vgi.proxy.proof.v1"

def canonicalString (kid ts nonce originId : String) : Bytes :=
  domainPrefix ++ [kid, ts, nonce, originId].flatMap fun part => 0 :: utf8 part

/-- The number a text of digits spells, when it is a signed 64-bit integer. -/
def parseI64 (digits : List Char) : Option Int :=
  let value := digits.foldl (fun value digit => value * 10 + (digit.toNat - '0'.toNat)) 0
  if value < 2 ^ 63 then some value else none

theorem parseI64_fits {digits : List Char} (parsed : parseI64 digits = some value) :
    0 ≤ value ∧ value < 2 ^ 63 := by
  simp only [parseI64] at parsed
  split_ifs at parsed
  cases parsed
  omega

structure ProofFields where
  kid : List Char
  ts : List Char
  nonce : List Char
  mac : List Char

def parseProof (token : String) : Option ProofFields :=
  if maxHeaderLen < byteLength token.toList then none
  else
    match token.toList.splitOn '.' with
    | [version, kid, ts, nonce, mac] =>
      if version = proofVersion && isKid kid && isTs ts && isNonce nonce && isMac mac then
        some ⟨kid, ts, nonce, mac⟩
      else none
    | _ => none

section

-- The MAC of a message under a key, and the decoder of the text a MAC travels as.
variable (hmac : Bytes → Bytes → Bytes) (decodeMac : String → Option Bytes) (config : ProofConfig)

/-- All that is checked of a proof but its nonce: the label of the proxy that sent it. -/
def checkProof (fields : ProofFields) (now : Int) : Except String String :=
  match config.secrets.get? (ofList fields.kid) with
  | none => .error "unknown_kid"
  | some (secret, label) =>
    match parseI64 fields.ts with
    | none => .error "malformed"
    | some ts =>
      let age := wrapI64 (now - ts)
      if config.skewSeconds < age then .error "expired"
      else if config.skewSeconds < wrapI64 (-age) then .error "not_yet_valid"
      else
        match decodeMac (ofList fields.mac) with
        | none => .error "malformed"
        | some received =>
          if hmac secret (canonicalString (ofList fields.kid) (ofList fields.ts)
              (ofList fields.nonce) config.originId) = received then .ok label
          else .error "bad_mac"

section

variable {config} {fields : ProofFields} {now : Int} {label : String}

theorem checkProof_eq_ok : checkProof hmac decodeMac config fields now = .ok label ↔
      ∃ secret ts, config.secrets.get? (ofList fields.kid) = some (secret, label) ∧
        parseI64 fields.ts = some ts ∧ wrapI64 (now - ts) ≤ config.skewSeconds ∧
        wrapI64 (-wrapI64 (now - ts)) ≤ config.skewSeconds ∧
        decodeMac (ofList fields.mac) = some (hmac secret (canonicalString
          (ofList fields.kid) (ofList fields.ts) (ofList fields.nonce) config.originId)) := by
  unfold checkProof
  grind

/-- A proof passes when its key is known, its time is within the window on either side of
the clock and its MAC is right. -/
theorem checkProof_ok_iff (low : 0 ≤ now) (high : now < 2 ^ 63) :
    checkProof hmac decodeMac config fields now = .ok label ↔
      ∃ secret ts, config.secrets.get? (ofList fields.kid) = some (secret, label) ∧
        parseI64 fields.ts = some ts ∧ now - ts ≤ config.skewSeconds ∧
        ts - now ≤ config.skewSeconds ∧
        decodeMac (ofList fields.mac) = some (hmac secret (canonicalString
          (ofList fields.kid) (ofList fields.ts) (ofList fields.nonce) config.originId)) := by
  rw [checkProof_eq_ok]
  refine exists_congr fun secret => exists_congr fun ts => and_congr_right fun _ =>
    and_congr_right fun parsed => ?_
  obtain ⟨least, most⟩ := parseI64_fits parsed
  rw [wrapI64_of_fits (by omega) (by omega), wrapI64_of_fits (by omega) (by omega), Int.neg_sub]

end

def verifiedClaims (fields : ProofFields) (label : String) : List (String × String) :=
  [("verified", "true"), ("proxy", label), ("kid", ofList fields.kid),
    ("origin_id", config.originId), ("reason", "ok")]

/-- Ask the cache about the nonce of a proof that passed all other checks. -/
def remember (nonce : String) (now : Int) (claims : List (String × String)) :
    NonceCache → Verdict × NonceCache
  | .held => (.stuck, .held)
  | .free inner =>
    match inner.checkAndAdd config.skewSeconds config.replayCapacity nonce now with
    | none => (.stuck, .held)
    | some (false, inner) => (.rejected "replayed", .free inner)
    | some (true, inner) => (.accepted claims, .free inner)

def verifyProof (token : String) (now : Int) (cache : Option NonceCache) :
    Verdict × Option NonceCache :=
  match parseProof token with
  | none => (.rejected "malformed", cache)
  | some fields =>
    match checkProof hmac decodeMac config fields now with
    | .error reason => (.rejected reason, cache)
    | .ok label =>
      match cache with
      | none => (.accepted (verifiedClaims config fields label), none)
      | some cache =>
        let result := remember config (ofList fields.nonce) now
          (verifiedClaims config fields label) cache
        (result.1, some result.2)

def proofHeader : String := "vgi-proxy-proof"

def verifyRequest (request : AuthRequest) (now : Int) (cache : Option NonceCache) :
    Verdict × Option NonceCache :=
  match request.header proofHeader with
  | none => (.rejected "no_proof", cache)
  | some raw =>
    if raw = "" then (.rejected "no_proof", cache)
    else if raw.toList.contains ',' then (.rejected "malformed", cache)
    else verifyProof hmac decodeMac config raw now cache

def claimsPrefix : String := "vgi_proxy_proof"

def unverifiedClaims (reason : String) : List (String × String) :=
  [("verified", "false"), ("proxy", ""), ("kid", ""), ("origin_id", config.originId),
    ("reason", reason)]

variable (inner : Option Authenticate) (request : AuthRequest)

/-- The context of a request that passed the gate, with what is known about its proof. -/
def gatedContext (claims : List (String × String)) : Except AuthFailure AuthContext := do
  let merged ← match inner with
    | some authenticate => (authenticate request).map AuthContext.claims
    | none => pure OrderedMap.empty
  let context ← match inner with
    | some authenticate => authenticate request
    | none => pure ⟨true, claimsPrefix, (claims.lookup "proxy").getD "", OrderedMap.empty⟩
  pure { context with
    claims := claims.foldl (fun merged claim =>
      merged.insert (claimsPrefix ++ "." ++ claim.1) claim.2) merged }

/-- The gate in front of an authenticator; `none` is a request that never ends. -/
def proofAuthenticate (now : Int)
    (cache : Option NonceCache) : Option (Except AuthFailure AuthContext) × Option NonceCache :=
  let result := verifyRequest hmac decodeMac config request now cache
  (match result.1 with
    | .stuck => none
    | .accepted claims => some (gatedContext inner request claims)
    | .rejected reason =>
      if config.mode = .require then
        some (.error (.refused (.authFailure .proxyRequired "proxy proof required")))
      else some (gatedContext inner request (unverifiedClaims config reason)), result.2)

end
end VgiRpc.Auth
