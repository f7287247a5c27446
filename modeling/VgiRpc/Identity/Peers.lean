import Mathlib.Data.String.Basic
import VgiRpc.Identity.Bearer

/-!
# Evidence about peers and the policies for it

Providers say who the peer of a connection is.  A policy turns their evidence and the
context that the authenticator found into the context of the request: it may look away,
insist, replace the context, or combine the two.
-/

namespace VgiRpc.Identity

open Library
open Library.ByteStream (Bytes)
open Http (AuthContext Primitives utf8)
open Auth (AuthError)

inductive PeerIdentityStatus where
  | off
  | notApplicable
  | available
  | unavailable
  | permissionDenied
  | noMatch
  | invalid
  | untrustedProxy
  deriving DecidableEq

def PeerIdentityStatus.asStr : PeerIdentityStatus → String
  | .off => "off"
  | .notApplicable => "not_applicable"
  | .available => "available"
  | .unavailable => "unavailable"
  | .permissionDenied => "permission_denied"
  | .noMatch => "no_match"
  | .invalid => "invalid"
  | .untrustedProxy => "untrusted_proxy"

inductive IdentityAssurance where
  | cryptographicPeer
  | localDaemon
  | configuredProxy
  deriving DecidableEq

def IdentityAssurance.asStr : IdentityAssurance → String
  | .cryptographicPeer => "cryptographic_peer"
  | .localDaemon => "local_daemon"
  | .configuredProxy => "configured_proxy"

inductive SubjectKind where
  | user
  | taggedNode
  | workload
  | endpoint
  | unknown
  deriving DecidableEq

def SubjectKind.asStr : SubjectKind → String
  | .user => "user"
  | .taggedNode => "tagged_node"
  | .workload => "workload"
  | .endpoint => "endpoint"
  | .unknown => "unknown"

inductive SubjectStability where
  | stable
  | login
  | none
  deriving DecidableEq

def SubjectStability.asStr : SubjectStability → String
  | .stable => "stable"
  | .login => "login"
  | .none => "none"

structure PeerIdentity where
  provider : String
  evidenceSource : String
  assurance : IdentityAssurance
  issuer : String
  transport : String
  subjectKind : SubjectKind
  subjectKey : Option String
  subjectStability : SubjectStability
  subjectVerified : Bool
  attributes : Json
  capabilities : Json
  capabilitiesVerified : Bool

def hexUpper (value : Nat) : Char := "0123456789ABCDEF".toList.getD value '0'

def percentEncode (value : String) : String :=
  String.ofList ((utf8 value).flatMap fun byte =>
    let char := Char.ofNat byte.toNat
    if byte < 128 && (Http.isAsciiAlphanumeric char || ['-', '.', '_', '~'].contains char) then [char]
    else ['%', hexUpper (byte.toNat / 16), hexUpper (byte.toNat % 16)])

/-- What a byte of a text becomes. -/
def escape (byte : UInt8) : List Char :=
  let char := Char.ofNat byte.toNat
  if byte < 128 && (Http.isAsciiAlphanumeric char || ['-', '.', '_', '~'].contains char) then [char]
  else ['%', hexUpper (byte.toNat / 16), hexUpper (byte.toNat % 16)]

theorem percentEncode_eq (value : String) :
    percentEncode value = String.ofList ((utf8 value).flatMap escape) := rfl

def PeerIdentity.canonicalPrincipal (identity : PeerIdentity) : Except AuthError String :=
  match identity.subjectKey with
  | none => .error ⟨.valueError "subjectless evidence has no canonical principal", none, none⟩
  | some subject =>
    .ok ("peer/" ++ percentEncode identity.provider ++ "/" ++ percentEncode identity.issuer ++ "/" ++
      percentEncode subject)

structure PeerEvidenceSet where
  identities : List PeerIdentity
  providerStatus : OrderedMap String PeerIdentityStatus

namespace PeerEvidenceSet

variable (evidence : PeerEvidenceSet) (provider : String)

def status : PeerIdentityStatus := (evidence.providerStatus.get? provider).getD .off

def forProvider : List PeerIdentity :=
  evidence.identities.filter fun identity => identity.provider == provider

/-- The identities of a provider that name a subject for good. -/
def verifiedSubjects : List PeerIdentity :=
  (evidence.forProvider provider).filter fun identity =>
    identity.subjectVerified && identity.subjectKey.isSome && identity.subjectStability == .stable

def uniqueVerifiedSubject : Except AuthError PeerIdentity :=
  match evidence.verifiedSubjects provider with
  | [] =>
    .error (.permissionError
      ("provider " ++ provider.quote ++ " did not produce one verified stable subject"))
  | [identity] => .ok identity
  | _ =>
    .error (.permissionError
      ("provider " ++ provider.quote ++ " produced multiple verified stable subjects"))

def rejectAmbiguousProvider : Except AuthError Unit :=
  if 1 < (evidence.verifiedSubjects provider).length then
    .error (.authFailure .invalidCredential
      ("provider " ++ provider.quote ++ " produced ambiguous verified subjects"))
  else .ok ()

/-- The statuses with which no evidence is usable. -/
def rejectStatus : Except AuthError Unit :=
  match evidence.status provider with
  | .unavailable | .permissionDenied =>
    .error (.authUnavailable ("peer identity provider " ++ provider.quote ++ " is unavailable"))
  | .invalid =>
    .error (.authFailure .invalidCredential
      ("peer identity provider " ++ provider.quote ++ " rejected evidence"))
  | .untrustedProxy =>
    .error (.authFailure .proxyRequired
      ("peer identity provider " ++ provider.quote ++ " rejected its proxy boundary"))
  | _ => .ok ()

def requireUsableProvider : Except AuthError PeerIdentity := do
  evidence.rejectStatus provider
  evidence.uniqueVerifiedSubject provider

def requireAvailableProvider : Except AuthError (List PeerIdentity) := do
  evidence.rejectStatus provider
  let block := (evidence.identities.dropWhile fun identity => identity.provider != provider).takeWhile
    fun identity => identity.provider == provider
  if evidence.status provider = .available && !block.isEmpty then .ok block
  else
    .error (.permissionError
      ("peer identity provider " ++ provider.quote ++ " did not produce evidence"))

end PeerEvidenceSet

section

variable (P : Primitives) (codec : Json.Codec)

def hashField (value : String) : Bytes :=
  (LittleEndian.toLe 8 (utf8 value).length).reverse ++ utf8 value

def boolText (value : Bool) : String := if value then "true" else "false"

/-- What is bound of an identity; the two empty fields once held addresses. -/
def boundFields (identity : PeerIdentity) : List String :=
  [identity.provider, identity.issuer, identity.subjectKey.getD "", identity.assurance.asStr,
    identity.evidenceSource, identity.transport, identity.subjectKind.asStr,
    identity.subjectStability.asStr, boolText identity.subjectVerified,
    boolText identity.capabilitiesVerified, "", "", codec.print identity.attributes,
    codec.print identity.capabilities]

def bindingDigest (evidence : PeerEvidenceSet) (providers : List String)
    (applicationAuth : Option AuthContext) : String :=
  let ofProvider (provider : String) : Bytes :=
    hashField provider ++ hashField (evidence.status provider).asStr ++
      (((evidence.forProvider provider).map (boundFields codec)).insertionSort (· ≤ ·)).flatten.flatMap
        hashField
  let ofAuth : Bytes :=
    match applicationAuth with
    | none => []
    | some auth => hashField "application_auth" ++ hashField auth.domain ++ hashField auth.principal
  let digest := P.sha256 (((providers.insertionSort (· ≤ ·)).dedup.flatMap ofProvider) ++ ofAuth)
  String.ofList (digest.flatMap Http.hexByte)

def evidenceBindingClaim : String := "peer_evidence_binding"

def withEvidenceBinding (auth : AuthContext) (evidence : PeerEvidenceSet) (providers : List String) :
    AuthContext :=
  { auth with
    claims := auth.claims.insert evidenceBindingClaim (bindingDigest P codec evidence providers none) }

/-- What a deployment says of an application's caller and of its peers together. -/
abbrev PeerIdentityLinker : Type := AuthContext → OrderedMap String PeerIdentity → Except AuthError Unit

inductive PeerPolicy where
  | observe
  | require (provider : String)
  | primary (provider : String)
  | anyOf (providers : List String)
  | allOf (providers : List String) (selected : String) (linker : PeerIdentityLinker)

def forPrincipal (domain principal : String) : AuthContext := ⟨true, domain, principal, OrderedMap.empty⟩

def peerIdentityPrimary (provider : String) (evidence : PeerEvidenceSet) :
    Except AuthError AuthContext := do
  let identity ← evidence.requireUsableProvider provider
  let principal ← identity.canonicalPrincipal
  let auth := forPrincipal provider principal
  pure { auth with
    claims := OrderedMap.ofEntries
      [("issuer", identity.issuer), ("subject_kind", identity.subjectKind.asStr),
        ("assurance", identity.assurance.asStr), ("evidence_source", identity.evidenceSource),
        ("subject", identity.subjectKey.getD ""),
        (evidenceBindingClaim, bindingDigest P codec evidence [provider] none)] }

/-- Evidence that is wrong counts against a request even when it needs none. -/
def rejectBadEvidence (evidence : PeerEvidenceSet) : List String → Except AuthError Unit
  | [] => .ok ()
  | provider :: rest => do
      if evidence.status provider = .invalid || evidence.status provider = .untrustedProxy then
        let _ ← evidence.requireUsableProvider provider
      if evidence.status provider = .available then evidence.rejectAmbiguousProvider provider
      rejectBadEvidence evidence rest

variable (providers : List String)

def anyOfPeerIdentities (evidence : PeerEvidenceSet)
    (existing : AuthContext) : Except AuthError AuthContext := do
  rejectBadEvidence evidence providers
  if existing.authenticated then pure existing
  else
    match providers.find? fun provider => (evidence.uniqueVerifiedSubject provider).isOk with
    | some provider => peerIdentityPrimary P codec provider evidence
    | none =>
      if providers.any fun provider =>
          evidence.status provider = .unavailable || evidence.status provider = .permissionDenied then
        throw (.authUnavailable "no usable authentication factor; a peer provider is unavailable")
      else throw (.permissionError "no configured provider produced a verified subject")

def allOfPeerIdentities (selected : String) (linker : PeerIdentityLinker)
    (evidence : PeerEvidenceSet) (existing : AuthContext) : Except AuthError AuthContext :=
  if !existing.authenticated then
    .error (.authFailure .missingCredential "all_of requires existing application authentication")
  else do
    let identities ← providers.mapM fun provider => do
      let identity ← evidence.requireUsableProvider provider
      pure (provider, identity)
    linker existing (OrderedMap.ofEntries identities)
    let primary ← evidence.requireUsableProvider selected
    let principal ← primary.canonicalPrincipal
    let auth := forPrincipal selected principal
    pure { auth with
      claims := OrderedMap.ofEntries
        [("issuer", primary.issuer), ("application_principal", existing.principal),
          (evidenceBindingClaim, bindingDigest P codec evidence providers (some existing)),
          ("application_domain", existing.domain)] }

def PeerPolicy.apply (policy : PeerPolicy) (evidence : PeerEvidenceSet) (existing : AuthContext) :
    Except AuthError AuthContext :=
  match policy with
  | .observe => .ok existing
  | .require provider => do
      let _ ← evidence.requireAvailableProvider provider
      pure (withEvidenceBinding P codec existing evidence [provider])
  | .primary provider => peerIdentityPrimary P codec provider evidence
  | .anyOf providers => anyOfPeerIdentities P codec providers evidence existing
  | .allOf providers selected linker =>
    allOfPeerIdentities P codec providers selected linker evidence existing

end

/-- The text of a policy is not passed on. -/
def redactPeerPolicyError (error : AuthError) : AuthError :=
  if error.isAuthUnavailable then
    { AuthError.authUnavailable "peer identity authentication unavailable" with
      retryAfterSeconds := error.retryAfterSeconds.or (some AuthError.defaultAuthRetryAfterSeconds) }
  else
    .authFailure (error.authReason.getD .invalidCredential) "peer identity authentication rejected"

end VgiRpc.Identity
