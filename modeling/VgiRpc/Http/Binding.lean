import VgiRpc.Http.Streams
import VgiRpc.Sticky.Token

/-!
# What a token is bound to

Cursors, call tokens and session tokens are sealed under one key.  A token of one
kind is refused where another is expected; who it opens for depends on how the
caller's texts can be told apart once they are joined.
-/

namespace VgiRpc.Http

open Library ByteStream Sticky

inductive TokenKind where
  | cursor
  | call
  | session
  deriving DecidableEq

inductive Issue where
  | cursor (stateBytes : Bytes) (callId : CallId) (createdAt : UInt64) (nonce : Nonce)
  | call (callId : CallId) (call : ResolvedCall) (createdAt : UInt64) (nonce : Nonce)
  | session (serverId : String) (sessionId : SessionId) (expiresAt createdAt : UInt64)
      (nonce : Nonce)

def Issue.kind : Issue → TokenKind
  | .cursor .. => .cursor
  | .call .. => .call
  | .session .. => .session

def TokenKind.aad : TokenKind → AuthContext → Bytes
  | .cursor => computeAad
  | .call => computeCallAad
  | .session => computeSessionAad

def TokenKind.version : TokenKind → UInt8
  | .cursor => cursorTokenVersion
  | .call => callTokenVersion
  | .session => tokenVersion

section

variable (P : SessionPrimitives) (config : TokenConfig)

def Issue.payload : Issue → Bytes
  | .cursor stateBytes callId createdAt _ =>
    packTokenPayload P.toPrimitives (cursorPlaintext createdAt callId stateBytes)
  | .call callId resolved createdAt _ =>
    packTokenPayload P.toPrimitives (callPlaintext createdAt callId resolved)
  | .session serverId sessionId expiresAt createdAt _ =>
    sessionPlaintext createdAt serverId sessionId expiresAt

def Issue.nonce : Issue → Nonce
  | .cursor _ _ _ nonce => nonce
  | .call _ _ _ nonce => nonce
  | .session _ _ _ _ nonce => nonce

variable (issue : Issue) (auth : AuthContext)

def Issue.sealed : Bytes :=
  sealBytes P.toPrimitives (issue.payload P) config.tokenKey (issue.kind.aad auth)
    issue.kind.version issue.nonce

def Issue.token : String :=
  match issue with
  | .cursor stateBytes callId createdAt nonce =>
    packCursorToken P.toPrimitives config.tokenKey (computeAad auth) stateBytes callId createdAt
      nonce
  | .call callId resolved createdAt nonce =>
    packCallToken P.toPrimitives config.tokenKey (computeCallAad auth) callId resolved createdAt
      nonce
  | .session serverId sessionId expiresAt createdAt nonce =>
    sealSessionToken P serverId sessionId expiresAt config.tokenKey (computeSessionAad auth)
      createdAt nonce

/-- The server takes the text for a token of this kind from this caller. -/
def TokenKind.Accepts (kind : TokenKind) (auth : AuthContext) (token : String) (now : UInt64) :
    Prop :=
  match kind with
  | .cursor => ∃ opened, unpackCursorToken P.toPrimitives config.tokenKey (computeAad auth) token
      config.tokenTtlOpt now = .ok opened
  | .call => ∃ opened, unpackCallToken P.toPrimitives config.tokenKey (computeCallAad auth) token
      config.tokenTtlOpt now = .ok opened
  | .session => ∃ opened, openSessionToken P token config.tokenKey (computeSessionAad auth) =
      .ok opened

def TokenKind.decode : TokenKind → String → Option Bytes
  | .cursor => P.base64Decode
  | .call => P.base64Decode
  | .session => P.base64UrlDecode

/-- The cipher opens an envelope under the associated data it was sealed with only. -/
def Issue.OpensOnly : Prop :=
  ∀ aad version payload,
    openBytes P.toPrimitives (issue.sealed P config auth) config.tokenKey aad version =
      some payload → aad = issue.kind.aad auth

end

section

variable {P : SessionPrimitives} {config : TokenConfig} {kind : TokenKind} {auth : AuthContext}
  {token : String} {now : UInt64}

/-- An accepted text is an envelope that opens under the caller's associated data. -/
theorem TokenKind.Accepts.opened (accepts : kind.Accepts P config auth token now) :
    ∃ raw payload, kind.decode P token = some raw ∧
      openBytes P.toPrimitives raw config.tokenKey (kind.aad auth) kind.version = some payload := by
  cases kind with
  | cursor | call =>
    obtain ⟨_, unpacked⟩ := accepts
    obtain ⟨_, opened, _⟩ := exceptBind_eq_ok unpacked
    exact openTokenPlaintext_opened opened
  | session =>
    obtain ⟨_, unpacked⟩ := accepts
    unfold openSessionToken at unpacked
    split at unpacked
    · cases unpacked
    rename_i raw decoded
    split at unpacked
    · cases unpacked
    · rename_i payload opened
      exact ⟨raw, payload, decoded, opened⟩

variable {issue : Issue}

/-- The text of a token decodes to its envelope, in whichever alphabet it decodes at all. -/
theorem Issue.decode_token (lawful : P.Lawful) {raw : Bytes}
    (decoded : kind.decode P (issue.token P config auth) = some raw) :
    raw = issue.sealed P config auth := by
  have standard := lawful.base64_decode (issue.sealed P config auth)
  have url := lawful.base64Url_decode (issue.sealed P config auth)
  cases issue with
  | cursor | call =>
    cases kind with
    | cursor | call => exact Option.some.inj (decoded.symm.trans standard)
    | session => exact (lawful.alphabets_agree _ _ _ standard decoded).symm
  | session =>
    cases kind with
    | cursor | call => exact lawful.alphabets_agree _ _ _ decoded url
    | session => exact Option.some.inj (decoded.symm.trans url)

theorem openBytes_version {raw key aad payload : Bytes} {version : UInt8}
    (opened : openBytes P.toPrimitives raw key aad version = some payload) :
    raw.head? = some version := by
  unfold openBytes at opened
  split_ifs at opened with kept
  exact not_not.mp fun other => kept (.inr other)

theorem TokenKind.version_injective {first second : TokenKind}
    (same : first.version = second.version) : first = second := by
  cases first <;> cases second <;> first | rfl | exact absurd same (by decide)

variable {other : AuthContext}

/-- A token is refused where a token of another kind is expected, whoever presents it. -/
theorem Issue.other_kind_refused (lawful : P.Lawful) (differs : kind ≠ issue.kind) :
    ¬ kind.Accepts P config other (issue.token P config auth) now := by
  intro accepts
  obtain ⟨raw, payload, decoded, opened⟩ := accepts.opened
  have version := openBytes_version opened
  rw [Issue.decode_token lawful decoded] at version
  exact differs (TokenKind.version_injective (Option.some.inj version).symm)

theorem TokenKind.aad_eq_iff (kind : TokenKind) (first second : AuthContext) :
    kind.aad first = kind.aad second ↔ first.identity.Alike second.identity := by
  cases kind with
  | cursor => exact computeAad_eq_iff first second
  | call => exact computeCallAad_eq_iff first second
  | session => exact computeSessionAad_eq_iff first second

/-- Callers with one associated data are served alike. -/
theorem TokenKind.Accepts.alike (accepts : kind.Accepts P config auth token now)
    (alike : other.identity.Alike auth.identity) : kind.Accepts P config other token now := by
  cases kind with
  | cursor =>
    unfold Accepts
    rw [(computeAad_eq_iff other auth).mpr alike]
    exact accepts
  | call =>
    unfold Accepts
    rw [(computeCallAad_eq_iff other auth).mpr alike]
    exact accepts
  | session =>
    unfold Accepts
    rw [(computeSessionAad_eq_iff other auth).mpr alike]
    exact accepts

/-- A token that is good for its own caller is good for exactly the callers alike. -/
theorem Issue.accepts_iff (lawful : P.Lawful) (only : issue.OpensOnly P config auth)
    (good : issue.kind.Accepts P config auth (issue.token P config auth) now) :
    issue.kind.Accepts P config other (issue.token P config auth) now ↔
      other.identity.Alike auth.identity := by
  constructor
  · intro accepts
    obtain ⟨raw, payload, decoded, opened⟩ := accepts.opened
    rw [Issue.decode_token lawful decoded] at opened
    exact (issue.kind.aad_eq_iff other auth).mp (only _ _ _ opened)
  · intro alike
    exact good.alike alike

/-- A cursor, call token or session token that is good for its caller is good for that
caller only exactly when the caller's texts split in one way; a token of one kind is
never taken for another; and in every run a request of such a caller is answered with a
call that was minted for that caller. -/
theorem tokens_bind_callers (P : SessionPrimitives) (config : TokenConfig) (lawful : P.Lawful) :
    (∀ (issue : Issue) (auth : AuthContext) (now : UInt64), issue.OpensOnly P config auth →
      issue.kind.Accepts P config auth (issue.token P config auth) now →
      ((∀ other : AuthContext, other.identity.WellFormed →
        issue.kind.Accepts P config other (issue.token P config auth) now →
          other.identity = auth.identity) ↔ auth.identity.Plain)) ∧
    (∀ (issue : Issue) (kind : TokenKind) (auth other : AuthContext) (now : UInt64),
      kind ≠ issue.kind → ¬ kind.Accepts P config other (issue.token P config auth) now) ∧
    ∀ run, (streamSystem P.toPrimitives config).Reachable run →
      ∀ (request : TokenRequest) (times : Readings) (call : ResolvedCall),
        AuthenticCursor P.toPrimitives config run.cursors request.auth request.cursor times.cursor →
        (∀ token, request.callToken = some token →
          Authentic P.toPrimitives config run.calls.minted request.auth token times.token) →
        (answer P.toPrimitives config request times run.calls.cache).1 = .ok call →
        request.auth.identity.Plain → (∀ mint ∈ run.calls.minted, mint.auth.identity.WellFormed) →
        ∃ mint ∈ run.calls.minted, mint.Yields P.toPrimitives config call ∧
          mint.auth.identity = request.auth.identity := by
  refine ⟨?_, ?_, ?_⟩
  · intro issue auth now only good
    rw [← Identity.plain_iff]
    constructor
    · intro bound who wellFormed alike
      have named : who.auth.identity = who := who.auth_identity
      rw [← named] at wellFormed alike ⊢
      exact bound who.auth wellFormed ((Issue.accepts_iff lawful only good).mpr alike)
    · intro plain other wellFormed accepts
      exact plain other.identity wellFormed ((Issue.accepts_iff lawful only good).mp accepts)
  · intro issue kind auth other now differs
    exact Issue.other_kind_refused lawful differs
  · intro run reachable request times call cursorAuthentic callAuthentic answered plain wellFormed
    obtain ⟨mint, member, yields, caller⟩ :=
      answer_caller lawful.toLawful reachable cursorAuthentic callAuthentic answered
    have alike := (computeAad_eq_iff mint.auth request.auth).mp caller.symm
    exact ⟨mint, member, yields, (Identity.plain_iff _).mpr plain _ (wellFormed mint member) alike⟩

end

namespace Sample

def caller (domain principal : String) : AuthContext := ⟨true, domain, principal, OrderedMap.empty⟩

def issue : Issue := .cursor [7] callId 0 nonce

variable (auth : AuthContext)

/-- The cipher of a server whose only token so far was sealed for this caller. -/
def sealing : SessionPrimitives := Sticky.Sample.primitives (computeAad auth)

theorem issue_opensOnly : issue.OpensOnly (sealing auth) config auth := by
  intro aad version payload opened
  exact Sticky.Sample.opens_only_known opened

theorem issue_accepted :
    issue.kind.Accepts (sealing auth) config auth (issue.token (sealing auth) config auth) 0 := by
  have fits : CursorFits (sealing auth).toPrimitives 0 callId [7] := by
    constructor
    · intro packed packs shorter
      cases packs
      exact absurd shorter (Nat.lt_irrefl _)
    · decide
  have alive : WithinLifetime config.tokenTtlOpt 0 0 := checkLifetime_ok.mp (by decide)
  exact ⟨_, (unpackCursorToken_accepts (Sticky.Sample.primitives_lawful _).toLawful _ _ _ _ _ _ _
    _).mpr ⟨fits, alive⟩⟩

end Sample

open Sample

/-- The cursor of one caller is refused from a caller with another principal. -/
theorem tokens_bind_callers_refused : ¬ issue.kind.Accepts (sealing (caller "mtls" "ada")) config
      (caller "mtls" "eve")
      (issue.token (sealing (caller "mtls" "ada")) config (caller "mtls" "ada")) 0 := by
  intro accepts
  have bound := ((tokens_bind_callers (sealing (caller "mtls" "ada")) config
    (Sticky.Sample.primitives_lawful _)).1 issue (caller "mtls" "ada") 0
      (issue_opensOnly _) (issue_accepted _)).mpr (by decide)
  have same := bound (caller "mtls" "eve") (fun unknown => Bool.noConfusion unknown) accepts
  exact absurd (congrArg Identity.principal same) (by decide)

/-- A NUL that one caller has in its domain another has in its principal, and the cursor
of the one is accepted from the other. -/
theorem nul_moves_between_callers :
    (caller "a\x00b" "c").identity ≠ (caller "a" "b\x00c").identity ∧
    issue.OpensOnly (sealing (caller "a\x00b" "c")) config (caller "a\x00b" "c") ∧
    issue.kind.Accepts (sealing (caller "a\x00b" "c")) config (caller "a" "b\x00c")
      (issue.token (sealing (caller "a\x00b" "c")) config (caller "a\x00b" "c")) 0 := by
  refine ⟨?_, issue_opensOnly _, (issue_accepted _).alike ?_⟩
  · intro same
    exact absurd (congrArg Identity.domain same) (by decide)
  · exact ⟨rfl, rfl, by decide⟩

end VgiRpc.Http
