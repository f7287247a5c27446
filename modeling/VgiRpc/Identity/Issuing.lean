import VgiRpc.Identity.GrantLifetimes
import VgiRpc.Identity.Peers

/-!
# Issuing grants

A grant is issued to a caller who has authenticated recently, which is read from a claim of
the caller's context.  Neither a sealed grant nor a resolved token puts that claim there, and
no policy for peers does, so that what the framework accepts itself never leads to a grant.
-/

namespace VgiRpc.Identity

open Library OrderedMap
open Library.Float64 (nearest)
open Http (AuthContext Primitives sealBytes)
open Auth (AuthRequest AuthFailure AuthError Authenticate anonymous trim)

structure Numbers where
  parseF64 : List Char → Option Float64
  /-- A number without its decimals. -/
  whole : ℚ → String

def finiteValue : Float64 → Option ℚ
  | .finite negative magnitude _ => some (if negative then -magnitude else magnitude)
  | .nan | .infinite _ => none

def authTimeClaim : String := "auth_time"

section

variable (numbers : Numbers)

/-- When the caller authenticated, unless that is too long ago. -/
def checkFreshnessAt (auth : AuthContext) (maxAuthAge now : ℚ) : Except IdentityError ℚ :=
  if !auth.authenticated || auth.principal.isEmpty then
    .error (.staleAuth "caller is not authenticated")
  else
    match auth.claims.get? authTimeClaim with
    | none =>
      .error (.staleAuth
        "credential carries no auth_time; only a recently authenticated user may mint a grant")
    | some raw =>
      match (numbers.parseF64 (trim raw.toList)).bind finiteValue with
      | none => .error (.staleAuth "credential carries an unusable auth_time")
      | some authTime =>
        let age := nearest (now - authTime)
        if maxAuthAge < age then
          .error (.staleAuth ("last authentication was " ++ numbers.whole age ++
            "s ago, which exceeds the " ++ numbers.whole maxAuthAge ++
            "s ceiling for minting a grant; re-authenticate"))
        else .ok authTime

/-- What issues a grant to a principal, for a purpose, with scopes and for a time. -/
abbrev GrantMinter : Type :=
  Surroundings → String → String → List String → Int64 → Except IdentityError IssuedGrant

structure IdentityImpl (P : Primitives) where
  mintHook : Option GrantMinter
  grantKeys : Option (GrantKeys P)
  maxAuthAge : ℚ

variable {P : Primitives} (identity : IdentityImpl P)

/-- The worker's own minter, or the one for sealed grants. -/
def IdentityImpl.mintGrant : Option GrantMinter :=
  identity.mintHook.or (identity.grantKeys.map sealedMintGrant)

def IdentityImpl.issueGrant (now : Clock) (surroundings : Surroundings)
    (purpose : String) (scopes : List String) (ttlSeconds : Int64) (auth : AuthContext) :
    Except IdentityError IssuedGrant :=
  match identity.mintGrant with
  | none => .error (.grantRefused "this worker does not mint grants")
  | some mint =>
    match checkFreshnessAt numbers auth identity.maxAuthAge now.seconds with
    | .error error => .error error
    | .ok _ =>
      match mint surroundings auth.principal purpose scopes ttlSeconds with
      | .error error => .error (if error.isAuthUnavailable then error.asUnavailable else error)
      | .ok grant => .ok grant

variable (codec : Json.Codec)

/-- A server that hosts the identity service behind HTTP. -/
structure IdentityServer (P : Primitives) where
  identity : IdentityImpl P
  policy : Option PeerPolicy

/-- A request for a grant, with everything outside the server that has a part in it. -/
structure Ask where
  deployment : Option Authenticate
  resolveToken : Option TokenResolver
  current : ℚ
  request : AuthRequest
  credentialPresent : Bool
  evidence : PeerEvidenceSet
  now : Clock
  surroundings : Surroundings
  purpose : String
  scopes : List String
  ttlSeconds : Int64

variable (server : IdentityServer P) (ask : Ask)

def Ask.chain : Option Member :=
  composeIdentityAuthenticate codec ask.deployment server.identity.grantKeys ask.resolveToken
    ask.current

/-- The context that the authenticator finds, and the error to fall back on when a policy
may still find one. -/
def Ask.existing : Except AuthFailure (AuthContext × Option AuthError) :=
  match ask.chain codec server with
  | none => .ok (anonymous, none)
  | some member =>
    match (member ask.request []).1 with
    | .ok auth => .ok (auth, none)
    | .error (.refused error) =>
      if server.policy.isSome && error.authReason == some .missingCredential then
        .ok (anonymous, some error)
      else .error (.refused error)
    | .error .panicked => .error .panicked

def IdentityServer.policed (evidence : PeerEvidenceSet) (existing : AuthContext) :
    Except AuthError AuthContext :=
  match server.policy with
  | none => .ok existing
  | some policy => policy.apply P codec evidence existing

def Ask.caller : Except AuthFailure AuthContext :=
  match ask.existing codec server with
  | .error failure => .error failure
  | .ok (existing, deferred) =>
    if (ask.chain codec server).isSome && ask.credentialPresent &&
        (!existing.authenticated || deferred.isSome) then
      .error (.refused
        (.authFailure .invalidCredential "presented application credential was not accepted"))
    else
      match server.policed codec ask.evidence existing, deferred with
      | .error error, _ => .error (.refused (redactPeerPolicyError error))
      | .ok auth, some error => if auth.authenticated then .ok auth else .error (.refused error)
      | .ok auth, none => .ok auth

/-- A grant that was issued, to whom, and in answer to what. -/
structure Issuance where
  ask : Ask
  caller : AuthContext
  grant : IssuedGrant

def step (issued : List Issuance) : List Issuance :=
  match ask.caller codec server with
  | .error _ => issued
  | .ok auth =>
    match server.identity.issueGrant numbers ask.now ask.surroundings ask.purpose ask.scopes
        ask.ttlSeconds auth with
    | .error _ => issued
    | .ok grant => issued ++ [⟨ask, auth, grant⟩]

def run (asks : List Ask) : List Issuance :=
  asks.foldl (fun issued ask => step numbers codec server ask issued) []

def Timeless (auth : AuthContext) : Prop := auth.claims.get? authTimeClaim = none

theorem timeless_grantContext (claims : GrantClaims) : Timeless (grantContext codec claims) := by
  simp [Timeless, grantContext, ofEntries, get?_insert, authTimeClaim, get?_empty]

theorem timeless_tokenContext (identity : TokenIdentity) : Timeless (tokenContext identity) := by
  simp [Timeless, tokenContext, ofEntries, get?_insert, authTimeClaim, get?_empty]

variable {auth : AuthContext} {evidence : PeerEvidenceSet}

theorem timeless_peerIdentityPrimary {provider : String}
    (found : peerIdentityPrimary P codec provider evidence = .ok auth) : Timeless auth := by
  unfold peerIdentityPrimary at found
  obtain ⟨identity, -, found⟩ := exceptBind_eq_ok found
  obtain ⟨principal, -, found⟩ := exceptBind_eq_ok found
  cases found
  simp [Timeless, ofEntries, get?_insert, authTimeClaim, get?_empty, evidenceBindingClaim]

variable {existing : AuthContext}

/-- No policy brings a time into a context. -/
theorem timeless_policy (policy : PeerPolicy) {auth : AuthContext} (timeless : Timeless existing)
    (found : policy.apply P codec evidence existing = .ok auth) : Timeless auth := by
  cases policy with
  | observe =>
    cases found
    exact timeless
  | require provider =>
    obtain ⟨_, -, found⟩ := exceptBind_eq_ok found
    cases found
    unfold Timeless withEvidenceBinding
    rw [get?_insert, if_neg (by decide)]
    exact timeless
  | primary provider => exact timeless_peerIdentityPrimary codec found
  | anyOf providers =>
    obtain ⟨_, -, found⟩ := exceptBind_eq_ok found
    split at found
    · cases found
      exact timeless
    · split at found
      · exact timeless_peerIdentityPrimary codec found
      · split at found <;> cases found
  | allOf providers selected linker =>
    unfold PeerPolicy.apply allOfPeerIdentities at found
    simp only at found
    split_ifs at found
    obtain ⟨_, -, found⟩ := exceptBind_eq_ok found
    obtain ⟨_, -, found⟩ := exceptBind_eq_ok found
    obtain ⟨_, -, found⟩ := exceptBind_eq_ok found
    obtain ⟨_, -, found⟩ := exceptBind_eq_ok found
    cases found
    simp [Timeless, ofEntries, get?_insert, authTimeClaim, get?_empty, evidenceBindingClaim]

variable {codec server ask}

/-- The request is authenticated by one of the members behind the deployment. -/
def Ask.ByMember (codec : Json.Codec) (server : IdentityServer P) (ask : Ask) : Prop :=
  ∃ refusal member existing, PassesOn ask.deployment ask.request refusal ∧
    ask.chain codec server = some member ∧ (member ask.request []).1 = .ok existing ∧
    existing.authenticated = true

/-- A context that one of the members accepts has no time in it. -/
theorem timeless_of_tried {grantKeys : Option (GrantKeys P)} {resolveToken : Option TokenResolver}
    {current : ℚ} {request : AuthRequest} {outcome : Except AuthFailure (Option AuthContext)} {shown
    : List (List Char)} {refusal : Option AuthError} (tried : Tried codec grantKeys resolveToken
    current request outcome shown) (found : concluded refusal request outcome = .ok existing)
    (accepted : existing.authenticated = true) : Timeless existing := by
  have last : lastWord refusal request ≠ .ok existing := by
    intro same
    unfold lastWord at same
    split at same
    · cases same
    · split_ifs at same
      cases same
      cases accepted
  cases tried with
  | panicked _ => cases found
  | grantRefused _ _ _ _ => cases found
  | granted _ _ _ _ =>
    cases found
    exact timeless_grantContext codec _
  | passed _ => exact absurd found last
  | outage _ _ _ _ _ => cases found
  | resolved _ _ _ _ _ =>
    cases found
    exact timeless_tokenContext _
  | unknown _ _ _ _ _ => exact absurd found last

theorem Ask.ByMember.timeless (byMember : ask.ByMember codec server) :
    ∃ existing, ask.existing codec server = .ok (existing, none) ∧ Timeless existing := by
  obtain ⟨refusal, member, existing, passes, chained, found, accepted⟩ := byMember
  refine ⟨existing, by simp only [Ask.existing, chained, found], ?_⟩
  unfold Ask.chain composeIdentityAuthenticate at chained
  simp only at chained
  split at chained
  · -- Without members the chain is the deployment, which has passed the request on.
    obtain ⟨authenticate, held, rfl⟩ := Option.map_eq_some_iff.mp chained
    exact absurd ⟨authenticate, held, found, accepted⟩ (not_accepts_of_passesOn passes existing)
  · cases chained
    rcases composed_cases ask.deployment _ [] with
      ⟨context, accepts, run⟩ | ⟨_, failure, _, _, _, run⟩ | ⟨standing, _, run⟩
    · exact absurd accepts (not_accepts_of_passesOn passes context)
    · rw [run] at found
      cases found
    · rw [run, afterDeployment_eq] at found
      exact timeless_of_tried tryMembers_tried found accepted

theorem Ask.ByMember.caller_timeless (byMember : ask.ByMember codec server)
    (called : ask.caller codec server = .ok auth) : Timeless auth := by
  obtain ⟨existing, found, timeless⟩ := byMember.timeless
  simp only [Ask.caller, found] at called
  split_ifs at called
  cases policed : server.policed codec ask.evidence existing with
  | error error =>
    rw [policed] at called
    cases called
  | ok context =>
    rw [policed] at called
    cases called
    unfold IdentityServer.policed at policed
    split at policed
    · cases policed
      exact timeless
    · exact timeless_policy codec _ timeless policed

variable {numbers}

theorem issueGrant_ok {identity : IdentityImpl P} {now : Clock} {surroundings : Surroundings}
    {purpose : String} {scopes : List String} {ttlSeconds : Int64} {grant : IssuedGrant}
    (issued : identity.issueGrant numbers now surroundings purpose scopes ttlSeconds auth = .ok grant) :
    ¬ Timeless auth ∧ ∃ mint, identity.mintGrant = some mint ∧
      mint surroundings auth.principal purpose scopes ttlSeconds = .ok grant := by
  unfold IdentityImpl.issueGrant at issued
  split at issued
  · cases issued
  rename_i mint minting
  split at issued
  · cases issued
  rename_i fresh
  split at issued
  · cases issued
  rename_i minted
  cases issued
  refine ⟨fun timeless => ?_, mint, minting, minted⟩
  unfold checkFreshnessAt at fresh
  rw [timeless] at fresh
  split at fresh <;> cases fresh

/-- A grant that a deployment's keys seal says who its subject is. -/
def SubjectSealed (config : GrantKeys P) (token principal : String) : Prop :=
  ∃ claims payload nonce, claims.principal = principal ∧ encodePayload claims = .ok payload ∧
    token = grantToken (grantKeyId P config.first) (sealBytes P payload config.first
      (config.aad (grantKeyId P config.first)) envelopeVersion nonce)

/-- The caller of the request is the subject of the grant, and was not authenticated by a
member of the chain. -/
def Issuance.Proper (codec : Json.Codec) (server : IdentityServer P) (issuance : Issuance) : Prop :=
  ¬ issuance.ask.ByMember codec server ∧
  issuance.ask.caller codec server = .ok issuance.caller ∧
  (∃ mint, server.identity.mintGrant = some mint ∧
    mint issuance.ask.surroundings issuance.caller.principal issuance.ask.purpose
      issuance.ask.scopes issuance.ask.ttlSeconds = .ok issuance.grant) ∧
  (server.identity.mintHook = none → ∃ config, server.identity.grantKeys = some config ∧
    SubjectSealed config issuance.grant.token issuance.caller.principal)

theorem step_proper {issued : List Issuance}
    (proper : ∀ issuance ∈ issued, issuance.Proper codec server) :
    ∀ issuance ∈ step numbers codec server ask issued, issuance.Proper codec server := by
  unfold step
  cases called : ask.caller codec server with
  | error failure => exact proper
  | ok auth =>
    cases answer : server.identity.issueGrant numbers ask.now ask.surroundings ask.purpose
        ask.scopes ask.ttlSeconds auth with
    | error error => simpa only [answer] using proper
    | ok grant =>
      simp only [answer]
      intro issuance member
      rcases List.mem_append.mp member with earlier | new
      · exact proper issuance earlier
      · rw [List.mem_singleton] at new
        subst new
        obtain ⟨timed, mint, minting, minted⟩ := issueGrant_ok answer
        refine ⟨fun byMember => timed (byMember.caller_timeless called), called,
          ⟨mint, minting, minted⟩, fun unhooked => ?_⟩
        rw [IdentityImpl.mintGrant, unhooked, Option.none_or] at minting
        obtain ⟨config, held, rfl⟩ := Option.map_eq_some_iff.mp minting
        obtain ⟨-, -, payload, encoded, token⟩ := sealedMintGrant_ok minted
        exact ⟨config, held, _, payload, _, rfl, encoded, token⟩

variable (numbers codec server) in
/-- In every run, no grant is issued to a request that a member of the chain authenticated,
and each has the caller of its request as its subject. -/
theorem run_proper (asks : List Ask) :
    ∀ issuance ∈ run numbers codec server asks, issuance.Proper codec server := by
  unfold run
  exact List.foldlRecOn (motive := fun issued : List Issuance =>
    ∀ issuance ∈ issued, issuance.Proper codec server) asks _ (List.forall_mem_nil _) fun issued proper ask _ => step_proper proper

end

namespace Sample

/-- Every text is the second at which the sample's clock stands. -/
def numbers : Numbers where
  parseF64 _ := some (.finite false clock.seconds clock.representable)
  whole _ := ""

def server : IdentityServer Http.Sample.primitives := ⟨⟨none, some keys, 900⟩, none⟩

def user : AuthContext :=
  ⟨true, "jwt", "alice", OrderedMap.ofEntries [(authTimeClaim, "1000")]⟩

def ask : Ask where
  deployment := some fun _ => .ok user
  resolveToken := none
  current := 1000
  request := ⟨"issue_grant", [("authorization", "Bearer jwt")], none⟩
  credentialPresent := true
  evidence := ⟨[], OrderedMap.empty⟩
  now := clock
  surroundings := surroundings
  purpose := "nightly"
  scopes := ["read"]
  ttlSeconds := 3600

theorem fresh : checkFreshnessAt numbers user 900 clock.seconds = .ok clock.seconds := by
  have time : user.claims.get? authTimeClaim = some "1000" := by decide
  have age : nearest (clock.seconds - clock.seconds) = 0 := by rw [sub_self, nearest_zero]
  rw [checkFreshnessAt, if_neg (by decide), time]
  simp only [numbers, Option.bind_some, finiteValue, Bool.false_eq_true, if_false, age]
  rw [if_neg (by norm_num)]

theorem issues : ∃ grant, run numbers Json.unaryCodec server [ask] = [⟨ask, user, grant⟩] := by
  have minted : ∃ grant, sealedMintGrant keys surroundings user.principal ask.purpose ask.scopes
      ask.ttlSeconds = .ok grant := ⟨_, rfl⟩
  obtain ⟨grant, minted⟩ := minted
  have issued : server.identity.issueGrant numbers clock surroundings ask.purpose ask.scopes
      ask.ttlSeconds user = .ok grant := by
    have minting : server.identity.mintGrant = some (sealedMintGrant keys) := rfl
    have due : checkFreshnessAt numbers user server.identity.maxAuthAge clock.seconds =
        .ok clock.seconds := fresh
    simp only [IdentityImpl.issueGrant, minting, due, minted]
  refine ⟨grant, ?_⟩
  have called : ask.caller Json.unaryCodec server = .ok user := rfl
  change step numbers Json.unaryCodec server ask [] = _
  simp [step, called, show server.identity.issueGrant numbers ask.now ask.surroundings ask.purpose
    ask.scopes ask.ttlSeconds user = .ok grant from issued]

end Sample

open Sample

/-- A user who has just signed in is issued a grant. -/
theorem run_proper_fresh : ∃ issuance ∈ run numbers Json.unaryCodec server [ask],
      issuance.Proper Json.unaryCodec server := by
  obtain ⟨grant, issued⟩ := issues
  have member : (⟨ask, user, grant⟩ : Issuance) ∈
      run numbers Json.unaryCodec server [ask] := by simp [issued]
  exact ⟨_, member, run_proper numbers Json.unaryCodec server [ask] _ member⟩

end VgiRpc.Identity
