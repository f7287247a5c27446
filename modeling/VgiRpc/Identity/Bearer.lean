import VgiRpc.Identity.Grants

/-!
# Bearers the framework accepts itself

Behind the authenticator of a deployment stand two of the framework's own: one for sealed
grants and one that asks the worker's resolver.  Each answers anonymous for a credential
that is not its own.  The chain keeps the tokens that the resolver has been shown as a
state, since showing a token to it is an effect.
-/

namespace VgiRpc.Identity

open Library Option
open Http (AuthContext Primitives)
open Auth (AuthRequest AuthFailure AuthError Authenticate extractBearer anonymous trim byteLength)

/-! ## Shapes of tokens -/

def maxTokenBytes : Nat := 4096

def isBase64Url (text : List Char) : Bool :=
  text.all fun char => Http.isAsciiAlphanumeric char || char == '-' || char == '_'

/-- Three segments between dots, of which the last may be empty. -/
def isJwsShaped (token : List Char) : Bool :=
  match token.splitOn '.' with
  | [header, payload, signature] =>
    !header.isEmpty && !payload.isEmpty && isBase64Url header && isBase64Url payload &&
      isBase64Url signature
  | _ => false

/-- Refuse what no resolver should see.  The shape is that of the trimmed token, and the
length that of the token as it came. -/
def rejectJwsShaped (token : List Char) : Except IdentityError Unit :=
  if (trim token).isEmpty || maxTokenBytes < byteLength token || isJwsShaped (trim token) then
    .error .tokenUnresolved
  else .ok ()

/-! ## The members of the chain -/

structure TokenIdentity where
  principal : String
  tokenName : String
  ttlSeconds : Option UInt64
  deriving DecidableEq

/-- What the worker answers for a token; an error means that nobody can know. -/
abbrev TokenResolver : Type := List Char → Except IdentityError (Option TokenIdentity)

abbrev Member : Type := AuthRequest → Program (List (List Char)) AuthFailure AuthContext

def grantAuthDomain : String := "grant"
def tokenAuthDomain : String := "token"

section

variable {P : Primitives} (codec : Json.Codec)

def grantContext (claims : GrantClaims) : AuthContext :=
  ⟨true, grantAuthDomain, claims.principal, OrderedMap.ofEntries
    [("grant_id", claims.grantId), ("purpose", claims.purpose),
      ("scopes", codec.print (.array (claims.scopes.map .string)))]⟩

def grantAuthenticate (config : GrantKeys P) (current : ℚ) : Authenticate := fun request =>
  match extractBearer request with
  | .error failure => .error failure
  | .ok none => .ok anonymous
  | .ok (some token) =>
    if !grantTokenPrefix.isPrefixOf token then .ok anonymous
    else
      match verifyGrantToken config (String.ofList token) current with
      | .ok claims => .ok (grantContext codec claims)
      | .error invalid =>
        .error (.refused (.authFailure
          (if invalid.expired then .expiredCredential else .invalidCredential)
          ("sealed grant rejected: " ++ invalid.detail)))

def tokenContext (identity : TokenIdentity) : AuthContext :=
  ⟨true, tokenAuthDomain, identity.principal,
    OrderedMap.ofEntries [("token_name", identity.tokenName)]⟩

def lookupOutage (error : IdentityError) : AuthError :=
  (AuthError.authUnavailable
    (if error.isAuthUnavailable then error.message else "identity lookup failed")).withRetryAfter
    (error.retryAfterSeconds.getD AuthError.defaultAuthRetryAfterSeconds)

def resolveTokenAuthenticate (resolveToken : TokenResolver) : Member := fun request shown =>
  match extractBearer request with
  | .error failure => (.error failure, shown)
  | .ok none => (.ok anonymous, shown)
  | .ok (some token) =>
    if grantTokenPrefix.isPrefixOf token || !(rejectJwsShaped token).isOk then
      (.ok anonymous, shown)
    else
      (match resolveToken token with
        | .ok (some identity) => .ok (tokenContext identity)
        | .ok none => .ok anonymous
        | .error error => .error (.refused (lookupOutage error)),
      shown ++ [token])

def silent (authenticate : Authenticate) : Member := fun request => Program.lift (authenticate request)

def identityMembers (grantKeys : Option (GrantKeys P)) (resolveToken : Option TokenResolver)
    (current : ℚ) : List Member :=
  (grantKeys.map fun config => silent (grantAuthenticate codec config current)).toList ++
    (resolveToken.map resolveTokenAuthenticate).toList

/-- The first member that accepts; a failure of one ends the search. -/
def tryMembers : List Member → AuthRequest → Program (List (List Char)) AuthFailure
    (Option AuthContext)
  | [], _ => pure none
  | member :: rest, request => do
      let context ← member request
      if context.authenticated then pure (some context) else tryMembers rest request

/-- What the members make of a request that the deployment has not accepted. -/
def afterDeployment (members : List Member) (refusal : Option AuthError) : Member :=
  fun request => do
    match ← tryMembers members request with
    | some context => pure context
    | none =>
      match refusal with
      | some error => throw (.refused error)
      | none =>
        if (request.header "authorization").isSome then
          throw (.refused (.authFailure .invalidCredential "bearer credential not accepted"))
        else pure anonymous

variable (deployment : Option Authenticate)

/-- The deployment first, then the members.  A refusal of the deployment stands when no
member accepts. -/
def composed (members : List Member) : Member := fun request =>
  match deployment with
  | none => afterDeployment members none request
  | some authenticate =>
    match authenticate request with
    | .ok context =>
      if context.authenticated then pure context else afterDeployment members none request
    | .error (.refused error) =>
      if error.isAuthUnavailable then throw (.refused error)
      else afterDeployment members (some error) request
    | .error .panicked => throw .panicked

def composeIdentityAuthenticate
    (grantKeys : Option (GrantKeys P)) (resolveToken : Option TokenResolver) (current : ℚ) :
    Option Member :=
  let members := identityMembers codec grantKeys resolveToken current
  if members.isEmpty then deployment.map silent else some (composed deployment members)

/-! ## What the members do -/

variable {codec} {grantKeys : Option (GrantKeys P)} {resolveToken : Option TokenResolver}
  {current : ℚ} {request : AuthRequest}

/-- How the members end on a request, with the tokens the resolver is shown on the way. -/
inductive Tried (codec : Json.Codec) (grantKeys : Option (GrantKeys P))
    (resolveToken : Option TokenResolver) (current : ℚ) (request : AuthRequest) :
    Except AuthFailure (Option AuthContext) → List (List Char) → Prop where
  | panicked : extractBearer request = .error .panicked →
      Tried codec grantKeys resolveToken current request (.error .panicked) []
  | grantRefused {config : GrantKeys P} {token : List Char} {invalid : GrantInvalid} :
      grantKeys = some config → extractBearer request = .ok (some token) →
      grantTokenPrefix.isPrefixOf token = true →
      verifyGrantToken config (String.ofList token) current = .error invalid →
      Tried codec grantKeys resolveToken current request (.error (.refused (.authFailure
        (if invalid.expired then .expiredCredential else .invalidCredential)
        ("sealed grant rejected: " ++ invalid.detail)))) []
  | granted {config : GrantKeys P} {token : List Char} {claims : GrantClaims} :
      grantKeys = some config → extractBearer request = .ok (some token) →
      grantTokenPrefix.isPrefixOf token = true →
      verifyGrantToken config (String.ofList token) current = .ok claims →
      Tried codec grantKeys resolveToken current request (.ok (some (grantContext codec claims))) []
  | passed : (∀ config token, grantKeys = some config → extractBearer request = .ok (some token) →
        grantTokenPrefix.isPrefixOf token = false) →
      Tried codec grantKeys resolveToken current request (.ok none) []
  | outage {resolve : TokenResolver} {token : List Char} {error : IdentityError} :
      resolveToken = some resolve → extractBearer request = .ok (some token) →
      grantTokenPrefix.isPrefixOf token = false → rejectJwsShaped token = .ok () →
      resolve token = .error error →
      Tried codec grantKeys resolveToken current request (.error (.refused (lookupOutage error)))
        [token]
  | resolved {resolve : TokenResolver} {token : List Char} {identity : TokenIdentity} :
      resolveToken = some resolve → extractBearer request = .ok (some token) →
      grantTokenPrefix.isPrefixOf token = false → rejectJwsShaped token = .ok () →
      resolve token = .ok (some identity) →
      Tried codec grantKeys resolveToken current request (.ok (some (tokenContext identity)))
        [token]
  | unknown {resolve : TokenResolver} {token : List Char} :
      resolveToken = some resolve → extractBearer request = .ok (some token) →
      grantTokenPrefix.isPrefixOf token = false → rejectJwsShaped token = .ok () →
      resolve token = .ok none →
      Tried codec grantKeys resolveToken current request (.ok none) [token]

variable {token : List Char} {refusal : Option AuthError}
  {outcome : Except AuthFailure (Option AuthContext)} {shown : List (List Char)}

/-- What the resolver is shown, and what an outage of it comes to. -/
theorem Tried.shown_facts (tried : Tried codec grantKeys resolveToken current request outcome shown)
    (member : token ∈ shown) :
    ∃ resolve, resolveToken = some resolve ∧ grantTokenPrefix.isPrefixOf token = false ∧
      rejectJwsShaped token = .ok () ∧
      ∀ error, resolve token = .error error → outcome = .error (.refused (lookupOutage error)) := by
  cases tried with
  | panicked _ => cases member
  | grantRefused _ _ _ _ => cases member
  | granted _ _ _ _ => cases member
  | passed _ => cases member
  | outage held _ other plain answer =>
    cases List.mem_singleton.mp member
    refine ⟨_, held, other, plain, fun error failed => ?_⟩
    cases answer.symm.trans failed
    rfl
  | resolved held _ other plain answer | unknown held _ other plain answer =>
    cases List.mem_singleton.mp member
    exact ⟨_, held, other, plain, fun error failed => by cases answer.symm.trans failed⟩

variable {failure : AuthFailure}

theorem extractBearer_error (failed : extractBearer request = .error failure) : failure = .panicked := by
  unfold extractBearer at failed
  split at failed
  · cases failed
  split_ifs at failed
  split at failed
  · cases failed
    rfl
  · split at failed <;> cases failed

theorem tryMembers_cons (member : Member) (rest : List Member) (shown : List (List Char)) :
    tryMembers (member :: rest) request shown = match member request shown with
      | (.error failure, later) => (.error failure, later)
      | (.ok context, later) =>
        if context.authenticated then (.ok (some context), later)
        else tryMembers rest request later := by
  rw [tryMembers, Program.bind_apply]
  cases member request shown with
  | mk outcome later =>
    cases outcome with
    | error failure => rfl
    | ok context =>
      simp only
      split <;> rfl

/-- The resolver's turn comes when there is no grant to verify. -/
theorem tryResolver (passed : ∀ config token, grantKeys = some config → extractBearer request = .ok
    (some token) → grantTokenPrefix.isPrefixOf token = false) :
    Tried codec grantKeys resolveToken current request
      (tryMembers (resolveToken.map resolveTokenAuthenticate).toList request []).1
      (tryMembers (resolveToken.map resolveTokenAuthenticate).toList request []).2 := by
  cases resolveToken with
  | none => exact .passed passed
  | some resolve =>
    simp only [map_some, toList_some, tryMembers_cons, resolveTokenAuthenticate]
    cases bearer : extractBearer request with
    | error failure =>
      cases extractBearer_error bearer
      exact .panicked bearer
    | ok credential =>
      cases credential with
      | none => exact .passed (by simp [bearer])
      | some token =>
        simp only
        split_ifs with hidden
        · exact .passed fun config token held named => passed config token held named
        · simp only [Bool.or_eq_true, not_or, Bool.not_eq_true, Bool.not_eq_false'] at hidden
          obtain ⟨other, plain⟩ := hidden
          have shape : rejectJwsShaped token = .ok () := by
            cases rejected : rejectJwsShaped token with
            | error error =>
              rw [rejected] at plain
              cases plain
            | ok _ => rfl
          cases answer : resolve token with
          | error error => exact .outage rfl bearer other shape answer
          | ok identity =>
            cases identity with
            | none => exact .unknown rfl bearer other shape answer
            | some identity => exact .resolved rfl bearer other shape answer

theorem tryMembers_tried : Tried codec grantKeys resolveToken current request
      (tryMembers (identityMembers codec grantKeys resolveToken current) request []).1
      (tryMembers (identityMembers codec grantKeys resolveToken current) request []).2 := by
  unfold identityMembers
  cases held : grantKeys with
  | none => exact tryResolver (by simp)
  | some config =>
    simp only [map_some, toList_some, List.cons_append, List.nil_append,
      tryMembers_cons, silent, grantAuthenticate]
    cases bearer : extractBearer request with
    | error failure =>
      cases extractBearer_error bearer
      exact .panicked bearer
    | ok credential =>
      cases credential with
      | none => exact tryResolver (by simp [bearer])
      | some token =>
        simp only
        cases named : grantTokenPrefix.isPrefixOf token with
        | false => exact tryResolver (by simp [bearer, named])
        | true =>
          simp only [Bool.not_true, Bool.false_eq_true, if_false]
          cases verified : verifyGrantToken config (String.ofList token) current with
          | error invalid => exact .grantRefused rfl bearer named verified
          | ok claims => exact .granted rfl bearer named verified

def lastWord (refusal : Option AuthError) (request : AuthRequest) : Except AuthFailure AuthContext :=
  match refusal with
  | some error => .error (.refused error)
  | none =>
    if (request.header "authorization").isSome then
      .error (.refused (.authFailure .invalidCredential "bearer credential not accepted"))
    else .ok anonymous

def concluded (refusal : Option AuthError) (request : AuthRequest) :
    Except AuthFailure (Option AuthContext) → Except AuthFailure AuthContext
  | .error failure => .error failure
  | .ok (some context) => .ok context
  | .ok none => lastWord refusal request

theorem afterDeployment_eq (members : List Member) (refusal : Option AuthError)
    (shown : List (List Char)) :
    afterDeployment members refusal request shown =
      (concluded refusal request (tryMembers members request shown).1,
        (tryMembers members request shown).2) := by
  unfold afterDeployment
  rw [Program.bind_apply]
  cases tryMembers members request shown with
  | mk outcome later =>
    cases outcome with
    | error failure => rfl
    | ok found =>
      cases found with
      | some context => rfl
      | none =>
        cases refusal with
        | some error => rfl
        | none =>
          unfold concluded lastWord
          simp only
          split <;> rfl

variable (deployment : Option Authenticate)

def Accepts (request : AuthRequest) (context : AuthContext) : Prop :=
  ∃ authenticate, deployment = some authenticate ∧ authenticate request = .ok context ∧
    context.authenticated = true

/-- The deployment neither accepts the request nor fails to answer; it may have refused. -/
def PassesOn (request : AuthRequest) (refusal : Option AuthError) :
    Prop :=
  match deployment with
  | none => refusal = none
  | some authenticate =>
    match authenticate request with
    | .ok context => context.authenticated = false ∧ refusal = none
    | .error (.refused error) => error.isAuthUnavailable = false ∧ refusal = some error
    | .error .panicked => False

theorem composed_cases (members : List Member) (shown : List (List Char)) :
    (∃ context, Accepts deployment request context ∧
      composed deployment members request shown = (.ok context, shown)) ∨
    (∃ authenticate failure, deployment = some authenticate ∧
      authenticate request = .error failure ∧
      (failure = .panicked ∨ ∃ error, failure = .refused error ∧ error.isAuthUnavailable = true) ∧
      composed deployment members request shown = (.error failure, shown)) ∨
    ∃ refusal, PassesOn deployment request refusal ∧
      composed deployment members request shown = afterDeployment members refusal request shown := by
  cases deployment with
  | none => exact .inr (.inr ⟨none, rfl, rfl⟩)
  | some authenticate =>
    unfold composed PassesOn
    cases answer : authenticate request with
    | ok context =>
      simp only [answer]
      cases accepted : context.authenticated with
      | true => exact .inl ⟨context, ⟨authenticate, rfl, answer, accepted⟩, rfl⟩
      | false => exact .inr (.inr ⟨none, ⟨rfl, rfl⟩, rfl⟩)
    | error failure =>
      cases failure with
      | panicked => exact .inr (.inl ⟨authenticate, .panicked, rfl, answer, .inl rfl, by simp [answer]⟩)
      | refused error =>
        simp only [answer]
        cases down : error.isAuthUnavailable with
        | true =>
          exact .inr (.inl ⟨authenticate, .refused error, rfl, answer,
            .inr ⟨error, rfl, down⟩, rfl⟩)
        | false => exact .inr (.inr ⟨some error, ⟨rfl, rfl⟩, rfl⟩)

/-! ## The rules of the chain -/

def Refuses (outcome : Except AuthFailure AuthContext) : Prop :=
  ∃ error, outcome = .error (.refused error) ∧ error.isAuthUnavailable = false

def ReportsOutage (outcome : Except AuthFailure AuthContext) (seconds : Option UInt32) : Prop :=
  ∃ error, outcome = .error (.refused error) ∧ error.isAuthUnavailable = true ∧
    error.retryAfterSeconds = seconds

/-- What the chain owes a request, in terms of its outcome and of what the resolver sees. -/
structure Rules (deployment : Option Authenticate) (grantKeys : Option (GrantKeys P))
    (resolveToken : Option TokenResolver) (current : ℚ) (request : AuthRequest)
    (outcome : Except AuthFailure AuthContext) (shown : List (List Char)) : Prop where
  accepted : ∀ context, Accepts deployment request context → outcome = .ok context ∧ shown = []
  named : (request.header "authorization").isSome = true → ∀ context, outcome = .ok context →
    context.authenticated = true
  badGrant : ∀ token, extractBearer request = .ok (some token) →
    grantTokenPrefix.isPrefixOf token = true →
    (∀ config claims, grantKeys = some config →
      verifyGrantToken config (String.ofList token) current ≠ .ok claims) →
    shown = [] ∧ ∀ refusal, PassesOn deployment request refusal → Refuses outcome
  shownShape : ∀ token ∈ shown, trim token ≠ [] ∧ byteLength token ≤ maxTokenBytes ∧
    isJwsShaped (trim token) = false ∧ grantTokenPrefix.isPrefixOf token = false
  deploymentOutage : ∀ authenticate error, deployment = some authenticate →
    authenticate request = .error (.refused error) → error.isAuthUnavailable = true →
    outcome = .error (.refused error)
  resolverOutage : ∀ resolve token error, resolveToken = some resolve → token ∈ shown →
    resolve token = .error error →
    ReportsOutage outcome
      (some (error.retryAfterSeconds.getD AuthError.defaultAuthRetryAfterSeconds))

theorem rejectJwsShaped_ok (plain : rejectJwsShaped token = .ok ()) :
    trim token ≠ [] ∧ byteLength token ≤ maxTokenBytes ∧ isJwsShaped (trim token) = false := by
  unfold rejectJwsShaped at plain
  split_ifs at plain with shape
  simp only [Bool.or_eq_true, List.isEmpty_iff, decide_eq_true_eq, not_or, not_lt,
    Bool.not_eq_true] at shape
  exact ⟨shape.1.1, shape.1.2, shape.2⟩

theorem extractBearer_header (bearer : extractBearer request = .ok (some token)) :
    (request.header "authorization").isSome = true := by
  unfold extractBearer at bearer
  cases present : request.header "authorization" with
  | none =>
    rw [present] at bearer
    cases bearer
  | some header => rfl

variable {deployment : Option Authenticate}

theorem refuses_lastWord (passes : PassesOn deployment request refusal)
    (present : (request.header "authorization").isSome = true) : Refuses (lastWord refusal request) := by
  cases refusal with
  | none =>
    rw [lastWord, if_pos present]
    exact ⟨_, rfl, by simp⟩
  | some error =>
    refine ⟨error, rfl, ?_⟩
    unfold PassesOn at passes
    split at passes
    · cases passes
    split at passes
    · cases passes.2
    · cases passes.2
      exact passes.1
    · exact passes.elim

theorem not_accepts_of_passesOn
    (passes : PassesOn deployment request refusal) (context : AuthContext) :
    ¬ Accepts deployment request context := by
  rintro ⟨authenticate, rfl, answer, accepted⟩
  simp only [PassesOn, answer] at passes
  cases accepted.symm.trans passes.1

theorem rules_of_accepts {context : AuthContext} (accepts : Accepts deployment request context) :
    Rules deployment grantKeys resolveToken current request (.ok context) [] := by
  have alone : ∀ refusal, ¬ PassesOn deployment request refusal := fun refusal passes =>
    not_accepts_of_passesOn passes context accepts
  obtain ⟨authenticate, rfl, answer, accepted⟩ := accepts
  refine ⟨?_, ?_, ?_, by simp, ?_, by simp⟩
  · rintro other ⟨_, same, again, -⟩
    cases same
    rw [answer] at again
    exact ⟨again, rfl⟩
  · rintro - other same
    cases same
    exact accepted
  · exact fun _ _ _ _ => ⟨rfl, fun refusal passes => absurd passes (alone refusal)⟩
  · intro other error same failed
    cases same
    rw [answer] at failed
    cases failed

theorem rules_of_failure {authenticate : Authenticate}
    (answer : authenticate request = .error failure)
    (ended : failure = .panicked ∨ ∃ error, failure = .refused error ∧ error.isAuthUnavailable = true)
    :
    Rules (some authenticate) grantKeys resolveToken current request (.error failure) [] := by
  refine ⟨?_, by simp, ?_, by simp, ?_, by simp⟩
  · rintro context ⟨_, same, again, -⟩
    cases same
    rw [answer] at again
    cases again
  · refine fun _ _ _ _ => ⟨rfl, fun refusal passes => ?_⟩
    rcases ended with rfl | ⟨error, rfl, down⟩
    · simp only [PassesOn, answer] at passes
    · simp only [PassesOn, answer] at passes
      cases down.symm.trans passes.1
  · intro other error same failed _
    cases same
    rw [answer] at failed
    exact failed

theorem rules_of_tried (passes : PassesOn deployment request refusal)
    (tried : Tried codec grantKeys resolveToken current request outcome shown) :
    Rules deployment grantKeys resolveToken current request (concluded refusal request outcome)
      shown := by
  have calm : ∀ authenticate error, deployment = some authenticate →
      authenticate request = .error (.refused error) → error.isAuthUnavailable = true → False := by
    rintro authenticate error rfl answer down
    simp only [PassesOn, answer] at passes
    cases down.symm.trans passes.1
  refine ⟨fun context accepts => absurd accepts (not_accepts_of_passesOn passes context), ?_, ?_, ?_,
    fun authenticate error same answer down => (calm authenticate error same answer down).elim, ?_⟩
  · intro present context same
    obtain ⟨error, last, -⟩ := refuses_lastWord passes present
    cases tried with
    | panicked _ => cases same
    | grantRefused _ _ _ _ => cases same
    | granted _ _ _ _ => cases same; rfl
    | passed _ => cases last.symm.trans same
    | outage _ _ _ _ _ => cases same
    | resolved _ _ _ _ _ => cases same; rfl
    | unknown _ _ _ _ _ => cases last.symm.trans same
  · intro token bearer named unverified
    have refuses := refuses_lastWord passes (extractBearer_header bearer)
    have other : ∀ {found : List Char}, extractBearer request = .ok (some found) →
        grantTokenPrefix.isPrefixOf found = false → False := by
      intro found again unnamed
      cases bearer.symm.trans again
      cases named.symm.trans unnamed
    cases tried with
    | panicked failed => cases bearer.symm.trans failed
    | grantRefused _ _ _ _ => exact ⟨rfl, fun _ _ => ⟨_, rfl, by simp⟩⟩
    | granted held again _ verified =>
      cases bearer.symm.trans again
      exact absurd verified (unverified _ _ held)
    | passed _ => exact ⟨rfl, fun _ _ => refuses⟩
    | outage _ again unnamed _ _ | resolved _ again unnamed _ _
    | unknown _ again unnamed _ _ => exact (other again unnamed).elim
  · intro token member
    obtain ⟨-, -, unnamed, plain, -⟩ := tried.shown_facts member
    obtain ⟨filled, short, shape⟩ := rejectJwsShaped_ok plain
    exact ⟨filled, short, shape, unnamed⟩
  · intro resolve token error held member failed
    obtain ⟨_, resolver, -, -, reported⟩ := tried.shown_facts member
    cases held.symm.trans resolver
    rw [reported error failed]
    exact ⟨_, rfl, by simp [lookupOutage], rfl⟩

variable (codec grantKeys resolveToken current) in
/-- With a source of identities of its own, the chain keeps its rules on every request. -/
theorem composeIdentityAuthenticate_rules (deployment : Option Authenticate)
    (some_source : grantKeys.isSome = true ∨ resolveToken.isSome = true) :
    ∃ member, composeIdentityAuthenticate codec deployment grantKeys resolveToken current =
        some member ∧
      ∀ request, Rules deployment grantKeys resolveToken current request (member request []).1
        (member request []).2 := by
  have filled : (identityMembers codec grantKeys resolveToken current).isEmpty = false := by
    unfold identityMembers
    rcases some_source with held | held
    · obtain ⟨config, rfl⟩ := isSome_iff_exists.mp held
      simp
    · obtain ⟨resolve, rfl⟩ := isSome_iff_exists.mp held
      simp
  refine ⟨composed deployment (identityMembers codec grantKeys resolveToken current),
    if_neg (by simp [filled]), fun request => ?_⟩
  rcases composed_cases deployment (identityMembers codec grantKeys resolveToken current) [] with
    ⟨context, accepts, run⟩ | ⟨authenticate, failure, rfl, answer, ended, run⟩ | ⟨refusal, passes, run⟩
  · rw [run]
    exact rules_of_accepts accepts
  · rw [run]
    exact rules_of_failure answer ended
  · rw [run, afterDeployment_eq]
    exact rules_of_tried passes tryMembers_tried

end

/-- A deployment without an authenticator of its own, whose resolver is down. -/
theorem composeIdentityAuthenticate_rules_down :
    ∃ member, composeIdentityAuthenticate Json.unaryCodec none
        (none : Option (GrantKeys Http.Sample.primitives))
        (some fun _ => .error .tokenUnresolved) 0 = some member ∧
      ∀ request, Rules none (none : Option (GrantKeys Http.Sample.primitives))
        (some fun _ => .error .tokenUnresolved) 0 request (member request []).1
        (member request []).2 :=
  composeIdentityAuthenticate_rules Json.unaryCodec _ _ 0 none (.inr rfl)

/-! ## Introspection -/

def IdentityError.introspectionRefused (detail : String) : IdentityError :=
  ⟨⟨"PermissionError", detail⟩, some .permissionDenied, some "introspection_refused", none⟩

def checkIntrospector (auth : AuthContext) (principals : List String) :
    Except IdentityError String :=
  if !auth.authenticated || !principals.contains auth.principal then
    .error (.introspectionRefused "caller is not an introspector")
  else .ok auth.principal

variable (resolveToken : Option TokenResolver) (principals : List String)

/-- The caller is checked before anything looks at the token. -/
def introspectToken (token : List Char) (auth : AuthContext) :
    Program (List (List Char)) IdentityError TokenIdentity := fun shown =>
  match resolveToken with
  | none => (.error (.introspectionRefused "this worker does not resolve credentials"), shown)
  | some resolve =>
    match checkIntrospector auth principals with
    | .error error => (.error error, shown)
    | .ok _ =>
      match rejectJwsShaped token with
      | .error error => (.error error, shown)
      | .ok () =>
        (match resolve token with
          | .ok (some identity) => .ok identity
          | .ok none => .error .tokenUnresolved
          | .error error => .error error.asUnavailable,
        shown ++ [token])

/-- A token that is blank, too long, a JWS by its shape or unknown to the resolver. -/
def Unresolvable (resolve : TokenResolver) (token : List Char) : Prop :=
  trim token = [] ∨ maxTokenBytes < byteLength token ∨ isJwsShaped (trim token) = true ∨
    resolve token = .ok none

theorem introspectToken_unresolvable {resolve : TokenResolver} {principals : List String} {token :
    List Char} {auth : AuthContext} (allowed : checkIntrospector auth principals = .ok
    auth.principal) (unresolvable : Unresolvable resolve token) (shown : List (List Char)) :
    (introspectToken (some resolve) principals token auth shown).1 = .error .tokenUnresolved := by
  simp only [introspectToken, allowed]
  by_cases shaped : (trim token).isEmpty || maxTokenBytes < byteLength token ||
      isJwsShaped (trim token)
  · rw [rejectJwsShaped, if_pos shaped]
  · rw [rejectJwsShaped, if_neg shaped]
    simp only [Bool.or_eq_true, List.isEmpty_iff, decide_eq_true_eq, not_or] at shaped
    rcases unresolvable with blank | long | jws | unknown
    · exact absurd blank shaped.1.1
    · exact absurd long shaped.1.2
    · exact absurd jws shaped.2
    · simp only [unknown]

/-- A caller that is not allowed to ask gets the same answer for any two tokens, and neither
is shown to the resolver; one that is gets the same answer for all that do not resolve. -/
theorem introspectToken_uniform
    (auth : AuthContext) (first second : List Char) (shown : List (List Char)) :
    (¬ (auth.authenticated = true ∧ auth.principal ∈ principals) →
      introspectToken resolveToken principals first auth shown =
          introspectToken resolveToken principals second auth shown ∧
        (introspectToken resolveToken principals first auth shown).2 = shown) ∧
    (auth.authenticated = true ∧ auth.principal ∈ principals → ∀ resolve ∈ resolveToken,
      Unresolvable resolve first → Unresolvable resolve second →
        (introspectToken resolveToken principals first auth shown).1 =
          (introspectToken resolveToken principals second auth shown).1) := by
  constructor
  · intro outside
    have refused : checkIntrospector auth principals =
        .error (.introspectionRefused "caller is not an introspector") :=
      if_pos (by simpa [Classical.or_iff_not_imp_left] using outside)
    cases resolveToken with
    | none => exact ⟨rfl, rfl⟩
    | some resolve =>
      simp [introspectToken, refused]
  · rintro ⟨authenticated, listed⟩ resolve rfl one other
    have allowed : checkIntrospector auth principals = .ok auth.principal :=
      if_neg (by simp [authenticated, listed])
    rw [introspectToken_unresolvable allowed one, introspectToken_unresolvable allowed other]

end VgiRpc.Identity
