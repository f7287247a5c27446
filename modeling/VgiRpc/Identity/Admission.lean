import VgiRpc.Identity.Schedules

/-!
# Admitting a request

A request is first shown to the application's authenticator.  A missing credential is put
aside when there is a policy for peers, a credential that was shown and not accepted ends the
request, and then the providers are asked and the policy decides.  What goes wrong is answered
by the error alone: an outage is no reason to ask the caller for other credentials.
-/

namespace VgiRpc.Identity

open Library List
open Library.ByteStream (Bytes)
open Http (AuthContext utf8 isAsciiAlphanumeric)
open Auth (AuthRequest AuthError AuthReason Authenticate anonymous eqIgnoreAsciiCase)

/-! ## Requests -/

def isVisibleAscii (byte : UInt8) : Bool := (32 ≤ byte && byte < 127) || byte == 9

def headerToStr (value : Bytes) : Option String :=
  if value.all isVisibleAscii then some (String.ofList (value.map fun byte => Char.ofNat byte.toNat))
  else none

/-- The values of each header, under its name in lower case. -/
abbrev HeaderMap : Type := OrderedMap String (List Bytes)

structure HttpRequest where
  method : String
  headers : HeaderMap
  peerAddr : Option String

def headersToPairs (headers : HeaderMap) : List (String × String) :=
  headers.entries.flatMap fun header =>
    header.2.filterMap fun value => (headerToStr value).map fun text => (header.1, text)

variable (request : HttpRequest)

def HttpRequest.authRequest : AuthRequest :=
  ⟨request.method, headersToPairs request.headers, request.peerAddr⟩

def HeaderMap.containsKey (headers : HeaderMap) (name : String) : Bool :=
  headers.keys.any fun key => eqIgnoreAsciiCase key.toList name.toList

/-! ## What the providers are shown -/

def maxHeaderCount : Nat := 128
def maxHeaderValues : Nat := 16
def maxHeaderBytes : Nat := 65536

def containsControl (value : String) : Bool :=
  value.toList.any fun char => char.toNat ≤ 0x1f || char.toNat == 0x7f

def isHttpFieldName (name : String) : Bool :=
  name != "" && name.toList.all fun char =>
    isAsciiAlphanumeric char || "!#$%&'*+-.^_`|~".toList.contains char

def lowercase (name : String) : String := String.ofList (name.toList.map Char.toLower)

/-- The headers as a provider looks them up, within limits. -/
def addHeaders (normalized : OrderedMap String (List String)) (headerBytes : Nat) :
    List (String × List String) → Except AuthError (OrderedMap String (List String))
  | [] => .ok normalized
  | (name, values) :: rest =>
    if maxHeaderCount ≤ normalized.size then
      .error (.permissionError "too many peer identity headers")
    else if !isHttpFieldName name then
      .error (valueError "invalid peer-resolution header name")
    else if maxHeaderValues < values.length then
      .error (.permissionError ("too many values for peer identity header: " ++ name))
    else if values.any containsControl then
      .error (valueError ("invalid peer-resolution header value: " ++ name))
    else
      let total := headerBytes + (utf8 name).length +
        (values.map fun value => (utf8 value).length).sum
      if maxHeaderBytes < total then
        .error (.permissionError "peer identity headers are too large")
      else if normalized.contains (lowercase name) then
        .error (.permissionError "case-varied duplicate peer identity header")
      else addHeaders (normalized.insert (lowercase name) values) total rest

def providerHeader (header : String × List Bytes) : Except AuthError (String × List String) := do
  let values ← header.2.mapM fun value =>
    match headerToStr value with
    | some text => .ok text
    | none => .error (.permissionError "non-text peer identity header")
  pure (header.1, values)

def HttpRequest.resolutionHeaders :
    Except AuthError (OrderedMap String (List String)) := do
  let headers ← request.headers.entries.mapM providerHeader
  addHeaders OrderedMap.empty 0 headers

/-! ## Servers -/

structure HttpState where
  authenticate : Option Authenticate
  extraProxyAuthHeaders : List String
  providers : List PeerIdentityProvider
  policy : Option PeerAuthenticationPolicy
  wwwAuthenticate : Option String

def HttpState.credentialPresent (state : HttpState) (request : HttpRequest) : Bool :=
  request.headers.containsKey "authorization" ||
    state.extraProxyAuthHeaders.any request.headers.containsKey

variable (error : AuthError)

def causeOf : Cause :=
  if error.isAuthUnavailable then .outage else if rejects error then .rejection else .fault

inductive Stop where
  | failed (failure : Failure)
  | panicked

variable (state : HttpState)

/-- What the application says of a request, and the error that is put aside. -/
def HttpState.existingAuth (request : AuthRequest) :
    Except Stop (AuthContext × Option AuthError) :=
  match state.authenticate with
  | none => .ok (anonymous, none)
  | some callback =>
    match callback request with
    | .ok auth => .ok (auth, none)
    | .error .panicked => .error .panicked
    | .error (.refused error) =>
      if state.policy.isSome && error.authReason == some .missingCredential then
        .ok (anonymous, some error)
      else .error (.failed ⟨causeOf error, error⟩)

/-- An identity nobody vouches for does not make up for a missing credential. -/
def settleDeferred (deferred : Option AuthError) (identity : RequestIdentity) :
    Except Stop RequestIdentity :=
  match deferred with
  | none => .ok identity
  | some error =>
    if identity.auth.authenticated then .ok identity else .error (.failed ⟨causeOf error, error⟩)

def authenticateRequest (request : HttpRequest)
    (schedule : Schedule (providerNames state.providers)) : Except Stop RequestIdentity :=
  match state.existingAuth request.authRequest with
  | .error stop => .error stop
  | .ok (existing, deferred) =>
    if state.authenticate.isSome && state.credentialPresent request &&
        (!existing.authenticated || deferred.isSome) then
      .error (.failed ⟨.rejection,
        .authFailure .invalidCredential "presented application credential was not accepted"⟩)
    else
      match request.resolutionHeaders with
      | .error error => .error (.failed ⟨.rejection, error⟩)
      | .ok _ =>
        match httpPeerIdentity state.providers state.policy existing schedule with
        | .error failure => .error (.failed failure)
        | .ok identity => settleDeferred deferred identity

/-! ## Answers -/

inductive Refusal where
  | unavailable (retryAfter : UInt32)
  | unauthorized (wwwAuthenticate : Option String) (reason : AuthReason) (detail : String)
  | internalError

def Refusal.status : Refusal → Nat
  | .unavailable _ => 503
  | .unauthorized .. => 401
  | .internalError => 500

def isHeaderText (text : String) : Bool := (utf8 text).all isVisibleAscii

/-- The reason that the caller is told, guessed from the type of an error without one. -/
def toldReason : AuthReason :=
  error.authReason.getD
    (if error.errorType == "PermissionError" then .insufficientScope else .unauthorized)

def HttpState.refusal (error : AuthError) : Refusal :=
  if error.isAuthUnavailable then
    .unavailable (error.retryAfterSeconds.getD AuthError.defaultAuthRetryAfterSeconds)
  else if error.errorType == "PermissionError" || error.errorType == "ValueError" then
    .unauthorized (state.wwwAuthenticate.filter isHeaderText) (toldReason error)
      (if error.authReason.isSome then error.message else "")
  else .internalError

theorem refusal_status (error : AuthError) :
    (state.refusal error).status = 503 ↔ error.isAuthUnavailable = true := by
  rw [HttpState.refusal]
  split
  · next unavailable => simp [Refusal.status, unavailable]
  · next available =>
    split <;> simp [Refusal.status, available]

/-! ## Failures that say what they are -/

/-- An outage is reported as one, and a rejection is not. -/
structure Failure.Honest (failure : Failure) : Prop where
  outage : failure.cause = .outage → failure.error.isAuthUnavailable = true
  rejection : failure.cause = .rejection → failure.error.isAuthUnavailable = false

theorem honest_of_rejection {error : AuthError} (other : error.isAuthUnavailable = false) :
    (Failure.mk .rejection error).Honest := ⟨by rintro ⟨⟩, fun _ => other⟩

theorem honest_of_fault : (Failure.mk .fault error).Honest :=
  ⟨by rintro ⟨⟩, by rintro ⟨⟩⟩

theorem honest_causeOf : (Failure.mk (causeOf error) error).Honest := by
  constructor
  · intro cause
    simp only [causeOf] at cause
    split at cause
    · assumption
    · split at cause <;> cases cause
  · intro cause
    simp only [causeOf] at cause
    split_ifs at cause with other
    simpa using other

theorem honest_redacted : (Failure.mk (if error.isAuthUnavailable then .outage else .rejection)
      (redactPeerPolicyError error)).Honest := by
  rw [redactPeerPolicyError]
  cases error.isAuthUnavailable with
  | true => exact ⟨fun _ => rfl, by rintro ⟨⟩⟩
  | false => exact honest_of_rejection (AuthError.isAuthUnavailable_authFailure ..)

section

variable {state : Collecting}

/-- Every pending provider can be recorded as absent. -/
def Collecting.Safe (state : Collecting) : Prop :=
  ∀ name ∈ state.pending, isSafeIdentifier name = true

theorem recordAbsent_ends {provider : String} (named : isSafeIdentifier provider = true)
    (safe : state.Safe) :
    Ends Collecting.Safe Failure.Honest (recordAbsent (Failure.mk .outage) state provider) := by
  rw [recordAbsent_safe _ state named]
  exact safe

theorem recordPeerProviderResult_ends (safe : state.Safe) (provider : String)
    (result : Except AuthError PeerIdentityResult) :
    Ends Collecting.Safe Failure.Honest (recordPeerProviderResult state provider result) := by
  have rest : Collecting.Safe { state with pending := state.pending.erase provider } :=
    fun name member => safe name (mem_of_mem_erase member)
  rw [recordPeerProviderResult]
  split
  · next member =>
    cases result with
    | ok result =>
      dsimp only
      split
      · exact rest
      · exact honest_of_fault _
    | error error =>
      dsimp only
      split
      · exact recordAbsent_ends (safe provider member) rest
      · split
        · exact honest_of_rejection (AuthError.isAuthUnavailable_authFailure ..)
        · exact honest_of_fault _
  · exact honest_of_fault _

theorem joinHttpTask_ends (safe : state.Safe) (task : Finished) :
    Ends Collecting.Safe Failure.Honest (joinHttpTask state task) := by
  rw [joinHttpTask]
  split
  · exact recordPeerProviderResult_ends safe _ _
  · exact honest_of_fault _

theorem startProviders_ends {entries : List (String × Bool)}
    (named : ∀ entry ∈ entries, isSafeIdentifier entry.1 = true) (safe : state.Safe) :
    Ends Collecting.Safe Failure.Honest (startProviders (Failure.mk .outage) entries state) := by
  induction entries generalizing state with
  | nil => exact safe
  | cons entry rest ih =>
    obtain ⟨name, slot⟩ := entry
    have first : isSafeIdentifier name = true := named _ (mem_cons_self ..)
    have later := (forall_mem_cons.mp named).2
    cases slot with
    | true =>
      refine ih later fun other member => ?_
      rcases mem_insert_iff.mp member with rfl | known
      · exact first
      · exact safe other known
    | false => exact (recordAbsent_ends first safe).bind fun next still => ih later still

variable (tasks : List Finished)

theorem joinWaited_ends (safe : state.Safe) :
    Ends (fun result => result.1.Safe) Failure.Honest (joinWaited joinHttpTask tasks state) := by
  induction tasks generalizing state with
  | nil => exact safe
  | cons task rest ih =>
    rw [joinWaited]
    split
    · exact safe
    · exact (joinHttpTask_ends safe task).bind fun next still => ih still

theorem joinDrained_ends (safe : state.Safe) :
    Ends Collecting.Safe Failure.Honest (joinDrained joinHttpTask tasks state) := by
  induction tasks generalizing state with
  | nil => exact safe
  | cons task rest ih => exact (joinHttpTask_ends safe task).bind fun next still => ih still

end

theorem httpResults_ends {names : List String}
    (named : ∀ name ∈ names, isSafeIdentifier name = true)
    (schedule : Schedule names) : Ends (fun _ => True) Failure.Honest (httpResults schedule) := by
  rw [httpResults]
  split
  · trivial
  · refine (startProviders_ends (fun entry member => named _ (of_mem_zip member).1)
      (by rintro name ⟨⟩)).bind fun started safe => ?_
    refine (joinWaited_ends schedule.waited safe).bind fun waited safe => ?_
    refine (joinDrained_ends (waited.2 ++ schedule.drained) safe).bind fun drained safe => ?_
    rw [markPending_safe _ _ fun name member => safe name ((mem_insertionSort _).mp member)]
    trivial

theorem httpPeerIdentity_ends {providers : List PeerIdentityProvider}
    (named : ∀ name ∈ providerNames providers, isSafeIdentifier name = true)
    (policy : Option PeerAuthenticationPolicy) (existing : AuthContext)
    (schedule : Schedule (providerNames providers)) :
    Ends (fun _ => True) Failure.Honest (httpPeerIdentity providers policy existing schedule) := by
  have collected := httpResults_ends named schedule
  unfold httpPeerIdentity httpEvidence
  cases collects : httpResults schedule with
  | error failure => exact collected.error_of collects
  | ok results =>
    dsimp only
    cases PeerEvidenceSet.fromResults results with
    | error error => exact honest_of_fault error
    | ok evidence =>
      cases policy with
      | none => trivial
      | some policy =>
        dsimp only
        split
        · trivial
        · exact honest_redacted _

/-! ## Headers are refused, never unavailable -/

theorem addHeaders_ends (normalized : OrderedMap String (List String)) (total : Nat)
    (headers : List (String × List String)) :
    Ends (fun _ => True) (fun error => error.isAuthUnavailable = false)
      (addHeaders normalized total headers) := by
  induction headers generalizing normalized total with
  | nil => trivial
  | cons header rest ih =>
    obtain ⟨name, values⟩ := header
    simp only [addHeaders]
    repeat' split
    all_goals first | exact rfl | exact ih _ _

theorem providerHeader_ends (header : String × List Bytes) :
    Ends (fun _ => True) (fun error => error.isAuthUnavailable = false) (providerHeader header) := by
  refine (Ends.mapM fun value => ?_).bind fun _ _ => trivial
  split
  · trivial
  · exact rfl

theorem resolutionHeaders_ends (request : HttpRequest) :
    Ends (fun _ => True) (fun error => error.isAuthUnavailable = false) request.resolutionHeaders :=
  (Ends.mapM providerHeader_ends).bind fun headers _ => addHeaders_ends _ _ headers

/-! ## Who is admitted -/

/-- What is asked of every request to a server whose authenticator is the callback. -/
structure Guarded (state : HttpState) (callback : Authenticate) (request : HttpRequest)
    (schedule : Schedule (providerNames state.providers)) : Prop where
  presented : state.credentialPresent request = true →
    ∀ identity, authenticateRequest state request schedule = .ok identity →
      ∃ auth, callback request.authRequest = .ok auth ∧ auth.authenticated = true
  refused : ∀ error, callback request.authRequest = .error (.refused error) →
    error.authReason ≠ some .missingCredential →
      ∀ identity, authenticateRequest state request schedule ≠ .ok identity
  missing : ∀ error, callback request.authRequest = .error (.refused error) →
    ∀ identity, authenticateRequest state request schedule = .ok identity →
      identity.auth.authenticated = true ∧
        ∃ policy, state.policy = some policy ∧ policy identity.evidence anonymous = .ok identity.auth
  outage : ∀ failure, authenticateRequest state request schedule = .error (.failed failure) →
    failure.cause = .outage → (state.refusal failure.error).status = 503
  rejection : ∀ failure, authenticateRequest state request schedule = .error (.failed failure) →
    failure.cause = .rejection → (state.refusal failure.error).status ≠ 503

section

variable {state : HttpState} {callback : Authenticate} {request : HttpRequest}
  {schedule : Schedule (providerNames state.providers)}

theorem httpPeerIdentity_ok {providers : List PeerIdentityProvider}
    {policy : Option PeerAuthenticationPolicy} {existing : AuthContext}
    {schedule : Schedule (providerNames providers)} {identity : RequestIdentity}
    (found : httpPeerIdentity providers policy existing schedule = .ok identity) :
    (policy = none ∧ identity.auth = existing) ∨
      ∃ chosen, policy = some chosen ∧ chosen identity.evidence existing = .ok identity.auth := by
  unfold httpPeerIdentity at found
  split at found
  · cases found
  split at found
  · cases found
    exact .inl ⟨rfl, rfl⟩
  · next chosen =>
    split at found
    · next auth decided =>
      cases found
      exact .inr ⟨chosen, rfl, decided⟩
    · cases found

theorem authenticateRequest_ok {identity : RequestIdentity}
    (admitted : authenticateRequest state request schedule = .ok identity) :
    ∃ existing deferred, state.existingAuth request.authRequest = .ok (existing, deferred) ∧
      (state.authenticate.isSome && state.credentialPresent request &&
        (!existing.authenticated || deferred.isSome)) = false ∧
      httpPeerIdentity state.providers state.policy existing schedule = .ok identity ∧
      (deferred.isSome = true → identity.auth.authenticated = true) := by
  unfold authenticateRequest at admitted
  split at admitted
  · cases admitted
  rename_i existing deferred found
  refine ⟨existing, deferred, found, ?_⟩
  split_ifs at admitted with passed
  split at admitted
  · cases admitted
  split at admitted
  · cases admitted
  rename_i peer
  cases deferred with
  | none =>
    cases admitted
    exact ⟨by simpa using passed, peer, by rintro ⟨⟩⟩
  | some error =>
    simp only [settleDeferred] at admitted
    split_ifs at admitted with vouched
    cases admitted
    exact ⟨by simpa using passed, peer, fun _ => vouched⟩

variable {asked : AuthRequest}

/-- What the authenticator said when a request goes on to the providers. -/
theorem existingAuth_ok {existing : AuthContext} {deferred : Option AuthError}
    (configured : state.authenticate = some callback)
    (found : state.existingAuth asked = .ok (existing, deferred)) :
    (callback asked = .ok existing ∧ deferred = none) ∨
      ∃ error, callback asked = .error (.refused error) ∧ state.policy.isSome = true ∧
        error.authReason = some .missingCredential ∧ existing = anonymous ∧ deferred = some error := by
  unfold HttpState.existingAuth at found
  rw [configured] at found
  dsimp only at found
  split at found
  · next auth accepted =>
    cases found
    exact .inl ⟨accepted, rfl⟩
  · cases found
  · next error refused =>
    split_ifs at found with aside
    cases found
    rw [Bool.and_eq_true, beq_iff_eq] at aside
    exact .inr ⟨error, refused, aside.1, aside.2, rfl, rfl⟩

theorem existingAuth_failed {failure : Failure}
    (failed : state.existingAuth asked = .error (.failed failure)) : failure.Honest := by
  unfold HttpState.existingAuth at failed
  split at failed
  · cases failed
  split at failed
  · cases failed
  · cases failed
  · split_ifs at failed
    cases failed
    exact honest_causeOf _

theorem authenticateRequest_failed {failure : Failure}
    (named : ∀ name ∈ providerNames state.providers, isSafeIdentifier name = true)
    (failed : authenticateRequest state request schedule = .error (.failed failure)) :
    failure.Honest := by
  unfold authenticateRequest at failed
  split at failed
  · next stop stopped =>
    cases failed
    exact existingAuth_failed stopped
  · split at failed
    · cases failed
      exact honest_of_rejection (AuthError.isAuthUnavailable_authFailure ..)
    · split at failed
      · next error refused =>
        cases failed
        exact honest_of_rejection ((resolutionHeaders_ends request).error_of refused)
      · split at failed
        · next failure stopped =>
          cases failed
          exact (httpPeerIdentity_ends named _ _ schedule).error_of stopped
        · unfold settleDeferred at failed
          split at failed
          · cases failed
          · split_ifs at failed
            cases failed
            exact honest_causeOf _

theorem guarded_of_safe (configured : state.authenticate = some callback)
    (named : ∀ name ∈ providerNames state.providers, isSafeIdentifier name = true) :
    Guarded state callback request schedule where
  presented := by
    intro present identity admitted
    obtain ⟨existing, deferred, found, passed, -, -⟩ := authenticateRequest_ok admitted
    rw [configured, present, Option.isSome_some, Bool.true_and, Bool.true_and, Bool.or_eq_false_iff,
      Bool.not_eq_false'] at passed
    rcases existingAuth_ok configured found with ⟨accepted, -⟩ | ⟨error, -, -, -, -, rfl⟩
    · exact ⟨existing, accepted, passed.1⟩
    · cases passed.2
  refused := by
    intro error refused other identity admitted
    obtain ⟨existing, deferred, found, -, -, -⟩ := authenticateRequest_ok admitted
    rcases existingAuth_ok configured found with ⟨accepted, -⟩ | ⟨same, also, -, reason, -, -⟩
    · rw [refused] at accepted
      cases accepted
    · rw [refused] at also
      cases also
      exact other reason
  missing := by
    intro error refused identity admitted
    obtain ⟨existing, deferred, found, -, peer, vouched⟩ := authenticateRequest_ok admitted
    rcases existingAuth_ok configured found with ⟨accepted, -⟩ | ⟨same, -, some_policy, -, rfl, rfl⟩
    · rw [refused] at accepted
      cases accepted
    · refine ⟨vouched rfl, ?_⟩
      rcases httpPeerIdentity_ok peer with ⟨none, -⟩ | decided
      · rw [none] at some_policy
        cases some_policy
      · exact decided
  outage := by
    intro failure failed cause
    exact (refusal_status ..).mpr ((authenticateRequest_failed named failed).outage cause)
  rejection := by
    intro failure failed cause answered
    have unavailable := (refusal_status ..).mp answered
    rw [(authenticateRequest_failed named failed).rejection cause] at unavailable
    cases unavailable

end

/-- A provider that gets no slot and cannot be recorded as absent. -/
theorem httpEvidence_saturated {providers : List PeerIdentityProvider}
    (unnamed : ¬ ∀ name ∈ providerNames providers, isSafeIdentifier name = true) :
    ∃ error, httpEvidence providers (Schedule.saturated (providerNames providers)) =
        .error ⟨.outage, error⟩ ∧ error.isAuthUnavailable = false := by
  have some_provider : providerNames providers ≠ [] := by
    intro none
    rw [none] at unnamed
    exact unnamed (by rintro name ⟨⟩)
  have stopped := startProviders_refused (Failure.mk .outage) (providerNames providers) ⟨[], []⟩
  rw [if_neg unnamed] at stopped
  rw [httpEvidence, httpResults, if_neg some_provider, collect]
  simp only [Schedule.saturated, stopped]
  exact ⟨_, rfl, rfl⟩

/-- The guarantees hold of every authenticator, policy, request and schedule exactly when the
names of the providers are safe. -/
theorem guarded_iff_safe_names (server : HttpState) :
    (∀ (callback : Authenticate) (policy : Option PeerAuthenticationPolicy) (request : HttpRequest)
        (schedule : Schedule (providerNames server.providers)),
        Guarded { server with authenticate := some callback, policy := policy } callback request
          schedule) ↔
      ∀ name ∈ providerNames server.providers, isSafeIdentifier name = true := by
  constructor
  · intro guarded
    by_contra unnamed
    obtain ⟨error, stopped, available⟩ := httpEvidence_saturated unnamed
    have always := (guarded (fun _ => .ok (forPrincipal "app" "alice")) none ⟨"", OrderedMap.empty, none⟩
      (Schedule.saturated _)).outage ⟨.outage, error⟩
    have headers : HttpRequest.resolutionHeaders ⟨"", OrderedMap.empty, none⟩ =
        .ok OrderedMap.empty := rfl
    have answered := always (by simp [authenticateRequest, HttpState.existingAuth, headers,
      httpPeerIdentity, stopped, forPrincipal]) rfl
    rw [refusal_status, available] at answered
    cases answered
  · intro named callback policy request schedule
    exact guarded_of_safe rfl named

namespace Sample

/-- A server that accepts everybody and only observes its peers. -/
def observing : HttpState where
  authenticate := some fun _ => .ok (forPrincipal "app" "alice")
  extraProxyAuthHeaders := []
  providers := providers
  policy := some fun _ existing => .ok existing
  wwwAuthenticate := none

end Sample

/-- A provider is down, and the caller, who was accepted, is told to authenticate. -/
theorem outage_answered_as_unauthorized : ∃ failure : Failure,
      authenticateRequest Sample.observing ⟨"whoami", OrderedMap.empty, none⟩ Sample.outage =
          .error (.failed failure) ∧
        failure.cause = .outage ∧ (Sample.observing.refusal failure.error).status = 401 :=
  ⟨⟨.outage, valueError "peer identity provider must be a non-empty safe identifier"⟩, rfl, rfl, rfl⟩

end VgiRpc.Identity
