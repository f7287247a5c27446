import VgiRpc.Identity.Digest

/-!
# Collecting the answers of the providers

A request and a connection ask every configured provider at once, each in a task of its own
that needs a slot.  The loop that collects them records the answers in the order in which the
tasks end, stops at a deadline, takes what has ended by then, and marks the rest as
unavailable.  What the tasks do to the loop is a schedule: who got a slot and which tasks
ended, in which order, before the loop stopped looking.
-/

namespace VgiRpc.Identity

open Http (AuthContext)
open Auth (AuthError)

/-- A provider is asked to have a name, but not a safe one. -/
structure PeerIdentityProvider where
  provider : String
  required : provider ≠ ""

def PeerIdentityProvider.new (provider : String) : Except AuthError PeerIdentityProvider :=
  if required : provider = "" then .error (valueError "peer identity provider is required")
  else .ok ⟨provider, required⟩

variable (providers : List PeerIdentityProvider)

def providerNames : List String :=
  providers.map PeerIdentityProvider.provider

inductive TaskEnd where
  | answered (result : Except AuthError PeerIdentityResult)
  | panicked

structure Finished where
  provider : String
  outcome : TaskEnd

def withSlot (names : List String) (slots : List Bool) (slot : Bool) : List String :=
  ((names.zip slots).filter fun entry => entry.2 == slot).map Prod.fst

/-- Who gets a slot, and which tasks end before the deadline and are found ended at it.  Each
task ends once.  The queue of the tasks is closed only when all of them have ended. -/
structure Schedule (names : List String) where
  slots : List Bool
  waited : List Finished
  drained : List Finished
  closed : Bool
  perProvider : slots.length = names.length
  started : ((waited ++ drained).map Finished.provider).Subperm (withSlot names slots true)
  allEnded : closed = true → waited.length = (withSlot names slots true).length

def Schedule.finished {names : List String} (schedule : Schedule names) : List Finished :=
  schedule.waited ++ schedule.drained

/-- What stands behind a failure; the code keeps only the error. -/
inductive Cause where
  | outage
  | rejection
  | fault
  deriving DecidableEq

structure Failure where
  cause : Cause
  error : AuthError

def runtimeError (message : String) : AuthError := ⟨.runtimeError message, none, none⟩

variable (error : AuthError)

def rejects : Bool :=
  error.authReason.isSome || error.errorType == "PermissionError" || error.errorType == "ValueError"

structure Collecting where
  results : List PeerIdentityResult
  pending : List String

def recordAbsent {ε : Type} (raise : AuthError → ε) (state : Collecting) (provider : String) :
    Except ε Collecting :=
  match PeerIdentityResult.withoutIdentity provider .unavailable with
  | .ok absent => .ok { state with results := state.results ++ [absent] }
  | .error error => .error (raise error)

variable (state : Collecting)

def recordPeerProviderResult (provider : String) (result : Except AuthError PeerIdentityResult) :
    Except Failure Collecting :=
  if provider ∈ state.pending then
    let rest : Collecting := { state with pending := state.pending.erase provider }
    match result with
    | .ok result =>
      if result.provider = provider then .ok { rest with results := rest.results ++ [result] }
      else .error ⟨.fault, runtimeError "peer identity provider result attribution mismatch"⟩
    | .error error =>
      if error.isAuthUnavailable then recordAbsent (Failure.mk .outage) rest provider
      else if rejects error then
        .error ⟨.rejection, .authFailure .invalidCredential
          ("peer identity provider " ++ provider ++ " rejected evidence")⟩
      else .error ⟨.fault, runtimeError ("peer identity provider " ++ provider ++ " failed")⟩
  else .error ⟨.fault, runtimeError "peer identity provider task attribution mismatch"⟩

def recordHttpPeerProviderResult := recordPeerProviderResult

def recordTcpPeerProviderResult := recordPeerProviderResult

section

variable {ε : Type} (raise : AuthError → ε) (join : Collecting → Finished → Except ε Collecting)

def startProviders : List (String × Bool) → Collecting → Except ε Collecting
  | [], state => .ok state
  | (name, true) :: rest, state =>
    startProviders rest { state with pending := state.pending.insert name }
  | (name, false) :: rest, state => do
      let state ← recordAbsent raise state name
      startProviders rest state

/-- Join tasks while some are pending; what ended and was not joined is left over. -/
def joinWaited : List Finished → Collecting → Except ε (Collecting × List Finished)
  | [], state => .ok (state, [])
  | task :: rest, state =>
    if state.pending = [] then .ok (state, task :: rest)
    else do
      let state ← join state task
      joinWaited rest state

def joinDrained : List Finished → Collecting → Except ε Collecting
  | [], state => .ok state
  | task :: rest, state => do
      let state ← join state task
      joinDrained rest state

/-- Mark the providers that are still pending, in the order of a set. -/
def markPending : List String → Collecting → Except ε Collecting
  | [], state => .ok state
  | name :: rest, state => do
      let state ← recordAbsent raise state name
      markPending rest state

/-- The loop of both paths; `atClose` is what a closed queue means. -/
def collect (atClose : Collecting → Except ε Unit) {names : List String} (schedule : Schedule names) :
    Except ε (List PeerIdentityResult) := do
  let state ← startProviders raise (names.zip schedule.slots) ⟨[], []⟩
  let (state, rest) ← joinWaited join schedule.waited state
  atClose state
  let state ← joinDrained join (rest ++ schedule.drained) state
  let state ← markPending raise (state.pending.insertionSort (· ≤ ·)) state
  pure state.results

end

abbrev PeerAuthenticationPolicy : Type := PeerEvidenceSet → AuthContext → Except AuthError AuthContext

def joinHttpTask (task : Finished) : Except Failure Collecting :=
  match task.outcome with
  | .answered result => recordHttpPeerProviderResult state task.provider result
  | .panicked => .error ⟨.fault, runtimeError "peer identity provider task failed"⟩

def httpResults {names : List String} (schedule : Schedule names) :
    Except Failure (List PeerIdentityResult) :=
  if names = [] then .ok []
  else collect (Failure.mk .outage) joinHttpTask (fun _ => .ok ()) schedule

def httpEvidence (schedule : Schedule (providerNames providers)) : Except Failure PeerEvidenceSet :=
  match httpResults schedule with
  | .error failure => .error failure
  | .ok results =>
    match PeerEvidenceSet.fromResults results with
    | .ok evidence => .ok evidence
    | .error error => .error ⟨.fault, error⟩

structure RequestIdentity where
  auth : AuthContext
  evidence : PeerEvidenceSet

/-- Who a request is from, once the application has said what it knows. -/
def httpPeerIdentity (policy : Option PeerAuthenticationPolicy) (existing : AuthContext)
    (schedule : Schedule (providerNames providers)) : Except Failure RequestIdentity :=
  match httpEvidence providers schedule with
  | .error failure => .error failure
  | .ok evidence =>
    match policy with
    | none => .ok ⟨existing, evidence⟩
    | some policy =>
      match policy evidence existing with
      | .ok auth => .ok ⟨auth, evidence⟩
      | .error error =>
        .error ⟨if error.isAuthUnavailable then .outage else .rejection,
          redactPeerPolicyError error⟩

inductive IoErrorKind where
  | permissionDenied
  | timedOut
  | invalidInput
  | other
  deriving DecidableEq

structure IoError where
  kind : IoErrorKind
  error : AuthError

def IoError.text (kind : IoErrorKind) (message : String) : IoError :=
  ⟨kind, ⟨⟨"", message⟩, none, none⟩⟩

def peerProviderErrorToIo : IoError :=
  if error.isAuthUnavailable then ⟨.timedOut, error⟩
  else if rejects error then ⟨.permissionDenied, error⟩
  else ⟨.other, error⟩

def peerPolicyErrorToIo : IoError :=
  ⟨if error.isAuthUnavailable then .timedOut else .permissionDenied, redactPeerPolicyError error⟩

structure TcpIdentityOptions where
  providers : List PeerIdentityProvider
  policy : Option PeerAuthenticationPolicy
  applicationAuth : AuthContext

/-- A thread that panics sends nothing. -/
def joinTcpTask (task : Finished) : Except IoError Collecting :=
  match task.outcome with
  | .answered result =>
    match recordTcpPeerProviderResult state task.provider result with
    | .ok state => .ok state
    | .error failure => .error (peerProviderErrorToIo failure.error)
  | .panicked => .ok state

/-- A queue that closes while a provider is pending has lost an answer. -/
def tcpAtClose (closed : Bool) (state : Collecting) : Except IoError Unit :=
  if closed && !state.pending.isEmpty then
    .error (.text .other "peer identity provider tasks terminated without results")
  else .ok ()

def tcpResults {names : List String} (schedule : Schedule names) :
    Except IoError (List PeerIdentityResult) :=
  if names.Nodup then collect (IoError.mk .other) joinTcpTask (tcpAtClose schedule.closed) schedule
  else .error (.text .invalidInput "duplicate peer identity provider")

/-- The results that do not come from a provider: of the connection's own certificate and of a
forwarded endpoint. -/
def tcpOwnResults (direct : Option PeerIdentityResult) (forwarded : Option PeerIdentity) :
    List PeerIdentityResult :=
  direct.toList ++ (forwarded.map PeerIdentityResult.available).toList

variable (options : TcpIdentityOptions) (direct : Option PeerIdentityResult)
  (forwarded : Option PeerIdentity) (schedule : Schedule (providerNames options.providers))

def tcpEvidence : Except IoError PeerEvidenceSet :=
  if options.providers = [] ∧ options.policy.isNone ∧ direct.isNone ∧ forwarded.isNone then
    .ok PeerEvidenceSet.none
  else
    match tcpResults schedule with
    | .error error => .error error
    | .ok results =>
      match PeerEvidenceSet.fromResults (results ++ tcpOwnResults direct forwarded) with
      | .ok evidence => .ok evidence
      | .error error => .error (peerProviderErrorToIo error)

structure ConnectionContext where
  auth : AuthContext
  evidence : PeerEvidenceSet

def resolveTcpIdentity : Except IoError ConnectionContext :=
  match tcpEvidence options direct forwarded schedule with
  | .error error => .error error
  | .ok evidence =>
    match options.policy with
    | none => .ok ⟨options.applicationAuth, evidence⟩
    | some policy =>
      match policy evidence options.applicationAuth with
      | .ok auth => .ok ⟨auth, evidence⟩
      | .error error => .error (peerPolicyErrorToIo error)

end VgiRpc.Identity
